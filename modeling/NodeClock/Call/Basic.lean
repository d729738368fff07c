import NodeClock.Outcome
import NodeClock.Setting
import NodeClock.Span.Basic

/-!
# Calls

A call opens a session to a node and exchanges one request for one response, both before one
deadline. What the network does is given by a script, so that a call is a sequence of at most
three steps: it begins, the opening ends, the exchange ends.

* `Wait`, `Script`: when and how a session opens and an exchange ends.
* `Call`: a request with its limits.
* `CallEnd`: the answer of a call, or its cancellation.
* `Run`, `Run.step?`: a call under way and its next step, with the effects of that step.
* `Run.finish`: a call run alone.
-/

namespace NodeClock

open Coap

/-- What comes of something that is waited for. -/
inductive Wait (α : Type) where
  | ends (delay : Nat) (result : Except TransportError α)
  | never

/-- What the network does for one session. -/
structure Script where
  opening : Wait Unit := .ends 0 (.ok ())
  exchange : Wait Response := .never

/-- What a call is for. Only calls that set a clock tell that they are idle and how they ended. -/
inductive Purpose where
  | set | read
  deriving DecidableEq, Repr

/-- A request with its limits. A request that could not be rendered is never sent. -/
structure Call where
  purpose : Purpose
  request : Except TimeError Request
  timeout : Span
  cancelAfter : Option Span := none

/-- What a call has brought: an answer, or nothing since it was cancelled. -/
inductive CallEnd where
  | answered (answer : Except CallError Response)
  | cancelled

/-- What became of the attempt to set a clock. -/
def CallEnd.outcome? : CallEnd → Option Outcome
  | .answered a => some (.ofAnswer (a.map (·.code)))
  | .cancelled => none

/-- What others can see of a call. -/
inductive Effect where
  | reached (p : Progress)
  | opened
  | handed (r : Request)
  | closed
  deriving DecidableEq, Repr

/-- How far a call has come; the instants are those of the last step. -/
inductive Stage where
  | waiting
  | opening (since : Instant) (script : Script)
  | exchanging (since : Instant) (script : Script)
  | ended (since : Instant) (e : CallEnd)

/-- A call under way. -/
structure Run where
  call : Call
  start : Instant
  stage : Stage := .waiting

namespace Call

/-- The failure of a call whose request could not be rendered. -/
def unsendable (e : TimeError) : CallEnd := .answered (.error (.transport (.encode e.message)))

/-- The final state, if the call tells it. -/
def farewell (c : Call) (e : CallEnd) : List Effect :=
  match c.purpose, e.outcome? with
  | .set, some o => [.reached o.progress]
  | _, _ => []

/-- The states before anything is awaited. -/
def greeting (c : Call) : List Effect :=
  match c.purpose with
  | .set => [.reached .idle]
  | .read => []

end Call

/-- The earliest of some moments, the first of several at once. -/
def earliest {α : Type} : List (Instant × α) → Option (Instant × α)
  | [] => none
  | x :: rest =>
    match earliest rest with
    | none => some x
    | some y => if y.1 < x.1 then some y else some x

/-- What ends a wait. -/
inductive Wake (α : Type) where
  | finished (result : Except TransportError α)
  | expired
  | cancelled

/-- What was awaited, or the end of the call. -/
def Wake.result {α : Type} : Wake α → Except CallEnd α
  | finished (.ok a) => .ok a
  | finished (.error e) => .error (.answered (.error (.transport e)))
  | expired => .error (.answered (.error .timeout))
  | cancelled => .error .cancelled

namespace Run

/-- The moment from which on the call does not wait any more. -/
def deadline? (r : Run) : Option Instant := r.start.after? r.call.timeout

/-- What ends a wait that began at `since`. What comes at the very moment of the deadline is not
late, and a call that ends at the moment of its cancellation is not cancelled. -/
def wake? {α : Type} (r : Run) (since : Instant) (w : Wait α) : Option (Instant × Wake α) :=
  let finish := match w with
    | .ends delay result => [(since + delay, Wake.finished result)]
    | .never => []
  let expiry := r.deadline?.toList.map fun t => (t, Wake.expired)
  let cancel := r.call.cancelAfter.toList.map fun s => (r.start + s.nanos, Wake.cancelled)
  earliest (finish ++ expiry ++ cancel)

/-- Whether the next step of the call opens a session. -/
def opens (r : Run) : Bool :=
  match r.stage with
  | .waiting => r.call.request.isOk
  | _ => false

/-- Whether the call holds a session. -/
def holdsSession (r : Run) : Bool :=
  match r.stage with
  | .exchanging .. => true
  | _ => false

/-- The end of the call at `t`, after the effects `before`. -/
def endAt (r : Run) (t : Instant) (before : List Effect) (e : CallEnd) :
    Instant × Run × List Effect :=
  (t, { r with stage := .ended t e }, before ++ r.call.farewell e)

/-- The next step of a call, when it happens and what it does. A call that begins follows the
script `drawn`. -/
def step? (drawn : Script) (r : Run) : Option (Instant × Run × List Effect) :=
  match r.stage with
  | .waiting =>
    match r.call.request with
    | .error e => some (r.endAt r.start r.call.greeting (Call.unsendable e))
    | .ok _ =>
      some (r.start, { r with stage := .opening r.start drawn },
        r.call.greeting ++ [.reached .sending])
  | .opening since script =>
    (r.wake? since script.opening).map fun (t, w) =>
      match w.result with
      | .error e => r.endAt t [] e
      | .ok () =>
        (t, { r with stage := .exchanging t script },
          [.opened, .reached .awaitingResponse] ++ (r.call.request.toOption.map .handed).toList)
  | .exchanging since script =>
    (r.wake? since script.exchange).map fun (t, w) =>
      match w.result with
      | .error e => r.endAt t [.closed] e
      | .ok response => r.endAt t [.closed] (.answered (.ok response))
  | .ended .. => none

/-- At most `n` further steps, with what they do and when. -/
def steps (drawn : Script) : Nat → Run → Run × List (Instant × Effect)
  | 0, r => (r, [])
  | n + 1, r =>
    match r.step? drawn with
    | none => (r, [])
    | some (t, r, effects) =>
      let (final, rest) := steps drawn n r
      (final, effects.map (t, ·) ++ rest)

/-- Steps in the longest call. -/
def maxSteps : Nat := 3

/-- The call run to its end with nothing beside it. It has none if it waits for ever. -/
def finish (r : Run) (script : Script) : Run × List (Instant × Effect) := r.steps script maxSteps

/-- When and how the call has ended. -/
def end? (r : Run) : Option (Instant × CallEnd) :=
  match r.stage with
  | .ended t e => some (t, e)
  | _ => none

end Run

/-- The states among some effects. -/
def Effect.states (es : List Effect) : List Progress :=
  es.filterMap fun e => match e with
    | .reached p => some p
    | _ => none

/-- The requests among some effects. -/
def Effect.requests (es : List Effect) : List Request :=
  es.filterMap fun e => match e with
    | .handed r => some r
    | _ => none

end NodeClock
