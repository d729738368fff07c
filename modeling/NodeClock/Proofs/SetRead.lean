import NodeClock.Cli.Program
import NodeClock.Proofs.Call

/-!
# Setting and reading a clock

If the network does the same for a call that sets a clock and for one that reads it, both end at
the same moment and tell the same of the node, except that an answer may be a success without
being a reading.

* `Script.Fails`, `Script.Answers`: what the network does by itself.
* `Run.Abreast.finish`: calls with equal limits end at once and alike.
* `Run.end?_cases`: how a call ends that is not cancelled.
* `Script.Agree`: what the outcome of one call and the reading of the other have in common.
* `Cli.Invocation.perform_set_status`, `perform_read_status`, `Script.Agree.status`: exit statuses.
* `Client.set_read_agree`: **both calls agree**, and so do the exit statuses of the program.
-/

namespace NodeClock

open Coap

/-- The reading that a call brings, `now` being the local time at its end. -/
def CallEnd.reading? (now : Civil) : CallEnd → Option (Except CallError Reading)
  | .answered a => some (Reading.ofAnswer now a)
  | .cancelled => none

namespace Script

/-- The network fails with `e` when the session is opened, or when the answer is awaited. -/
inductive Fails (script : Script) (e : TransportError) : Prop where
  | opening {o : Nat} : script.opening = .ends o (.error e) → Fails script e
  | exchange {o d : Nat} : script.opening = .ends o (.ok ()) →
      script.exchange = .ends d (.error e) → Fails script e

/-- The network brings an answer. -/
def Answers (script : Script) (r : Response) : Prop :=
  ∃ o d, script.opening = .ends o (.ok ()) ∧ script.exchange = .ends d (.ok r)

theorem Fails.not_answers {script : Script} {e : TransportError} {r : Response}
    (h : script.Fails e) : ¬ script.Answers r := by
  rintro ⟨o, d, ho, hd⟩
  cases h with
  | opening h => cases h.symm.trans ho
  | exchange _ h => cases h.symm.trans hd

/-- **What an outcome and a reading have in common** if the network did the same for both. -/
structure Agree (script : Script) (outcome? : Option Outcome)
    (reading? : Option (Except CallError Reading)) : Prop where
  timedOut : outcome? = some (.failure .timedOut) ↔ reading? = some (.error .timeout)
  rejected : ∀ code, outcome? = some (.failure (.rejected code)) ↔
    reading? = some (.error (.rejected code))
  failed : ∀ text, outcome? = some (.failure (.transportFailed text)) ↔
    ∃ e, script.Fails e ∧ e.message = text ∧ reading? = some (.error (.transport e))
  success : (∃ code, outcome? = some (.success code)) ↔
    (∃ reading, reading? = some (.ok reading)) ∨
      ∃ r detail, script.Answers r ∧ r.code.isSuccess = true ∧
        (∀ n, readEpoch r.payload ≠ .ok n) ∧
        reading? = some (.error (.transport (.protocol detail)))

end Script

/-- A body that is no number is an unexpected reply. -/
theorem readEpoch_error {body : Bytes} {e : CallError} (h : readEpoch body = .error e) :
    ∃ detail, e = .transport (.protocol detail) := by
  unfold readEpoch at h
  split at h
  · cases h
    exact ⟨_, rfl⟩
  · simp only at h
    split at h
    · cases h
      exact ⟨_, rfl⟩
    · split at h
      · cases h
        exact ⟨_, rfl⟩
      · cases h

namespace Run

variable {r a b : Run} {script : Script} {since t : Instant} {α : Type} {w : Wait α}
  {x : Wake α} {q q' : Request}

/-! ## How a call ends -/

/-- A wait of a call that is not cancelled ends with what was awaited or with the deadline. -/
theorem wake?_cases (hc : r.call.cancelAfter = none) (h : r.wake? since w = some (t, x)) :
    x = .expired ∨ ∃ delay result, w = .ends delay result ∧ x = .finished result := by
  obtain ⟨hmem, -⟩ := earliest_spec h
  rw [hc, Option.toList_none, List.map_nil, List.append_nil, List.mem_append] at hmem
  rcases hmem with hmem | hmem
  · cases w with
    | never => cases hmem
    | ends delay result =>
      cases List.mem_singleton.1 hmem
      exact Or.inr ⟨delay, result, rfl, rfl⟩
  · obtain ⟨deadline, -, heq⟩ := List.mem_map.1 hmem
    cases heq
    exact Or.inl rfl

/-- **How a call ends** that has a request to send and is not cancelled: late, with the failure of
the network, or with its answer. -/
theorem end?_cases (hs : r.stage = .waiting) (hq : r.call.request = .ok q)
    (hc : r.call.cancelAfter = none) {e : CallEnd}
    (h : (r.finish script).1.end? = some (t, e)) :
    e = .answered (.error .timeout) ∨
      (∃ err, script.Fails err ∧ e = .answered (.error (.transport err))) ∨
      ∃ response, script.Answers response ∧ e = .answered (.ok response) := by
  rw [finish_sendable hs hq] at h
  cases hw : r.wake? r.start script.opening with
  | none =>
    rw [hw] at h
    cases h
  | some p =>
    obtain ⟨t', w⟩ := p
    rw [hw] at h
    rcases wake?_cases hc hw with rfl | ⟨o, result, ho, rfl⟩
    · cases h
      exact Or.inl rfl
    · cases result with
      | error err =>
        cases h
        exact Or.inr (Or.inl ⟨err, .opening ho, rfl⟩)
      | ok u =>
        simp only [Wake.result] at h
        cases hw' : r.wake? t' script.exchange with
        | none =>
          rw [hw'] at h
          cases h
        | some p' =>
          obtain ⟨t'', w'⟩ := p'
          rw [hw'] at h
          rcases wake?_cases hc hw' with rfl | ⟨d, result, hd, rfl⟩
          · cases h
            exact Or.inl rfl
          · cases result with
            | error err =>
              cases h
              exact Or.inr (Or.inl ⟨err, .exchange ho hd, rfl⟩)
            | ok response =>
              cases h
              exact Or.inr (Or.inr ⟨response, ⟨o, d, ho, hd⟩, rfl⟩)

/-! ## Calls with equal limits -/

/-- Two calls that begin together, with equal limits. -/
structure Abreast (a b : Run) : Prop where
  start : a.start = b.start
  timeout : a.call.timeout = b.call.timeout
  cancelAfter : a.call.cancelAfter = b.call.cancelAfter

theorem Abreast.wake?_eq (h : Abreast a b) (since : Instant) (w : Wait α) :
    a.wake? since w = b.wake? since w := by
  unfold wake? deadline?
  rw [h.start, h.timeout, h.cancelAfter]

/-- **Calls with equal limits end at once and alike**, and open as many sessions, if both have a
request to send. -/
theorem Abreast.finish (h : Abreast a b) (hsa : a.stage = .waiting) (hsb : b.stage = .waiting)
    (hqa : a.call.request = .ok q) (hqb : b.call.request = .ok q') (script : Script) :
    (a.finish script).1.end? = (b.finish script).1.end? ∧
      ((a.finish script).2.map (·.2)).count .opened =
        ((b.finish script).2.map (·.2)).count .opened := by
  have hgreet (c : Call) : c.greeting.count .opened = 0 := count_greeting nofun
  have hbye (c : Call) (e : CallEnd) : (c.farewell e).count .opened = 0 := count_farewell nofun
  rw [finish_sendable hsa hqa, finish_sendable hsb hqb, h.start, h.wake?_eq]
  -- what ends the waits is the same for both, so that they go the same way
  cases b.wake? b.start script.opening with
  | none =>
    refine ⟨rfl, ?_⟩
    simp [hgreet, Function.comp_def]
  | some p =>
    obtain ⟨t, w⟩ := p
    simp only
    cases w.result with
    | error e =>
      refine ⟨rfl, ?_⟩
      simp [hgreet, hbye, Function.comp_def]
    | ok u =>
      simp only [h.wake?_eq]
      cases b.wake? t script.exchange with
      | none =>
        refine ⟨rfl, ?_⟩
        simp [hgreet, Function.comp_def]
      | some p' =>
        obtain ⟨t', w'⟩ := p'
        refine ⟨rfl, ?_⟩
        simp [hgreet, hbye, Function.comp_def]

end Run

/-! ## Outcome and reading -/

namespace Script

variable {script : Script} {response : Response}

theorem agree_none : script.Agree none none := by constructor <;> simp

theorem agree_timedOut : script.Agree (some (.failure .timedOut)) (some (.error .timeout)) := by
  constructor <;> simp

theorem agree_failed {e : TransportError} (h : script.Fails e) :
    script.Agree (some (.failure (.transportFailed e.message))) (some (.error (.transport e))) where
  timedOut := by simp
  rejected := by simp
  failed text := by
    constructor
    · rintro ⟨⟩
      exact ⟨e, h, rfl, rfl⟩
    · rintro ⟨_, -, rfl, ⟨⟩⟩
      rfl
  success := by
    constructor
    · rintro ⟨_, ⟨⟩⟩
    · rintro (⟨_, ⟨⟩⟩ | ⟨r, _, hanswers, -⟩)
      exact absurd hanswers h.not_answers

theorem agree_rejected (code : ResponseCode) :
    script.Agree (some (.failure (.rejected code))) (some (.error (.rejected code))) := by
  constructor <;> simp

theorem agree_read (code : ResponseCode) (reading : Reading) :
    script.Agree (some (.success code)) (some (.ok reading)) := by
  constructor <;> simp

/-- An answer that is a success without being a reading. -/
theorem agree_garbled {detail : String} (h : script.Answers response)
    (hcode : response.code.isSuccess = true) (hbody : ∀ n, readEpoch response.payload ≠ .ok n) :
    script.Agree (some (.success response.code))
      (some (.error (.transport (.protocol detail)))) where
  timedOut := by simp
  rejected := by simp
  failed text := by
    constructor
    · rintro ⟨⟩
    · rintro ⟨_, hfails, -⟩
      exact absurd h hfails.not_answers
  success := by
    constructor
    · rintro -
      exact Or.inr ⟨response, detail, h, hcode, hbody, rfl⟩
    · rintro -
      exact ⟨_, rfl⟩

/-- The outcome and the reading of one answer agree. -/
theorem agree_answered (now : Civil) (h : script.Answers response) :
    script.Agree (some (Outcome.ofAnswer (.ok response.code)))
      (some (Reading.ofAnswer now (.ok response))) := by
  cases hcode : response.code.isSuccess with
  | false =>
    have houtcome : Outcome.ofAnswer (.ok response.code) = .failure (.rejected response.code) := by
      simp [Outcome.ofAnswer, hcode]
    have hreading : Reading.ofAnswer now (.ok response) = .error (.rejected response.code) := by
      simp [Reading.ofAnswer, hcode]
    rw [houtcome, hreading]
    exact agree_rejected response.code
  | true =>
    have houtcome : Outcome.ofAnswer (.ok response.code) = .success response.code := by
      simp [Outcome.ofAnswer, hcode]
    rw [houtcome]
    cases hread : readEpoch response.payload with
    | ok n =>
      have hreading : Reading.ofAnswer now (.ok response) = .ok (.ofEpoch n now) := by
        simp [Reading.ofAnswer, hcode, hread]
      rw [hreading]
      exact agree_read response.code _
    | error e =>
      have hreading : Reading.ofAnswer now (.ok response) = .error e := by
        simp [Reading.ofAnswer, hcode, hread]
      obtain ⟨detail, rfl⟩ := readEpoch_error hread
      rw [hreading]
      exact agree_garbled h hcode fun n hn => by cases hread.symm.trans hn

/-- **An outcome and a reading agree** if they are those of one end. -/
theorem agree_of_end {end? : Option (Instant × CallEnd)} (now : Civil)
    (h : ∀ t e, end? = some (t, e) → e = .answered (.error .timeout) ∨
      (∃ err, script.Fails err ∧ e = .answered (.error (.transport err))) ∨
      ∃ response, script.Answers response ∧ e = .answered (.ok response)) :
    script.Agree (end?.bind (·.2.outcome?)) (end?.bind (·.2.reading? now)) := by
  cases end? with
  | none => exact agree_none
  | some p =>
    obtain ⟨t, e⟩ := p
    rcases h t e rfl with rfl | ⟨err, hfails, rfl⟩ | ⟨response, hanswers, rfl⟩
    · exact agree_timedOut
    · exact agree_failed hfails
    · exact agree_answered now hanswers

end Script

/-! ## Exit statuses -/

namespace Cli.Invocation

variable {σ : Type} (s : Services (StateM σ)) (filter : LogFilter)

/-- The exit status of a program that has read a clock, or not. -/
def readStatus : Except CallError Reading → UInt8
  | .ok _ => 0
  | .error e => e.exitStatus

/-- A program that sets a clock in one attempt tells the outcome of this. -/
theorem perform_set_status {node : Node} {method : SetMethod} {format : WireFormat}
    {clock : ClockSource} {target : Target} {outcome : Outcome} (ht : node.target = .ok target)
    (hs : ∀ st, ((s.set { timeout := node.timeout, method, format, clock } target).run st).1 =
      outcome) (st : σ) :
    (((Invocation.set node method format clock 1).perform s filter).run st).1 =
      outcome.exitStatus := by
  unfold perform
  simp only [ht]
  exact congrArg Outcome.exitStatus (hs _)

/-- A program that reads a clock tells what was read. -/
theorem perform_read_status {node : Node} {target : Target}
    {reading : Except CallError Reading} (ht : node.target = .ok target)
    (hs : ∀ st, ((s.read { timeout := node.timeout } target).run st).1 = reading) (st : σ) :
    (((Invocation.read node).perform s filter).run st).1 = readStatus reading := by
  have htell (r : Except CallError Reading) (st : σ) :
      ((match r with
        | .ok reading => do s.print reading.message; return 0
        | .error e => do s.print ("clock not read: " ++ e.message); return e.exitStatus :
          StateM σ UInt8).run st).1 = readStatus r := by
    cases r <;> rfl
  unfold perform
  simp only [ht]
  exact (htell _ _).trans (congrArg readStatus (hs _))

/-- A target that cannot be used is told by one status. -/
theorem perform_badUsage {node : Node} {e : CallError} (ht : node.target = .error e)
    (method : SetMethod) (format : WireFormat) (clock : ClockSource) (attempts : Nat) (st : σ) :
    (((Invocation.set node method format clock attempts).perform s filter).run st).1 =
        badUsageStatus ∧
      (((Invocation.read node).perform s filter).run st).1 = badUsageStatus := by
  unfold perform
  simp only [ht]
  exact ⟨rfl, rfl⟩

end Cli.Invocation

open Cli.Invocation in
/-- **Exit statuses agree** where an outcome and a reading do, unless the answer is a success
without being a reading. -/
theorem Script.Agree.status {script : Script} {outcome : Outcome}
    {reading : Except CallError Reading} (h : script.Agree (some outcome) (some reading)) :
    (∀ code e, outcome = .success code → reading = .error e →
      outcome.exitStatus = 0 ∧ readStatus reading = 4) ∧
    ((∀ code e, outcome = .success code → reading ≠ .error e) →
      outcome.exitStatus = readStatus reading) := by
  cases outcome with
  | success code =>
    refine ⟨?_, fun hread => ?_⟩
    · rintro _ e - rfl
      rcases h.success.1 ⟨code, rfl⟩ with ⟨_, ⟨⟩⟩ | ⟨_, _, -, -, -, ⟨⟩⟩
      exact ⟨rfl, rfl⟩
    · cases reading with
      | ok reading => rfl
      | error e => exact absurd rfl (hread code e rfl)
  | failure f =>
    refine ⟨by rintro _ _ ⟨⟩, fun _ => ?_⟩
    cases f with
    | rejected code =>
      cases (h.rejected code).1 rfl
      rfl
    | timedOut =>
      cases h.timedOut.1 rfl
      rfl
    | transportFailed text =>
      obtain ⟨e, -, -, hreading⟩ := (h.failed text).1 rfl
      cases hreading
      rfl

/-- **Setting and reading agree on what the node did.** If the network does the same for a call
that sets the clock of a target and for one that reads it, both take the same time and open as many
sessions, and their outcome and reading agree. The program that makes one attempt to set the clock
and the one that reads it have the same exit status, unless the node's answer is a success whose
body is no number. -/
theorem Client.set_read_agree (c : Client) (target : Target) (t now : Civil) (start : Instant)
    (script : Script) {q : Request} (hq : target.setRequest t c.method c.format = .ok q) :
    let set := Run.finish { call := c.set target t, start } script
    let read := Run.finish { call := c.read target, start } script
    let outcome? := set.1.end?.bind (·.2.outcome?)
    let reading? := read.1.end?.bind (·.2.reading? now)
    set.1.end?.map (·.1) = read.1.end?.map (·.1) ∧
    (set.2.map (·.2)).count .opened = (read.2.map (·.2)).count .opened ∧
    script.Agree outcome? reading? ∧
    ∀ (σ : Type) (s : Cli.Services (StateM σ)) (filter : Cli.LogFilter) (node : Cli.Node)
      (st st' : σ), node.timeout = c.timeout →
      let setStatus :=
        (((Cli.Invocation.set node c.method c.format c.clock 1).perform s filter).run st).1
      let readStatus := (((Cli.Invocation.read node).perform s filter).run st').1
      (∀ e, node.target = .error e → setStatus = readStatus) ∧
      ∀ outcome reading, outcome? = some outcome → reading? = some reading →
        node.target = .ok target → (∀ st, ((s.set c target).run st).1 = outcome) →
        (∀ st, ((s.read { timeout := c.timeout } target).run st).1 = reading) →
        (∀ code e, outcome = .success code → reading = .error e →
          setStatus = 0 ∧ readStatus = 4) ∧
        ((∀ code e, outcome = .success code → reading ≠ .error e) →
          setStatus = readStatus) := by
  intro set read outcome? reading?
  let a : Run := { call := c.set target t, start }
  let b : Run := { call := c.read target, start }
  obtain ⟨hend, hopened⟩ := Run.Abreast.finish (a := a) (b := b) ⟨rfl, rfl, rfl⟩ rfl rfl hq rfl
    script
  have hsame : set.1.end? = read.1.end? := hend
  have hagree : script.Agree outcome? reading? := by
    show script.Agree (set.1.end?.bind (·.2.outcome?)) (read.1.end?.bind (·.2.reading? now))
    rw [hsame]
    exact Script.agree_of_end now fun m e he => Run.end?_cases (r := b) rfl rfl rfl he
  refine ⟨congrArg _ hsame, hopened, hagree, ?_⟩
  -- the statuses follow from the results alone, not from how the program logs or prints
  intro σ s filter node st st' htimeout setStatus readStatus
  refine ⟨?_, ?_⟩
  · intro e he
    obtain ⟨hset, -⟩ := Cli.Invocation.perform_badUsage s filter he c.method c.format c.clock 1 st
    obtain ⟨-, hread⟩ := Cli.Invocation.perform_badUsage s filter he c.method c.format c.clock 1 st'
    exact hset.trans hread.symm
  · intro outcome reading ho hr htarget hset hread
    have hclient : (⟨node.timeout, c.method, c.format, c.clock⟩ : Client) = c := by rw [htimeout]
    have hsetStatus : setStatus = outcome.exitStatus :=
      Cli.Invocation.perform_set_status s filter htarget (by rwa [hclient]) st
    have hreadStatus : readStatus = Cli.Invocation.readStatus reading :=
      Cli.Invocation.perform_read_status s filter htarget (by rwa [htimeout]) st'
    rw [ho, hr] at hagree
    rw [hsetStatus, hreadStatus]
    exact hagree.status

/-- A node answers 2.05 with a body that is no number: its clock has been set, and nothing has been
read. -/
theorem Client.set_read_agree_garbled :
    let client : Client := { timeout := .ofMillis 2000 }
    let target : Target := ⟨.named "node.local", 5683, ["date"]⟩
    let t : Civil := ⟨2024, 2, 29, 23, 59, 59⟩
    let script : Script :=
      { opening := .ends 5 (.ok ()), exchange := .ends 7 (.ok ⟨⟨2, 5⟩, [0x6E, 0x6F, 0x6F, 0x6E]⟩) }
    let set := Run.finish { call := client.set target t, start := 0 } script
    let read := Run.finish { call := client.read target, start := 0 } script
    let garbled : CallError :=
      .transport (.protocol "clock payload 'noon' is not epoch seconds")
    let services : Cli.Services (StateM (List String)) :=
      { set := fun _ _ => pure (.success ⟨2, 5⟩)
        read := fun _ _ => pure (.error garbled)
        print := fun line => modify (· ++ [line])
        log := fun _ => pure ()
        complain := fun line => modify (· ++ [line]) }
    let node : Cli.Node := ⟨"node.local", none, "/date", client.timeout⟩
    set.1.end?.map (·.1) = some 12 ∧
    set.1.end?.bind (·.2.outcome?) = some (.success ⟨2, 5⟩) ∧
    read.1.end?.bind (·.2.reading? t) = some (.error garbled) ∧
    (((Cli.Invocation.set node .put .query .localZone 1).perform services []).run []).1 = 0 ∧
    (((Cli.Invocation.read node).perform services []).run []).1 = 4 := by
  intro client target t script set read garbled services node
  obtain ⟨q, hq⟩ : ∃ q, target.setRequest t client.method client.format = .ok q := ⟨_, rfl⟩
  have hend : read.1.end?.map (·.1) = some 12 := by
    dsimp +zetaDelta only
    rfl
  have houtcome : set.1.end?.bind (·.2.outcome?) = some (.success ⟨2, 5⟩) := by
    dsimp +zetaDelta only
    rfl
  have hreading : read.1.end?.bind (·.2.reading? t) = some (.error garbled) := by
    dsimp +zetaDelta only
    rfl
  have htarget : node.target = .ok target := by
    dsimp +zetaDelta only
    rfl
  obtain ⟨htime, -, -, hstatus⟩ := Client.set_read_agree client target t t 0 script hq
  obtain ⟨hdiffer, -⟩ := (hstatus _ services [] node [] [] rfl).2 _ _ houtcome hreading htarget
    (fun _ => rfl) (fun _ => rfl)
  obtain ⟨hzero, hfour⟩ := hdiffer _ _ rfl rfl
  exact ⟨htime.trans hend, houtcome, hreading, hzero, hfour⟩

end NodeClock
