import NodeClock.Call.Basic

/-!
# Calls side by side

Calls of one client run beside each other. They share nothing but the network, whose scripts
they draw in the order in which they open their sessions.

* `Pool`: calls under way, the scripts not yet drawn, and all that has been seen.
* `Pool.step?`: the next step of one of the calls.
* `Pool.finish`: the calls run to their ends, each step in its time.
* `Pool.opened`, `Pool.live`: sessions opened and sessions held.
-/

namespace NodeClock

/-- Calls under way. Of the log the earliest effect comes first. -/
structure Pool where
  runs : List Run
  scripts : List Script := []
  log : List (Nat × Effect) := []

namespace Pool

/-- Calls that begin together. -/
def ofCalls (start : Instant) (calls : List Call) (scripts : List Script) : Pool :=
  { runs := calls.map ({ call := ·, start }), scripts }

/-- The script for the next session. -/
def nextScript (p : Pool) : Script := p.scripts.headD {}

/-- The pool after the next step of call `i`, and when it happens. -/
def step? (i : Nat) (p : Pool) : Option (Instant × Pool) := do
  let r ← p.runs[i]?
  let (t, next, effects) ← r.step? p.nextScript
  return (t,
    { runs := p.runs.set i next
      scripts := if r.opens then p.scripts.tail else p.scripts
      log := p.log ++ effects.map (i, ·) })

/-- The pool after the earliest step that any call can take, of several at once that of the
first call. -/
def next? (p : Pool) : Option Pool :=
  (earliest ((List.range p.runs.length).filterMap p.step?)).map (·.2)

/-- The pool after at most `n` further steps. -/
def advance : Nat → Pool → Pool
  | 0, p => p
  | n + 1, p =>
    match p.next? with
    | none => p
    | some q => advance n q

/-- The pool when no call can take a step any more. -/
def finish (p : Pool) : Pool := p.advance (Run.maxSteps * p.runs.length)

/-- All that has been seen, whichever call it was of. -/
def effects (p : Pool) : List Effect := p.log.map (·.2)

/-- How many sessions have been opened. -/
def opened (p : Pool) : Nat := p.effects.count .opened

/-- How many sessions have been opened and not closed. -/
def live (p : Pool) : Int := p.opened - p.effects.count .closed

/-- When the last call ended, if any did. -/
def lastEnd (start : Instant) (p : Pool) : Instant :=
  (p.runs.filterMap fun r => r.end?.map (·.1)).foldl max start

end Pool

end NodeClock
