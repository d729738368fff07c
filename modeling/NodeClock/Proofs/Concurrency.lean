import NodeClock.Call.Pool
import NodeClock.Proofs.Cancellation
import Mathlib.Algebra.Group.Action.Defs
import Mathlib.Algebra.Order.BigOperators.Group.List
import Mathlib.Algebra.Order.Ring.Nat

/-!
# Calls side by side do not disturb each other

* `Pool.ofBegun`, `Pool.play`: calls that begin when they do, and their steps in any order.
* `Pool.seen`, `Pool.drawn`: what one of the calls has shown, and the script that it has drawn.
* `Run.Reaches`: how far a call comes alone.
* `Run.Ledger`: the sessions of one call.
* `Pool.Sound`: **each call of a pool is as far as it comes alone, and sessions are held only by
  calls under way**; kept by `Sound.step` and `Sound.play`.
* `Pool.step?_play_eq_none`: **a call whose turn has come often enough has come to its end.**
* `Pool.finish_eq_play`: the order in which each step is taken in its time.
* `Pool.independent` (all calls, all orders): **all of it, with what it means to be cancelled.**
-/

namespace NodeClock

open Coap

namespace Run

variable {first r next : Run} {drawn script : Script} {t : Instant} {effects seen : List Effect}

/-! ## What a call does alone -/

/-- Some steps of a call alone bring it to `r`, and `seen` is what they show. -/
def Reaches (first : Run) (script : Script) (r : Run) (seen : List Effect) : Prop :=
  ∃ n log, first.steps script n = (r, log) ∧ seen = log.map (·.2)

theorem Reaches.refl (first : Run) (script : Script) : first.Reaches script first [] :=
  ⟨0, [], rfl, rfl⟩

theorem Reaches.step (h : first.Reaches script r seen)
    (hs : r.step? script = some (t, next, effects)) :
    first.Reaches script next (seen ++ effects) := by
  obtain ⟨n, log, hn, rfl⟩ := h
  refine ⟨n + 1, log ++ effects.map (t, ·), ?_, ?_⟩
  · rw [steps_add, hn, steps_succ 0 hs, steps, List.append_nil]
  · rw [List.map_append, map_snd_stamp]

/-- **What a call has shown is the beginning of what it shows alone**, and when it can take no
further step it is where it comes alone. -/
theorem Reaches.finish (h : first.Reaches script r seen) :
    seen <+: (first.finish script).2.map (·.2) ∧
      (r.step? script = none → r = (first.finish script).1 ∧
        seen = (first.finish script).2.map (·.2)) := by
  obtain ⟨n, log, hn, rfl⟩ := h
  unfold Run.finish
  rcases Nat.le_total n maxSteps with hle | hle
  · -- the rest of the steps comes behind those that have been taken
    obtain ⟨m, hm⟩ := Nat.exists_eq_add_of_le hle
    rw [hm, steps_add, hn]
    simp only [List.map_append]
    refine ⟨List.prefix_append _ _, fun hstuck => ?_⟩
    rw [steps_of_none m hstuck]
    simp
  · -- a call that has come to its end stays there
    obtain ⟨m, hm⟩ := Nat.exists_eq_add_of_le hle
    have hstuck : (first.steps script maxSteps).1.step? script = none :=
      step?_steps_eq_none first.rank_le
    rw [hm, steps_add, steps_of_none m hstuck, List.append_nil] at hn
    obtain ⟨rfl, rfl⟩ := Prod.mk.inj hn
    exact ⟨List.prefix_rfl, fun _ => ⟨rfl, rfl⟩⟩

/-- A call that can take no step does not wait to begin. -/
theorem opens_of_step?_eq_none (h : r.step? drawn = none) : r.opens = false := by
  unfold opens
  split
  case h_1 hw =>
    obtain ⟨stage, effects, hstep, -⟩ := step?_waiting drawn hw
    cases h.symm.trans hstep
  case h_2 => rfl

/-- A call that can take no step can take none with another script. -/
theorem step?_stuck (h : r.step? drawn = none) (script : Script) : r.step? script = none :=
  (step?_congr (opens_of_step?_eq_none h) _ _).trans h

/-! ## The sessions of one call -/

theorem progress_ne_sending (o : Outcome) : Effect.reached .sending ≠ .reached o.progress := by
  cases o with
  | success c => exact nofun
  | failure f => cases f <;> exact nofun

/-- A call tells that it sends when it draws its script. -/
theorem Acts.count_sending (h : r.Acts drawn t next effects) :
    effects.count (.reached .sending) = if r.opens then 1 else 0 := by
  have hgreet := count_greeting (c := r.call) (x := .reached .sending) nofun
  have hbye (e : CallEnd) := count_farewell (c := r.call) (e := e) progress_ne_sending
  cases h with
  | refused hs hq =>
    have hopens : r.opens = false := by simp [Run.opens, hs, hq, Except.isOk, Except.toBool]
    rw [List.count_append, hgreet, hbye, hopens]
    rfl
  | begins hs hq =>
    have hopens : r.opens = true := by simp [Run.opens, hs, hq, Except.isOk, Except.toBool]
    rw [List.count_append, hgreet, hopens]
    rfl
  | connects hs =>
    have hopens : r.opens = false := by simp [Run.opens, hs]
    rw [hopens]
    cases r.call.request <;> rfl
  | breaksOff hs =>
    have hopens : r.opens = false := by simp [Run.opens, hs]
    rw [hbye, hopens]
    rfl
  | ends hs =>
    have hopens : r.opens = false := by simp [Run.opens, hs]
    rw [List.count_cons, hbye, hopens]
    rfl

/-- A call still may open a session. -/
def unopened (r : Run) : Bool :=
  match r.stage with
  | .waiting | .opening .. => true
  | _ => false

/-- **The sessions of one call**: it opens at most one, and holds what it has opened and not
closed. -/
structure Ledger (r : Run) (seen : List Effect) : Prop where
  opened_le : seen.count .opened + r.unopened.toNat ≤ 1
  held : seen.count .opened = seen.count .closed + r.holdsSession.toNat

/-- What a step does to the sessions of a call. -/
theorem Acts.sessions (h : r.Acts drawn t next effects) :
    effects.count .opened + next.unopened.toNat ≤ r.unopened.toNat ∧
      effects.count .opened + r.holdsSession.toNat =
        effects.count .closed + next.holdsSession.toNat := by
  have hgo := count_greeting (c := r.call) (x := .opened) nofun
  have hgc := count_greeting (c := r.call) (x := .closed) nofun
  have hbo (e : CallEnd) := count_farewell (c := r.call) (e := e) (x := .opened) nofun
  have hbc (e : CallEnd) := count_farewell (c := r.call) (e := e) (x := .closed) nofun
  cases h with
  | refused hs hq =>
    rw [List.count_append, hgo, hbo, List.count_append, hgc, hbc]
    simp [Run.unopened, Run.holdsSession, hs]
  | begins hs hq =>
    rw [List.count_append, hgo, List.count_append, hgc]
    simp [Run.unopened, Run.holdsSession, hs]
  | connects hs =>
    cases r.call.request <;> simp [Run.unopened, Run.holdsSession, hs, Except.toOption]
  | breaksOff hs =>
    rw [hbo, hbc]
    simp [Run.unopened, Run.holdsSession, hs]
  | ends hs =>
    rw [List.count_cons, hbo, List.count_cons, hbc]
    simp [Run.unopened, Run.holdsSession, hs]

theorem Ledger.start (hs : r.stage = .waiting) : r.Ledger [] := by
  refine ⟨?_, ?_⟩ <;> simp [unopened, holdsSession, hs]

theorem Ledger.step (h : r.Ledger seen) (hs : r.Acts drawn t next effects) :
    next.Ledger (seen ++ effects) := by
  obtain ⟨hopened, hheld⟩ := hs.sessions
  have hle := h.opened_le
  have heq := h.held
  refine ⟨?_, ?_⟩
  · rw [List.count_append]
    omega
  · rw [List.count_append, List.count_append]
    omega

/-- **A session is held from its opening to the end of the call.** -/
theorem Ledger.holdsSession_iff (h : r.Ledger seen) :
    r.holdsSession ↔ .opened ∈ seen ∧ r.end? = none := by
  have hle := h.opened_le
  have hheld := h.held
  rw [← List.count_pos_iff]
  unfold unopened at hle
  unfold holdsSession at hheld ⊢
  unfold end?
  cases hs : r.stage with
  | waiting =>
    simp only [hs, Bool.toNat_true] at hle
    simp only [Bool.false_eq_true, false_iff]
    omega
  | opening since script =>
    simp only [hs, Bool.toNat_true] at hle
    simp only [Bool.false_eq_true, false_iff]
    omega
  | exchanging since script =>
    simp only [hs, Bool.toNat_true] at hheld
    simp only [true_iff]
    exact ⟨by omega, trivial⟩
  | ended since e => simp

end Run

/-! ## Calls side by side -/

/-- What is counted changes with one member by what this one does. -/
theorem sum_map_set_add {α : Type} {f : α → Nat} {l : List α} {i : Nat} {a b : α}
    (h : l[i]? = some a) : ((l.set i b).map f).sum + f a = (l.map f).sum + f b := by
  induction l generalizing i with
  | nil => cases h
  | cons x l ih =>
    cases i with
    | zero =>
      cases h
      simp only [List.set_cons_zero, List.map_cons, List.sum_cons]
      omega
    | succ i =>
      have hrest := ih h
      simp only [List.set_cons_succ, List.map_cons, List.sum_cons]
      omega

theorem countP_set_add {α : Type} {p : α → Bool} {l : List α} {i : Nat} {a b : α}
    (h : l[i]? = some a) :
    (l.set i b).countP p + (p a).toNat = l.countP p + (p b).toNat := by
  obtain ⟨hlt, rfl⟩ := List.getElem?_eq_some_iff.1 h
  rw [List.countP_set hlt]
  cases ha : p l[i] with
  | false => cases p b <;> rfl
  | true =>
    have hpos : 0 < l.countP p := List.countP_pos_iff.2 ⟨l[i], List.getElem_mem hlt, ha⟩
    rw [if_pos rfl]
    cases p b <;> simp <;> omega

namespace Pool

variable {p q : Pool} {i j : Nat} {begun : List (Instant × Call)} {scripts : List Script}
  {t : Instant}

/-- Calls that begin when they do. -/
def ofBegun (begun : List (Instant × Call)) (scripts : List Script) : Pool :=
  { runs := begun.map fun (start, call) => { call, start }, scripts }

theorem getElem?_ofBegun {start : Instant} {call : Call} (h : begun[i]? = some (start, call)) :
    (ofBegun begun scripts).runs[i]? = some { call, start } := by
  unfold ofBegun
  rw [List.getElem?_map, h]
  rfl

/-- The pool after steps of the calls that are named, in this order. A call that can take no step
is passed over. -/
def play : List Nat → Pool → Pool
  | [], p => p
  | i :: rest, p => ((p.step? i).elim p (·.2)).play rest

/-- What call `i` has shown. -/
def seen (p : Pool) (i : Nat) : List Effect := (p.log.filter (·.1 = i)).map (·.2)

/-- The calls that have drawn a script, in the order in which they did. -/
def draws (p : Pool) : List Nat := (p.log.filter (·.2 = .reached .sending)).map (·.1)

/-- The script that call `i` has drawn from those that there were. -/
def drawn (p : Pool) (scripts : List Script) (i : Nat) : Script :=
  scripts.getD (p.draws.idxOf i) {}

/-- **What a step of call `j` does to a pool**: `r` becomes `next`, which shows `effects`. -/
structure Moves (p : Pool) (j : Nat) (q : Pool) (r next : Run) (effects : List Effect) :
    Prop where
  run : p.runs[j]? = some r
  acts : ∃ t, r.step? p.nextScript = some (t, next, effects)
  runs : q.runs = p.runs.set j next
  scripts : q.scripts = if r.opens then p.scripts.tail else p.scripts
  seen_self : q.seen j = p.seen j ++ effects
  seen_ne : ∀ i ≠ j, q.seen i = p.seen i
  draws : q.draws = p.draws ++ if r.opens then [j] else []
  live : q.live = p.live + effects.count .opened - effects.count .closed

theorem step?_moves (h : p.step? j = some (t, q)) :
    ∃ r next effects, p.Moves j q r next effects := by
  unfold step? at h
  simp only [Option.bind_eq_bind, Option.bind_eq_some_iff, Option.pure_def, Option.some.injEq,
    Prod.mk.injEq, Prod.exists] at h
  obtain ⟨r, hr, t', next, effects, hs, -, rfl⟩ := h
  have hsending : ((effects.map (j, ·)).filter (·.2 = .reached .sending)).map (·.1) =
      if r.opens then [j] else [] := by
    have hcount : effects.countP (fun e => decide (e = .reached .sending)) =
        if r.opens then 1 else 0 := (Run.step?_acts hs).count_sending
    have hconst : ((·.1) ∘ (j, ·) : Effect → Nat) = fun _ => j := rfl
    have hsnd : ((fun x : Nat × Effect => decide (x.2 = .reached .sending)) ∘ (j, ·)) =
        fun e => decide (e = .reached .sending) := rfl
    rw [List.filter_map, List.map_map, hconst, List.map_const', hsnd,
      ← List.countP_eq_length_filter, hcount]
    split <;> rfl
  refine ⟨r, next, effects, hr, ⟨t', hs⟩, rfl, rfl, ?_, ?_, ?_, ?_⟩
  · unfold seen
    rw [List.filter_append, List.map_append]
    congr 1
    rw [List.filter_eq_self.2 (by simp), List.map_map]
    exact List.map_id _
  · intro i hi
    unfold seen
    have hnone : (effects.map (j, ·)).filter (·.1 = i) = [] := by
      simp [List.filter_eq_nil_iff, hi.symm]
    rw [List.filter_append, hnone, List.append_nil]
  · unfold draws
    rw [List.filter_append, List.map_append, hsending]
  · unfold live opened Pool.effects
    rw [List.map_append, Run.map_snd_stamp, List.count_append, List.count_append]
    push_cast
    omega

/-! ## Each call is as far as it comes alone -/

/-- Call `i`, which began as `first`, is as far as it comes alone with the script that it has
drawn. Until it has drawn one, any script brings it there. -/
structure Follows (p : Pool) (scripts : List Script) (i : Nat) (first r : Run) : Prop where
  run : p.runs[i]? = some r
  reaches : first.Reaches (p.drawn scripts i) r (p.seen i)
  undrawn : i ∉ p.draws → ∀ script, first.Reaches script r (p.seen i)
  waiting : r.stage = .waiting → i ∉ p.draws
  ledger : r.Ledger (p.seen i)

variable {first r r' next : Run} {effects : List Effect}

theorem Moves.run_self (h : p.Moves j q r next effects) : q.runs[j]? = some next := by
  rw [h.runs, List.getElem?_set_self (List.getElem?_eq_some_iff.1 h.run).1]

/-- A step leaves the other calls where they are. -/
theorem Moves.run_ne (h : p.Moves j q r next effects) (hij : i ≠ j) :
    q.runs[i]? = p.runs[i]? := by
  rw [h.runs, List.getElem?_set_ne hij.symm]

/-- A script that has been drawn remains so. -/
theorem Moves.drawn (h : p.Moves j q r next effects) (hi : i ∈ p.draws) :
    q.drawn scripts i = p.drawn scripts i := by
  unfold Pool.drawn
  rw [h.draws, List.idxOf_append_of_mem hi]

/-- A step of another call. -/
theorem Follows.step_ne (h : p.Follows scripts i first r) (hm : p.Moves j q r' next effects)
    (hij : i ≠ j) : q.Follows scripts i first r := by
  have hdraws : i ∈ q.draws ↔ i ∈ p.draws := by
    rw [hm.draws, List.mem_append]
    constructor
    · rintro (hi | hi)
      · exact hi
      · split at hi
        · exact absurd (List.mem_singleton.1 hi) hij
        · cases hi
    · exact Or.inl
  refine ⟨?_, ?_, ?_, ?_, ?_⟩
  · rw [hm.run_ne hij]
    exact h.run
  · rw [hm.seen_ne i hij]
    by_cases hi : i ∈ p.draws
    · rw [hm.drawn hi]
      exact h.reaches
    · exact h.undrawn hi _
  · rw [hm.seen_ne i hij, hdraws]
    exact h.undrawn
  · rw [hdraws]
    exact h.waiting
  · rw [hm.seen_ne i hij]
    exact h.ledger

/-- A step of the call itself. -/
theorem Follows.step_self (h : p.Follows scripts i first r) (hm : p.Moves i q r' next effects)
    (hs : p.scripts = scripts.drop p.draws.length) : q.Follows scripts i first next := by
  obtain ⟨t, hstep⟩ := hm.acts
  cases h.run.symm.trans hm.run
  have hacts := Run.step?_acts hstep
  have hledger : next.Ledger (q.seen i) := by
    rw [hm.seen_self]
    exact h.ledger.step hacts
  have hleft : next.stage ≠ .waiting := by
    cases hacts <;> exact nofun
  cases hopens : r.opens with
  | true =>
    -- the next script is what is left of them behind those that have been drawn
    have hwaiting : r.stage = .waiting := by
      unfold Run.opens at hopens
      split at hopens
      · assumption
      · cases hopens
    have hi := h.waiting hwaiting
    have hdrawn : q.drawn scripts i = p.nextScript := by
      unfold Pool.drawn nextScript
      rw [hm.draws, hopens, hs, List.idxOf_append_of_notMem hi]
      simp [List.headD_eq_head?_getD, List.head?_drop]
    refine ⟨hm.run_self, ?_, ?_, fun hw => absurd hw hleft, hledger⟩
    · rw [hm.seen_self, hdrawn]
      exact (h.undrawn hi _).step hstep
    · rw [hm.draws, hopens]
      intro hn
      exact absurd (List.mem_append_right _ List.mem_cons_self) hn
  | false =>
    have hdraws : q.draws = p.draws := by
      rw [hm.draws, hopens]
      exact List.append_nil _
    have hreach {script : Script} (hr : first.Reaches script r (p.seen i)) :
        first.Reaches script next (q.seen i) := by
      rw [hm.seen_self]
      exact hr.step ((Run.step?_congr hopens _ _).trans hstep)
    refine ⟨hm.run_self, ?_, ?_, fun hw => absurd hw hleft, hledger⟩
    · unfold Pool.drawn
      rw [hdraws]
      exact hreach h.reaches
    · rw [hdraws]
      exact fun hi script => hreach (h.undrawn hi script)

/-- **Each call is as far as it comes alone, and sessions are held only by calls under way.** -/
structure Sound (begun : List (Instant × Call)) (scripts : List Script) (p : Pool) : Prop where
  length : p.runs.length = begun.length
  remaining : p.scripts = scripts.drop p.draws.length
  follows : ∀ i start call, begun[i]? = some (start, call) →
    ∃ r, p.Follows scripts i { call, start } r
  live : p.live = p.runs.countP Run.holdsSession

theorem Sound.start (begun : List (Instant × Call)) (scripts : List Script) :
    (ofBegun begun scripts).Sound begun scripts := by
  refine ⟨List.length_map _, rfl, ?_, ?_⟩
  · intro i start call hi
    exact ⟨{ call, start }, getElem?_ofBegun hi, .refl _ _, fun _ => .refl _,
      fun _ => List.not_mem_nil, .start rfl⟩
  · have hnone : (ofBegun begun scripts).runs.countP Run.holdsSession = 0 := by
      rw [List.countP_eq_zero]
      intro r hr
      obtain ⟨b, -, rfl⟩ := List.mem_map.1 hr
      exact Bool.false_ne_true
    rw [hnone]
    rfl

theorem Sound.step (h : p.Sound begun scripts) (hs : p.step? j = some (t, q)) :
    q.Sound begun scripts := by
  obtain ⟨r, next, effects, hm⟩ := step?_moves hs
  obtain ⟨t', hstep⟩ := hm.acts
  refine ⟨?_, ?_, ?_, ?_⟩
  · rw [hm.runs, List.length_set]
    exact h.length
  · rw [hm.scripts, hm.draws, h.remaining, List.length_append]
    cases r.opens with
    | true => exact List.tail_drop
    | false => rfl
  · intro i start call hi
    obtain ⟨r', hr'⟩ := h.follows i start call hi
    by_cases hij : i = j
    · subst hij
      exact ⟨next, hr'.step_self hm h.remaining⟩
    · exact ⟨r', hr'.step_ne hm hij⟩
  · have hsessions := (Run.step?_acts hstep).sessions.2
    have hset := countP_set_add (p := Run.holdsSession) (b := next) hm.run
    rw [hm.live, hm.runs, h.live]
    omega

/-- What holds of a pool after one step holds after any steps in any order. -/
theorem Sound.play (h : p.Sound begun scripts) (schedule : List Nat) :
    (p.play schedule).Sound begun scripts := by
  induction schedule generalizing p with
  | nil => exact h
  | cons i rest ih =>
    unfold Pool.play
    cases hs : p.step? i with
    | none => exact ih h
    | some x => exact ih (h.step hs)

/-- A call can take no step in a pool exactly if it can take none with the script that is there to
be drawn. -/
theorem step?_eq_none_iff (hr : p.runs[i]? = some r) :
    p.step? i = none ↔ r.step? p.nextScript = none := by
  unfold step?
  rw [hr, Option.bind_eq_bind, Option.bind_some]
  cases r.step? p.nextScript <;> simp

/-- A call that can take no step has come as far as it comes alone. -/
theorem Follows.finish (h : p.Follows scripts i first r) (hs : p.step? i = none) :
    p.runs[i]? = some (first.finish (p.drawn scripts i)).1 ∧
      p.seen i = (first.finish (p.drawn scripts i)).2.map (·.2) := by
  have hstuck := (step?_eq_none_iff h.run).1 hs
  obtain ⟨hrun, hseen⟩ := h.reaches.finish.2 (Run.step?_stuck hstuck _)
  rw [← hrun]
  exact ⟨h.run, hseen⟩

/-- No session is held when no call holds one. -/
theorem Sound.live_eq_zero (h : p.Sound begun scripts)
    (hr : ∀ r ∈ p.runs, r.stage = .waiting ∨ r.end?.isSome) : p.live = 0 := by
  have hnone : p.runs.countP Run.holdsSession = 0 := by
    rw [List.countP_eq_zero]
    intro r hmem
    unfold Run.holdsSession
    rcases hr r hmem with hw | hend
    · rw [hw]
      exact Bool.false_ne_true
    · unfold Run.end? at hend
      split at hend
      · simp only [*]
        exact Bool.false_ne_true
      · cases hend
  rw [h.live, hnone]
  rfl

/-! ## Calls whose turn comes -/

theorem play_cons (i : Nat) (rest : List Nat) (p : Pool) :
    play (i :: rest) p = ((p.step? i).elim p (·.2)).play rest := rfl

/-- A call that can take no step can take none after any steps of the others. -/
theorem step?_play_stuck (hr : p.runs[i]? = some r) (hs : p.step? i = none)
    (schedule : List Nat) : (p.play schedule).step? i = none := by
  induction schedule generalizing p with
  | nil => exact hs
  | cons j rest ih =>
    rw [play_cons]
    cases hj : p.step? j with
    | none => exact ih hr hs
    | some x =>
      obtain ⟨t, q⟩ := x
      obtain ⟨r', next, effects, hm⟩ := step?_moves hj
      have hij : i ≠ j := by
        rintro rfl
        cases hs.symm.trans hj
      have hrun : q.runs[i]? = some r := (hm.run_ne hij).trans hr
      -- the others may have drawn scripts, but this call does not look at them any more
      have hstuck := (step?_eq_none_iff hr).1 hs
      exact ih hrun ((step?_eq_none_iff hrun).2 (Run.step?_stuck hstuck _))

/-- **A call whose turn has come often enough has come to its end**, or waits for ever. -/
theorem step?_play_eq_none (hr : p.runs[i]? = some r) {schedule : List Nat}
    (hcount : r.rank ≤ schedule.count i) : (p.play schedule).step? i = none := by
  induction schedule generalizing p r with
  | nil =>
    refine (step?_eq_none_iff hr).2 ?_
    cases hs : r.step? p.nextScript with
    | none => rfl
    | some x =>
      have hlt := (Run.step?_acts hs).rank_lt
      rw [List.count_nil] at hcount
      omega
  | cons j rest ih =>
    rw [play_cons]
    cases hj : p.step? j with
    | none =>
      by_cases hij : j = i
      · subst hij
        exact step?_play_stuck hr hj rest
      · rw [List.count_cons_of_ne hij] at hcount
        exact ih hr hcount
    | some x =>
      obtain ⟨t, q⟩ := x
      obtain ⟨r', next, effects, hm⟩ := step?_moves hj
      by_cases hij : j = i
      · subst hij
        cases hr.symm.trans hm.run
        obtain ⟨t', hstep⟩ := hm.acts
        have hlt := (Run.step?_acts hstep).rank_lt
        rw [List.count_cons_self] at hcount
        exact ih hm.run_self (by omega)
      · rw [List.count_cons_of_ne hij] at hcount
        exact ih ((hm.run_ne (Ne.symm hij)).trans hr) hcount

/-! ## Each step in its time -/

/-- Steps of a pool in their time are steps in some order. -/
theorem next?_eq_some (h : p.next? = some q) : ∃ i t, p.step? i = some (t, q) := by
  unfold next? at h
  obtain ⟨⟨t, q⟩, hearliest, rfl⟩ := Option.map_eq_some_iff.1 h
  obtain ⟨i, -, hi⟩ := List.mem_filterMap.1 (earliest_spec hearliest).1
  exact ⟨i, t, hi⟩

/-- Nothing happens any more only if no call can take a step. -/
theorem next?_eq_none (h : p.next? = none) (i : Nat) : p.step? i = none := by
  unfold next? at h
  rw [Option.map_eq_none_iff, earliest_eq_none_iff, List.filterMap_eq_nil_iff] at h
  by_cases hi : i < p.runs.length
  · exact h i (List.mem_range.2 hi)
  · unfold step?
    rw [List.getElem?_eq_none (Nat.le_of_not_lt hi)]
    rfl

/-- How many steps the calls of a pool can still take at most. -/
def rank (p : Pool) : Nat := (p.runs.map Run.rank).sum

theorem rank_lt (h : p.step? i = some (t, q)) : q.rank < p.rank := by
  obtain ⟨r, next, effects, hm⟩ := step?_moves h
  obtain ⟨t', hstep⟩ := hm.acts
  have hlt := (Run.step?_acts hstep).rank_lt
  have hsum := sum_map_set_add (f := Run.rank) (b := next) hm.run
  unfold rank
  rw [hm.runs]
  omega

theorem rank_le (p : Pool) : p.rank ≤ Run.maxSteps * p.runs.length := by
  have hle : ∀ n ∈ p.runs.map Run.rank, n ≤ Run.maxSteps := by
    intro n hn
    obtain ⟨r, -, rfl⟩ := List.mem_map.1 hn
    exact r.rank_le
  have hsum := List.sum_le_card_nsmul _ _ hle
  rw [List.length_map, smul_eq_mul, Nat.mul_comm] at hsum
  exact hsum

/-- A pool goes on in some order, and if this is for long enough, to the end. -/
theorem exists_play_advance (n : Nat) (p : Pool) :
    ∃ schedule, p.advance n = p.play schedule ∧
      (p.rank ≤ n → ∀ i, (p.advance n).step? i = none) := by
  induction n generalizing p with
  | zero =>
    refine ⟨[], rfl, ?_⟩
    intro hr i
    cases hs : p.step? i with
    | none => exact hs
    | some x =>
      have hlt := rank_lt hs
      omega
  | succ n ih =>
    unfold advance
    cases hnext : p.next? with
    | none => exact ⟨[], rfl, fun _ => next?_eq_none hnext⟩
    | some q =>
      obtain ⟨i, t, hs⟩ := next?_eq_some hnext
      obtain ⟨schedule, hplay, hend⟩ := ih q
      have hlt := rank_lt hs
      refine ⟨i :: schedule, ?_, fun hr => hend (by omega)⟩
      rw [Pool.play, hs]
      exact hplay

/-- **Calls that take each step in its time** take them in one of the orders, and all come to their
ends. -/
theorem finish_eq_play (p : Pool) :
    ∃ schedule, p.finish = p.play schedule ∧ ∀ i, p.finish.step? i = none := by
  obtain ⟨schedule, hplay, hend⟩ := exists_play_advance (Run.maxSteps * p.runs.length) p
  exact ⟨schedule, hplay, hend p.rank_le⟩

/-! ## Main results -/

/-- **Calls side by side do not disturb each other and leave no session open**, in whichever order
they take their steps and whichever of them are cancelled. A call whose turn has come three times
has ended as it does alone, and so have all when each step is taken in its time. -/
theorem independent (begun : List (Instant × Call)) (scripts : List Script)
    (schedule : List Nat) :
    let p := (ofBegun begun scripts).play schedule
    p.live = p.runs.countP Run.holdsSession ∧
    (∀ i r, p.runs[i]? = some r →
      (r.holdsSession ↔ .opened ∈ p.seen i ∧ r.end? = none) ∧ (p.seen i).count .opened ≤ 1) ∧
    ((∀ r ∈ p.runs, r.stage = .waiting ∨ r.end?.isSome) → p.live = 0) ∧
    (∀ i start call, begun[i]? = some (start, call) →
      let alone := Run.finish { call, start } (p.drawn scripts i)
      let free := Run.finish { call := { call with cancelAfter := none }, start }
        (p.drawn scripts i)
      p.seen i <+: alone.2.map (·.2) ∧
      (Run.maxSteps ≤ schedule.count i → p.step? i = none) ∧
      (p.step? i = none → p.runs[i]? = some alone.1 ∧ p.seen i = alone.2.map (·.2)) ∧
      (∀ t, alone.1.end? = some (t, .cancelled) ↔
        ∃ s, call.cancelAfter = some s ∧ t = start + s.nanos ∧
          ∀ t' e, free.1.end? = some (t', e) → t < t') ∧
      ∀ s, call.cancelAfter = some s → Run.Cancels (start + s.nanos) free alone) ∧
    ∃ inTime, (ofBegun begun scripts).finish = (ofBegun begun scripts).play inTime ∧
      ∀ i, ((ofBegun begun scripts).play inTime).step? i = none := by
  intro p
  have hsound : p.Sound begun scripts := (Sound.start begun scripts).play schedule
  refine ⟨hsound.live, ?_, hsound.live_eq_zero, ?_, ?_⟩
  · intro i r hr
    have hi : i < begun.length := by
      rw [← hsound.length]
      exact (List.getElem?_eq_some_iff.1 hr).1
    obtain ⟨r', hf⟩ := hsound.follows i _ _ (List.getElem?_eq_getElem hi)
    cases hr.symm.trans hf.run
    have hle := hf.ledger.opened_le
    exact ⟨hf.ledger.holdsSession_iff, by omega⟩
  · intro i start call hi
    obtain ⟨r, hr⟩ := hsound.follows i start call hi
    refine ⟨hr.reaches.finish.1, step?_play_eq_none (getElem?_ofBegun hi), hr.finish, ?_, ?_⟩
    · intro t
      exact Run.finish_cancelled_iff rfl
    · intro s hs
      exact Run.finish_cancels (r := { call, start }) _ rfl hs
  · obtain ⟨inTime, hplay, hend⟩ := (ofBegun begun scripts).finish_eq_play
    exact ⟨inTime, hplay, hplay ▸ hend⟩

/-- A call that is given up after one second. -/
def impatient : Call :=
  { purpose := .set, request := .ok { method := .put }, timeout := .ofMillis 5000,
    cancelAfter := some (.ofMillis 1000) }

/-- A call that is never given up. -/
def patient : Call :=
  { purpose := .read, request := .ok { method := .get }, timeout := .ofMillis 5000 }

/-- A session in which nothing is answered. -/
def silent : Script := { opening := .ends 100000000 (.ok ()) }

/-- A session in which the answer comes after 300 milliseconds. -/
def quick : Script :=
  { opening := .ends 0 (.ok ()), exchange := .ends 300000000 (.ok { code := .ofParts 2 5 }) }

/-- A call is cancelled while another one, which began later and opened its session earlier, is
answered. -/
theorem independent_cancelled :
    let pool := ofBegun [(0, impatient), (250, patient)] [quick, silent]
    let p := pool.play [1, 0, 0, 1, 0, 1]
    (pool.play [1, 0, 0, 1]).live = 2 ∧ p.live = 0 ∧
      p.runs = [(Run.finish { call := impatient, start := 0 } silent).1,
        (Run.finish { call := patient, start := 250 } quick).1] ∧
      p.runs.map Run.end? =
        [some (1000000000, .cancelled),
          some (300000250, .answered (.ok { code := .ofParts 2 5 }))] := by
  intro pool p
  obtain ⟨-, -, hclosed, hcalls, -⟩ :=
    independent [(0, impatient), (250, patient)] [quick, silent] [1, 0, 0, 1, 0, 1]
  obtain ⟨-, hstuck, halone, hcancelled, -⟩ := hcalls 0 0 impatient rfl
  obtain ⟨-, hstuck', halone', -⟩ := hcalls 1 250 patient rfl
  -- the second call has opened its session first
  have hdraws : p.draws = [1, 0] := by decide +kernel
  have hsilent : p.drawn [quick, silent] 0 = silent := by
    rw [drawn, hdraws]
    rfl
  have hquick : p.drawn [quick, silent] 1 = quick := by
    rw [drawn, hdraws]
    rfl
  have hrun : p.runs[0]? = some (Run.finish { call := impatient, start := 0 } silent).1 :=
    hsilent ▸ (halone (hstuck (by decide))).1
  have hrun' : p.runs[1]? = some (Run.finish { call := patient, start := 250 } quick).1 :=
    hquick ▸ (halone' (hstuck' (by decide))).1
  have hfree : (Run.finish { call := { impatient with cancelAfter := none }, start := 0 }
      silent).1.end? = some (5000000000, .answered (.error .timeout)) := rfl
  have hend : (Run.finish { call := impatient, start := 0 } silent).1.end? =
      some (1000000000, .cancelled) := by
    rw [show drawn _ _ _ = silent from hsilent] at hcancelled
    refine (hcancelled _).2 ⟨.ofMillis 1000, rfl, rfl, ?_⟩
    intro t e he
    cases hfree.symm.trans he
    decide
  have hend' : (Run.finish { call := patient, start := 250 } quick).1.end? =
      some (300000250, .answered (.ok { code := .ofParts 2 5 })) := rfl
  have hruns : p.runs = [(Run.finish { call := impatient, start := 0 } silent).1,
      (Run.finish { call := patient, start := 250 } quick).1] := by
    have hlength : p.runs.length = 2 := by decide +kernel
    refine List.ext_getElem? fun i => ?_
    match i with
    | 0 => exact hrun
    | 1 => exact hrun'
    | i + 2 => simp [hlength]
  have hends : p.runs.map Run.end? = [some (1000000000, .cancelled),
      some (300000250, .answered (.ok { code := .ofParts 2 5 }))] := by
    rw [hruns, List.map_cons, List.map_singleton, hend, hend']
  have hlive : p.live = 0 := by
    refine hclosed fun r hr => .inr ?_
    have hmem : r.end? ∈ p.runs.map Run.end? := List.mem_map_of_mem hr
    rw [hends] at hmem
    rcases List.mem_pair.1 hmem with h | h <;> rw [h] <;> rfl
  exact ⟨by decide +kernel, hlive, hruns, hends⟩

end Pool

end NodeClock
