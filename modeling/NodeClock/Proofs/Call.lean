import NodeClock.Call.Basic

/-!
# A call run alone

* `earliest_spec`, `earliest_snoc`: the earliest of some moments, and of one more.
* `Run.wake?_finished`, `wake?_expired`, `wake?_never`: what ends a wait of a call that is not
  cancelled.
* `Run.steps_succ`, `steps_add`: one more step at the beginning, and some more at the end.
* `Run.Acts`, `step?_acts`: **all that a call can do with a step**.
* `Run.count_greeting`, `count_farewell`: what a call does not tell at its beginning and its end.
* `Run.rank`, `step?_steps_eq_none`: how many steps there are at most.
* `Run.finish_unsendable`, `finish_sendable`: **a call run to its end, its two waits laid open.**
-/

namespace NodeClock

open Coap

/-- One more moment counts only if it is earlier than all the others. -/
theorem earliest_snoc {α : Type} (l : List (Instant × α)) (x : Instant × α) :
    earliest (l ++ [x]) = some ((earliest l).elim x fun y => if x.1 < y.1 then x else y) := by
  induction l with
  | nil => rfl
  | cons z l ih =>
    rw [List.cons_append, earliest, ih, earliest]
    cases earliest l with
    | none => exact (apply_ite some _ _ _).symm
    | some y =>
      simp only [Option.elim]
      grind

theorem earliest_eq_none_iff {α : Type} {l : List (Instant × α)} : earliest l = none ↔ l = [] := by
  cases l with
  | nil => simp [earliest]
  | cons z l =>
    rw [earliest]
    cases earliest l with
    | none => simp
    | some y =>
      simp only
      split <;> simp

/-- The earliest of some moments is one of them. -/
theorem earliest_spec {α : Type} {l : List (Instant × α)} {x : Instant × α}
    (h : earliest l = some x) : x ∈ l ∧ ∀ y ∈ l, x.1 ≤ y.1 := by
  induction l generalizing x with
  | nil => cases h
  | cons z l ih =>
    rw [earliest] at h
    cases hl : earliest l with
    | none =>
      rw [hl] at h
      cases h
      rw [earliest_eq_none_iff.1 hl]
      simp
    | some y =>
      obtain ⟨hmem, hle⟩ := ih hl
      rw [hl] at h
      simp only at h
      grind

namespace Run

variable {r next : Run} {drawn script : Script} {since t : Instant} {α : Type} {w : Wait α}
  {effects : List Effect}

/-! ## What ends a wait -/

/-- What comes by the deadline is what ends a wait. -/
theorem wake?_finished {delay : Nat} {result : Except TransportError α}
    (hc : r.call.cancelAfter = none) (hw : w = .ends delay result)
    (hd : ∀ t, r.deadline? = some t → since + delay ≤ t) :
    r.wake? since w = some (since + delay, .finished result) := by
  unfold wake?
  rw [hw, hc]
  cases h : r.deadline? with
  | none => rfl
  | some t =>
    have hle := hd t h
    simp only [Option.toList_some, List.map_cons, List.map_nil, Option.toList_none,
      List.append_nil, earliest_snoc]
    simp [earliest, Nat.not_lt.2 hle]

/-- The deadline ends a wait for what comes later or never. -/
theorem wake?_expired (hc : r.call.cancelAfter = none) (hd : r.deadline? = some t)
    (hw : ∀ delay result, w = .ends delay result → t < since + delay) :
    r.wake? since w = some (t, .expired) := by
  unfold wake?
  rw [hc, hd]
  simp only [Option.toList_some, List.map_cons, List.map_nil, Option.toList_none,
    List.append_nil, earliest_snoc]
  cases w with
  | never => rfl
  | ends delay result =>
    have hlt := hw delay result rfl
    simp [earliest, hlt]

/-- Without a deadline nothing ends a wait for what never comes. -/
theorem wake?_never (since : Instant) (hc : r.call.cancelAfter = none) (hd : r.deadline? = none)
    (hw : w = .never) : r.wake? since w = none := by
  unfold wake?
  rw [hc, hd, hw]
  rfl

/-! ## Steps -/

theorem map_snd_stamp (t : Instant) (effects : List Effect) :
    (effects.map (t, ·)).map (·.2) = effects := by
  rw [List.map_map]
  exact List.map_id _

theorem steps_succ (n : Nat) (h : r.step? drawn = some (t, next, effects)) :
    r.steps drawn (n + 1) =
      ((next.steps drawn n).1, effects.map (t, ·) ++ (next.steps drawn n).2) := by
  rw [steps, h]

theorem steps_of_none (n : Nat) (h : r.step? drawn = none) : r.steps drawn n = (r, []) := by
  cases n with
  | zero => rfl
  | succ n => rw [steps, h]

/-- Some steps and then some more. -/
theorem steps_add (n m : Nat) :
    r.steps drawn (n + m) =
      (((r.steps drawn n).1.steps drawn m).1,
        (r.steps drawn n).2 ++ ((r.steps drawn n).1.steps drawn m).2) := by
  induction n generalizing r with
  | zero => rw [Nat.zero_add, steps, List.nil_append]
  | succ n ih =>
    cases h : r.step? drawn with
    | none => rw [steps_of_none _ h, steps_of_none _ h, steps_of_none _ h, List.nil_append]
    | some p =>
      obtain ⟨t, next, effects⟩ := p
      rw [Nat.add_right_comm, steps_succ _ h, steps_succ _ h, ih, List.append_assoc]

/-- What a call does with a step. -/
inductive Acts (r : Run) (drawn : Script) : Instant → Run → List Effect → Prop where
  | refused {e : TimeError} : r.stage = .waiting → r.call.request = .error e →
      Acts r drawn r.start { r with stage := .ended r.start (Call.unsendable e) }
        (r.call.greeting ++ r.call.farewell (Call.unsendable e))
  | begins {q : Request} : r.stage = .waiting → r.call.request = .ok q →
      Acts r drawn r.start { r with stage := .opening r.start drawn }
        (r.call.greeting ++ [.reached .sending])
  | connects {since t : Instant} {script : Script} : r.stage = .opening since script →
      Acts r drawn t { r with stage := .exchanging t script }
        ([.opened, .reached .awaitingResponse] ++ (r.call.request.toOption.map .handed).toList)
  | breaksOff {since t : Instant} {script : Script} {e : CallEnd} :
      r.stage = .opening since script →
      Acts r drawn t { r with stage := .ended t e } (r.call.farewell e)
  | ends {since t : Instant} {script : Script} {e : CallEnd} :
      r.stage = .exchanging since script →
      Acts r drawn t { r with stage := .ended t e } (.closed :: r.call.farewell e)

/-- **Each step is one of these acts.** -/
theorem step?_acts (h : r.step? drawn = some (t, next, effects)) :
    r.Acts drawn t next effects := by
  unfold step? at h
  split at h
  case h_1 hs =>
    split at h
    case h_1 e hq =>
      cases h
      exact .refused hs hq
    case h_2 q hq =>
      cases h
      exact .begins hs hq
  case h_2 since script hs =>
    obtain ⟨⟨t', w⟩, -, hw⟩ := Option.map_eq_some_iff.1 h
    simp only at hw
    split at hw
    · cases hw
      exact .breaksOff hs
    · cases hw
      exact .connects hs
  case h_3 since script hs =>
    obtain ⟨⟨t', w⟩, -, hw⟩ := Option.map_eq_some_iff.1 h
    simp only at hw
    split at hw
    · cases hw
      exact .ends hs
    · cases hw
      exact .ends hs
  case h_4 => cases h

/-- Only a call that begins looks at the script that is there to be drawn. -/
theorem step?_congr (h : r.opens = false) (drawn drawn' : Script) :
    r.step? drawn = r.step? drawn' := by
  unfold step?
  cases hs : r.stage with
  | waiting =>
    cases hq : r.call.request with
    | error e => rfl
    | ok q =>
      unfold opens at h
      rw [hs, hq] at h
      cases h
  | opening since script => rfl
  | exchanging since script => rfl
  | ended since e => rfl

/-- What a call tells before it waits is at most that it is idle. -/
theorem count_greeting {c : Call} {x : Effect} (hx : x ≠ .reached .idle) :
    c.greeting.count x = 0 := by
  rw [List.count_eq_zero]
  unfold Call.greeting
  cases c.purpose with
  | set =>
    intro hmem
    exact hx (List.mem_singleton.1 hmem)
  | read => exact List.not_mem_nil

/-- What a call tells at its end is at most how it ended. -/
theorem count_farewell {c : Call} {e : CallEnd} {x : Effect}
    (hx : ∀ o : Outcome, x ≠ .reached o.progress) : (c.farewell e).count x = 0 := by
  rw [List.count_eq_zero]
  unfold Call.farewell
  split
  · intro hmem
    exact hx _ (List.mem_singleton.1 hmem)
  · exact List.not_mem_nil

/-- How many steps a call can still take at most. -/
def rank (r : Run) : Nat :=
  match r.stage with
  | .waiting => 3
  | .opening .. => 2
  | .exchanging .. => 1
  | .ended .. => 0

theorem rank_le (r : Run) : r.rank ≤ maxSteps := by
  unfold rank maxSteps
  split <;> omega

theorem Acts.rank_lt (h : r.Acts drawn t next effects) : next.rank < r.rank := by
  cases h <;> simp_all [rank]

/-- No call takes more steps than its rank tells. -/
theorem step?_steps_eq_none {n : Nat} (h : r.rank ≤ n) :
    (r.steps drawn n).1.step? drawn = none := by
  induction n generalizing r with
  | zero =>
    cases hr : r.step? drawn with
    | none => exact hr
    | some p =>
      have hlt := (step?_acts hr).rank_lt
      omega
  | succ n ih =>
    cases hr : r.step? drawn with
    | none =>
      rw [steps_of_none _ hr]
      exact hr
    | some p =>
      have hlt := (step?_acts hr).rank_lt
      rw [steps_succ _ hr]
      exact ih (by omega)

/-- A call whose request could not be rendered ends at once. -/
theorem finish_unsendable {e : TimeError} (hs : r.stage = .waiting)
    (hq : r.call.request = .error e) :
    r.finish script =
      ({ r with stage := .ended r.start (Call.unsendable e) },
        (r.call.greeting ++ r.call.farewell (Call.unsendable e)).map (r.start, ·)) := by
  have h1 : r.step? script = some (r.endAt r.start r.call.greeting (Call.unsendable e)) := by
    unfold step?
    rw [hs]
    simp only [hq]
  unfold finish maxSteps
  rw [steps_succ 2 h1, steps_of_none 2 rfl, List.append_nil]

/-- **A call run to its end**, if it has a request to send: it waits for a session and then for
an answer. -/
theorem finish_sendable {q : Request} (hs : r.stage = .waiting) (hq : r.call.request = .ok q) :
    r.finish script =
      let begun : List Effect := r.call.greeting ++ [.reached .sending]
      match r.wake? r.start script.opening with
      | none => ({ r with stage := .opening r.start script }, begun.map (r.start, ·))
      | some (t, w) =>
        match w.result with
        | .error e =>
          ({ r with stage := .ended t e },
            begun.map (r.start, ·) ++ (r.call.farewell e).map (t, ·))
        | .ok () =>
          let opened : List Effect := [.opened, .reached .awaitingResponse, .handed q]
          match r.wake? t script.exchange with
          | none =>
            ({ r with stage := .exchanging t script },
              begun.map (r.start, ·) ++ opened.map (t, ·))
          | some (t', w') =>
            let e := match w'.result with
              | .error e => e
              | .ok response => .answered (.ok response)
            ({ r with stage := .ended t' e },
              begun.map (r.start, ·) ++ opened.map (t, ·) ++
                (.closed :: r.call.farewell e).map (t', ·)) := by
  have h1 : r.step? script = some (r.start, { r with stage := .opening r.start script },
      r.call.greeting ++ [.reached .sending]) := by
    unfold step?
    rw [hs]
    simp only [hq]
  unfold finish maxSteps
  rw [steps_succ 2 h1]
  -- what ends a wait depends on the call and its beginning, not on how far it has come
  have hwake (stage : Stage) {β : Type} (since : Instant) (w : Wait β) :
      ({ r with stage } : Run).wake? since w = r.wake? since w := rfl
  cases hw : r.wake? r.start script.opening with
  | none =>
    have h2 : ({ r with stage := .opening r.start script } : Run).step? script = none := by
      simp only [step?, hwake, hw, Option.map_none]
    rw [steps_of_none 2 h2, List.append_nil]
  | some p =>
    obtain ⟨t, w⟩ := p
    cases hres : w.result with
    | error e =>
      have h2 : ({ r with stage := .opening r.start script } : Run).step? script =
          some (endAt r t [] e) := by
        simp only [step?, hwake, hw, Option.map_some, hres, endAt]
      rw [steps_succ 1 h2, steps_of_none 1 rfl]
      simp only [List.nil_append, List.append_nil, hres]
    | ok u =>
      have h2 : ({ r with stage := .opening r.start script } : Run).step? script =
          some (t, { r with stage := .exchanging t script },
            [.opened, .reached .awaitingResponse, .handed q]) := by
        simp only [step?, hwake, hw, Option.map_some, hres, hq, Except.toOption,
          Option.toList_some, List.cons_append, List.nil_append]
      rw [steps_succ 1 h2]
      cases hw' : r.wake? t script.exchange with
      | none =>
        have h3 : ({ r with stage := .exchanging t script } : Run).step? script = none := by
          simp only [step?, hwake, hw', Option.map_none]
        rw [steps_of_none 1 h3]
        simp only [hres, hw', List.append_nil]
      | some p' =>
        obtain ⟨t', w'⟩ := p'
        have h3 : ({ r with stage := .exchanging t script } : Run).step? script =
            some (endAt r t' [.closed] (match w'.result with
              | .error e => e
              | .ok response => .answered (.ok response))) := by
          simp only [step?, hwake, hw', Option.map_some, endAt]
          cases w'.result <;> rfl
        rw [steps_succ 0 h3]
        simp only [hres, hw', steps, List.append_nil, List.append_assoc, List.cons_append,
          List.nil_append]

end Run

end NodeClock
