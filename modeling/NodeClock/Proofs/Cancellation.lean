import NodeClock.Proofs.Call

/-!
# Calls that are cancelled

* `Run.uncancelled`: a call that nobody cancels.
* `Run.Awaits`, `stage_cases`: the two waits of a call, of which the same can be said.
* `Run.Free`: a call that nobody cancels is never late; kept by `Free.step` and `Free.steps`.
* `Run.wake?_cancel`: a cancellation ends the waits that would have lasted longer.
* `Run.Meets`, `Run.meets`: what a cancellation does to one step.
* `Run.Cancels`, `Run.finish_cancels`: **a call is cancelled if without that it would end later or
  never**, and until then it goes as it would.
-/

namespace NodeClock

open Coap

/-- A cancelled call tells no final state. -/
theorem Call.farewell_cancelled (c : Call) : c.farewell .cancelled = [] := by
  unfold Call.farewell
  cases c.purpose <;> rfl

theorem Effect.states_append (es es' : List Effect) :
    Effect.states (es ++ es') = Effect.states es ++ Effect.states es' := List.filterMap_append

namespace Run

variable {r next : Run} {script : Script} {t : Instant} {α : Type} {w : Wait α} {x : Wake α}
  {s : Span} {e : CallEnd} {effects : List Effect}

/-- The call as it is if nobody cancels it. -/
def uncancelled (r : Run) : Run := { r with call := { r.call with cancelAfter := none } }

/-- The moment of the last step. -/
def since (r : Run) : Instant :=
  match r.stage with
  | .waiting => r.start
  | .opening t _ | .exchanging t _ | .ended t _ => t

theorem since_of_end? (h : r.end? = some (t, e)) : r.since = t := by
  unfold end? at h
  unfold since
  split at h
  · cases h
    simp only [*]
  · cases h

/-! ## A call that awaits something -/

/-- What a call does when the wait for its session ends. -/
def afterOpening (script : Script) (r : Run) (y : Instant × Wake Unit) :
    Instant × Run × List Effect :=
  match y.2.result with
  | .error e => r.endAt y.1 [] e
  | .ok () =>
    (y.1, { r with stage := .exchanging y.1 script },
      [.opened, .reached .awaitingResponse] ++ (r.call.request.toOption.map .handed).toList)

/-- What a call does when the wait for its answer ends. -/
def afterExchange (r : Run) (y : Instant × Wake Response) : Instant × Run × List Effect :=
  match y.2.result with
  | .error e => r.endAt y.1 [.closed] e
  | .ok response => r.endAt y.1 [.closed] (.answered (.ok response))

/-- **A call waits for `w`, and `act` is what it does when this comes.** Whether it can be
cancelled makes no difference to this, but only to when the wait ends. -/
structure Awaits (r : Run) (script : Script) (w : Wait α)
    (act : Run → Instant × Wake α → Instant × Run × List Effect) : Prop where
  end_eq : r.end? = none
  step : ∀ r' : Run, r'.stage = r.stage → r'.step? script = (r'.wake? r.since w).map (act r')
  act_eq : ∀ y, ∃ stage effects, act r y = (y.1, { r with stage }, effects) ∧
    act r.uncancelled y = (y.1, { r.uncancelled with stage }, effects) ∧
    ({ r with stage } : Run).since = y.1 ∧
    ∀ t, stage = .ended t .cancelled → y.2.result = .error .cancelled
  act_cancelled : ∀ c, ∃ effects,
    act r (c, .cancelled) = (c, { r with stage := .ended c .cancelled }, effects) ∧
      Effect.states effects = []

theorem awaits_opening {since : Instant} {drawn : Script} (hs : r.stage = .opening since drawn) :
    r.Awaits script drawn.opening (afterOpening drawn) := by
  have hsince : r.since = since := by simp only [Run.since, hs]
  refine ⟨?_, ?_, ?_, ?_⟩
  · simp only [end?, hs]
  · intro r' hr
    rw [hsince]
    unfold step?
    rw [hr, hs]
    rfl
  · intro y
    unfold afterOpening
    cases hres : y.2.result with
    | error e =>
      refine ⟨.ended y.1 e, _, rfl, rfl, rfl, ?_⟩
      rintro _ ⟨⟩
      rfl
    | ok u => exact ⟨.exchanging y.1 drawn, _, rfl, rfl, rfl, nofun⟩
  · exact fun c => ⟨_, rfl, by rw [Call.farewell_cancelled]; rfl⟩

theorem awaits_exchange {since : Instant} {drawn : Script}
    (hs : r.stage = .exchanging since drawn) : r.Awaits script drawn.exchange afterExchange := by
  have hsince : r.since = since := by simp only [Run.since, hs]
  refine ⟨?_, ?_, ?_, ?_⟩
  · simp only [end?, hs]
  · intro r' hr
    rw [hsince]
    unfold step?
    rw [hr, hs]
    rfl
  · intro y
    unfold afterExchange
    cases hres : y.2.result with
    | error e =>
      refine ⟨.ended y.1 e, _, rfl, rfl, rfl, ?_⟩
      rintro _ ⟨⟩
      rfl
    | ok response => exact ⟨.ended y.1 (.answered (.ok response)), _, rfl, rfl, rfl, nofun⟩
  · exact fun c => ⟨_, rfl, by rw [Call.farewell_cancelled]; rfl⟩

/-- A call begins, has ended, or awaits its session or its answer. -/
theorem stage_cases (r : Run) (script : Script) :
    r.stage = .waiting ∨ (∃ t e, r.stage = .ended t e) ∨
      ∃ (α : Type) (w : Wait α) (act : Run → Instant × Wake α → Instant × Run × List Effect),
        r.Awaits script w act := by
  cases hs : r.stage with
  | waiting => exact Or.inl rfl
  | ended t e => exact Or.inr (Or.inl ⟨t, e, rfl⟩)
  | opening since drawn => exact Or.inr (Or.inr ⟨_, _, _, awaits_opening hs⟩)
  | exchanging since drawn => exact Or.inr (Or.inr ⟨_, _, _, awaits_exchange hs⟩)

theorem step?_ended (h : r.stage = .ended t e) : r.step? script = none := by
  unfold step?
  rw [h]

/-- The first step of a call, which nothing can prevent. -/
theorem step?_waiting (script : Script) (h : r.stage = .waiting) :
    ∃ stage effects, r.step? script = some (r.start, { r with stage }, effects) ∧
      r.uncancelled.step? script = some (r.start, { r.uncancelled with stage }, effects) ∧
      ({ r with stage } : Run).since = r.start ∧ ∀ t, stage ≠ .ended t .cancelled := by
  have hfree : r.uncancelled.stage = .waiting := h
  have hq : r.uncancelled.call.request = r.call.request := rfl
  unfold step?
  rw [h, hfree, hq]
  cases r.call.request with
  | error e => exact ⟨.ended r.start (Call.unsendable e), _, rfl, rfl, rfl, nofun⟩
  | ok q => exact ⟨.opening r.start script, _, rfl, rfl, rfl, nofun⟩

/-! ## A call that nobody cancels -/

/-- A call that nobody cancels, and that is not late. -/
structure Free (r : Run) : Prop where
  uncancelled : r.call.cancelAfter = none
  onTime : ∀ d, r.deadline? = some d → r.since ≤ d
  end_ne : ∀ t, r.end? ≠ some (t, .cancelled)

theorem Free.start (hs : r.stage = .waiting) : r.uncancelled.Free := by
  refine ⟨rfl, ?_, ?_⟩
  · intro d hd
    have hsince : r.uncancelled.since = r.start := by
      simp only [since, Run.uncancelled, hs]
    rw [hsince]
    exact Instant.le_of_after? hd
  · intro t
    simp only [end?, Run.uncancelled, hs]
    exact nofun

/-- A wait ends by itself or with the deadline, and not before it began. -/
theorem Free.wake? (h : r.Free) (hw : r.wake? r.since w = some (t, x)) :
    r.since ≤ t ∧ (∀ d, r.deadline? = some d → t ≤ d) ∧ x.result ≠ .error .cancelled := by
  obtain ⟨hmem, hle⟩ := earliest_spec hw
  simp only [h.uncancelled, Option.toList_none, List.map_nil, List.append_nil] at hmem hle
  have hdeadline : ∀ d, r.deadline? = some d → t ≤ d := by
    intro d hr
    refine hle (d, .expired) (List.mem_append_right _ ?_)
    rw [hr]
    exact List.mem_cons_self
  rcases List.mem_append.1 hmem with hmem | hmem
  · cases w with
    | never => cases hmem
    | ends delay result =>
      cases List.mem_singleton.1 hmem
      refine ⟨Nat.le_add_right _ _, hdeadline, ?_⟩
      cases result <;> exact nofun
  · obtain ⟨d, hin, heq⟩ := List.mem_map.1 hmem
    cases heq
    exact ⟨h.onTime t (Option.mem_toList.1 hin), hdeadline, nofun⟩

/-- Such a call may move to another stage in time. -/
theorem Free.move {stage : Stage} (h : r.Free) (hd : ∀ d, r.deadline? = some d → t ≤ d)
    (ht : ({ r with stage } : Run).since = t) (he : ∀ t', stage ≠ .ended t' .cancelled) :
    ({ r with stage } : Run).Free := by
  refine ⟨h.uncancelled, ?_, ?_⟩
  · rw [ht]
    exact hd
  · intro t' hend
    cases stage with
    | ended t e =>
      cases hend
      exact he t' rfl
    | waiting | opening | exchanging => cases hend

/-- The time of such a call does not go back. -/
theorem Free.step (h : r.Free) (hs : r.step? script = some (t, next, effects)) :
    next.Free ∧ r.since ≤ t ∧ next.since = t := by
  rcases r.stage_cases script with hw | ⟨t', e, hended⟩ | ⟨β, w, act, ha⟩
  · obtain ⟨stage, effects', hstep, -, ht, he⟩ := step?_waiting script hw
    rw [hstep] at hs
    cases hs
    have hsince : r.since = r.start := by simp only [since, hw]
    exact ⟨h.move (hsince ▸ h.onTime) ht he, Nat.le_of_eq hsince, ht⟩
  · rw [step?_ended hended] at hs
    cases hs
  · rw [ha.step r rfl] at hs
    obtain ⟨⟨t', x⟩, hwake, heq⟩ := Option.map_eq_some_iff.1 hs
    obtain ⟨hle, hd, hres⟩ := h.wake? hwake
    obtain ⟨stage, effects', hact, -, ht, he⟩ := ha.act_eq (t', x)
    rw [hact] at heq
    cases heq
    exact ⟨h.move hd ht fun t hstage => hres (he t hstage), hle, ht⟩

theorem Free.steps (h : r.Free) (script : Script) (n : Nat) :
    (r.steps script n).1.Free ∧ r.since ≤ (r.steps script n).1.since ∧
      ∀ x ∈ (r.steps script n).2, r.since ≤ x.1 := by
  induction n generalizing r with
  | zero => exact ⟨h, Nat.le_refl _, nofun⟩
  | succ n ih =>
    cases hs : r.step? script with
    | none =>
      rw [steps_of_none _ hs]
      exact ⟨h, Nat.le_refl _, nofun⟩
    | some p =>
      obtain ⟨t, next, effects⟩ := p
      obtain ⟨hnext, hle, rfl⟩ := h.step hs
      obtain ⟨hfree, hsince, hlog⟩ := ih hnext
      rw [steps_succ n hs]
      refine ⟨hfree, Nat.le_trans hle hsince, ?_⟩
      intro x hx
      rcases List.mem_append.1 hx with hx | hx
      · obtain ⟨y, -, rfl⟩ := List.mem_map.1 hx
        exact hle
      · exact Nat.le_trans hle (hlog x hx)

/-- A call whose next step comes after `c` has done nothing until then. -/
theorem Free.steps_late {c : Instant} (h : r.Free) (hend : r.end? = none)
    (hs : ∀ p, r.step? script = some p → c < p.1) (n : Nat) :
    (∀ t e, (r.steps script n).1.end? = some (t, e) → c < t) ∧
      (r.steps script n).2.filter (·.1 ≤ c) = [] := by
  have hpending : ∀ t e, r.end? = some (t, e) → c < t := by
    intro t e he
    cases hend.symm.trans he
  cases n with
  | zero => exact ⟨hpending, rfl⟩
  | succ n =>
    cases hstep : r.step? script with
    | none =>
      rw [steps_of_none _ hstep]
      exact ⟨hpending, rfl⟩
    | some p =>
      obtain ⟨t, next, effects⟩ := p
      have hlt : c < t := hs _ hstep
      obtain ⟨hnext, -, rfl⟩ := h.step hstep
      obtain ⟨-, hsince, hlog⟩ := hnext.steps script n
      rw [steps_succ n hstep]
      constructor
      · intro t e he
        rw [since_of_end? he] at hsince
        exact Nat.lt_of_lt_of_le hlt hsince
      · rw [List.filter_eq_nil_iff]
        intro x hx
        rw [decide_eq_true_iff, Nat.not_le]
        rcases List.mem_append.1 hx with hx | hx
        · obtain ⟨y, -, rfl⟩ := List.mem_map.1 hx
          exact hlt
        · exact Nat.lt_of_lt_of_le hlt (hlog x hx)

/-! ## What a cancellation does to one step -/

/-- A cancellation ends what would have lasted longer. -/
theorem wake?_cancel {since : Instant} (hc : r.call.cancelAfter = some s) :
    r.wake? since w = some ((r.uncancelled.wake? since w).elim (r.start + s.nanos, .cancelled)
      fun y => if r.start + s.nanos < y.1 then (r.start + s.nanos, .cancelled) else y) := by
  unfold wake?
  rw [hc]
  simp only [Option.toList_some, List.map_cons, List.map_nil, earliest_snoc]
  simp only [uncancelled, Option.toList_none, List.map_nil, List.append_nil]
  rfl

/-- What becomes of the next step of a call that is cancelled at `c`. -/
inductive Meets (r : Run) (script : Script) (c : Instant) : Prop where
  | spared (next : Run) {t : Instant} {effects : List Effect} :
      r.uncancelled.step? script = some (t, next.uncancelled, effects) →
      r.step? script = some (t, next, effects) → t ≤ c →
      next.call = r.call → next.start = r.start → Meets r script c
  | struck {effects : List Effect} : r.end? = none →
      (∀ p, r.uncancelled.step? script = some p → c < p.1) →
      r.step? script = some (c, { r with stage := .ended c .cancelled }, effects) →
      Effect.states effects = [] → Meets r script c
  | done {t : Instant} {e : CallEnd} : r.stage = .ended t e → Meets r script c

/-- **A cancellation spares a step or it strikes the call.** -/
theorem meets (script : Script) {c : Instant} (hc : r.call.cancelAfter = some s)
    (hs : r.start + s.nanos = c) : r.Meets script c := by
  rcases r.stage_cases script with hw | ⟨t, e, hended⟩ | ⟨β, w, act, ha⟩
  · obtain ⟨stage, effects, hstep, hfree, -, -⟩ := step?_waiting script hw
    have hle : r.start ≤ c := hs ▸ Nat.le_add_right _ _
    exact .spared { r with stage } hfree hstep hle rfl rfl
  · exact .done hended
  · have hfree := ha.step r.uncancelled rfl
    have hstep := ha.step r rfl
    obtain ⟨effects, hcancel, hstates⟩ := ha.act_cancelled c
    rw [wake?_cancel hc, hs, Option.map_some] at hstep
    cases hwake : r.uncancelled.wake? r.since w with
    | none =>
      rw [hwake, Option.map_none] at hfree
      rw [hwake, Option.elim_none, hcancel] at hstep
      refine .struck ha.end_eq ?_ hstep hstates
      intro p hp
      rw [hfree] at hp
      cases hp
    | some y =>
      obtain ⟨stage, effects', hact, hact', -, -⟩ := ha.act_eq y
      rw [hwake, Option.map_some, hact'] at hfree
      rw [hwake, Option.elim_some] at hstep
      by_cases hlt : c < y.1
      · rw [if_pos hlt, hcancel] at hstep
        refine .struck ha.end_eq ?_ hstep hstates
        intro p hp
        rw [hfree] at hp
        cases hp
        exact hlt
      · rw [if_neg hlt, hact] at hstep
        exact .spared { r with stage } hfree hstep (Nat.le_of_not_lt hlt) rfl rfl

/-! ## What it does to a whole call -/

/-- How a call that is cancelled at `c` goes, compared with the same call `free` that is not. -/
inductive Cancels (c : Instant) (free run : Run × List (Instant × Effect)) : Prop where
  | spared {t : Instant} {e : CallEnd} : free.1.end? = some (t, e) → e ≠ .cancelled → t ≤ c →
      run.1.end? = some (t, e) → run.2 = free.2 → Cancels c free run
  | struck : (∀ t e, free.1.end? = some (t, e) → c < t) → run.1.end? = some (c, .cancelled) →
      Effect.states (run.2.map (·.2)) =
        Effect.states ((free.2.filter (·.1 ≤ c)).map (·.2)) → Cancels c free run

/-- What comes behind effects that are not later than the cancellation. -/
theorem Cancels.after {c : Instant} {free run : Run × List (Instant × Effect)}
    (h : Cancels c free run) (ht : t ≤ c) :
    Cancels c (free.1, effects.map (t, ·) ++ free.2) (run.1, effects.map (t, ·) ++ run.2) := by
  cases h with
  | spared hfree hne hle hrun hlog => exact .spared hfree hne hle hrun (by rw [hlog])
  | struck hfree hrun hlog =>
    refine .struck hfree hrun ?_
    have hkept : (effects.map (t, ·)).filter (·.1 ≤ c) = effects.map (t, ·) := by
      simp [List.filter_eq_self, ht]
    rw [List.filter_append, hkept, List.map_append, List.map_append, Effect.states_append,
      Effect.states_append, hlog]

/-- A call that has ended before its cancellation is spared. -/
theorem cancels_of_ended {c : Instant} (h : r.stage = .ended t e) (hf : r.uncancelled.Free)
    (hle : r.since ≤ c) : Cancels c (r.uncancelled, []) (r, []) := by
  have hend : r.end? = some (t, e) := by simp only [end?, h]
  refine .spared (e := e) hend ?_ (since_of_end? hend ▸ hle) hend rfl
  rintro rfl
  exact hf.end_ne t hend

/-- **A call goes as without its cancellation until this strikes it.** -/
theorem steps_cancels {c : Instant} {n : Nat} (hc : r.call.cancelAfter = some s)
    (hs : r.start + s.nanos = c) (hf : r.uncancelled.Free) (hle : r.since ≤ c)
    (hn : r.rank ≤ n) :
    Cancels c (r.uncancelled.steps script n) (r.steps script n) := by
  -- step for step the call is spared, until one step is struck and ends it
  induction n generalizing r with
  | zero =>
    cases hstage : r.stage with
    | ended t e => exact cancels_of_ended hstage hf hle
    | waiting | opening | exchanging => simp [rank, hstage] at hn
  | succ n ih =>
    cases meets script hc hs with
    | @spared next t effects hfree hstep ht hcall hstart =>
      obtain ⟨hnext, -, hsince⟩ := hf.step hfree
      have hrank := (step?_acts hstep).rank_lt
      have hrest := ih (hcall ▸ hc) (hstart ▸ hs) hnext (Nat.le_trans (Nat.le_of_eq hsince) ht)
        (by omega)
      rw [steps_succ n hfree, steps_succ n hstep]
      exact hrest.after ht
    | @struck effects hend hfree hstep hstates =>
      obtain ⟨hlate, hnone⟩ := hf.steps_late hend hfree (n + 1)
      refine .struck hlate ?_ ?_
      · rw [steps_succ n hstep, steps_of_none n (step?_ended rfl)]
        rfl
      · rw [steps_succ n hstep, steps_of_none n (step?_ended rfl), hnone, List.append_nil,
          map_snd_stamp, hstates]
        rfl
    | done hended =>
      have hfree : r.uncancelled.step? script = none := step?_ended hended
      rw [steps_of_none _ (step?_ended hended), steps_of_none _ hfree]
      exact cancels_of_ended hended hf hle

/-- **A call is cancelled if without that it would end later or never.** -/
theorem finish_cancels (script : Script) (hw : r.stage = .waiting)
    (hc : r.call.cancelAfter = some s) :
    Cancels (r.start + s.nanos) (r.uncancelled.finish script) (r.finish script) := by
  have hsince : r.since = r.start := by simp only [since, hw]
  exact steps_cancels hc rfl (.start hw) (hsince ▸ Nat.le_add_right _ _) r.rank_le

/-- When a call alone is cancelled. -/
theorem finish_cancelled_iff (hw : r.stage = .waiting) :
    (r.finish script).1.end? = some (t, .cancelled) ↔
      ∃ s, r.call.cancelAfter = some s ∧ t = r.start + s.nanos ∧
        ∀ t' e, (r.uncancelled.finish script).1.end? = some (t', e) → t < t' := by
  cases hc : r.call.cancelAfter with
  | none =>
    have hsame : r.uncancelled = r := by
      unfold uncancelled
      rw [← hc]
    have hfree : r.Free := hsame ▸ .start hw
    constructor
    · intro h
      exact absurd h ((hfree.steps script maxSteps).1.end_ne t)
    · rintro ⟨s, hs, -⟩
      cases hs
  | some s =>
    cases finish_cancels script hw hc with
    | @spared t' e hfree hne hle hrun _ =>
      constructor
      · intro h
        rw [hrun] at h
        cases h
        exact absurd rfl hne
      · rintro ⟨s', hs, rfl, hlate⟩
        cases hs
        exact absurd (hlate t' e hfree) (Nat.not_lt.2 hle)
    | struck hlate hrun _ =>
      constructor
      · intro h
        rw [hrun] at h
        cases h
        exact ⟨s, rfl, rfl, hlate⟩
      · rintro ⟨s', hs, rfl, -⟩
        cases hs
        exact hrun

end Run

end NodeClock
