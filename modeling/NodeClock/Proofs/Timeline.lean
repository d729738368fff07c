import NodeClock.Proofs.Retransmission

/-!
# An exchange in time

What arrives is read when it arrives, and a timer runs out at the first moment from its deadline
on at which the clock wakes. So the events of an exchange, and with them all that it sends, follow
from what arrives and when.

* `Runtime`: a clock and what it wakes at, and a socket and whether it sends.
* `Arrival`, `Chronological`: what arrives and when, in order.
* `Exchange.next?`: the next event.
* `Exchange.timeline`: **all that an exchange sends and when, and when and how it ends.**
* `Exchange.timeline_induction`: induction along a timeline.
* `Exchange.ignores`, `ignores_iff`: arrivals that mean nothing to an exchange.
* `Exchange.timeline_filter`: **without them it sends its requests and ends as with them.**
-/

namespace NodeClock

open Coap

/-- A clock that wakes at some moments, and a socket. -/
structure Runtime where
  /-- the first moment from `t` on at which a timer can run out -/
  wake : Instant → Instant
  le_wake : ∀ t, t ≤ wake t
  /-- whether the request can be sent again, after so many times -/
  resends : Nat → Except IoError Unit := fun _ => .ok ()

/-- The next multiple of `step` is not less. -/
theorem le_ceil {step : Nat} (h : 0 < step) (t : Nat) : t ≤ (t + step - 1) / step * step := by
  have hdiv := Nat.div_add_mod' (t + step - 1) step
  have hmod := Nat.mod_lt (t + step - 1) h
  omega

/-- A clock that wakes at the multiples of `step`, and a socket that does not fail. -/
def Runtime.ticking (step : Nat) (h : 0 < step) : Runtime where
  wake t := (t + step - 1) / step * step
  le_wake := le_ceil h

/-- A datagram that arrives, or the failure of the socket. Of what happens at its moment it comes
behind the first `turn` retransmissions and before the next. -/
structure Arrival where
  moment : Instant
  turn : Nat := 0
  content : Except IoError Bytes

namespace Arrival

/-- What arrives comes before the request is sent again at `t`, after having been sent again `n`
times. At one moment what arrives is read first, unless it is sent in answer to a request of the
same moment. -/
def Precedes (a : Arrival) (t : Instant) (n : Nat) : Prop :=
  a.moment < t ∨ a.moment = t ∧ a.turn ≤ n

instance (a : Arrival) (t : Instant) (n : Nat) : Decidable (a.Precedes t n) :=
  inferInstanceAs (Decidable (_ ∨ _))

/-- The event that it is. -/
def event (a : Arrival) : Exchange.Event :=
  match a.content with
  | .ok datagram => .received datagram (.ok ())
  | .error e => .broken e

/-- Arrivals in their order. -/
def Chronological (arrivals : List Arrival) : Prop :=
  arrivals.Pairwise fun a b => a.Precedes b.moment b.turn

instance (arrivals : List Arrival) : Decidable (Chronological arrivals) :=
  inferInstanceAs (Decidable (List.Pairwise _ _))

theorem Precedes.trans {a b : Arrival} {t : Instant} {n : Nat}
    (h : a.Precedes b.moment b.turn) (k : b.Precedes t n) : a.Precedes t n := by
  unfold Precedes at *
  rcases h with h | ⟨h, hn⟩ <;> rcases k with k | ⟨k, kn⟩
  · exact Or.inl (Nat.lt_trans h k)
  · exact Or.inl (k ▸ h)
  · exact Or.inl (h ▸ k)
  · exact Or.inr ⟨h.trans k, Nat.le_trans hn kn⟩

theorem Precedes.mono {a : Arrival} {t t' : Instant} {n n' : Nat} (h : a.Precedes t n)
    (ht : t ≤ t') (hn : n ≤ n') : a.Precedes t' n' := by
  unfold Precedes at *
  rcases h with h | ⟨rfl, h⟩
  · exact Or.inl (Nat.lt_of_lt_of_le h ht)
  · rcases Nat.lt_or_eq_of_le ht with hlt | heq
    · exact Or.inl hlt
    · exact Or.inr ⟨heq, Nat.le_trans h hn⟩

/-- If the first of some arrivals comes too late, all do. -/
theorem Chronological.not_precedes {arrivals : List Arrival} {t : Instant} {n : Nat}
    (hc : Chronological arrivals) (h : ∀ a ∈ arrivals.head?, ¬ a.Precedes t n) :
    ∀ a ∈ arrivals, ¬ a.Precedes t n := by
  cases arrivals with
  | nil => exact nofun
  | cons b rest =>
    have hb := h b rfl
    intro a ha hp
    rcases List.mem_cons.1 ha with rfl | ha
    · exact hb hp
    · exact hb (((List.pairwise_cons.1 hc).1 a ha).trans hp)

end Arrival

open Arrival

namespace Exchange

variable {x y : Exchange} {rt : Runtime} {a : Arrival} {arrivals rest : List Arrival}
  {t : Instant} {e : Event} {sent : List Bytes} {standing : Standing}
  {result : Except TransportError Response}

/-- The next event: the timer runs out, or something arrives before. -/
def next? (rt : Runtime) (x : Exchange) (arrivals : List Arrival) :
    Option (Instant × Event × List Arrival) :=
  let fires : Option (Instant × Event × List Arrival) := x.timer?.map fun t =>
    (rt.wake t, .expired (rt.wake t) (rt.resends x.retransmits), arrivals)
  match arrivals with
  | [] => fires
  | a :: rest =>
    if ∀ t ∈ x.timer?, a.Precedes (rt.wake t) x.retransmits then some (a.moment, a.event, rest)
    else fires

/-- What the next event can be. -/
inductive Comes (rt : Runtime) (x : Exchange) : List Arrival → Instant → Event → List Arrival →
    Prop where
  | arrival {a : Arrival} {rest : List Arrival} :
      (∀ t ∈ x.timer?, a.Precedes (rt.wake t) x.retransmits) →
      Comes rt x (a :: rest) a.moment a.event rest
  | timer {t : Instant} {arrivals : List Arrival} : x.timer? = some t →
      (∀ a ∈ arrivals.head?, ¬ a.Precedes (rt.wake t) x.retransmits) →
      Comes rt x arrivals (rt.wake t) (.expired (rt.wake t) (rt.resends x.retransmits)) arrivals

theorem next?_comes (h : x.next? rt arrivals = some (t, e, rest)) :
    x.Comes rt arrivals t e rest := by
  unfold next? at h
  cases arrivals with
  | nil =>
    obtain ⟨T, hT, heq⟩ := Option.map_eq_some_iff.1 h
    cases heq
    exact .timer hT nofun
  | cons a others =>
    simp only at h
    split at h
    case isTrue hp =>
      cases h
      exact .arrival hp
    case isFalse hp =>
      obtain ⟨T, hT, heq⟩ := Option.map_eq_some_iff.1 h
      cases heq
      refine .timer hT ?_
      rintro _ ⟨⟩ ha
      exact hp fun T' hT' => by
        cases hT.symm.trans hT'
        exact ha

/-- What arrives before the timer runs out is the next event. -/
theorem next?_arrival (h : ∀ t ∈ x.timer?, a.Precedes (rt.wake t) x.retransmits) :
    x.next? rt (a :: rest) = some (a.moment, a.event, rest) := if_pos h

/-- The timer is next if nothing arrives before. -/
theorem next?_timer (ht : x.timer? = some t)
    (h : ∀ a ∈ arrivals.head?, ¬ a.Precedes (rt.wake t) x.retransmits) :
    x.next? rt arrivals =
      some (rt.wake t, .expired (rt.wake t) (rt.resends x.retransmits), arrivals) := by
  unfold next?
  rw [ht]
  cases arrivals with
  | nil => rfl
  | cons a rest => exact if_neg fun hp => h a rfl (hp t rfl)

/-- Nothing happens any more only if nothing arrives and no timer runs. -/
theorem of_next?_eq_none (h : x.next? rt arrivals = none) : arrivals = [] ∧ x.timer? = none := by
  unfold next? at h
  cases arrivals with
  | nil => exact ⟨rfl, Option.map_eq_none_iff.1 h⟩
  | cons a rest =>
    simp only at h
    split at h
    case isTrue => cases h
    case isFalse hp =>
      rw [Option.map_eq_none_iff] at h
      rw [h] at hp
      exact absurd nofun hp

/-- How many events there can still be. -/
def work (x : Exchange) (arrivals : List Arrival) : Nat :=
  arrivals.length + (x.maxRetransmit.toNat - x.retransmits)

/-- The timer runs out in its time. -/
theorem step_timer (rt : Runtime) (ht : x.timer? = some t) :
    x.step (.expired (rt.wake t) (rt.resends x.retransmits)) =
      ([x.datagram], match rt.resends x.retransmits with
        | .ok () => .pending (x.retransmitted (rt.wake t))
        | .error e => .ended (.error (.io e))) := by
  unfold step
  simp only [ht, if_neg (Nat.not_lt.2 (rt.le_wake t))]
  cases rt.resends x.retransmits <;> rfl

theorem expires_event (a : Arrival) : x.expires a.event = false := by
  unfold Arrival.event
  cases a.content <;> rfl

theorem work_lt (h : x.next? rt arrivals = some (t, e, rest)) (hs : x.step e = (sent, .pending y)) :
    y.work rest < x.work arrivals := by
  have hcount := step_retransmits hs
  have hmax := (step_kin hs).maxRetransmit
  unfold work
  rw [hmax]
  cases next?_comes h with
  | arrival _ =>
    rw [expires_event, Bool.toNat_false] at hcount
    rw [hcount, List.length_cons]
    omega
  | timer ht _ =>
    rw [expires_iff.2 ⟨_, ht, rt.le_wake _⟩, Bool.toNat_true] at hcount
    have hlt := (timer?_eq_some_iff.1 ht).2.1
    omega

/-- What an exchange sends and when, and when and how it ends, if it does. -/
structure Record where
  sent : List (Instant × Bytes) := []
  ended : Option (Instant × Except TransportError Response) := none

/-- Datagrams that are sent before all else. -/
def Record.after (t : Instant) (datagrams : List Bytes) (r : Record) : Record :=
  { r with sent := datagrams.map (t, ·) ++ r.sent }

/-- The requests among all that is sent. -/
def Record.requests (r : Record) : List (Instant × Bytes) := r.sent.filter fun p => isRequest p.2

/-- **All that an exchange does from now on**, event by event. -/
def timeline (rt : Runtime) (x : Exchange) (arrivals : List Arrival) : Record :=
  match _h : x.next? rt arrivals with
  | none => {}
  | some (t, e, rest) =>
    match _hs : x.step e with
    | (sent, .ended result) => Record.after t sent { ended := some (t, result) }
    | (sent, .pending y) => (y.timeline rt rest).after t sent
termination_by x.work arrivals
decreasing_by exact work_lt ‹_› ‹_›

/-- What holds of an exchange if it holds after the next event holds of every exchange. -/
@[elab_as_elim]
theorem timeline_induction (rt : Runtime) {motive : Exchange → List Arrival → Prop}
    (step : ∀ x arrivals, (∀ t e rest sent y, x.next? rt arrivals = some (t, e, rest) →
      x.step e = (sent, .pending y) → motive y rest) → motive x arrivals)
    (x : Exchange) (arrivals : List Arrival) : motive x arrivals := by
  induction hn : x.work arrivals using Nat.strongRecOn generalizing x arrivals with
  | ind n ih =>
    subst hn
    exact step x arrivals fun t e rest sent y h hs => ih _ (work_lt h hs) y rest rfl

theorem timeline_none (h : x.next? rt arrivals = none) : x.timeline rt arrivals = {} := by
  rw [timeline]
  split
  · rfl
  · rename_i h'
    cases h.symm.trans h'

theorem timeline_ended (h : x.next? rt arrivals = some (t, e, rest))
    (hs : x.step e = (sent, .ended result)) :
    x.timeline rt arrivals = Record.after t sent { ended := some (t, result) } := by
  rw [timeline]
  split
  case h_1 h' => cases h.symm.trans h'
  case h_2 h' =>
    cases h.symm.trans h'
    split
    case h_1 hs' =>
      cases hs.symm.trans hs'
      rfl
    case h_2 hs' => cases hs.symm.trans hs'

theorem timeline_pending (h : x.next? rt arrivals = some (t, e, rest))
    (hs : x.step e = (sent, .pending y)) :
    x.timeline rt arrivals = (y.timeline rt rest).after t sent := by
  rw [timeline]
  split
  case h_1 h' => cases h.symm.trans h'
  case h_2 h' =>
    cases h.symm.trans h'
    split
    case h_1 hs' => cases hs.symm.trans hs'
    case h_2 hs' =>
      cases hs.symm.trans hs'
      rfl

/-! ## What means nothing -/

/-- An arrival that cannot be read or is not for this exchange. -/
def ignores (x : Exchange) (a : Arrival) : Bool :=
  match a.content with
  | .error _ => false
  | .ok datagram =>
    match Frame.decode (datagram.take receiveLimit) with
    | .error _ => true
    | .ok f => x.judge f = .unrelated

theorem Kin.ignores (h : Kin x y) : y.ignores = x.ignores := by
  funext a
  unfold Exchange.ignores
  simp only [h.judge]

theorem ignores_iff :
    x.ignores a ↔ ∃ d, a.content = .ok d ∧
      ∀ f, Frame.decode (d.take receiveLimit) = .ok f → x.judge f = .unrelated := by
  unfold ignores
  cases a.content with
  | error err => simp
  | ok d => cases hd : Frame.decode (d.take receiveLimit) <;> simp [hd]

/-- What means nothing to an exchange leaves it as it is. -/
theorem step_ignored (h : x.ignores a) : ∃ sent, x.step a.event = (sent, .pending x) := by
  obtain ⟨d, hc, hj⟩ := ignores_iff.1 h
  unfold Arrival.event step
  rw [hc]
  simp only
  cases hd : Frame.decode (d.take receiveLimit) with
  | error err => exact ⟨_, rfl⟩
  | ok f => exact ⟨_, congrArg (Prod.mk _) (accept_pending_iff.2 (Or.inr ⟨hj f hd, rfl⟩))⟩

/-- No request is sent upon an arrival. -/
theorem requests_arrival (hx : isRequest x.datagram) (h : x.step a.event = (sent, standing)) :
    sent.filter isRequest = [] := by
  have hsent := step_requests hx h
  rw [expires_event] at hsent
  exact hsent

theorem Record.requests_after (t : Instant) (sent : List Bytes) (r : Record) :
    (r.after t sent).requests = (sent.filter isRequest).map (t, ·) ++ r.requests := by
  unfold Record.requests Record.after
  rw [List.filter_append, List.filter_map]
  rfl

/-- Two records that differ in nothing but in the answers to what arrived. -/
structure Record.Alike (r r' : Record) : Prop where
  requests : r'.requests = r.requests
  ended : r'.ended = r.ended

theorem Record.Alike.after {r r' : Record} (h : r.Alike r') (t : Instant) (sent : List Bytes) :
    (r.after t sent).Alike (r'.after t sent) := by
  refine ⟨?_, h.ended⟩
  rw [Record.requests_after, Record.requests_after, h.requests]

/-- Two timelines that begin with the same event are alike if their rests are. -/
theorem timeline_alike {arrivals' rest' : List Arrival}
    (h : x.next? rt arrivals = some (t, e, rest)) (h' : x.next? rt arrivals' = some (t, e, rest'))
    (hrest : ∀ sent y, x.step e = (sent, .pending y) →
      (y.timeline rt rest).Alike (y.timeline rt rest')) :
    (x.timeline rt arrivals).Alike (x.timeline rt arrivals') := by
  cases hs : x.step e with
  | mk sent standing =>
    cases standing with
    | ended result =>
      rw [timeline_ended h hs, timeline_ended h' hs]
      exact ⟨rfl, rfl⟩
    | pending y =>
      rw [timeline_pending h hs, timeline_pending h' hs]
      exact (hrest sent y hs).after t sent

/-- **Without what means nothing to it an exchange sends its requests and ends as with it.** -/
theorem timeline_filter (rt : Runtime) (hx : isRequest x.datagram) (hc : Chronological arrivals) :
    (x.timeline rt arrivals).Alike (x.timeline rt (arrivals.filter (!x.ignores ·))) := by
  induction x, arrivals using timeline_induction rt with
  | step x arrivals ih =>
    -- after an event that both see, the same arrivals are ignored
    have hnext {t : Instant} {e : Event} {rest sent : List _} {y : Exchange}
        (h : x.next? rt arrivals = some (t, e, rest)) (hs : x.step e = (sent, .pending y))
        (hrest : Chronological rest) :
        (y.timeline rt rest).Alike (y.timeline rt (rest.filter (!x.ignores ·))) := by
      have hkin := step_kin hs
      have hlike := ih t e rest sent y h hs (by rw [hkin.datagram]; exact hx) hrest
      rw [hkin.ignores] at hlike
      exact hlike
    cases h : x.next? rt arrivals with
    | none =>
      obtain ⟨rfl, -⟩ := of_next?_eq_none h
      exact ⟨rfl, rfl⟩
    | some p =>
      obtain ⟨t, e, rest⟩ := p
      cases next?_comes h with
      | @arrival a rest hp =>
        have hrest := (List.pairwise_cons.1 hc).2
        cases hi : x.ignores a with
        | true =>
          obtain ⟨sent, hs⟩ := step_ignored hi
          have hlike := hnext h hs hrest
          have hnone := requests_arrival hx hs
          rw [List.filter_cons_of_neg (by simp [hi]), timeline_pending h hs]
          refine ⟨?_, hlike.ended⟩
          rw [Record.requests_after, hnone]
          exact hlike.requests
        | false =>
          rw [List.filter_cons_of_pos (by simp [hi])]
          exact timeline_alike h (next?_arrival hp) fun sent y hs => hnext h hs hrest
      | @timer T _ hT hlate =>
        -- what is left of the arrivals comes no earlier than the first of all of them
        have hall := hc.not_precedes hlate
        refine timeline_alike h (next?_timer hT ?_) fun sent y hs => hnext h hs hc
        intro a ha
        exact hall a (List.mem_filter.1 (List.mem_of_mem_head? ha)).1

end Exchange

end NodeClock
