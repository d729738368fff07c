import NodeClock.Exchange.Rehearsal
import NodeClock.Proofs.Backoff

/-!
# A rehearsed exchange goes by its timeline

The scripted node answers what it hears, so that what arrives depends on what is sent. Still, an
exchange with it does what the timeline of its arrivals says, on a clock that wakes at each tick.
No other module needs this. It is a result of its own: what is known of timelines, such as when a
request is sent again, holds of the exchanges that a program rehearses.

* `Line.clock`: that clock.
* `Line.Ready`: the line stands at a tick, and no timer has been missed.
* `Line.Follows`: the line and the timeline of some arrivals agree until the exchange ends.
* `Line.advance_timeline`, `exchange_timeline`: **an exchange over a line is a timeline.**
-/

namespace NodeClock

open Coap Arrival Exchange

namespace Line

variable {l l' : Line} {x y : Exchange} {until? : Option Instant} {s s' : Session} {t T : Instant}
  {result : Except TransportError Response} {sent : List Bytes} {n : Nat}

/-- The clock of a line wakes at each tick. -/
def clock : Runtime := .ticking tick (by decide)

theorem le_tickFrom (t : Instant) : t ≤ tickFrom t := clock.le_wake t

theorem tickFrom_mono (h : t ≤ T) : tickFrom t ≤ tickFrom T :=
  Nat.mul_le_mul_right _ (Nat.div_le_div_right (Nat.sub_le_sub_right (Nat.add_le_add_right h _) _))

theorem tickFrom_tickFrom (t : Instant) : tickFrom (tickFrom t) = tickFrom t := by
  have hmul (q : Nat) : (q * 10000000 + 10000000 - 1) / 10000000 * 10000000 = q * 10000000 := by
    omega
  exact hmul _

/-! ## What the node hears -/

theorem send_now (l : Line) (d : Bytes) : (l.send d).now = l.now := rfl

theorem send_heard (l : Line) (d : Bytes) : (l.send d).heard = l.heard ++ [(l.now, d)] := rfl

theorem foldl_send (l : Line) (sent : List Bytes) :
    (sent.foldl send l).now = l.now ∧
      (sent.foldl send l).heard = l.heard ++ sent.map (l.now, ·) := by
  induction sent generalizing l with
  | nil => exact ⟨rfl, (List.append_nil _).symm⟩
  | cons d sent ih =>
    obtain ⟨hnow, hheard⟩ := ih (l.send d)
    refine ⟨hnow, ?_⟩
    rw [List.foldl_cons, hheard, send_heard, send_now, List.append_assoc]
    rfl

/-! ## An exchange over a line -/

/-- The line stands at a tick, and no timer should have run out before. -/
structure Ready (l : Line) (x : Exchange) : Prop where
  aligned : tickFrom l.now = l.now
  timer : ∀ T ∈ x.timer?, l.now ≤ tickFrom T

theorem Ready.after_read {d : Bytes} {m : Line} (hr : l.Ready x) (hm : m.now = l.now)
    (hs : x.step (.received d (.ok ())) = (sent, .pending y)) : (sent.foldl send m).Ready y := by
  obtain ⟨hnow, -⟩ := m.foldl_send sent
  refine ⟨?_, ?_⟩
  · rw [hnow, hm]
    exact hr.aligned
  · intro T hT
    rw [hnow, hm]
    cases step_acts hs with
    | unread _ => exact hr.timer T hT
    | read _ haccept =>
      rcases accept_pending_iff.1 haccept with ⟨-, rfl⟩ | ⟨-, rfl⟩
      · cases (timer?_eq_some_iff.1 hT).1
      · exact hr.timer T hT

theorem Ready.after_timer (hr : l.Ready x) :
    (l.send x.datagram).Ready (x.retransmitted l.now) := by
  refine ⟨hr.aligned, ?_⟩
  intro T hT
  obtain ⟨-, -, hdeadline⟩ := timer?_eq_some_iff.1 hT
  exact Nat.le_trans (Instant.le_of_after? hdeadline) (le_tickFrom T)

/-- Time does not move past the moment at which the timer runs out. -/
theorem Ready.moveTo (hr : l.Ready x) (h : l.nextMoment x until? = some t) :
    (l.moveTo (max l.now t)).Ready x := by
  obtain ⟨m, hmin, rfl⟩ := Option.map_eq_some_iff.1 h
  have hle := (List.min?_eq_some_iff.1 hmin).2
  refine ⟨?_, ?_⟩
  · have hmax : (l.moveTo (max l.now (tickFrom m))).now = max l.now (tickFrom m) := rfl
    rw [hmax]
    rcases Nat.le_total l.now (tickFrom m) with hlt | hlt
    · rw [Nat.max_eq_right hlt, tickFrom_tickFrom]
    · rw [Nat.max_eq_left hlt, hr.aligned]
  · intro T hT
    have hmem : T ∈ (l.underway.head?.map (·.1)).toList ++ x.timer?.toList ++ until?.toList :=
      List.mem_append_left _ (List.mem_append_right _ (Option.mem_toList.2 hT))
    exact Nat.max_le.2 ⟨hr.timer T hT, tickFrom_mono (hle T hmem)⟩

/-- Until the line is `l'` and the exchange over it has ended, it does what the timeline of some
arrivals says, which come from now on. -/
structure Follows (l : Line) (x : Exchange) (l' : Line) (result : Except TransportError Response)
    (arrivals : List Arrival) : Prop where
  chronological : Chronological arrivals
  later : ∀ a ∈ arrivals, l.now < a.moment ∨ l.now = a.moment ∧ x.retransmits ≤ a.turn
  heard : l'.heard = l.heard ++ (x.timeline clock arrivals).sent
  ended : (x.timeline clock arrivals).ended = some (l'.now, result)

/-- What is read now arrives now. -/
def arrival (l : Line) (x : Exchange) (d : Bytes) : Arrival :=
  { moment := l.now, turn := x.retransmits, content := .ok d }

theorem Ready.arrival_first (hr : l.Ready x) (d : Bytes) (arrivals : List Arrival) :
    x.next? clock (l.arrival x d :: arrivals) =
      some (l.now, .received d (.ok ()), arrivals) := by
  refine next?_arrival fun T hT => ?_
  rcases Nat.lt_or_eq_of_le (hr.timer T hT) with hlt | heq
  · exact Or.inl hlt
  · exact Or.inr ⟨heq, Nat.le_refl _⟩

/-- A datagram is read that ends the exchange. -/
theorem Follows.read {d : Bytes} {m : Line} (hr : l.Ready x)
    (hm : m.now = l.now ∧ m.heard = l.heard)
    (hs : x.step (.received d (.ok ())) = (sent, .ended result)) :
    Follows l x (sent.foldl send m) result [l.arrival x d] := by
  obtain ⟨hnow, hheard⟩ := m.foldl_send sent
  have htimeline := timeline_ended (hr.arrival_first d []) hs
  refine ⟨List.pairwise_singleton _ _, ?_, ?_, ?_⟩
  · intro a ha
    rw [List.mem_singleton.1 ha]
    exact Or.inr ⟨rfl, Nat.le_refl _⟩
  · rw [htimeline, hheard, hm.1, hm.2]
    exact congrArg (l.heard ++ ·) (List.append_nil _).symm
  · rw [htimeline, hnow, hm.1]
    rfl

/-- A datagram is read that does not. -/
theorem Follows.after_read {d : Bytes} {m : Line} {arrivals : List Arrival} (hr : l.Ready x)
    (hm : m.now = l.now ∧ m.heard = l.heard)
    (hs : x.step (.received d (.ok ())) = (sent, .pending y))
    (h : Follows (sent.foldl send m) y l' result arrivals) :
    Follows l x l' result (l.arrival x d :: arrivals) := by
  obtain ⟨hnow, hheard⟩ := m.foldl_send sent
  have hcount : y.retransmits = x.retransmits := step_retransmits hs
  have htimeline := timeline_pending (hr.arrival_first d arrivals) hs
  have hlater : ∀ a ∈ arrivals, l.now < a.moment ∨ l.now = a.moment ∧ x.retransmits ≤ a.turn := by
    intro a ha
    have hl := h.later a ha
    rw [hnow, hm.1, hcount] at hl
    exact hl
  refine ⟨List.pairwise_cons.2 ⟨hlater, h.chronological⟩, ?_, ?_, ?_⟩
  · intro a ha
    rcases List.mem_cons.1 ha with rfl | ha
    · exact Or.inr ⟨rfl, Nat.le_refl _⟩
    · exact hlater a ha
  · rw [htimeline, h.heard, hheard, hm.1, hm.2, List.append_assoc]
    rfl
  · rw [htimeline]
    exact h.ended

/-- The timer runs out. -/
theorem Follows.after_timer {arrivals : List Arrival} (hT : x.timer? = some T)
    (hnow : clock.wake T = l.now)
    (h : Follows (l.send x.datagram) (x.retransmitted l.now) l' result arrivals) :
    Follows l x l' result arrivals := by
  have hlate : ∀ a ∈ arrivals.head?, ¬ a.Precedes (clock.wake T) x.retransmits := by
    intro a ha hp
    rw [hnow] at hp
    rcases h.later a (List.mem_of_mem_head? ha) with hlt | ⟨heq, hle⟩ <;>
      rcases hp with hp | ⟨hp, hturn⟩
    · exact Nat.lt_asymm hlt hp
    · exact Nat.ne_of_gt hlt hp
    · exact Nat.ne_of_lt hp heq.symm
    · exact Nat.not_lt.2 hturn hle
  have hs := step_timer clock hT
  have htimeline := timeline_pending (next?_timer hT hlate) hs
  rw [hnow] at htimeline
  refine ⟨h.chronological, ?_, ?_, ?_⟩
  · intro a ha
    rcases h.later a ha with hlt | ⟨heq, hle⟩
    · exact Or.inl hlt
    · exact Or.inr ⟨heq, Nat.le_of_succ_le hle⟩
  · rw [htimeline, h.heard, send_heard, List.append_assoc]
    rfl
  · rw [htimeline]
    exact h.ended

/-- Time moves. -/
theorem Follows.after_move {arrivals : List Arrival} (ht : l.now ≤ t)
    (h : Follows (l.moveTo t) x l' result arrivals) : Follows l x l' result arrivals := by
  refine ⟨h.chronological, ?_, h.heard, h.ended⟩
  intro a ha
  have hl : t < a.moment ∨ t = a.moment ∧ x.retransmits ≤ a.turn := h.later a ha
  rcases hl with hlt | ⟨rfl, hle⟩
  · exact Or.inl (Nat.lt_of_le_of_lt ht hlt)
  · rcases Nat.lt_or_eq_of_le ht with hlt | heq
    · exact Or.inl hlt
    · exact Or.inr ⟨heq, hle⟩

/-- **An exchange over a line that ends is the timeline of what arrives.** -/
theorem advance_timeline (hr : l.Ready x) (h : advance until? n l x = (l', .ended result)) :
    ∃ arrivals, Follows l x l' result arrivals := by
  induction n generalizing l x with
  | zero => cases h
  | succ n ih =>
    unfold advance at h
    simp only at h
    split at h
    case h_1 datagram rest hinbox =>
      cases hs : x.step (.received datagram (.ok ())) with
      | mk sent standing =>
        rw [hs] at h
        cases standing with
        | ended result' =>
          cases h
          exact ⟨_, .read hr ⟨rfl, rfl⟩ hs⟩
        | pending y =>
          have hready := hr.after_read (m := { l with inbox := rest }) rfl hs
          obtain ⟨arrivals, hfollows⟩ := ih hready h
          exact ⟨_, hfollows.after_read (m := { l with inbox := rest }) hr ⟨rfl, rfl⟩ hs⟩
    case h_2 hinbox =>
      split at h
      case isTrue hdue =>
        obtain ⟨T, hT, hle⟩ := (Option.any_eq_true _ _).1 hdue
        -- the timer runs out now and not at an earlier tick
        have hnow : clock.wake T = l.now := by
          have hpast := tickFrom_mono (of_decide_eq_true hle)
          rw [hr.aligned] at hpast
          exact Nat.le_antisymm hpast (hr.timer T hT)
        have hs : x.step (.expired l.now (.ok ())) =
            ([x.datagram], .pending (x.retransmitted l.now)) := hnow ▸ step_timer clock hT
        rw [hs] at h
        obtain ⟨arrivals, hfollows⟩ := ih hr.after_timer h
        exact ⟨arrivals, hfollows.after_timer hT hnow⟩
      case isFalse =>
        split at h
        case isTrue => cases h
        case isFalse =>
          split at h
          case h_1 => cases h
          case h_2 t hnext =>
            obtain ⟨arrivals, hfollows⟩ := ih (hr.moveTo hnext) h
            exact ⟨arrivals, hfollows.after_move (Nat.le_max_left _ _)⟩

/-- **The node hears what the timeline of an exchange sends**, behind the request with which the
exchange begins, and the exchange ends as in its timeline. -/
theorem exchange_timeline {r : Request} (hnow : tickFrom l.now = l.now)
    (hx : (s.begin l.nextToken 0 l.now r).2 = .ok x)
    (h : l.exchange s until? r = (l', s', .ended result)) :
    ∃ arrivals, Chronological arrivals ∧
      l'.heard = l.heard ++ (l.now, x.datagram) :: (x.timeline clock arrivals).sent ∧
      (x.timeline clock arrivals).ended = some (l'.now, result) := by
  unfold exchange at h
  simp only [hx] at h
  rw [Prod.mk.injEq, Prod.mk.injEq] at h
  obtain ⟨hline, -, hstanding⟩ := h
  let begun : Line := { l with exchanges := l.exchanges + 1 }.send x.datagram
  have hready : begun.Ready x := by
    refine ⟨hnow, ?_⟩
    intro T hT
    obtain ⟨-, -, hset⟩ := timer?_eq_some_iff.1 hT
    rw [(start_fresh hx).2.2.2] at hset
    exact Nat.le_trans (Instant.le_of_after? hset) (le_tickFrom T)
  obtain ⟨arrivals, hfollows⟩ := advance_timeline hready (Prod.ext hline hstanding)
  refine ⟨arrivals, hfollows.chronological, ?_, hfollows.ended⟩
  rw [hfollows.heard, send_heard, List.append_assoc]
  rfl

end Line

end NodeClock
