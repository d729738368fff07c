import NodeClock.Proofs.Timeline
import Mathlib.Algebra.Order.Ring.Nat

/-!
# When a request is sent again

The waits between transmissions double each time, up to the longest span, and the clock rounds
each of them up. What means nothing to an exchange does not change this.

* `Exchange.schedule`: the moments of all transmissions, as far as the clock can tell them.
* `Exchange.Paced`: an exchange that waits for the next of them, from the beginning and after each
  transmission.
* `Exchange.Resent`: what has to hold for a transmission to take place.
* `Paced.requests_iff`: **the transmissions of an exchange are those.**
* `Exchange.start_backoff` (every request, clock and arrivals): from the beginning, and whatever
  else arrives that means nothing.
-/

namespace NodeClock

open Coap Arrival

/-- Doubling goes on as if there were no longest span. -/
theorem Span.double_ofNanos (n : Nat) : (Span.ofNanos n).double = .ofNanos (2 * n) := by
  unfold double ofNanos
  simp only [mk.injEq]
  omega

namespace Exchange

variable {x y : Exchange} {rt : Runtime} {a : Arrival} {arrivals rest : List Arrival}
  {now t : Instant} {w : Span} {i k n : Nat} {d : Bytes}

/-- When the request is sent the first time, at `now`, and again: each time twice as long after
the time before, at the next moment at which the clock wakes. -/
def schedule (rt : Runtime) (now : Instant) (w : Span) : Nat → Option Instant
  | 0 => some now
  | k + 1 => (schedule rt now w k).bind fun t =>
      (t.after? (.ofNanos (2 ^ k * w.nanos))).map rt.wake

/-- Each transmission comes after those before it. -/
theorem schedule_le (h : schedule rt now w (i + k) = some t) :
    ∃ s, schedule rt now w i = some s ∧ s ≤ t := by
  induction k generalizing t with
  | zero => exact ⟨t, h, Nat.le_refl _⟩
  | succ k ih =>
    obtain ⟨u, hu, hnext⟩ := Option.bind_eq_some_iff.1 h
    obtain ⟨s, hs, hle⟩ := ih hu
    obtain ⟨T, hT, rfl⟩ := Option.map_eq_some_iff.1 hnext
    exact ⟨s, hs, Nat.le_trans hle (Nat.le_trans (Instant.le_of_after? hT) (rt.le_wake T))⟩

/-- **An exchange that is not acknowledged waits for the next transmission.** -/
structure Paced (rt : Runtime) (now : Instant) (w : Span) (x : Exchange) : Prop where
  unacknowledged : x.acknowledged = false
  wait : x.wait = .ofNanos (2 ^ x.retransmits * w.nanos)
  deadline : x.deadline.map rt.wake = schedule rt now w (x.retransmits + 1)

/-- It does so from the beginning. -/
theorem Paced.start {maxRetransmit : UInt32} {m : UInt16} {token : Bytes} {r : Request}
    (h : start maxRetransmit m token w now r = .ok x) : x.Paced rt now w := by
  obtain ⟨hack, hzero, hwait, hdeadline⟩ := start_fresh h
  have hfirst : Span.ofNanos (2 ^ 0 * w.nanos) = w := by
    rw [Nat.pow_zero, Nat.one_mul, Span.ofNanos_nanos]
  refine ⟨hack, ?_, ?_⟩
  · rw [hzero, hwait, hfirst]
  · rw [hzero, hdeadline, schedule, schedule, Option.bind_some, hfirst]

/-- It does so after each transmission. -/
theorem Paced.retransmitted {T : Instant} (h : x.Paced rt now w) (hT : x.timer? = some T) :
    (x.retransmitted (rt.wake T)).Paced rt now w := by
  obtain ⟨-, -, hdeadline⟩ := timer?_eq_some_iff.1 hT
  have hnow : schedule rt now w (x.retransmits + 1) = some (rt.wake T) := by
    rw [← h.deadline, hdeadline]
    rfl
  have hwait : x.wait.double = .ofNanos (2 ^ (x.retransmits + 1) * w.nanos) := by
    rw [h.wait, Span.double_ofNanos, ← Nat.mul_assoc, Nat.pow_succ']
  refine ⟨h.unacknowledged, hwait, ?_⟩
  have hnext : schedule rt now w (x.retransmits + 1 + 1) =
      (schedule rt now w (x.retransmits + 1)).bind fun t =>
        (t.after? (.ofNanos (2 ^ (x.retransmits + 1) * w.nanos))).map rt.wake := rfl
  have hset : (x.retransmitted (rt.wake T)).deadline = (rt.wake T).after? x.wait.double := rfl
  rw [hset, hwait]
  exact (hnext.trans (by rw [hnow, Option.bind_some])).symm

/-- What has to hold for the request to be sent again at `t`, after having been sent again `n`
times: this is allowed, it is the time for it, nothing has arrived for the exchange, and sending
has not failed. -/
structure Resent (rt : Runtime) (now : Instant) (w : Span) (x : Exchange)
    (arrivals : List Arrival) (n : Nat) (t : Instant) : Prop where
  allowed : n < x.maxRetransmit.toNat
  time : schedule rt now w (n + 1) = some t
  undisturbed : ∀ a ∈ arrivals, a.Precedes t n → x.ignores a
  sent : ∀ j, x.retransmits ≤ j → j < n → rt.resends j = .ok ()

/-- Before each transmission the timer runs out. -/
theorem Resent.timer (hr : Resent rt now w x arrivals (x.retransmits + k) t)
    (h : x.Paced rt now w) : ∃ T, x.timer? = some T ∧ rt.wake T ≤ t := by
  have htime : schedule rt now w (x.retransmits + 1 + k) = some t := by
    rw [Nat.add_right_comm]
    exact hr.time
  obtain ⟨s, hs, hle⟩ := schedule_le htime
  rw [← h.deadline] at hs
  obtain ⟨T, hT, rfl⟩ := Option.map_eq_some_iff.1 hs
  have hallowed := hr.allowed
  exact ⟨T, timer?_eq_some_iff.2 ⟨h.unacknowledged, by omega, hT⟩, hle⟩

/-- What means nothing does not count. -/
theorem resent_cons_iff (hi : x.ignores a) :
    Resent rt now w x (a :: rest) n t ↔ Resent rt now w x rest n t := by
  constructor
  · rintro ⟨hallowed, htime, hquiet, hsent⟩
    exact ⟨hallowed, htime, fun b hb => hquiet b (List.mem_cons_of_mem _ hb), hsent⟩
  · rintro ⟨hallowed, htime, hquiet, hsent⟩
    refine ⟨hallowed, htime, ?_, hsent⟩
    intro b hb hp
    rcases List.mem_cons.1 hb with rfl | hb
    · exact hi
    · exact hquiet b hb hp

/-- What means something to an exchange acknowledges the request or ends the exchange. -/
theorem acknowledged_of_not_ignored {sent : List Bytes} (hi : x.ignores a = false)
    (hs : x.step a.event = (sent, .pending y)) : y.acknowledged := by
  have hmeant : ∀ d, a.content = .ok d →
      ¬ ∀ f, Frame.decode (d.take receiveLimit) = .ok f → x.judge f = .unrelated := by
    intro d hc hj
    rw [ignores_iff.2 ⟨d, hc, hj⟩] at hi
    cases hi
  unfold Arrival.event at hs
  cases hc : a.content with
  | error err =>
    rw [hc] at hs
    cases hs
  | ok d =>
    rw [hc] at hs
    cases step_acts hs with
    | unread hd => exact absurd (fun f hf => absurd hf (hd f)) (hmeant d hc)
    | read hd haccept =>
      rcases accept_pending_iff.1 haccept with ⟨-, rfl⟩ | ⟨hj, -⟩
      · rfl
      · refine absurd (fun f hf => ?_) (hmeant d hc)
        cases hd.symm.trans hf
        exact hj

/-- An acknowledged request is not sent any more. -/
theorem requests_acknowledged (hx : isRequest x.datagram) (hack : x.acknowledged) :
    (x.timeline rt arrivals).requests = [] := by
  induction x, arrivals using timeline_induction rt with
  | step x arrivals ih =>
    cases h : x.next? rt arrivals with
    | none =>
      rw [timeline_none h]
      rfl
    | some p =>
      obtain ⟨t, e, rest⟩ := p
      cases hs : x.step e with
      | mk sent standing =>
        have hnot : x.expires e = false := by
          rw [Bool.eq_false_iff]
          intro he
          rw [(of_expires he).1] at hack
          cases hack
        have hsent := step_requests hx hs
        rw [hnot] at hsent
        cases standing with
        | ended result =>
          rw [timeline_ended h hs, Record.requests_after, hsent]
          rfl
        | pending y =>
          have hy : isRequest y.datagram := by
            rw [(step_kin hs).datagram]
            exact hx
          rw [timeline_pending h hs, Record.requests_after, hsent,
            ih t e rest sent y h hs hy (step_acknowledged hs hack)]
          rfl

/-- After an arrival that means something the request is not sent any more. -/
theorem requests_of_not_ignored (hx : isRequest x.datagram) (hi : x.ignores a = false)
    (h : x.next? rt (a :: rest) = some (a.moment, a.event, rest)) :
    (x.timeline rt (a :: rest)).requests = [] := by
  cases hs : x.step a.event with
  | mk sent standing =>
    have hnone := requests_arrival hx hs
    cases standing with
    | ended result =>
      rw [timeline_ended h hs, Record.requests_after, hnone]
      rfl
    | pending y =>
      have hy : isRequest y.datagram := by
        rw [(step_kin hs).datagram]
        exact hx
      rw [timeline_pending h hs, Record.requests_after, hnone,
        requests_acknowledged hy (acknowledged_of_not_ignored hi hs)]
      rfl

/-- When the timer runs out the request is sent again, and if this succeeds, perhaps later, too. -/
theorem requests_timer {T : Instant} (hx : isRequest x.datagram) (hT : x.timer? = some T)
    (hlate : ∀ a ∈ arrivals.head?, ¬ a.Precedes (rt.wake T) x.retransmits) :
    (x.timeline rt arrivals).requests = (rt.wake T, x.datagram) ::
      match rt.resends x.retransmits with
      | .ok () => ((x.retransmitted (rt.wake T)).timeline rt arrivals).requests
      | .error _ => [] := by
  have h := next?_timer hT hlate
  have hs := step_timer rt hT
  have hone : [x.datagram].filter isRequest = [x.datagram] := List.filter_cons_of_pos hx
  cases hsend : rt.resends x.retransmits with
  | error err =>
    rw [hsend] at h hs
    rw [timeline_ended h hs, Record.requests_after, hone]
    rfl
  | ok u =>
    rw [hsend] at h hs
    rw [timeline_pending h hs, Record.requests_after, hone]
    rfl

/-- The first time that the timer runs out. -/
theorem Paced.resent_zero {T : Instant} (h : x.Paced rt now w) (hT : x.timer? = some T)
    (hlate : ∀ a ∈ arrivals, ¬ a.Precedes (rt.wake T) x.retransmits) :
    Resent rt now w x arrivals x.retransmits t ↔ t = rt.wake T := by
  obtain ⟨-, hallowed, hdeadline⟩ := timer?_eq_some_iff.1 hT
  have htime : schedule rt now w (x.retransmits + 1) = some (rt.wake T) := by
    rw [← h.deadline, hdeadline]
    rfl
  constructor
  · intro hr
    exact Option.some.inj (hr.time.symm.trans htime)
  · rintro rfl
    exact ⟨hallowed, htime, fun a ha hp => absurd hp (hlate a ha), fun j hj hlt => by omega⟩

/-- The times after the first. -/
theorem resent_succ_iff {T : Instant} :
    Resent rt now w x arrivals (x.retransmits + (k + 1)) t ↔
      rt.resends x.retransmits = .ok () ∧
        Resent rt now w (x.retransmitted (rt.wake T)) arrivals
          ((x.retransmitted (rt.wake T)).retransmits + k) t := by
  have hindex : (x.retransmitted (rt.wake T)).retransmits + k = x.retransmits + (k + 1) := by
    rw [Nat.add_comm k 1, ← Nat.add_assoc]
    rfl
  have hignores : (x.retransmitted (rt.wake T)).ignores = x.ignores := rfl
  rw [hindex]
  constructor
  · rintro ⟨hallowed, htime, hquiet, hsent⟩
    refine ⟨hsent _ (Nat.le_refl _) (by omega), hallowed, htime, hquiet, ?_⟩
    intro j hj hlt
    exact hsent j (Nat.le_of_succ_le hj) hlt
  · rintro ⟨hok, hallowed, htime, hquiet, hsent⟩
    refine ⟨hallowed, htime, hquiet, ?_⟩
    intro j hj hlt
    rcases Nat.eq_or_lt_of_le hj with rfl | hgt
    · exact hok
    · exact hsent j hgt hlt

/-- **The request is sent again exactly when it is time for it.** -/
theorem Paced.requests_iff (h : x.Paced rt now w) (hx : isRequest x.datagram)
    (hc : Chronological arrivals) :
    (x.timeline rt arrivals).requests[k]? = some (t, d) ↔
      d = x.datagram ∧ Resent rt now w x arrivals (x.retransmits + k) t := by
  induction x, arrivals using timeline_induction rt generalizing k with
  | step x arrivals ih =>
    cases hnext : x.next? rt arrivals with
    | none =>
      -- without a timer there is no time for it
      obtain ⟨rfl, hnone⟩ := of_next?_eq_none hnext
      rw [timeline_none hnext]
      constructor
      · exact nofun
      · rintro ⟨-, hr⟩
        obtain ⟨T, hT, -⟩ := hr.timer h
        cases hnone.symm.trans hT
    | some p =>
      obtain ⟨m, e, rest⟩ := p
      cases next?_comes hnext with
      | @arrival a rest hp =>
        cases hi : x.ignores a with
        | true =>
          obtain ⟨sent, hs⟩ := step_ignored hi
          rw [timeline_pending hnext hs, Record.requests_after, requests_arrival hx hs,
            resent_cons_iff hi]
          exact ih _ _ rest sent x hnext hs h hx (List.pairwise_cons.1 hc).2
        | false =>
          rw [requests_of_not_ignored hx hi hnext]
          constructor
          · exact nofun
          · rintro ⟨-, hr⟩
            -- it has arrived before the timer runs out, and so before any later time
            obtain ⟨T, hT, hle⟩ := hr.timer h
            have hbefore := (hp T hT).mono hle (Nat.le_add_right x.retransmits k)
            have hignored := hr.undisturbed a List.mem_cons_self hbefore
            rw [hi] at hignored
            cases hignored
      | @timer T _ hT hlate =>
        have hall := hc.not_precedes hlate
        rw [requests_timer hx hT hlate]
        cases k with
        | zero =>
          rw [List.getElem?_cons_zero, Nat.add_zero, h.resent_zero hT hall]
          rw [Option.some.injEq, Prod.mk.injEq, eq_comm, and_comm, eq_comm]
        | succ k =>
          rw [List.getElem?_cons_succ, resent_succ_iff (T := T)]
          cases hsend : rt.resends x.retransmits with
          | error err => simp
          | ok u =>
            have hs := step_timer rt hT
            rw [hsend] at hs hnext
            simp only [true_and]
            exact ih _ _ _ _ _ hnext hs (h.retransmitted hT) hx hc

/-- **A request is sent again after waits that double, and unrelated traffic changes neither this
nor the end of the exchange.** The request is sent again exactly at the scheduled times, as often
as it is allowed and the clock can tell them, while nothing has arrived for the exchange. What
arrives besides and means nothing, whenever it does, may as well not arrive. -/
theorem start_backoff {maxRetransmit : UInt32} {m : UInt16} {token : Bytes} {r : Request}
    (hx : start maxRetransmit m token w now r = .ok x) (rt : Runtime)
    (hc : Chronological arrivals) :
    (∀ n t d, (x.timeline rt arrivals).requests[n]? = some (t, d) ↔
      d = x.datagram ∧ n < maxRetransmit.toNat ∧ schedule rt now w (n + 1) = some t ∧
        (∀ a ∈ arrivals, a.Precedes t n → x.ignores a) ∧ ∀ j < n, rt.resends j = .ok ()) ∧
    ∀ arrivals', Chronological arrivals' →
      arrivals'.filter (!x.ignores ·) = arrivals.filter (!x.ignores ·) →
      (x.timeline rt arrivals').requests = (x.timeline rt arrivals).requests ∧
        (x.timeline rt arrivals').ended = (x.timeline rt arrivals).ended := by
  obtain ⟨-, -, hmax, henc⟩ := start_eq_ok hx
  obtain ⟨-, hzero, -, -⟩ := start_fresh hx
  have hrequest : isRequest x.datagram := isRequest_of_encode henc
  constructor
  · intro n t d
    rw [(Paced.start hx).requests_iff hrequest hc, hzero, Nat.zero_add]
    constructor
    · rintro ⟨hd, hallowed, htime, hquiet, hsent⟩
      exact ⟨hd, hmax ▸ hallowed, htime, hquiet, fun j hj => hsent j (hzero ▸ Nat.zero_le j) hj⟩
    · rintro ⟨hd, hallowed, htime, hquiet, hsent⟩
      exact ⟨hd, hmax ▸ hallowed, htime, hquiet, fun j _ hj => hsent j hj⟩
  · intro arrivals' hc' hsame
    have hlike := timeline_filter rt hrequest hc
    have hlike' := timeline_filter rt hrequest hc'
    rw [hsame] at hlike'
    exact ⟨hlike'.requests.symm.trans hlike.requests, hlike'.ended.symm.trans hlike.ended⟩

/-- The clock wakes each millisecond. At the very moment of the first retransmission something
comes that cannot be read, and before the second a message that is answered with a reset. The
request is sent again after two and after six seconds all the same, until the node resets it. -/
theorem start_backoff_noise :
    let rt := Runtime.ticking Span.milliNanos (by decide)
    let noise : List Arrival := [{ moment := 2000000000, content := .ok [0xFF] },
      { moment := 5999999999, content := .ok [0x40, 1, 0, 9] }]
    let reset : Arrival := { moment := 7000000000, content := .ok [0x70, 0, 0, 7] }
    ∃ x, start 4 7 [1, 2, 3, 4] (.ofMillis 2000) 0 { method := .get } = .ok x ∧
      (x.timeline rt (noise ++ [reset])).requests[1]? = some (6000000000, x.datagram) ∧
      (x.timeline rt (noise ++ [reset])).requests = (x.timeline rt [reset]).requests ∧
      (x.timeline rt (noise ++ [reset])).ended = (x.timeline rt [reset]).ended := by
  intro rt noise reset
  obtain ⟨x, hx⟩ : ∃ x, start 4 7 [1, 2, 3, 4] (.ofMillis 2000) 0 { method := .get } = .ok x :=
    ⟨_, rfl⟩
  have hid := (start_eq_ok hx).1
  have hbroken : Frame.decode (List.take receiveLimit [0xFF]) =
      .error (.malformed "InvalidHeader") := by cbv
  have hping : Frame.decode (List.take receiveLimit [0x40, 1, 0, 9]) =
      .ok { kind := .confirmable, messageId := 9, code := .request .get } := by cbv
  have hreset : Frame.decode (List.take receiveLimit [0x70, 0, 0, 7]) =
      .ok { kind := .reset, messageId := 7 } := by cbv
  have hnoise : ∀ a ∈ noise, x.ignores a := by
    rw [List.forall_mem_cons, List.forall_mem_singleton, ignores_iff, ignores_iff]
    refine ⟨⟨_, rfl, ?_⟩, ⟨_, rfl, ?_⟩⟩
    · intro f hf
      cases hbroken.symm.trans hf
    · intro f hf
      cases hping.symm.trans hf
      exact ite_self _
  have hmeant : ¬ x.ignores reset := by
    intro hi
    obtain ⟨_, ⟨⟩, hj⟩ := ignores_iff.1 hi
    have hunrelated := hj _ hreset
    rw [judge_reset_iff.2 ⟨rfl, hid.symm⟩] at hunrelated
    cases hunrelated
  have hc : Chronological (noise ++ [reset]) := by decide
  have htime : schedule rt 0 (.ofMillis 2000) 2 = some 6000000000 := by decide +kernel
  refine ⟨x, hx, ?_, ?_⟩
  · refine ((start_backoff hx rt hc).1 1 _ _).2 ⟨rfl, by decide, htime, ?_, fun _ _ => rfl⟩
    rw [List.forall_mem_append, List.forall_mem_singleton]
    exact ⟨fun a ha _ => hnoise a ha, fun h => absurd h (by decide)⟩
  · refine (start_backoff hx rt (List.pairwise_singleton _ _)).2 _ hc ?_
    have hnone : noise.filter (!x.ignores ·) = [] :=
      List.filter_eq_nil_iff.2 fun a ha => by simp [hnoise a ha]
    rw [List.filter_append, hnone, List.nil_append]

end Exchange

end NodeClock
