import NodeClock.Proofs.Exchange
import Mathlib.Data.List.Basic

/-!
# How often a request is sent

* `Exchange.isRequest`: the datagrams that carry a request.
* `Exchange.expires`, `expiries`: the retransmission timer runs out, and how often it does.
* `step_requests`, `run_requests`: **with each expiry the same request is sent once more**, and
  with no other event.
* `step_retransmits`, `run_retransmits`: the expiries are counted.
* `of_expires`, `expiries_le`: there are no more of them than allowed.
* `expiries_acknowledged`: after an acknowledgement there are none.
* `start_retransmits` (every request and history): all of it for an exchange from its beginning.
-/

namespace NodeClock

open Coap

namespace Exchange

variable {x y : Exchange} {e : Event} {sent : List Bytes} {standing : Standing}
  {result : Except TransportError Response} {events early late unread : List Event}

/-- A datagram that is read as a request. -/
def isRequest (d : Bytes) : Bool :=
  match Frame.decode d with
  | .ok f => f.request?.isSome
  | .error _ => false

/-- The retransmission timer runs out with an event. -/
def expires (x : Exchange) : Event → Bool
  | .expired now _ => x.timer?.any (· ≤ now)
  | _ => false

/-- How often the retransmission timer runs out in a run. -/
def expiries (x : Exchange) : List Event → Nat
  | [] => 0
  | e :: rest =>
    (x.expires e).toNat +
      match (x.step e).2 with
      | .ended _ => 0
      | .pending y => y.expiries rest

theorem isRequest_of_encode {kind : Kind} {m : UInt16} {k d : Bytes} {r : Request}
    (h : (Frame.ofRequest kind m k r).encode = .ok d) : isRequest d := by
  unfold isRequest
  rw [Frame.decode_encode_ofRequest h]
  rfl

theorem isRequest_empty (kind : Kind) (m : UInt16) :
    isRequest (Frame.empty kind m).packet.write = false := by
  unfold isRequest
  rw [Frame.decode_write_empty]
  rfl

/-! ## One event -/

theorem expires_iff {now : Instant} {s : Except IoError Unit} :
    x.expires (.expired now s) ↔ ∃ t, x.timer? = some t ∧ t ≤ now := by
  unfold expires
  simp only
  cases x.timer? <;> simp

/-- The timer has not run out before its time. -/
theorem expires_eq_false {now : Instant} {s : Except IoError Unit}
    (h : ∀ t, x.timer? = some t → now < t) : x.expires (.expired now s) = false := by
  rw [Bool.eq_false_iff]
  intro he
  obtain ⟨t, ht, hle⟩ := expires_iff.1 he
  exact Nat.not_lt.2 hle (h t ht)

/-- **With an expiry the request is sent once more**, and with no other event. -/
theorem step_requests (hx : isRequest x.datagram) (h : x.step e = (sent, standing)) :
    sent.filter isRequest = List.replicate (x.expires e).toNat x.datagram := by
  cases step_acts h with
  | unread _ => rfl
  | @read d s f _ _ _ =>
    cases hanswer : x.answer? f with
    | none => rfl
    | some g =>
      obtain ⟨kind, rfl⟩ := exists_of_answer? hanswer
      simp [isRequest_empty, expires]
  | waiting hlt =>
    rw [expires_eq_false hlt]
    rfl
  | resent ht hle =>
    rw [expires_iff.2 ⟨_, ht, hle⟩, List.filter_cons_of_pos hx]
    rfl
  | unsent ht hle =>
    rw [expires_iff.2 ⟨_, ht, hle⟩, List.filter_cons_of_pos hx]
    rfl
  | broken => rfl

/-- The expiries are counted. -/
theorem step_retransmits (h : x.step e = (sent, .pending y)) :
    y.retransmits = x.retransmits + (x.expires e).toNat := by
  cases step_acts h with
  | unread _ => rfl
  | read _ haccept =>
    rcases accept_pending_iff.1 haccept with ⟨-, rfl⟩ | ⟨-, rfl⟩ <;> rfl
  | waiting hlt =>
    rw [expires_eq_false hlt]
    rfl
  | resent ht hle =>
    rw [expires_iff.2 ⟨_, ht, hle⟩]
    rfl

/-- The timer runs out only before an acknowledgement, and only as often as allowed. -/
theorem of_expires (h : x.expires e) :
    x.acknowledged = false ∧ x.retransmits < x.maxRetransmit.toNat := by
  cases e with
  | expired now s =>
    obtain ⟨t, ht, -⟩ := expires_iff.1 h
    obtain ⟨hack, hlt, -⟩ := timer?_eq_some_iff.1 ht
    exact ⟨hack, hlt⟩
  | received d s => cases h
  | broken err => cases h

/-- An acknowledgement is taken note of, and not answered. -/
theorem step_of_acknowledged {d : Bytes} {s : Except IoError Unit} {f : Frame}
    (hd : Frame.decode (d.take receiveLimit) = .ok f) (hj : x.judge f = .acknowledged) :
    x.step (.received d s) = ([], .pending { x with acknowledged := true }) := by
  have hkind := (judge_acknowledged_iff.1 hj).1
  have hanswer : x.answer? f = none := answer?_of_ne (by rw [hkind]; decide)
  unfold step accept
  simp only [hd, hanswer, hj]
  rfl

theorem step_acknowledged (h : x.step e = (sent, .pending y)) (hx : x.acknowledged) :
    y.acknowledged := by
  rcases step_pending h with rfl | rfl | ⟨now, rfl⟩
  · exact hx
  · rfl
  · exact hx

/-! ## Runs -/

theorem expiries_cons_pending (h : x.step e = (sent, .pending y)) :
    x.expiries (e :: events) = (x.expires e).toNat + y.expiries events := by
  rw [expiries, h]

theorem expiries_cons_ended (h : x.step e = (sent, .ended result)) :
    x.expiries (e :: events) = (x.expires e).toNat := by
  rw [expiries, h]
  rfl

/-- **In a run the same request is sent with each expiry**, and with no other event. -/
theorem run_requests (hx : isRequest x.datagram) (events : List Event) :
    (x.run events).1.filter isRequest = List.replicate (x.expiries events) x.datagram := by
  induction events generalizing x with
  | nil => rfl
  | cons e events ih =>
    cases hs : x.step e with
    | mk sent standing =>
      have hsent := step_requests hx hs
      cases standing with
      | ended result =>
        rw [run_cons_ended hs, expiries_cons_ended hs]
        exact hsent
      | pending y =>
        have hdatagram := (step_kin hs).datagram
        rw [run_cons_pending hs, expiries_cons_pending hs, List.filter_append, hsent,
          ih (hdatagram ▸ hx), hdatagram, List.replicate_append_replicate]

/-- In a run the expiries are counted. -/
theorem run_retransmits (h : x.run events = (sent, .pending y, unread)) :
    y.retransmits = x.retransmits + x.expiries events := by
  induction events generalizing x sent with
  | nil =>
    cases h
    rfl
  | cons e events ih =>
    rcases run_cons_cases h with ⟨_, -, hend, -⟩ | ⟨first, z, more, hs, hrest, -⟩
    · cases hend
    · rw [ih hrest, step_retransmits hs, expiries_cons_pending hs, Nat.add_assoc]

/-- **The timer does not run out more often than allowed.** -/
theorem expiries_le (hx : x.retransmits ≤ x.maxRetransmit.toNat) (events : List Event) :
    x.retransmits + x.expiries events ≤ x.maxRetransmit.toNat := by
  induction events generalizing x with
  | nil => exact hx
  | cons e events ih =>
    have hroom : x.retransmits + (x.expires e).toNat ≤ x.maxRetransmit.toNat := by
      cases he : x.expires e with
      | false => exact hx
      | true => exact (of_expires he).2
    cases hs : x.step e with
    | mk sent standing =>
      cases standing with
      | ended result =>
        rw [expiries_cons_ended hs]
        exact hroom
      | pending y =>
        have hcount := step_retransmits hs
        have hmax := (step_kin hs).maxRetransmit
        have hrest := ih (x := y) (by rw [hcount, hmax]; exact hroom)
        rw [expiries_cons_pending hs, ← Nat.add_assoc, ← hcount, ← hmax]
        exact hrest

/-- **After an acknowledgement the timer never runs out.** -/
theorem expiries_acknowledged (hx : x.acknowledged) (events : List Event) :
    x.expiries events = 0 := by
  induction events generalizing x with
  | nil => rfl
  | cons e events ih =>
    have hnot : x.expires e = false := by
      rw [Bool.eq_false_iff]
      intro he
      rw [(of_expires he).1] at hx
      cases hx
    cases hs : x.step e with
    | mk sent standing =>
      cases standing with
      | ended result =>
        rw [expiries_cons_ended hs, hnot]
        rfl
      | pending y =>
        rw [expiries_cons_pending hs, hnot, ih (step_acknowledged hs hx)]
        rfl

/-- **No request is sent after an acknowledgement.** -/
theorem run_requests_acknowledged (early late : List Event) {d : Bytes}
    {s : Except IoError Unit} {f : Frame} (hx : isRequest x.datagram)
    (hd : Frame.decode (d.take receiveLimit) = .ok f)
    (hj : ∀ y, Kin x y → y.judge f = .acknowledged) :
    (x.run (early ++ .received d s :: late)).1.filter isRequest =
      (x.run early).1.filter isRequest := by
  -- if the exchange has ended before the acknowledgement, this is not read at all
  rcases hr : x.run early with ⟨sent, standing, unread⟩
  cases standing with
  | ended result => rw [run_append_ended hr]
  | pending y =>
    have hkin := run_kin hr
    let z : Exchange := { y with acknowledged := true }
    have hz : isRequest z.datagram := by
      have hdatagram : z.datagram = x.datagram := hkin.datagram
      rw [hdatagram]
      exact hx
    rw [run_append_pending hr, run_cons_pending (step_of_acknowledged hd (hj y hkin)),
      List.nil_append, List.filter_append, run_requests hz, expiries_acknowledged rfl,
      List.replicate_zero, List.append_nil]

/-! ## From the beginning -/

/-- **A request is sent once and then once more with each expiry of the retransmission timer**,
always with the same bytes and no more often than allowed, and never again after an
acknowledgement. -/
theorem start_retransmits {maxRetransmit : UInt32} {m : UInt16} {k : Bytes} {wait : Span}
    {now : Instant} {r : Request} (hx : start maxRetransmit m k wait now r = .ok x)
    (events : List Event) :
    let requests (events : List Event) := (x.datagram :: (x.run events).1).filter isRequest
    (∀ d ∈ requests events, d = x.datagram ∧
      Frame.decode d = .ok (.ofRequest .confirmable m k r)) ∧
    (requests events).length = 1 + x.expiries events ∧
    x.expiries events ≤ maxRetransmit.toNat ∧
    (∀ sent y unread, x.run events = (sent, .pending y, unread) →
      y.retransmits = x.expiries events ∧ y.retransmits < UInt32.size) ∧
    ∀ early d s f late, events = early ++ .received d s :: late →
      Frame.decode (d.take receiveLimit) = .ok f →
      f.kind = .acknowledgement ∧ f.messageId = m ∧ f.code = .empty →
      requests events = requests early := by
  intro requests
  obtain ⟨hm, -, hmax, henc⟩ := start_eq_ok hx
  have hfirst : isRequest x.datagram := isRequest_of_encode henc
  obtain ⟨-, hzero, -, -⟩ := start_fresh hx
  -- all that is claimed of the requests follows from how many copies of the first there are
  have hrequests (events : List Event) :
      requests events = List.replicate (1 + x.expiries events) x.datagram := by
    have hrest := run_requests hfirst events
    rw [Nat.add_comm, List.replicate_succ, ← hrest]
    exact List.filter_cons_of_pos hfirst
  have hle : x.expiries events ≤ maxRetransmit.toNat := by
    have hbudget := expiries_le (x := x) (by rw [hzero]; exact Nat.zero_le _) events
    rw [hzero, Nat.zero_add, hmax] at hbudget
    exact hbudget
  refine ⟨?_, ?_, hle, ?_, ?_⟩
  · intro d hd
    rw [hrequests] at hd
    obtain rfl := List.eq_of_mem_replicate hd
    exact ⟨rfl, Frame.decode_encode_ofRequest henc⟩
  · rw [hrequests, List.length_replicate]
  · intro sent y unread hr
    have hcount := run_retransmits hr
    rw [hzero, Nat.zero_add] at hcount
    exact ⟨hcount, hcount ▸ Nat.lt_of_le_of_lt hle maxRetransmit.toNat_lt⟩
  · rintro early d s f late rfl hd ⟨hkind, hid, hcode⟩
    have hj : ∀ y, Kin x y → y.judge f = .acknowledged := by
      intro y hkin
      refine judge_acknowledged_iff.2 ⟨hkind, ?_, hcode⟩
      rw [hkin.messageId, hm]
      exact hid
    have hrest := run_requests_acknowledged early late (s := s) hfirst hd hj
    rw [hrequests, hrequests, ← List.replicate_append_replicate,
      ← List.replicate_append_replicate, ← run_requests hfirst, ← run_requests hfirst, hrest]

/-- A request that may be sent again for ever is sent twice and acknowledged. What expires then
is not its timer. -/
theorem start_retransmits_twice :
    ∃ x, start 0xFFFFFFFF 7 [1, 2, 3, 4] (.ofMillis 2000) 0 { method := .get } = .ok x ∧
      let requests (events : List Event) := (x.datagram :: (x.run events).1).filter isRequest
      requests ([.expired 2000000000 (.ok ())] ++ .received [0x60, 0, 0, 7] (.ok ()) ::
          [.expired 6000000000 (.ok ())]) = requests [.expired 2000000000 (.ok ())] ∧
        (requests [.expired 2000000000 (.ok ())]).length = 2 := by
  have hack : Frame.decode ([0x60, 0, 0, 7].take receiveLimit) =
      .ok (.empty .acknowledgement 7) := by cbv
  have hx : start 0xFFFFFFFF 7 [1, 2, 3, 4] (.ofMillis 2000) 0 { method := .get } = .ok _ := rfl
  refine ⟨_, hx, ?_, ?_⟩
  · exact (start_retransmits hx _).2.2.2.2 _ _ _ _ _ rfl hack ⟨rfl, rfl, rfl⟩
  · exact (start_retransmits hx _).2.1

end Exchange

end NodeClock
