import NodeClock.Proofs.Exchange
import Mathlib.Data.List.Basic

/-!
# What an exchange answers

A confirmable message is answered at once and once: with an acknowledgement if it brings the
awaited response, and with a reset otherwise. Nothing else is answered, and whether an answer can
be sent makes no difference.

* `Coap.Frame.emptyBytes`: the four bytes of an acknowledgement or a reset.
* `Exchange.Replies`: what is to be sent upon an event.
* `Exchange.step_replies`, `run_replies`: **this is sent, event by event, and nothing else.**
* `Exchange.run_ended_ok`: the last thing sent acknowledges the response that ends an exchange.
* `Exchange.Event.Alike`, `run_alike`: **answers that cannot be sent change nothing.**
* `Exchange.start_answers` (every request and history): all of it for an exchange from its
  beginning.
-/

namespace NodeClock

open Coap

namespace Coap.Frame

/-- The four bytes of an empty message. -/
def emptyBytes (kind : Kind) (id : UInt16) : Bytes :=
  [UInt8.ofNat (64 + kind.bits * 16), 0, UInt8.ofNat (id.toNat / 256), UInt8.ofNat id.toNat]

/-- An empty message can always be encoded. -/
theorem encode_empty (kind : Kind) (id : UInt16) :
    (Frame.empty kind id).encode = .ok (emptyBytes kind id) := rfl

end Coap.Frame

namespace Exchange

open Coap.Frame

/-- What an exchange with the token `k` sends upon an event, `request` being what it sends again.
-/
inductive Replies (k request : Bytes) : Event → List Bytes → Prop where
  | acknowledged {d : Bytes} {s : Except IoError Unit} {f : Frame} {c : ResponseCode} :
      Frame.decode (d.take receiveLimit) = .ok f → f.kind = .confirmable →
      f.token = k → f.code = .response c →
      Replies k request (.received d s) [emptyBytes .acknowledgement f.messageId]
  | rejected {d : Bytes} {s : Except IoError Unit} {f : Frame} :
      Frame.decode (d.take receiveLimit) = .ok f → f.kind = .confirmable →
      (f.token = k → ∀ c, f.code ≠ .response c) →
      Replies k request (.received d s) [emptyBytes .reset f.messageId]
  | unanswered {d : Bytes} {s : Except IoError Unit} :
      (∀ f, Frame.decode (d.take receiveLimit) = .ok f → f.kind ≠ .confirmable) →
      Replies k request (.received d s) []
  | resent {now : Instant} {s : Except IoError Unit} : Replies k request (.expired now s) [request]
  | waited {now : Instant} {s : Except IoError Unit} : Replies k request (.expired now s) []
  | broken {e : IoError} : Replies k request (.broken e) []

/-- Two events that differ at most in whether an answer could be sent. -/
inductive Event.Alike : Event → Event → Prop where
  | received (d : Bytes) (s s' : Except IoError Unit) : Alike (.received d s) (.received d s')
  | refl (e : Event) : Alike e e

variable {x y : Exchange} {e e' : Event} {d : Bytes} {sent : List Bytes} {standing : Standing}
  {s : Except IoError Unit} {f : Frame} {events events' unread : List Event}

/-! ## One event -/

/-- **Upon an event what is to be sent is sent.** -/
theorem step_replies (h : x.step e = (sent, standing)) :
    Replies x.token x.datagram e sent := by
  cases step_acts h with
  | unread hd => exact .unanswered fun f hf => absurd hf (hd f)
  | @read d s f _ hd _ =>
    by_cases hkind : f.kind = .confirmable
    · by_cases hawaited : f.token = x.token ∧ ∃ c, f.code = .response c
      · obtain ⟨htoken, c, hcode⟩ := hawaited
        rw [answer?_awaited hkind htoken hcode]
        exact .acknowledged (f := f) hd hkind htoken hcode
      · have hother : f.token = x.token → ∀ c, f.code ≠ .response c :=
          fun htoken c hcode => hawaited ⟨htoken, c, hcode⟩
        rw [answer?_unawaited hkind hother]
        exact .rejected (f := f) hd hkind hother
    · rw [answer?_of_ne hkind]
      refine .unanswered fun g hg => ?_
      cases hd.symm.trans hg
      exact hkind
  | waiting _ => exact .waited
  | resent _ _ => exact .resent
  | unsent _ _ => exact .resent
  | broken => exact .broken

/-- Whether an answer can be sent makes no difference. -/
theorem step_alike (h : e.Alike e') : x.step e' = x.step e := by
  cases h with
  | received d s s' => rfl
  | refl e => rfl

/-! ## Runs -/

/-- **In a run what is to be sent upon each event is sent, in order**, and nothing else. -/
theorem run_replies (h : x.run events = (sent, standing, unread)) :
    ∃ read replies, events = read ++ unread ∧
      List.Forall₂ (Replies x.token x.datagram) read replies ∧ sent = replies.flatten := by
  induction events generalizing x sent with
  | nil =>
    cases h
    exact ⟨[], [], rfl, .nil, rfl⟩
  | cons e events ih =>
    rcases run_cons_cases h with ⟨_, hs, rfl, rfl⟩ | ⟨first, y, more, hs, hrest, rfl⟩
    · exact ⟨[e], [sent], rfl, .cons (step_replies hs) .nil, (List.append_nil sent).symm⟩
    · obtain ⟨read, replies, rfl, hall, rfl⟩ := ih hrest
      -- the same token is awaited and the same request sent as before
      have hkin := step_kin hs
      rw [hkin.token, hkin.datagram] at hall
      exact ⟨e :: read, first :: replies, rfl, .cons (step_replies hs) hall, rfl⟩

/-- The response that ends an exchange is the last thing that is read. If it is confirmable, its
acknowledgement is the last thing that is sent. -/
theorem run_ended_ok {r : Response} (h : x.run events = (sent, .ended (.ok r), unread)) :
    ∃ early d s f, events = early ++ .received d s :: unread ∧
      Frame.decode (d.take receiveLimit) = .ok f ∧ f.token = x.token ∧ f.response? = some r ∧
      (f.kind = .confirmable →
        sent = (x.run early).1 ++ [emptyBytes .acknowledgement f.messageId]) := by
  induction events generalizing x sent with
  | nil => cases h
  | cons e events ih =>
    rcases run_cons_cases h with ⟨result, hs, hend, rfl⟩ | ⟨first, y, more, hs, hrest, rfl⟩
    · cases hend
      obtain ⟨d, s, f, rfl, hd, hj⟩ := step_ended_ok hs
      obtain ⟨-, -, htoken, hr⟩ := judge_answered_iff.1 hj
      refine ⟨[], d, s, f, rfl, hd, htoken, hr, fun hkind => ?_⟩
      have hanswer := answer?_awaited hkind htoken (response?_eq_some_iff.1 hr).1
      -- what is read is answered before it is judged
      unfold step at hs
      simp only [hd, hanswer] at hs
      exact (Prod.mk.inj hs).1.symm
    · obtain ⟨early, d, s, f, rfl, hd, htoken, hr, hack⟩ := ih hrest
      refine ⟨e :: early, d, s, f, rfl, hd, htoken.trans (step_kin hs).token, hr, fun hkind => ?_⟩
      rw [run_cons_pending hs, hack hkind, List.append_assoc]

/-- **Answers that cannot be sent change nothing**: neither what else is sent, nor the end. -/
theorem run_alike (hall : List.Forall₂ Event.Alike events events')
    (h : x.run events = (sent, standing, unread)) :
    ∃ unread', x.run events' = (sent, standing, unread') ∧
      List.Forall₂ Event.Alike unread unread' := by
  induction hall generalizing x sent with
  | nil =>
    cases h
    exact ⟨[], rfl, .nil⟩
  | @cons e e' events events' he hall ih =>
    rcases run_cons_cases h with ⟨_, hs, rfl, rfl⟩ | ⟨first, y, more, hs, hrest, rfl⟩
    · exact ⟨events', run_cons_ended ((step_alike he).trans hs), hall⟩
    · obtain ⟨unread', hrun, halike⟩ := ih hrest
      refine ⟨unread', ?_, halike⟩
      rw [run_cons_pending ((step_alike he).trans hs), hrun]

/-! ## From the beginning -/

/-- **Each confirmable message is answered once and nothing else is**: what is sent after the
request is, event by event and in order, the acknowledgement or the reset of a confirmable message
that was read, or the request again. The response that ends the exchange is acknowledged before.
Where answers cannot be sent, the exchange sends the same and ends in the same way. -/
theorem start_answers {maxRetransmit : UInt32} {m : UInt16} {k : Bytes} {wait : Span}
    {now : Instant} {r : Request} (hx : start maxRetransmit m k wait now r = .ok x)
    (h : x.run events = (sent, standing, unread)) :
    Frame.decode x.datagram = .ok (.ofRequest .confirmable m k r) ∧
    (∀ kind id, (Frame.empty kind id).encode = .ok (emptyBytes kind id)) ∧
    (∃ read replies, events = read ++ unread ∧
      List.Forall₂ (Replies k x.datagram) read replies ∧ sent = replies.flatten) ∧
    (∀ response, standing = .ended (.ok response) →
      ∃ early d s f, events = early ++ .received d s :: unread ∧
        Frame.decode (d.take receiveLimit) = .ok f ∧ f.token = k ∧ f.response? = some response ∧
        (f.kind = .confirmable →
          sent = (x.run early).1 ++ [emptyBytes .acknowledgement f.messageId])) ∧
    ∀ events', List.Forall₂ Event.Alike events events' →
      ∃ unread', x.run events' = (sent, standing, unread') ∧
        List.Forall₂ Event.Alike unread unread' := by
  obtain ⟨-, rfl, -, henc⟩ := start_eq_ok hx
  refine ⟨decode_encode_ofRequest henc, encode_empty, run_replies h, ?_, ?_⟩
  · rintro response rfl
    exact run_ended_ok h
  · exact fun events' hall => run_alike hall h

/-- A ping is reset, a message that is not confirmable is not answered, and the response is
acknowledged, whether or not this can be sent. -/
theorem start_answers_unsent :
    ∃ x, start 4 7 [1, 2, 3, 4] (.ofMillis 2000) 0 { method := .get } = .ok x ∧
      ∀ s s', ∃ unread, x.run
        [.received [0x40, 0, 0, 8] s, .received [0x50, 0, 0, 9] (.ok ()),
          .expired 2000000000 (.ok ()),
          .received [0x44, 0x45, 1, 2, 1, 2, 3, 4, 0xFF, 0x31] s', .received [] (.ok ())] =
        ([[0x70, 0, 0, 8], x.datagram, [0x60, 0, 1, 2]], .ended (.ok ⟨⟨2, 5⟩, [0x31]⟩),
          unread) := by
  let x : Exchange :=
    { messageId := 7, token := [1, 2, 3, 4], datagram := [0x44, 1, 0, 7, 1, 2, 3, 4],
      maxRetransmit := 4, wait := .ofMillis 2000, deadline := some 2000000000 }
  have hx : start 4 7 [1, 2, 3, 4] (.ofMillis 2000) 0 { method := .get } = .ok x := rfl
  refine ⟨x, hx, fun s s' => ?_⟩
  have hrun : x.run
      [.received [0x40, 0, 0, 8] (.ok ()), .received [0x50, 0, 0, 9] (.ok ()),
        .expired 2000000000 (.ok ()),
        .received [0x44, 0x45, 1, 2, 1, 2, 3, 4, 0xFF, 0x31] (.ok ()), .received [] (.ok ())] =
      ([[0x70, 0, 0, 8], x.datagram, [0x60, 0, 1, 2]], .ended (.ok ⟨⟨2, 5⟩, [0x31]⟩),
        [.received [] (.ok ())]) := by
    cbv
  obtain ⟨unread, hfailing, -⟩ := (start_answers hx hrun).2.2.2.2 _
    (.cons (.received _ _ s) <| .cons (.refl _) <| .cons (.refl _) <| .cons (.received _ _ s') <|
      .cons (.refl _) .nil)
  exact ⟨unread, hfailing⟩

end Exchange

end NodeClock
