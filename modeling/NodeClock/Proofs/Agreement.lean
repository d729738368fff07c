import NodeClock.Proofs.Network
import NodeClock.Proofs.Truncation
import Mathlib.Data.List.Nodup

/-!
# Exchanges and answers agree

* `Copies.judge_unrelated`: what an answer means to an exchange with another id and another token.
* `World.Sound.answered`: an exchange that ended well was answered upon its own request.
* `World.Sound.stale`: an answer to an earlier request leaves the exchange under way as it is.
* `World.agreement` (every run, every network): **both, for sessions whose tokens differ**, and
  message ids are used one after the other.
* `World.not_agreement`: an answer that is too long may not be what an exchange ends with.
-/

namespace NodeClock

open Coap

/-- **A message that copies from a request with another id and another token** means nothing to an
exchange, not even when it has been cut. -/
theorem Copies.judge_unrelated {request reply f : Frame} {x : Exchange} {d : Bytes} {n : Nat}
    (h : Copies request reply) (hreply : Frame.decode d = .ok reply)
    (hf : Frame.decode (d.take n) = .ok f) (hid : request.messageId ≠ x.messageId)
    (htoken : request.token ≠ x.token) : x.judge f = .unrelated := by
  obtain ⟨hkind, hfid, hftoken, hcode, -⟩ := Frame.decode_take hf hreply
  -- whatever else it were taken for, its id or its token would be that of the exchange
  cases hj : x.judge f with
  | unrelated => rfl
  | answered r =>
    obtain ⟨hnoreset, -, ht, hr⟩ := Exchange.judge_answered_iff.1 hj
    have hsome : reply.response?.isSome := by
      rw [Frame.response?, ← hcode, (Exchange.response?_eq_some_iff.1 hr).1]
      rfl
    have hcopied := h.token (hkind ▸ hnoreset) hsome
    exact absurd (hcopied.symm.trans (hftoken.symm.trans ht)) htoken
  | acknowledged =>
    obtain ⟨hack, hm, -⟩ := Exchange.judge_acknowledged_iff.1 hj
    have hcopied := h.messageId (Or.inl (hkind ▸ hack))
    exact absurd (hcopied.symm.trans (hfid.symm.trans hm)) hid
  | reset =>
    obtain ⟨hreset, hm⟩ := Exchange.judge_reset_iff.1 hj
    have hcopied := h.messageId (Or.inr (hkind ▸ hreset))
    exact absurd (hcopied.symm.trans (hfid.symm.trans hm)) hid

namespace World

variable {w : World} {first : UInt16} {i j : Nat} {e e' : Entry} {x : Exchange} {a : Answer}

/-- Message ids differ while less than 65536 exchanges lie between them. -/
theorem messageId_ne (first : UInt16) (hij : i < j) (hlt : j - i < 65536) :
    first + UInt16.ofNat i ≠ first + UInt16.ofNat j := by
  intro h
  have h' := congrArg UInt16.toNat h
  have hf := first.toNat_lt
  simp only [UInt16.toNat_add, UInt16.toNat_ofNat'] at h'
  omega

/-- Message ids are used one after the other. -/
theorem Sound.messageId_eq (h : w.Sound first) (he : w.exchanges[j]? = some e) :
    e.messageId = first + UInt16.ofNat j := by
  have hg : w.frames[j]? = some e.frame := by
    rw [frames, List.getElem?_map, he]
    rfl
  exact h.messageIds j e.frame hg

/-- The answers to a request copy from it. -/
theorem Sound.copies (h : w.Sound first) (ha : a ∈ w.answers)
    (henc : e.frame.encode = .ok a.request) :
    ∃ reply, Frame.decode a.datagram = .ok reply ∧ Copies e.frame reply := by
  obtain ⟨g, hg, henc', hrest⟩ := h.answers a ha
  obtain ⟨e', -, rfl⟩ := List.mem_map.1 hg
  have heq : e.frame = e'.frame := Except.ok.inj
    ((Frame.decode_encode_ofRequest henc).symm.trans (Frame.decode_encode_ofRequest henc'))
  rw [heq]
  exact hrest

/-- **An exchange that ended well** was answered upon its own request. -/
theorem Sound.answered (h : w.Sound first) (hd : (w.exchanges.map (·.token)).Nodup)
    (he : e ∈ w.exchanges) {r : Response} (hr : e.course = .ended (.ok r)) :
    ∃ a ∈ w.answers, e.frame.encode = .ok a.request ∧ a.Arrives r := by
  obtain ⟨a, ha, request, hreq, htoken, harrives⟩ := (h.entries e he).ended r hr
  obtain ⟨g, hg, henc, -⟩ := h.answers a ha
  obtain ⟨e', he', rfl⟩ := List.mem_map.1 hg
  cases hreq.symm.trans (Frame.decode_encode_ofRequest henc)
  have heq : e' = e := List.inj_on_of_nodup_map hd he' he htoken
  exact ⟨a, ha, heq ▸ henc, harrives⟩

/-- **An answer to an earlier request** leaves the exchange under way as it is. -/
theorem Sound.stale (h : w.Sound first) (hd : (w.exchanges.map (·.token)).Nodup)
    (he : w.exchanges[i]? = some e) (he' : w.exchanges[j]? = some e')
    (hx : e'.course = .pending x) (hij : i < j) (hlt : j - i < 65536) (ha : a ∈ w.answers)
    (henc : e.frame.encode = .ok a.request) (sent : Except IoError Unit) :
    (x.step (.received a.datagram sent)).2 = .pending x := by
  have hmem := List.mem_of_getElem? he
  have hmem' := List.mem_of_getElem? he'
  obtain ⟨hid, htoken, -⟩ := (h.entries e' hmem').pending x hx
  have hids : e.messageId ≠ e'.messageId := by
    rw [h.messageId_eq he, h.messageId_eq he']
    exact messageId_ne first hij hlt
  have htokens : e.token ≠ e'.token := by
    intro hsame
    exact hids (congrArg Entry.messageId (List.inj_on_of_nodup_map hd hmem hmem' hsame))
  obtain ⟨reply, hreply, hcopies⟩ := h.copies ha henc
  cases hs : x.step (.received a.datagram sent) with
  | mk _ standing =>
    cases Exchange.step_acts hs with
    | unread _ => rfl
    | read hf haccept =>
      have hunrelated := hcopies.judge_unrelated hreply hf (hid ▸ hids) (htoken ▸ htokens)
      rw [← haccept]
      exact Exchange.accept_pending_iff.2 (Or.inr ⟨hunrelated, rfl⟩)

/-- The shortest run in which an exchange comes to an end: it begins, the node hears the request and
answers it, and the answer arrives. -/
theorem reachable_ended {s : Session} {token d : Bytes} {draw : Nat} {now : Instant} {q : Request}
    {reply : Frame} {result : Except TransportError Response}
    (hx : Exchange.start s.policy.maxRetransmit s.nextId token (s.policy.firstWait draw) now q =
      .ok x)
    (hreply : Frame.decode d = .ok reply)
    (hcopies : Copies (.ofRequest .confirmable s.nextId token q) reply)
    (hend : (x.step (.received d (.ok ()))).2 = .ended result) :
    Reachable s
      { session := (s.begin token draw now q).1
        exchanges := [{ messageId := s.nextId, token, request := q, course := .ended result }]
        sent := x.datagram :: (x.step (.received d (.ok ()))).1
        heard := [x.datagram]
        answers := [⟨x.datagram, d⟩] } := by
  obtain ⟨-, -, -, henc⟩ := Exchange.start_eq_ok hx
  have hbegin := Reachable.step (s := s) .start (.begin token draw now q (List.forall_mem_nil _))
  simp only [World.begin, Session.begin, hx, Except.toOption, Option.toList_some, List.map_cons,
    List.map_nil, List.nil_append] at hbegin
  have hheard := hbegin.step (.hear List.mem_cons_self)
  have hanswered := hheard.step
    (.answer List.mem_cons_self (Frame.decode_encode_ofRequest henc) rfl hreply hcopies)
  have hended := hanswered.step
    (@Step.event _ [] _ _ (.received _ (.ok ())) rfl rfl ⟨_, List.mem_cons_self, rfl⟩)
  rw [hend] at hended
  exact hended

/-- **Exchanges and answers agree**, whatever the network does. In every run of a session whose
tokens differ

* an exchange ends well only with what arrives of an answer to its own request, and with the whole
  answer if the receive buffer holds it,
* an answer to an earlier request, less than 65536 exchanges ago, neither ends the exchange under
  way nor acknowledges it,
* each exchange has the message id that follows the one before, be it refused or dropped. -/
theorem agreement {s : Session} (h : Reachable s w) (hd : (w.exchanges.map (·.token)).Nodup) :
    (∀ e ∈ w.exchanges, ∀ r, e.course = .ended (.ok r) →
      ∃ a ∈ w.answers, e.frame.encode = .ok a.request ∧ a.Arrives r ∧
        (a.datagram.length ≤ receiveLimit → Coap.Brings a.datagram r)) ∧
    (∀ i j e e' x a sent, w.exchanges[i]? = some e → w.exchanges[j]? = some e' →
      e'.course = .pending x → i < j → j - i < 65536 → a ∈ w.answers →
      e.frame.encode = .ok a.request → (x.step (.received a.datagram sent)).2 = .pending x) ∧
    (∀ j e, w.exchanges[j]? = some e → e.messageId = s.nextId + UInt16.ofNat j ∧
      ∀ x, e.course = .pending x → x.messageId = e.messageId ∧ x.token = e.token ∧
        e.frame.encode = .ok x.datagram) ∧
    w.session.nextId = s.nextId + UInt16.ofNat w.exchanges.length := by
  have hs := h.sound
  refine ⟨?_, ?_, ?_, hs.nextId⟩
  · intro e he r hr
    obtain ⟨a, ha, henc, harrives⟩ := hs.answered hd he hr
    exact ⟨a, ha, henc, harrives, harrives.brings⟩
  · intro i j e e' x a sent he he' hx hij hlt ha henc
    exact hs.stale hd he he' hx hij hlt ha henc sent
  · intro j e he
    exact ⟨hs.messageId_eq he, (hs.entries e (List.mem_of_getElem? he)).pending⟩

/-- The answer to one exchange comes a second time during the next, and the message ids begin
anew. -/
theorem agreement_twice :
    ∃ w x, Reachable { policy := {}, nextId := 0xFFFF } w ∧
      w.exchanges =
        [{ messageId := 0xFFFF, token := [1, 2, 3, 4], request := { method := .get },
           course := .ended (.ok ⟨⟨2, 5⟩, [0x31]⟩) },
         { messageId := 0, token := [5, 6, 7, 8], request := { method := .get },
           course := .pending x }] ∧
      (∃ a ∈ w.answers, Coap.Brings a.datagram ⟨⟨2, 5⟩, [0x31]⟩ ∧
        (x.step (.received a.datagram (.ok ()))).2 = .pending x) ∧
      w.session.nextId = 1 := by
  have hreply : Frame.decode [0x64, 0x45, 0xFF, 0xFF, 1, 2, 3, 4, 0xFF, 0x31] =
      .ok { kind := .acknowledgement, messageId := 0xFFFF, token := [1, 2, 3, 4],
            code := .response ⟨2, 5⟩, payload := [0x31] } := by cbv
  obtain ⟨x, hx⟩ : ∃ x, Exchange.start 4 0xFFFF [1, 2, 3, 4] (Policy.firstWait {} 0) 0
      { method := .get } = .ok x := ⟨_, rfl⟩
  obtain ⟨y, hy⟩ : ∃ y, Exchange.start 4 (0xFFFF + 1) [5, 6, 7, 8] (Policy.firstWait {} 0) 0
      { method := .get } = .ok y := ⟨_, rfl⟩
  obtain ⟨hid, htoken, -⟩ := Exchange.start_eq_ok hx
  have hend : (x.step (.received [0x64, 0x45, 0xFF, 0xFF, 1, 2, 3, 4, 0xFF, 0x31] (.ok ()))).2 =
      .ended (.ok ⟨⟨2, 5⟩, [0x31]⟩) := by
    simp [Exchange.step, receiveLimit, hreply, Exchange.answer?, Exchange.accept, Exchange.judge,
      hid, htoken, Frame.isEmpty, Frame.response?]
  have hended := reachable_ended (s := ⟨{}, 0xFFFF⟩) hx hreply ⟨fun _ => rfl, fun _ _ => rfl⟩ hend
  have hlast := hended.step (.begin [5, 6, 7, 8] 0 0 { method := .get } (by simp [Idle]))
  simp only [World.begin, Session.begin, hy] at hlast
  have htokens : ([[1, 2, 3, 4], [5, 6, 7, 8]] : List Bytes).Nodup := by decide
  obtain ⟨hok, hstale, -, hnext⟩ := agreement hlast htokens
  obtain ⟨a, ha, hreq, -, hwhole⟩ := hok _ List.mem_cons_self _ rfl
  have hshort : a.datagram.length ≤ receiveLimit := by
    rw [List.mem_singleton.1 ha]
    exact (by decide : 10 ≤ receiveLimit)
  have hstale := hstale 0 1 _ _ y a (.ok ()) rfl rfl rfl Nat.one_pos (by decide) ha hreq
  exact ⟨_, y, hlast, rfl, ⟨a, ha, hwhole hshort, hstale⟩,
    hnext.trans (show (0xFFFF : UInt16) + UInt16.ofNat 2 = 1 by decide)⟩

/-- **What an exchange ends well with need not be an answer of the node**, namely if the answer is a
byte longer than the receive buffer. -/
theorem not_agreement :
    ∃ w, Reachable { policy := {}, nextId := 7 } w ∧ (w.exchanges.map (·.token)).Nodup ∧
      w.answers.map (·.datagram) =
        [Exchange.answerDatagram 7 [1, 2, 3, 4] (telling 1261 17356896000)] ∧
      ∃ e ∈ w.exchanges, ∃ r, e.course = .ended (.ok r) ∧
        ∀ a ∈ w.answers, ¬ Coap.Brings a.datagram r := by
  have hpos : 0 < 1735689600 := by norm_num
  have hdigits : (Decimal.digits 1735689600).length = 10 := by decide
  obtain ⟨x, hx⟩ : ∃ x, Exchange.start 4 7 [1, 2, 3, 4] (Policy.firstWait {} 0) 0
      { method := .get } = .ok x := ⟨_, rfl⟩
  obtain ⟨hid, htoken, -⟩ := Exchange.start_eq_ok hx
  have hend := Exchange.step_telling (x := x) (k := 1261) (s := .ok ()) (by rw [htoken]; decide)
    hpos (by rw [htoken, hdigits]; rfl)
  rw [hid, htoken] at hend
  have hrun := reachable_ended (s := ⟨{}, 7⟩) hx (Exchange.decode_telling (by decide))
    ⟨fun _ => rfl, fun _ _ => rfl⟩ hend
  refine ⟨_, hrun, List.nodup_singleton _, rfl, _, List.mem_cons_self, _, rfl, ?_⟩
  intro a ha
  rw [List.mem_singleton.1 ha]
  exact Exchange.not_brings_tenth (by decide) hpos

end World

end NodeClock
