import NodeClock.Exchange.Session
import NodeClock.Proofs.Response

/-!
# A session, its node and the network between them

One exchange of the session follows the other; each is ended by what it receives, refused by the
codec, broken by the socket, or dropped midway. The node answers requests that it has heard with
messages that copy from them. The network delivers what was sent late, more than once, in any
order or not at all.

* `World`, `World.Step`, `World.Reachable`: the exchanges so far with all that has been sent, and
  how they go on.
* `Copies`: what the node copies from a request into a message.
* `World.Sound`: what links every datagram and every result to the exchange that caused it.
* `World.Reachable.sound`: **it holds of every run.**
-/

namespace NodeClock

open Coap

/-- A datagram that the node has sent, and the request upon which it was sent. -/
structure Answer where
  request : Bytes
  datagram : Bytes

/-- The response is that of the answer, as far as the receive buffer holds it. -/
def Answer.Arrives (a : Answer) (r : Response) : Prop := Brings (a.datagram.take receiveLimit) r

/-- An answer that the receive buffer holds arrives as it is. -/
theorem Answer.Arrives.brings {a : Answer} {r : Response} (h : a.Arrives r)
    (hlen : a.datagram.length ≤ receiveLimit) : Coap.Brings a.datagram r := by
  rwa [Answer.Arrives, List.take_of_length_le hlen] at h

/-- What has become of an exchange. -/
inductive Course where
  | pending (x : Exchange)
  | ended (result : Except TransportError Response)
  | dropped

def Course.ofBegun : Except TransportError Exchange → Course
  | .ok x => .pending x
  | .error e => .ended (.error e)

def Course.ofStanding : Exchange.Standing → Course
  | .pending x => .pending x
  | .ended result => .ended result

/-- One exchange of a session. -/
structure Entry where
  messageId : UInt16
  token : Bytes
  request : Request
  course : Course

/-- The message that carries the request. -/
def Entry.frame (e : Entry) : Frame := .ofRequest .confirmable e.messageId e.token e.request

/-- A session with its exchanges in order, what it has sent, what of this the node has heard, and
what the node has answered. What has been sent stays there to be delivered. -/
structure World where
  session : Session
  exchanges : List Entry := []
  sent : List Bytes := []
  heard : List Bytes := []
  answers : List Answer := []

namespace World

/-- The requests of all exchanges, in order. -/
def frames (w : World) : List Frame := w.exchanges.map Entry.frame

/-- No exchange is under way. -/
def Idle (w : World) : Prop := ∀ e ∈ w.exchanges, ∀ x, e.course ≠ .pending x

/-- What is received is something that the node has answered. -/
def Brings (w : World) : Exchange.Event → Prop
  | .received d _ => ∃ a ∈ w.answers, a.datagram = d
  | _ => True

/-- The next exchange begins, or is refused by the codec. -/
def begin (w : World) (token : Bytes) (draw : Nat) (now : Instant) (r : Request) : World :=
  let (session, begun) := w.session.begin token draw now r
  { w with
    session
    exchanges := w.exchanges ++
      [{ messageId := w.session.nextId, token, request := r, course := .ofBegun begun }]
    sent := w.sent ++ begun.toOption.toList.map (·.datagram) }

end World

/-- What a message copies from a request: an acknowledgement or a reset its message id, a response
its token. All else about the message is free. -/
structure Copies (request reply : Frame) : Prop where
  messageId : reply.kind = .acknowledgement ∨ reply.kind = .reset →
    reply.messageId = request.messageId
  token : reply.kind ≠ .reset → reply.response?.isSome → reply.token = request.token

namespace World

/-- One step of the session, of the network or of the node. -/
inductive Step : World → World → Prop where
  | begin {w : World} (token : Bytes) (draw : Nat) (now : Instant) (r : Request) : w.Idle →
      Step w (w.begin token draw now r)
  | event {w : World} {past : List Entry} {e : Entry} {x : Exchange} (event : Exchange.Event) :
      w.exchanges = past ++ [e] → e.course = .pending x → w.Brings event →
      Step w { w with
        exchanges := past ++ [{ e with course := .ofStanding (x.step event).2 }]
        sent := w.sent ++ (x.step event).1 }
  | drop {w : World} {past : List Entry} {e : Entry} {x : Exchange} :
      w.exchanges = past ++ [e] → e.course = .pending x →
      Step w { w with exchanges := past ++ [{ e with course := .dropped }] }
  | hear {w : World} {d : Bytes} : d ∈ w.sent → Step w { w with heard := d :: w.heard }
  | answer {w : World} {q d : Bytes} {request reply : Frame} : q ∈ w.heard →
      Frame.decode q = .ok request → request.request?.isSome → Frame.decode d = .ok reply →
      Copies request reply → Step w { w with answers := ⟨q, d⟩ :: w.answers }

/-- The worlds that a session comes to. -/
inductive Reachable (s : Session) : World → Prop where
  | start : Reachable s { session := s }
  | step {w w' : World} : Reachable s w → Step w w' → Reachable s w'

end World

/-- An exchange under way sends its own request, and one that ended well has got its response in
an answer to a request with its token. -/
structure Entry.Sound (answers : List Answer) (e : Entry) : Prop where
  pending : ∀ x, e.course = .pending x →
    x.messageId = e.messageId ∧ x.token = e.token ∧ e.frame.encode = .ok x.datagram
  ended : ∀ r, e.course = .ended (.ok r) → ∃ a ∈ answers, ∃ request,
    Frame.decode a.request = .ok request ∧ request.token = e.token ∧ a.Arrives r

/-- **What links every datagram to the exchange that caused it.** -/
structure World.Sound (first : UInt16) (w : World) : Prop where
  nextId : w.session.nextId = first + UInt16.ofNat w.exchanges.length
  messageIds : ∀ j g, w.frames[j]? = some g → g.messageId = first + UInt16.ofNat j
  entries : ∀ e ∈ w.exchanges, e.Sound w.answers
  sent : ∀ d ∈ w.sent, (∃ g ∈ w.frames, g.encode = .ok d) ∨
    ∃ kind id, d = (Frame.empty kind id).packet.write
  heard : ∀ d ∈ w.heard, d ∈ w.sent
  answers : ∀ a ∈ w.answers, ∃ g ∈ w.frames, g.encode = .ok a.request ∧
    ∃ reply, Frame.decode a.datagram = .ok reply ∧ Copies g reply

variable {first : UInt16} {w w' : World} {past : List Entry} {e : Entry} {x : Exchange}

theorem Entry.Sound.mono {answers answers' : List Answer} (h : e.Sound answers)
    (hsub : answers ⊆ answers') : e.Sound answers' := by
  refine ⟨h.pending, fun r hr => ?_⟩
  obtain ⟨a, ha, hrest⟩ := h.ended r hr
  exact ⟨a, hsub ha, hrest⟩

/-- An exchange that has just begun, with what it has sent. -/
theorem Entry.sound_ofBegun (answers : List Answer) {maxRetransmit : UInt32} {id : UInt16}
    {token : Bytes} {wait : Span} {now : Instant} {r : Request}
    {begun : Except TransportError Exchange}
    (hb : Exchange.start maxRetransmit id token wait now r = begun) :
    (Entry.mk id token r (.ofBegun begun)).Sound answers ∧
      ∀ d ∈ begun.toOption.toList.map (·.datagram),
        (Entry.mk id token r (.ofBegun begun)).frame.encode = .ok d := by
  cases begun with
  | error err => exact ⟨⟨nofun, nofun⟩, by simp [Except.toOption]⟩
  | ok x =>
    obtain ⟨hid, htoken, -, henc⟩ := Exchange.start_eq_ok hb
    refine ⟨⟨?_, nofun⟩, ?_⟩
    · rintro _ ⟨⟩
      exact ⟨hid, htoken, henc⟩
    · intro d hd
      cases List.mem_singleton.1 hd
      exact henc

/-- What becomes of the last exchange does not change the requests. -/
theorem frames_settle (past : List Entry) (e : Entry) (course : Course) :
    (past ++ [{ e with course }]).map Entry.frame = (past ++ [e]).map Entry.frame := by
  simp [Entry.frame]

/-- Only requests are read as requests. -/
theorem World.Sound.request_of_sent (h : w.Sound first) {d : Bytes} {g : Frame} (hd : d ∈ w.sent)
    (hg : Frame.decode d = .ok g) (hr : g.request?.isSome) : g ∈ w.frames ∧ g.encode = .ok d := by
  rcases h.sent d hd with ⟨g', hmem, henc⟩ | ⟨kind, id, rfl⟩
  · obtain ⟨e, -, rfl⟩ := List.mem_map.1 hmem
    cases hg.symm.trans (Frame.decode_encode_ofRequest henc)
    exact ⟨hmem, henc⟩
  · cases hg.symm.trans (Frame.decode_write_empty kind id)
    cases hr

namespace World

theorem ofNat_add_one (first : UInt16) (n : Nat) :
    first + UInt16.ofNat n + 1 = first + UInt16.ofNat (n + 1) := by
  rw [UInt16.add_assoc, UInt16.ofNat_add]
  rfl

/-- One more request takes the next message id. -/
theorem Sound.messageIds_append (h : w.Sound first) {e : Entry}
    (he : e.messageId = w.session.nextId) :
    ∀ j g, (w.frames ++ [e.frame])[j]? = some g → g.messageId = first + UInt16.ofNat j := by
  intro j g hg
  rw [List.getElem?_append] at hg
  split at hg
  · exact h.messageIds j g hg
  · -- behind the earlier requests there is only the new one
    rename_i hlt
    have hlen : w.frames.length = w.exchanges.length := List.length_map _
    have hj : j = w.exchanges.length := by
      have := (List.getElem?_eq_some_iff.1 hg).1
      simp only [List.length_singleton] at this
      omega
    rw [hj, hlen, Nat.sub_self] at hg
    cases hg
    rw [hj, ← h.nextId, ← he]
    rfl

/-- An exchange that begins. -/
theorem Sound.begin (h : w.Sound first) (token : Bytes) (draw : Nat) (now : Instant)
    (r : Request) : (w.begin token draw now r).Sound first := by
  have hframes : ∀ {g e}, g ∈ w.frames → g ∈ (w.exchanges ++ [e]).map Entry.frame := by
    intro g e hg
    rw [List.map_append]
    exact List.mem_append_left _ hg
  have hnew := Entry.sound_ofBegun w.answers
    (rfl : Exchange.start w.session.policy.maxRetransmit w.session.nextId token
      (w.session.policy.firstWait draw) now r = _)
  refine ⟨?_, ?_, ?_, ?_, ?_, ?_⟩
  · show w.session.nextId + 1 = first + UInt16.ofNat (w.exchanges ++ [_]).length
    rw [h.nextId, ofNat_add_one, List.length_append, List.length_singleton]
  · intro j g hg
    rw [frames, World.begin, List.map_append] at hg
    exact h.messageIds_append rfl j g hg
  · intro e he
    rcases List.mem_append.1 he with he | he
    · exact h.entries e he
    · rw [List.mem_singleton] at he
      subst he
      exact hnew.1
  · intro d hd
    rcases List.mem_append.1 hd with hd | hd
    · rcases h.sent d hd with ⟨g, hg, henc⟩ | hempty
      · exact Or.inl ⟨g, hframes hg, henc⟩
      · exact Or.inr hempty
    · refine Or.inl ⟨_, List.mem_map_of_mem (List.mem_append_right _ List.mem_cons_self), ?_⟩
      exact hnew.2 d hd
  · exact fun d hd => List.mem_append_left _ (h.heard d hd)
  · intro a ha
    obtain ⟨g, hg, hrest⟩ := h.answers a ha
    exact ⟨g, hframes hg, hrest⟩

/-- What becomes of the last exchange, with what is sent thereby. -/
theorem Sound.settle (h : w.Sound first) (he : w.exchanges = past ++ [e]) {course : Course}
    {sent : List Bytes} (hnew : ({ e with course } : Entry).Sound w.answers)
    (hsent : ∀ d ∈ sent, (∃ g ∈ w.frames, g.encode = .ok d) ∨
      ∃ kind id, d = (Frame.empty kind id).packet.write) :
    Sound first { w with exchanges := past ++ [{ e with course }], sent := w.sent ++ sent } := by
  -- no request changes, and all but the entry and what is sent speaks of requests only
  have hframes : (past ++ [{ e with course }]).map Entry.frame = w.frames := by
    rw [frames_settle, ← he]
    rfl
  refine ⟨?_, ?_, ?_, ?_, ?_, ?_⟩
  · rw [h.nextId, he]
    simp only [List.length_append, List.length_singleton]
  · intro j g hg
    rw [frames, hframes] at hg
    exact h.messageIds j g hg
  · intro e' he'
    rcases List.mem_append.1 he' with he' | he'
    · exact h.entries e' (he ▸ List.mem_append_left _ he')
    · cases List.mem_singleton.1 he'
      exact hnew
  · intro d hd
    rw [frames, hframes]
    rcases List.mem_append.1 hd with hd | hd
    · exact h.sent d hd
    · exact hsent d hd
  · exact fun d hd => List.mem_append_left _ (h.heard d hd)
  · intro a ha
    rw [frames, hframes]
    exact h.answers a ha

/-- What is told to be the response has the token of the request that it answers. -/
theorem Sound.answer_of_judge (h : w.Sound first) {a : Answer} (ha : a ∈ w.answers) {f : Frame}
    {r : Response} (hf : Frame.decode (a.datagram.take receiveLimit) = .ok f)
    (hj : x.judge f = .answered r) :
    ∃ request, Frame.decode a.request = .ok request ∧ request.token = x.token ∧ a.Arrives r := by
  obtain ⟨g, hg, hreq, reply, hreply, hcopies⟩ := h.answers a ha
  obtain ⟨e, -, rfl⟩ := List.mem_map.1 hg
  obtain ⟨hnoreset, -, htoken, hresp⟩ := Exchange.judge_answered_iff.1 hj
  obtain ⟨hcode, -⟩ := Exchange.response?_eq_some_iff.1 hresp
  -- the receive buffer may have cut the datagram, but neither its token nor its code
  obtain ⟨hkind, -, hftoken, hfcode, -⟩ := Frame.decode_take hf hreply
  have hsome : reply.response?.isSome := by
    rw [Frame.response?, ← hfcode, hcode]
    rfl
  refine ⟨e.frame, Frame.decode_encode_ofRequest hreq, ?_, f, hf, hresp⟩
  rw [← hcopies.token (hkind ▸ hnoreset) hsome, ← hftoken, htoken]

/-- An exchange under way after an event. -/
theorem Sound.event (h : w.Sound first) (he : w.exchanges = past ++ [e])
    (hx : e.course = .pending x) {event : Exchange.Event} (hb : w.Brings event) :
    Sound first { w with
      exchanges := past ++ [{ e with course := .ofStanding (x.step event).2 }]
      sent := w.sent ++ (x.step event).1 } := by
  have hmem : e ∈ w.exchanges := he ▸ List.mem_append_right _ List.mem_cons_self
  obtain ⟨hid, htoken, henc⟩ := (h.entries e hmem).pending x hx
  refine h.settle he ?_ ?_
  · cases hs : x.step event with
    | mk sent standing =>
      cases standing with
      | pending y =>
        have hkin := Exchange.step_kin hs
        refine ⟨?_, nofun⟩
        rintro _ ⟨⟩
        exact ⟨hkin.messageId.trans hid, hkin.token.trans htoken, hkin.datagram ▸ henc⟩
      | ended result =>
        refine ⟨nofun, ?_⟩
        rintro r ⟨⟩
        obtain ⟨d, s, f, rfl, hf, hj⟩ := Exchange.step_ended_ok hs
        obtain ⟨a, ha, rfl⟩ := hb
        obtain ⟨request, hreq, hsame, harrives⟩ := h.answer_of_judge ha hf hj
        exact ⟨a, ha, request, hreq, hsame.trans htoken, harrives⟩
  · intro d hd
    rcases Exchange.step_sent rfl d hd with rfl | hempty
    · exact Or.inl ⟨e.frame, List.mem_map_of_mem hmem, henc⟩
    · exact Or.inr hempty

theorem Sound.step (h : w.Sound first) (hs : Step w w') : w'.Sound first := by
  cases hs with
  | begin token draw now r _ => exact h.begin token draw now r
  | event event he hx hb => exact h.event he hx hb
  | @drop past e x he hx =>
    have hnew : ({ e with course := .dropped } : Entry).Sound w.answers := ⟨nofun, nofun⟩
    have hs := h.settle he hnew (List.forall_mem_nil _)
    rwa [List.append_nil] at hs
  | hear hd =>
    refine ⟨h.nextId, h.messageIds, h.entries, h.sent, ?_, h.answers⟩
    intro d hd'
    rcases List.mem_cons.1 hd' with rfl | hd'
    · exact hd
    · exact h.heard d hd'
  | answer hq hreq hsome hreply hcopies =>
    refine ⟨h.nextId, h.messageIds, ?_, h.sent, h.heard, ?_⟩
    · exact fun e he => (h.entries e he).mono (List.subset_cons_self _ _)
    · intro a ha
      rcases List.mem_cons.1 ha with rfl | ha
      · -- what the node takes for a request has been sent as one
        obtain ⟨hmem, henc⟩ := h.request_of_sent (h.heard _ hq) hreq hsome
        exact ⟨_, hmem, henc, _, hreply, hcopies⟩
      · exact h.answers a ha

/-- **Every run keeps the links.** -/
theorem Reachable.sound {s : Session} (h : Reachable s w) : w.Sound s.nextId := by
  induction h with
  | start =>
    refine ⟨(UInt16.add_zero _).symm, ?_, List.forall_mem_nil _, List.forall_mem_nil _,
      List.forall_mem_nil _, List.forall_mem_nil _⟩
    intro j g hg
    cases hg
  | step _ hs ih => exact ih.step hs

end World

end NodeClock
