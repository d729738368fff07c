import NodeClock.Exchange.Basic
import NodeClock.Proofs.Frame

/-!
# What an exchange can do

* `Exchange.judge_answered_iff`, `judge_acknowledged_iff`, `judge_reset_iff`: what a message is
  taken for.
* `Exchange.answer?_awaited`, `answer?_unawaited`, `answer?_of_ne`: how a message is answered.
* `Exchange.timer?_eq_some_iff`: when the retransmission timer runs.
* `Exchange.Acts`, `step_acts`: **all that an exchange can do upon an event**.
* `Exchange.step_pending`, `step_ended_ok`, `step_sent`: how it goes on, what ends it well, and what
  it sends.
* `Exchange.run_cons_pending`, `run_cons_ended`, `run_cons_cases`: a run, event by event.
* `Exchange.run_append_pending`, `run_append_ended`: a run that goes on.
* `Exchange.Kin`: what no event changes, kept by `step_kin` and `run_kin`.
-/

namespace NodeClock

open Coap

namespace Exchange

variable {x y : Exchange} {f : Frame} {e : Event} {sent : List Bytes}
  {result : Except TransportError Response}

theorem response?_eq_some_iff {r : Response} :
    f.response? = some r ↔ f.code = .response r.code ∧ f.payload = r.payload := by
  obtain ⟨code, payload⟩ := r
  unfold Frame.response?
  cases f.code <;> simp

/-- An empty message brings no response. -/
theorem response?_of_isEmpty (h : f.isEmpty = true) : f.response? = none := by
  have hc : f.code = .empty := beq_iff_eq.1 h
  rw [Frame.response?, hc]

/-- A message that is judged by its token is a response or unrelated. -/
theorem judge_token_ne {v : Verdict} (hr : ∀ r, Verdict.answered r ≠ v)
    (hu : Verdict.unrelated ≠ v) :
    (if f.token = x.token then f.response?.elim .unrelated .answered
      else Verdict.unrelated) ≠ v := by
  split
  · cases f.response? with
    | none => exact hu
    | some r => exact hr r
  · exact hu

/-- **A response** comes in an acknowledgement of the request or in a message of its own, with the
token of the request. -/
theorem judge_answered_iff {r : Response} :
    x.judge f = .answered r ↔
      f.kind ≠ .reset ∧ (f.kind = .acknowledgement → f.messageId = x.messageId) ∧
        f.token = x.token ∧ f.response? = some r := by
  have hresp : (if f.token = x.token then f.response?.elim .unrelated .answered
      else Verdict.unrelated) = .answered r ↔ f.token = x.token ∧ f.response? = some r := by
    by_cases ht : f.token = x.token
    · rw [if_pos ht]
      cases f.response? <;> simp [ht]
    · simp [ht]
  unfold judge
  simp only
  cases f.kind with
  | confirmable => simpa using hresp
  | nonConfirmable => simpa using hresp
  | reset =>
    simp only
    split <;> simp
  | acknowledgement =>
    -- the id is looked at first, and an empty acknowledgement brings no response in any case
    simp only
    by_cases hid : f.messageId = x.messageId
    · rw [if_neg (not_not_intro hid)]
      by_cases he : f.isEmpty = true
      · rw [if_pos he]
        simp [response?_of_isEmpty he]
      · rw [if_neg he, hresp]
        simp [hid]
    · rw [if_pos hid]
      simp [hid]

/-- **A reset** is told by the message id alone. -/
theorem judge_reset_iff : x.judge f = .reset ↔ f.kind = .reset ∧ f.messageId = x.messageId := by
  have hresp := judge_token_ne (x := x) (f := f) (v := .reset) (fun _ => nofun) nofun
  unfold judge
  simp only
  cases f.kind with
  | confirmable => simpa using hresp
  | nonConfirmable => simpa using hresp
  | reset => simp
  | acknowledgement =>
    simp only
    split
    · simp
    split
    · simp
    · simpa using hresp

/-- **An acknowledgement** without response is told by the message id alone. -/
theorem judge_acknowledged_iff :
    x.judge f = .acknowledged ↔
      f.kind = .acknowledgement ∧ f.messageId = x.messageId ∧ f.code = .empty := by
  have hresp := judge_token_ne (x := x) (f := f) (v := .acknowledged) (fun _ => nofun) nofun
  have hempty : f.isEmpty = true ↔ f.code = .empty := beq_iff_eq
  unfold judge
  simp only
  cases f.kind with
  | confirmable => simpa using hresp
  | nonConfirmable => simpa using hresp
  | reset =>
    simp only
    split <;> simp
  | acknowledgement =>
    simp only
    by_cases hid : f.messageId = x.messageId
    · rw [if_neg (not_not_intro hid)]
      by_cases he : f.isEmpty = true
      · rw [if_pos he]
        simp [hid, hempty.1 he]
      · rw [if_neg he]
        simp only [hresp, false_iff]
        exact fun h => he (hempty.2 h.2.2)
    · rw [if_pos hid]
      simp [hid]

/-- The awaited response is acknowledged. -/
theorem answer?_awaited {c : ResponseCode} (hkind : f.kind = .confirmable)
    (htoken : f.token = x.token) (hcode : f.code = .response c) :
    x.answer? f = some (.empty .acknowledgement f.messageId) := by
  have hresponse : f.response?.isSome := by rw [Frame.response?, hcode]; rfl
  unfold answer?
  simp only [hkind, htoken, hresponse, and_self, if_true]

/-- Any other confirmable message is reset. -/
theorem answer?_unawaited (hkind : f.kind = .confirmable)
    (h : f.token = x.token → ∀ c, f.code ≠ .response c) :
    x.answer? f = some (.empty .reset f.messageId) := by
  have hnot : ¬ (f.token = x.token ∧ f.response?.isSome) := by
    rintro ⟨htoken, hsome⟩
    obtain ⟨r, hr⟩ := Option.isSome_iff_exists.1 hsome
    exact h htoken r.code (response?_eq_some_iff.1 hr).1
  unfold answer?
  simp only [hkind, if_neg hnot]

/-- What is not confirmable is not answered. -/
theorem answer?_of_ne (hkind : f.kind ≠ .confirmable) : x.answer? f = none := by
  unfold answer?
  split
  · contradiction
  · rfl

/-- An answer is an empty message with the id of what it answers. -/
theorem exists_of_answer? {g : Frame} (h : x.answer? f = some g) :
    ∃ kind, g = .empty kind f.messageId := by
  unfold answer? at h
  split at h
  · exact ⟨_, (Option.some.inj h).symm⟩
  · cases h

/-- A message ends an exchange as a response to it or as a reset of it. -/
theorem accept_ended_iff :
    x.accept f = .ended result ↔
      (∃ r, x.judge f = .answered r ∧ result = .ok r) ∨
        x.judge f = .reset ∧ result = .error .reset := by
  unfold accept
  cases x.judge f <;> simp [eq_comm]

/-- A message that does not end an exchange leaves it as it is, or acknowledged. -/
theorem accept_pending_iff :
    x.accept f = .pending y ↔
      x.judge f = .acknowledged ∧ y = { x with acknowledged := true } ∨
        x.judge f = .unrelated ∧ y = x := by
  unfold accept
  cases x.judge f <;> simp [eq_comm]

/-- **The timer runs** until the request is acknowledged and while it may be sent again. -/
theorem timer?_eq_some_iff {t : Instant} :
    x.timer? = some t ↔
      x.acknowledged = false ∧ x.retransmits < x.maxRetransmit.toNat ∧ x.deadline = some t := by
  unfold timer?
  cases x.acknowledged <;> simp

/-- What an exchange does upon an event: what it sends, and what becomes of it. -/
inductive Acts (x : Exchange) : Event → List Bytes → Standing → Prop where
  | unread {d : Bytes} {s : Except IoError Unit} :
      (∀ f, Frame.decode (d.take receiveLimit) ≠ .ok f) → Acts x (.received d s) [] (.pending x)
  | read {d : Bytes} {s : Except IoError Unit} {f : Frame} {standing : Standing} :
      Frame.decode (d.take receiveLimit) = .ok f → x.accept f = standing →
      Acts x (.received d s) ((x.answer? f).toList.map (·.packet.write)) standing
  | waiting {now : Instant} {s : Except IoError Unit} : (∀ t, x.timer? = some t → now < t) →
      Acts x (.expired now s) [] (.pending x)
  | resent {now t : Instant} : x.timer? = some t → t ≤ now →
      Acts x (.expired now (.ok ())) [x.datagram] (.pending (x.retransmitted now))
  | unsent {now t : Instant} {err : IoError} : x.timer? = some t → t ≤ now →
      Acts x (.expired now (.error err)) [x.datagram] (.ended (.error (.io err)))
  | broken {err : IoError} : Acts x (.broken err) [] (.ended (.error (.io err)))

/-- **Each step is one of these acts.** -/
theorem step_acts {standing : Standing} (h : x.step e = (sent, standing)) :
    x.Acts e sent standing := by
  cases e with
  | received d s =>
    unfold step at h
    simp only at h
    cases hd : Frame.decode (d.take receiveLimit) with
    | error _ =>
      rw [hd] at h
      cases h
      exact .unread fun f hf => (by cases hd.symm.trans hf)
    | ok f =>
      rw [hd] at h
      cases h
      exact .read hd rfl
  | expired now s =>
    unfold step at h
    simp only at h
    cases ht : x.timer? with
    | none =>
      rw [ht] at h
      cases h
      exact .waiting fun t hs => (by cases ht.symm.trans hs)
    | some t =>
      rw [ht] at h
      simp only at h
      by_cases hlt : now < t
      · rw [if_pos hlt] at h
        cases h
        exact .waiting fun t' hs => (by cases ht.symm.trans hs; exact hlt)
      · rw [if_neg hlt] at h
        cases s with
        | error err =>
          cases h
          exact .unsent ht (Nat.le_of_not_lt hlt)
        | ok u =>
          cases h
          exact .resent ht (Nat.le_of_not_lt hlt)
  | broken err =>
    cases h
    exact .broken

/-- **How an exchange goes on after an event**: as it was, acknowledged, or with its request sent
again. -/
theorem step_pending (h : x.step e = (sent, .pending y)) :
    y = x ∨ y = { x with acknowledged := true } ∨ ∃ now, y = x.retransmitted now := by
  cases step_acts h with
  | unread _ => exact Or.inl rfl
  | read _ haccept =>
    rcases accept_pending_iff.1 haccept with ⟨-, hy⟩ | ⟨-, hy⟩
    · exact Or.inr (Or.inl hy)
    · exact Or.inl hy
  | waiting _ => exact Or.inl rfl
  | @resent now _ _ _ => exact Or.inr (Or.inr ⟨now, rfl⟩)

/-- **Only a message with a response ends an exchange well.** -/
theorem step_ended_ok {r : Response} (h : x.step e = (sent, .ended (.ok r))) :
    ∃ d s f, e = .received d s ∧ Frame.decode (d.take receiveLimit) = .ok f ∧
      x.judge f = .answered r := by
  cases step_acts h with
  | @read d s f _ hd haccept =>
    rcases accept_ended_iff.1 haccept with ⟨r', hj, hr⟩ | ⟨-, hr⟩
    · cases hr
      exact ⟨d, s, f, rfl, hd, hj⟩
    · cases hr

/-- **What is sent** is the request or an empty message. -/
theorem step_sent {standing : Standing} (h : x.step e = (sent, standing)) :
    ∀ b ∈ sent, b = x.datagram ∨ ∃ kind id, b = (Frame.empty kind id).packet.write := by
  intro b hb
  cases step_acts h with
  | unread _ => cases hb
  | @read d s f _ _ _ =>
    cases hanswer : x.answer? f with
    | none =>
      rw [hanswer] at hb
      cases hb
    | some g =>
      obtain ⟨kind, rfl⟩ := exists_of_answer? hanswer
      rw [hanswer] at hb
      exact Or.inr ⟨kind, f.messageId, List.mem_singleton.1 hb⟩
  | waiting _ => cases hb
  | resent _ _ => exact Or.inl (List.mem_singleton.1 hb)
  | unsent _ _ => exact Or.inl (List.mem_singleton.1 hb)
  | broken => cases hb

/-! ## Runs -/

theorem run_cons_pending {events : List Event} (h : x.step e = (sent, .pending y)) :
    x.run (e :: events) =
      (sent ++ (y.run events).1, (y.run events).2.1, (y.run events).2.2) := by
  rw [run, h]

theorem run_cons_ended {events : List Event} (h : x.step e = (sent, .ended result)) :
    x.run (e :: events) = (sent, .ended result, events) := by
  rw [run, h]

/-- A run with a first event ends with it, or goes on after it. -/
theorem run_cons_cases {events unread : List Event} {standing : Standing}
    (h : x.run (e :: events) = (sent, standing, unread)) :
    (∃ result, x.step e = (sent, .ended result) ∧ standing = .ended result ∧ unread = events) ∨
      ∃ first y more, x.step e = (first, .pending y) ∧
        y.run events = (more, standing, unread) ∧ sent = first ++ more := by
  cases hs : x.step e with
  | mk first next =>
    cases next with
    | ended result =>
      rw [run_cons_ended hs] at h
      cases h
      exact Or.inl ⟨result, rfl, rfl, rfl⟩
    | pending y =>
      rw [run_cons_pending hs] at h
      cases h
      exact Or.inr ⟨first, y, _, rfl, rfl, rfl⟩

/-- A run that has not ended goes on with what comes next. -/
theorem run_append_pending {early late unread : List Event}
    (h : x.run early = (sent, .pending y, unread)) :
    x.run (early ++ late) = (sent ++ (y.run late).1, (y.run late).2) := by
  -- none of the early events can have ended the exchange
  induction early generalizing x sent with
  | nil =>
    cases h
    rfl
  | cons e early ih =>
    rcases run_cons_cases h with ⟨_, -, hend, -⟩ | ⟨first, z, more, hs, hrest, rfl⟩
    · cases hend
    · rw [List.cons_append, run_cons_pending hs, ih hrest, List.append_assoc]

/-- A run that has ended does not read what comes next. -/
theorem run_append_ended {early late unread : List Event}
    (h : x.run early = (sent, .ended result, unread)) :
    x.run (early ++ late) = (sent, .ended result, unread ++ late) := by
  induction early generalizing x sent with
  | nil => cases h
  | cons e early ih =>
    rw [List.cons_append]
    rcases run_cons_cases h with ⟨_, hs, ⟨⟩, rfl⟩ | ⟨first, z, more, hs, hrest, rfl⟩
    · exact run_cons_ended hs
    · rw [run_cons_pending hs, ih hrest]

/-! ## What no event changes -/

/-- An exchange begins with the request that it is to send. -/
theorem start_eq_ok {maxRetransmit : UInt32} {m : UInt16} {k : Bytes} {wait : Span} {now : Instant}
    {r : Request}
    (h : start maxRetransmit m k wait now r = .ok x) :
    x.messageId = m ∧ x.token = k ∧ x.maxRetransmit = maxRetransmit ∧
      (Frame.ofRequest .confirmable m k r).encode = .ok x.datagram := by
  unfold start at h
  cases hf : (Frame.ofRequest .confirmable m k r).encode with
  | error e => rw [hf] at h; cases h
  | ok b =>
    rw [hf] at h
    cases h
    exact ⟨rfl, rfl, rfl, rfl⟩

/-- An exchange begins with its first wait. -/
theorem start_fresh {maxRetransmit : UInt32} {m : UInt16} {k : Bytes} {wait : Span} {now : Instant}
    {r : Request}
    (h : start maxRetransmit m k wait now r = .ok x) :
    x.acknowledged = false ∧ x.retransmits = 0 ∧ x.wait = wait ∧ x.deadline = now.after? wait := by
  unfold start at h
  cases hf : (Frame.ofRequest .confirmable m k r).encode with
  | error e => rw [hf] at h; cases h
  | ok b =>
    rw [hf] at h
    cases h
    exact ⟨rfl, rfl, rfl, rfl⟩

/-- Two states of one exchange: what is sent and how replies are told does not differ. -/
structure Kin (x y : Exchange) : Prop where
  messageId : y.messageId = x.messageId
  token : y.token = x.token
  datagram : y.datagram = x.datagram
  maxRetransmit : y.maxRetransmit = x.maxRetransmit

theorem Kin.refl (x : Exchange) : Kin x x := ⟨rfl, rfl, rfl, rfl⟩

theorem Kin.trans {z : Exchange} (h : Kin x y) (k : Kin y z) : Kin x z :=
  ⟨k.messageId.trans h.messageId, k.token.trans h.token, k.datagram.trans h.datagram,
    k.maxRetransmit.trans h.maxRetransmit⟩

theorem step_kin (h : x.step e = (sent, .pending y)) : Kin x y := by
  rcases step_pending h with rfl | rfl | ⟨now, rfl⟩
  · exact Kin.refl _
  · exact ⟨rfl, rfl, rfl, rfl⟩
  · exact ⟨rfl, rfl, rfl, rfl⟩

theorem run_kin {events unread : List Event} (h : x.run events = (sent, .pending y, unread)) :
    Kin x y := by
  induction events generalizing x sent with
  | nil =>
    cases h
    exact Kin.refl _
  | cons e events ih =>
    rcases run_cons_cases h with ⟨_, -, hend, -⟩ | ⟨first, z, more, hs, hrest, -⟩
    · cases hend
    · exact (step_kin hs).trans (ih hrest)

theorem Kin.judge (h : Kin x y) (f : Frame) : y.judge f = x.judge f := by
  unfold Exchange.judge
  rw [h.messageId, h.token]

end Exchange

end NodeClock
