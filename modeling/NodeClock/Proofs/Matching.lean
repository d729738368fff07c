import NodeClock.Proofs.Exchange
import Mathlib.Data.List.Basic

/-!
# Which datagram ends an exchange

* `Decides`: the datagrams that decide a request with a given message id and token.
* `Event.Clean`: an event without socket error and with a datagram that fits the receive buffer.
* `step_ended_iff`: among clean events only a deciding datagram ends an exchange.
* `run_indecisive`: without one it never ends.
* `start_run_iff` (every request and history): **an exchange ends exactly at the first datagram
  that decides its request.**
-/

namespace NodeClock

open Coap

namespace Exchange

/-- A datagram decides the request with message id `m` and token `k`: it is an acknowledgement
with both and a response, or a message of its own with the token and a response, or a reset with
the id. -/
inductive Decides (m : UInt16) (k : Bytes) (d : Bytes) : Except TransportError Response → Prop where
  | piggybacked {f : Frame} {c : ResponseCode} : Frame.decode d = .ok f →
      f.kind = .acknowledgement → f.messageId = m → f.token = k → f.code = .response c →
      Decides m k d (.ok ⟨c, f.payload⟩)
  | separate {f : Frame} {c : ResponseCode} : Frame.decode d = .ok f →
      f.kind = .confirmable ∨ f.kind = .nonConfirmable → f.token = k → f.code = .response c →
      Decides m k d (.ok ⟨c, f.payload⟩)
  | reset {f : Frame} : Frame.decode d = .ok f → f.kind = .reset → f.messageId = m →
      Decides m k d (.error .reset)

/-- An event that brings a deciding datagram. -/
def Event.Decisive (m : UInt16) (k : Bytes) (e : Event) : Prop :=
  ∃ d s result, e = .received d s ∧ Decides m k d result

/-- The receive buffer holds what is received, and the socket does not fail. Whether an answer to
the datagram could be sent does not matter. -/
def Event.Clean : Event → Prop
  | .received d _ => d.length ≤ receiveLimit
  | .expired _ sent => sent = .ok ()
  | .broken _ => False

variable {x y : Exchange} {e : Event} {d : Bytes} {m : UInt16} {k : Bytes}
  {result : Except TransportError Response} {events early late : List Event}

/-- A message ends an exchange exactly if its datagram decides the request. -/
theorem decides_iff {f : Frame} (hd : Frame.decode d = .ok f) :
    Decides x.messageId x.token d result ↔ x.accept f = .ended result := by
  rw [accept_ended_iff]
  constructor
  · intro h
    cases h with
    | @piggybacked g c hg hkind hid htoken hcode =>
      cases hd.symm.trans hg
      refine Or.inl ⟨_, judge_answered_iff.2 ⟨?_, fun _ => hid, htoken, ?_⟩, rfl⟩
      · rw [hkind]; exact nofun
      · exact response?_eq_some_iff.2 ⟨hcode, rfl⟩
    | @separate g c hg hkind htoken hcode =>
      cases hd.symm.trans hg
      refine Or.inl ⟨_, judge_answered_iff.2 ⟨?_, ?_, htoken, ?_⟩, rfl⟩
      · rcases hkind with h | h <;> rw [h] <;> exact nofun
      · intro ha
        rcases hkind with h | h <;> cases ha.symm.trans h
      · exact response?_eq_some_iff.2 ⟨hcode, rfl⟩
    | @reset g hg hkind hid =>
      cases hd.symm.trans hg
      exact Or.inr ⟨judge_reset_iff.2 ⟨hkind, hid⟩, rfl⟩
  · rintro (⟨⟨c, payload⟩, hj, rfl⟩ | ⟨hj, rfl⟩)
    · obtain ⟨hkind, hid, htoken, hr⟩ := judge_answered_iff.1 hj
      obtain ⟨hcode, rfl⟩ := response?_eq_some_iff.1 hr
      cases hk : f.kind with
      | confirmable => exact .separate hd (Or.inl hk) htoken hcode
      | nonConfirmable => exact .separate hd (Or.inr hk) htoken hcode
      | acknowledgement => exact .piggybacked hd hk (hid hk) htoken hcode
      | reset => exact absurd hk hkind
    · obtain ⟨hkind, hid⟩ := judge_reset_iff.1 hj
      exact .reset hd hkind hid

theorem Decides.decode (h : Decides m k d result) : ∃ f, Frame.decode d = .ok f := by
  cases h with
  | piggybacked hd => exact ⟨_, hd⟩
  | separate hd => exact ⟨_, hd⟩
  | reset hd => exact ⟨_, hd⟩

/-- **Among clean events only a deciding datagram ends an exchange.** -/
theorem step_ended_iff (hc : e.Clean) :
    (x.step e).2 = .ended result ↔
      ∃ d s, e = .received d s ∧ Decides x.messageId x.token d result := by
  cases hs : x.step e with
  | mk sent standing =>
    cases step_acts hs with
    | @unread d s hd =>
      rw [List.take_of_length_le hc] at hd
      refine ⟨nofun, ?_⟩
      rintro ⟨_, _, ⟨⟩, h⟩
      obtain ⟨f, hf⟩ := h.decode
      exact absurd hf (hd f)
    | @read d s f _ hd haccept =>
      rw [List.take_of_length_le hc] at hd
      rw [← haccept, ← decides_iff hd]
      refine ⟨fun h => ⟨d, s, rfl, h⟩, ?_⟩
      rintro ⟨_, _, ⟨⟩, h⟩
      exact h
    | waiting _ => exact ⟨nofun, nofun⟩
    | resent _ _ => exact ⟨nofun, nofun⟩
    | unsent _ _ => cases hc
    | broken => exact hc.elim

/-- A clean event that is not decisive leaves the exchange pending. -/
theorem step_indecisive (hc : e.Clean) (hn : ¬ e.Decisive x.messageId x.token) :
    ∃ sent y, x.step e = (sent, .pending y) ∧ Kin x y := by
  cases hs : x.step e with
  | mk sent standing =>
    cases standing with
    | pending y => exact ⟨sent, y, rfl, step_kin hs⟩
    | ended result =>
      have hended : (x.step e).2 = .ended result := by rw [hs]
      obtain ⟨d, s, he, hd⟩ := (step_ended_iff hc).1 hended
      exact absurd ⟨d, s, result, he, hd⟩ hn

/-- **Without a deciding datagram an exchange never ends.** -/
theorem run_indecisive (hc : ∀ e ∈ events, e.Clean)
    (hn : ∀ e ∈ events, ¬ e.Decisive x.messageId x.token) :
    ∃ sent y, x.run events = (sent, .pending y, []) ∧ Kin x y := by
  -- id and token stay the same, so what is indecisive now is so for each state to come
  induction events generalizing x with
  | nil => exact ⟨[], x, rfl, Kin.refl x⟩
  | cons e events ih =>
    obtain ⟨sent, y, hs, hy⟩ := step_indecisive (hc e List.mem_cons_self) (hn e List.mem_cons_self)
    have hn' : ∀ e ∈ events, ¬ e.Decisive y.messageId y.token := by
      intro e he
      rw [hy.messageId, hy.token]
      exact hn e (List.mem_cons_of_mem _ he)
    obtain ⟨more, z, hr, hz⟩ := ih (fun e he => hc e (List.mem_cons_of_mem _ he)) hn'
    refine ⟨sent ++ more, z, ?_, hy.trans hz⟩
    rw [run_cons_pending hs, hr]

/-- The first deciding datagram ends an exchange, and what comes after it is not read. -/
theorem run_decisive {s : Except IoError Unit}
    (hc : ∀ e ∈ early ++ .received d s :: late, e.Clean)
    (hn : ∀ e ∈ early, ¬ e.Decisive x.messageId x.token)
    (hd : Decides x.messageId x.token d result) :
    ∃ sent, x.run (early ++ .received d s :: late) = (sent, .ended result, late) := by
  obtain ⟨sent, y, hr, hy⟩ := run_indecisive (fun e he => hc e (List.mem_append_left _ he)) hn
  rw [← hy.messageId, ← hy.token] at hd
  have hlast : (y.step (.received d s)).2 = .ended result :=
    (step_ended_iff (hc _ (List.mem_append_right _ List.mem_cons_self))).2 ⟨d, s, rfl, hd⟩
  refine ⟨sent ++ (y.step (.received d s)).1, ?_⟩
  rw [run_append_pending hr, run_cons_ended (Prod.ext rfl hlast)]

/-- Of several decisive events one is the first. -/
theorem exists_first_decisive (h : ∃ e ∈ events, e.Decisive m k) :
    ∃ early d s result late, events = early ++ .received d s :: late ∧
      (∀ e ∈ early, ¬ e.Decisive m k) ∧ Decides m k d result := by
  induction events with
  | nil => simp at h
  | cons e events ih =>
    by_cases he : e.Decisive m k
    · obtain ⟨d, s, result, rfl, hd⟩ := he
      exact ⟨[], d, s, result, events, rfl, by simp, hd⟩
    · obtain ⟨e', hmem, he'⟩ := h
      have hin : e' ∈ events := by
        rcases List.mem_cons.1 hmem with rfl | hin
        · exact absurd he' he
        · exact hin
      obtain ⟨early, d, s, result, late, rfl, hn, hd⟩ := ih ⟨e', hin, he'⟩
      refine ⟨e :: early, d, s, result, late, rfl, ?_, hd⟩
      intro e'' h''
      rcases List.mem_cons.1 h'' with rfl | h''
      · exact he
      · exact hn e'' h''

/-- **An exchange ends exactly at the first datagram that decides its request**, with the response
or the reset that this datagram brings, and reads nothing after it. All other datagrams and all
expiries leave it pending, however many there are. -/
theorem start_run_iff {maxRetransmit : UInt32} {wait : Span} {now : Instant} {r : Request}
    (hx : start maxRetransmit m k wait now r = .ok x) (hc : ∀ e ∈ events, e.Clean) :
    (∀ result late, (∃ sent, x.run events = (sent, .ended result, late)) ↔
      ∃ early d s, events = early ++ .received d s :: late ∧
        (∀ e ∈ early, ¬ e.Decisive m k) ∧ Decides m k d result) ∧
    ((∃ sent y, x.run events = (sent, .pending y, [])) ↔ ∀ e ∈ events, ¬ e.Decisive m k) := by
  obtain ⟨rfl, rfl, -, -⟩ := start_eq_ok hx
  have hfirst : ∀ early d s late result, events = early ++ .received d s :: late →
      (∀ e ∈ early, ¬ e.Decisive x.messageId x.token) → Decides x.messageId x.token d result →
      ∃ sent, x.run events = (sent, .ended result, late) := by
    rintro early d s late result rfl hn hd
    exact run_decisive hc hn hd
  have hnone : (∀ e ∈ events, ¬ e.Decisive x.messageId x.token) →
      ∃ sent y, x.run events = (sent, .pending y, []) := by
    intro hn
    obtain ⟨sent, y, hr, -⟩ := run_indecisive hc hn
    exact ⟨sent, y, hr⟩
  constructor
  · intro result late
    constructor
    · -- a run has one outcome, and without a decisive event that is a pending exchange
      rintro ⟨sent, hr⟩
      by_cases hsome : ∃ e ∈ events, e.Decisive x.messageId x.token
      · obtain ⟨early, d, s, result', late', hsplit, hn, hd⟩ := exists_first_decisive hsome
        obtain ⟨sent', hr'⟩ := hfirst _ _ _ _ _ hsplit hn hd
        cases hr.symm.trans hr'
        exact ⟨early, d, s, hsplit, hn, hd⟩
      · obtain ⟨sent', y, hr'⟩ := hnone fun e he h => hsome ⟨e, he, h⟩
        cases hr.symm.trans hr'
    · rintro ⟨early, d, s, hsplit, hn, hd⟩
      exact hfirst _ _ _ _ _ hsplit hn hd
  · constructor
    · rintro ⟨sent, y, hr⟩ e he hdec
      obtain ⟨early, d, s, result, late, hsplit, hn, hd⟩ := exists_first_decisive ⟨e, he, hdec⟩
      obtain ⟨sent', hr'⟩ := hfirst _ _ _ _ _ hsplit hn hd
      cases hr.symm.trans hr'
    · exact hnone

/-- The request is sent again and acknowledged, its token comes back cut short, and then the
response comes in a message of its own, the acknowledgement of which cannot be sent. -/
theorem start_run_separate :
    ∃ x, start 4 7 [1, 2, 3, 4] (.ofMillis 2000) 0 { method := .get } = .ok x ∧
      ∃ sent, x.run
        [.received [0xFF] (.ok ()), .expired 2000000000 (.ok ()),
          .received [0x60, 0, 0, 7] (.ok ()), .received [0x53, 0x45, 0, 7, 1, 2, 3] (.ok ()),
          .received [0x44, 0x45, 0, 9, 1, 2, 3, 4, 0xFF, 0x31] (.error ⟨.networkDown, ""⟩),
          .received [] (.ok ())] =
        (sent, .ended (.ok ⟨⟨2, 5⟩, [0x31]⟩), [.received [] (.ok ())]) := by
  have hack : Frame.decode [0x60, 0, 0, 7] =
      .ok { kind := .acknowledgement, messageId := 7 } := by cbv
  have hshort : Frame.decode [0x53, 0x45, 0, 7, 1, 2, 3] =
      .ok { kind := .nonConfirmable, messageId := 7, token := [1, 2, 3],
            code := .response ⟨2, 5⟩ } := by cbv
  have hown : Frame.decode [0x44, 0x45, 0, 9, 1, 2, 3, 4, 0xFF, 0x31] =
      .ok { kind := .confirmable, messageId := 9, token := [1, 2, 3, 4],
            code := .response ⟨2, 5⟩, payload := [0x31] } := by cbv
  have hx : start 4 7 [1, 2, 3, 4] (.ofMillis 2000) 0 { method := .get } = .ok _ := rfl
  refine ⟨_, hx, ((start_run_iff hx ?_).1 _ _).2
    ⟨[.received [0xFF] (.ok ()), .expired 2000000000 (.ok ()),
      .received [0x60, 0, 0, 7] (.ok ()), .received [0x53, 0x45, 0, 7, 1, 2, 3] (.ok ())],
      _, _, rfl, ?_, .separate hown (Or.inl rfl) rfl rfl⟩⟩
  · simp [Event.Clean, receiveLimit]
  · simp only [List.forall_mem_cons]
    refine ⟨?_, ?_, ?_, ?_, fun _ h => (by cases h)⟩
    · rintro ⟨_, _, _, ⟨⟩, hd⟩
      cases hd with
      | piggybacked hg => cases hg
      | separate hg => cases hg
      | reset hg => cases hg
    · rintro ⟨_, _, _, ⟨⟩, -⟩
    · rintro ⟨_, _, _, ⟨⟩, hd⟩
      cases hd with
      | piggybacked hg _ _ _ hcode => cases hack.symm.trans hg; cases hcode
      | separate hg _ _ hcode => cases hack.symm.trans hg; cases hcode
      | reset hg hkind => cases hack.symm.trans hg; cases hkind
    · rintro ⟨_, _, _, ⟨⟩, hd⟩
      cases hd with
      | piggybacked hg hkind => cases hshort.symm.trans hg; cases hkind
      | separate hg _ htoken => cases hshort.symm.trans hg; cases htoken
      | reset hg hkind => cases hshort.symm.trans hg; cases hkind

end Exchange

end NodeClock
