import NodeClock.Proofs.Exchange

/-!
# Responses in datagrams

Nothing in a datagram tells where its payload ends. So what is left of a response when its datagram
has been cut looks like a whole response.

* `Coap.Brings`: the response in a datagram.
* `Coap.Brings.lost`: a payload that begins before the cut goes on behind it.
* `Coap.brings_take_iff`: **when nothing is lost of a response.**
* `Coap.Frame.exists_decode_take`: a payload that begins before the cut is cut there.
* `Coap.Frame.decode_write_ofResponse`: a response of any size is read from its datagram.
-/

namespace NodeClock.Coap

variable {d : Bytes} {n : Nat} {r r' : Response}

/-- The datagram is that of a message with the response `r`. -/
def Brings (d : Bytes) (r : Response) : Prop :=
  ∃ f, Frame.decode d = .ok f ∧ f.response? = some r

/-- The whole message has the code of the cut response, and its payload begins with the payload of
that. -/
theorem Brings.of_take {f : Frame} (h : Brings (d.take n) r) (hf : Frame.decode d = .ok f) :
    f.code = .response r.code ∧ r.payload <+: f.payload := by
  obtain ⟨g, hg, hr⟩ := h
  obtain ⟨-, -, -, hcode, hpayload⟩ := Frame.decode_take hg hf
  obtain ⟨hc, hp⟩ := Exchange.response?_eq_some_iff.1 hr
  exact ⟨hcode.symm.trans hc, hp ▸ hpayload⟩

/-- A datagram brings one response at most. -/
theorem Brings.unique (h : Brings d r) (h' : Brings d r') : r = r' := by
  obtain ⟨f, hf, hr⟩ := h
  obtain ⟨g, hg, hr'⟩ := h'
  cases hf.symm.trans hg
  exact Option.some.inj (hr.symm.trans hr')

/-- **A payload that begins before the cut goes on behind it**, to the end of the datagram. -/
theorem Brings.lost (h : Brings (d.take n) r) (hp : r.payload ≠ []) :
    Brings d { r with payload := r.payload ++ d.drop n } := by
  obtain ⟨f, hf, hr⟩ := h
  obtain ⟨hcode, hpayload⟩ := Exchange.response?_eq_some_iff.1 hr
  obtain ⟨front, htake, hother⟩ := Frame.decode_front hf (by rwa [hpayload])
  have hd : d = front ++ (f.payload ++ d.drop n) := by
    rw [← List.append_assoc, ← htake, List.take_append_drop]
  refine ⟨{ f with payload := f.payload ++ d.drop n }, ?_, ?_⟩
  · conv => lhs; rw [hd]
    exact hother _
  · exact Exchange.response?_eq_some_iff.2 ⟨hcode, by rw [hpayload]⟩

/-- **Nothing is lost of a response** exactly if its datagram was not cut or has no payload. -/
theorem brings_take_iff (h : Brings (d.take n) r) :
    Brings d r ↔ d.length ≤ n ∨ ∃ f, Frame.decode d = .ok f ∧ f.payload = [] := by
  constructor
  · intro hw
    by_cases hp : r.payload = []
    · obtain ⟨f, hf, hr⟩ := hw
      exact Or.inr ⟨f, hf, (Exchange.response?_eq_some_iff.1 hr).2.trans hp⟩
    · -- what is behind the cut would be part of the payload
      have hsame : r.payload ++ d.drop n = r.payload :=
        congrArg Response.payload ((h.lost hp).unique hw)
      exact Or.inl (List.drop_eq_nil_iff.1 (List.append_right_eq_self.1 hsame))
  · rintro (hle | ⟨f, hf, hpayload⟩)
    · rwa [List.take_of_length_le hle] at h
    · obtain ⟨hcode, hprefix⟩ := h.of_take hf
      rw [hpayload, List.prefix_nil] at hprefix
      exact ⟨f, hf, Exchange.response?_eq_some_iff.2 ⟨hcode, hpayload.trans hprefix.symm⟩⟩

/-- A payload that begins before the cut is cut there. -/
theorem Frame.exists_decode_take {f : Frame} (hd : Frame.decode d = .ok f) (hp : f.payload ≠ [])
    (hn : d.length - f.payload.length ≤ n) :
    ∃ kept, kept ++ d.drop n = f.payload ∧
      Frame.decode (d.take n) = .ok { f with payload := kept } := by
  obtain ⟨front, hfront, hother⟩ := Frame.decode_front hd hp
  have hlen := congrArg List.length hfront
  rw [List.length_append] at hlen
  have hle : front.length ≤ n := by omega
  refine ⟨f.payload.take (n - front.length), ?_, ?_⟩
  · conv => lhs; rw [hfront]
    rw [List.drop_append, List.drop_of_length_le hle, List.nil_append, List.take_append_drop]
  · conv => lhs; rw [hfront]
    rw [List.take_append, List.take_of_length_le hle]
    exact hother _

namespace Frame

variable {kind : Kind} {id : UInt16} {token : Bytes}

/-- A response of any size is read from its datagram. -/
theorem decode_write_ofResponse (ht : token.length ≤ 8) (hl : (Code.response r.code).Legible) :
    decode (ofResponse kind id token r).packet.write = .ok (ofResponse kind id token r) := by
  have hwritten : (ofResponse kind id token r).packet.written = r.payload :=
    (written_eq_iff (f := ofResponse kind id token r) hl).2 nofun
  have hread := Packet.read_write (p := (ofResponse kind id token r).packet) ht (.nil 0)
  rw [hwritten] at hread
  exact decode_eq_ok_iff.2 ⟨_, _, hread, Code.ofByte_eq_ok_iff.2 ⟨rfl, hl⟩, rfl⟩

theorem length_write_ofResponse (hc : (Code.response r.code).byte ≠ 0) (hp : r.payload ≠ []) :
    (ofResponse kind id token r).packet.write.length = 5 + token.length + r.payload.length := by
  have hmark : (ofResponse kind id token r).payload ≠ [] ∧
      (ofResponse kind id token r).code.byte ≠ 0 := ⟨hp, hc⟩
  rw [Packet.length_write_eq hc, size_packet, if_pos hmark]
  show 4 + token.length + 0 + r.payload.length + 1 = _
  omega

end Frame

end NodeClock.Coap
