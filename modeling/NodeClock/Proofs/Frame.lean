import NodeClock.Coap.Frame
import NodeClock.Proofs.Packet
import NodeClock.Proofs.Utf8
import Mathlib.Tactic.SplitIfs

/-!
# Messages come back

A message is written and read again. What may be lost on the way is the code, if it is none that
a reader knows, and the payload of an empty message.

* `Code.ofByte_eq_ok_iff`: a byte is read as the legible code that it is the byte of.
* `Frame.values_options`: the options of a message, by number.
* `Frame.decode_write`: what the datagram of a message is read as.
* `Frame.decode_encode_iff`: which messages come back.
* `Frame.decode_front`: **nothing tells where a payload ends.**
* `Frame.decode_take`: what a datagram is read as that was cut.
* `Frame.encode_domain` (every message): **when it is refused, and when it comes back.**
-/

namespace NodeClock.Coap

theorem ResponseCode.toNat_byte (c : ResponseCode) :
    c.byte.toNat = c.cls.val * 32 + c.detail.val := by
  have hc := c.cls.isLt
  have hd := c.detail.isLt
  exact UInt8.toNat_ofNat_of_lt' (show _ < 256 by omega)

theorem ResponseCode.byte_ofByte (b : UInt8) : (ofByte b).byte = b := by
  have hb := b.toNat_lt
  apply UInt8.toNat_inj.1
  rw [toNat_byte]
  simp only [ofByte, ofParts, Fin.ofNat]
  omega

/-- A code that a reader takes for what it is: responses belong to the classes 2 to 5. -/
def Code.Legible : Code → Prop
  | .response c => 2 ≤ c.cls.val ∧ c.cls.val ≤ 5
  | _ => True

/-- **A byte is read as the legible code that it is the byte of.** -/
theorem Code.ofByte_eq_ok_iff {b : UInt8} {code : Code} :
    Code.ofByte b = .ok code ↔ code.byte = b ∧ code.Legible := by
  constructor
  · intro h
    unfold ofByte at h
    simp only at h
    split_ifs at h with h0 h1 h2 h3 h4 h5
    all_goals cases h
    · exact ⟨h0.symm, trivial⟩
    · exact ⟨h1.symm, trivial⟩
    · exact ⟨h2.symm, trivial⟩
    · exact ⟨h3.symm, trivial⟩
    · refine ⟨ResponseCode.byte_ofByte b, ?_⟩
      have hb := b.toNat_lt
      simp only [Legible, ResponseCode.ofByte, ResponseCode.ofParts, Fin.ofNat]
      omega
  · rintro ⟨rfl, hl⟩
    cases code with
    | empty => rfl
    | request m => cases m <;> rfl
    | response c =>
      have hc : 2 ≤ c.cls.val ∧ c.cls.val ≤ 5 := hl
      have hd := c.detail.isLt
      have hcls : (c.cls.val * 32 + c.detail.val) / 32 = c.cls.val := by omega
      unfold ofByte
      simp only [byte, ← UInt8.toNat_inj, c.toNat_byte, UInt8.reduceToNat,
        ResponseCode.ofByte_byte, hcls]
      rw [if_neg (by omega), if_neg (by omega), if_neg (by omega), if_neg (by omega),
        if_neg (by omega), if_pos hc]

namespace Frame

/-- A number comes back from its bytes. -/
@[simp] theorem uintOf_uintBytes (n : UInt16) : uintOf (uintBytes n) = n := by
  have hlt := n.toNat_lt
  unfold uintBytes
  split
  · rename_i h
    rw [h]; rfl
  split
  · rename_i h
    apply UInt16.toNat_inj.1
    have : n.toNat < 256 := UInt16.lt_iff_toNat_lt.1 h
    simp [uintOf]
    omega
  · apply UInt16.toNat_inj.1
    simp [uintOf]
    omega

@[simp] theorem values_append (number : Nat) (os ps : List Opt) :
    values number (os ++ ps) = values number os ++ values number ps := by
  rw [values, List.filter_append, List.map_append]
  rfl

/-- Of options that all have one number, all or none are picked. -/
theorem values_map {α : Type} (number m : Nat) (value : α → Bytes) (xs : List α) :
    values number (xs.map fun a => ⟨m, value a⟩) = if m = number then xs.map value else [] := by
  have hpick : ((·.number == number) ∘ fun a => (⟨m, value a⟩ : Opt)) = fun _ => m == number := rfl
  rw [values, List.filter_map, List.map_map, hpick]
  by_cases h : m = number
  · rw [if_pos h, List.filter_eq_self.2 fun _ _ => beq_iff_eq.2 h]
    rfl
  · rw [if_neg h, List.filter_eq_nil_iff.2 fun _ _ => by simp [h]]
    rfl

/-- The options of one number, in the order in which they are written. -/
theorem options_eq (f : Frame) :
    f.options = f.uriHost.toList.map (fun s => ⟨uriHostNumber, Utf8.encode s⟩) ++
      f.uriPath.map (fun s => ⟨uriPathNumber, Utf8.encode s⟩) ++
      f.contentFormat.toList.map (fun n => ⟨contentFormatNumber, uintBytes n⟩) ++
      f.uriQuery.map (fun s => ⟨uriQueryNumber, Utf8.encode s⟩) := by
  unfold options
  cases f.uriHost <;> cases f.contentFormat <;> rfl

/-- The values of the options with one number. -/
theorem values_options (f : Frame) (number : Nat) :
    values number f.options =
      (if uriHostNumber = number then f.uriHost.toList.map Utf8.encode else []) ++
        (if uriPathNumber = number then f.uriPath.map Utf8.encode else []) ++
        (if contentFormatNumber = number then f.contentFormat.toList.map uintBytes else []) ++
        if uriQueryNumber = number then f.uriQuery.map Utf8.encode else [] := by
  rw [options_eq]
  simp only [values_append, values_map]

/-- **A message comes back from its packet**, with the payload that the packet brings along. -/
theorem ofPacket_packet (f : Frame) (code : Code) (payload : Bytes) :
    ofPacket code { f.packet with payload } = { f with code, payload } := by
  have hhost : values uriHostNumber f.options = f.uriHost.toList.map Utf8.encode := by
    simp [values_options, uriHostNumber, uriPathNumber, contentFormatNumber, uriQueryNumber]
  have hpath : values uriPathNumber f.options = f.uriPath.map Utf8.encode := by
    simp [values_options, uriHostNumber, uriPathNumber, contentFormatNumber, uriQueryNumber]
  have hformat : values contentFormatNumber f.options = f.contentFormat.toList.map uintBytes := by
    simp [values_options, uriHostNumber, uriPathNumber, contentFormatNumber, uriQueryNumber]
  have hquery : values uriQueryNumber f.options = f.uriQuery.map Utf8.encode := by
    simp [values_options, uriHostNumber, uriPathNumber, contentFormatNumber, uriQueryNumber]
  have hhead : (f.uriHost.toList.map Utf8.encode).head?.map Utf8.decodeLossy = f.uriHost := by
    cases f.uriHost <;> simp
  have hnumber : (f.contentFormat.toList.map uintBytes).head?.map uintOf = f.contentFormat := by
    cases f.contentFormat <;> simp
  simp only [ofPacket, packet, hhost, hpath, hformat, hquery, hhead, hnumber, List.map_map,
    Utf8.decodeLossy_comp_encode, List.map_id]

theorem numbers_ascend : uriHostNumber ≤ uriPathNumber ∧ uriPathNumber ≤ contentFormatNumber ∧
    contentFormatNumber ≤ uriQueryNumber := by decide

/-- The options of a message are in order. -/
theorem options_ordered (f : Frame) : f.options.Pairwise (·.number ≤ ·.number) := by
  obtain ⟨h1, h2, h3⟩ := numbers_ascend
  rw [options_eq]
  simp only [List.pairwise_append, List.mem_append, List.mem_map, List.pairwise_map]
  refine ⟨⟨⟨?_, ?_, ?_⟩, ?_, ?_⟩, ?_, ?_⟩
  · exact List.pairwise_of_forall fun _ _ => Nat.le_refl _
  · exact List.pairwise_of_forall fun _ _ => Nat.le_refl _
  · rintro _ ⟨_, _, rfl⟩ _ ⟨_, _, rfl⟩
    exact h1
  · exact List.pairwise_of_forall fun _ _ => Nat.le_refl _
  · rintro _ (⟨_, _, rfl⟩ | ⟨_, _, rfl⟩) _ ⟨_, _, rfl⟩ <;> simp only <;> omega
  · exact List.pairwise_of_forall fun _ _ => Nat.le_refl _
  · rintro _ ((⟨_, _, rfl⟩ | ⟨_, _, rfl⟩) | ⟨_, _, rfl⟩) _ ⟨_, _, rfl⟩ <;> simp only <;> omega

theorem options_number_le (f : Frame) : ∀ o ∈ f.options, o.number ≤ uriQueryNumber := by
  obtain ⟨h1, h2, h3⟩ := numbers_ascend
  rw [options_eq]
  simp only [List.mem_append, List.mem_map]
  rintro _ (((⟨_, _, rfl⟩ | ⟨_, _, rfl⟩) | ⟨_, _, rfl⟩) | ⟨_, _, rfl⟩) <;> simp only <;> omega

/-- The wire can carry the options of a message that is not too large. -/
theorem options_writable {f : Frame} (h : f.packet.size ≤ Packet.maxSize) :
    Writable 0 f.options := by
  have hmax : Packet.maxSize ≤ maxExtent := by decide
  refine ⟨f.options_ordered, fun _ _ => Nat.zero_le _, ?_, ?_⟩
  · intro o ho
    exact Nat.le_trans (f.options_number_le o ho) (by decide)
  · intro o ho
    have := length_le_writeOptions ho 0
    have hsize : (writeOptions 0 f.options).length ≤ f.packet.size := by
      simp only [Packet.size, packet]
      omega
    omega

theorem decode_eq_ok_iff {d : Bytes} {f : Frame} :
    decode d = .ok f ↔
      ∃ p code, Packet.read d = .ok p ∧ Code.ofByte p.code = .ok code ∧ ofPacket code p = f := by
  unfold decode
  cases Packet.read d with
  | error e => simp
  | ok p =>
    cases hc : Code.ofByte p.code <;> simp [hc]

/-- The datagram of a message that can be written, read again. -/
theorem decode_write {f : Frame} (ht : f.token.length ≤ maxToken)
    (h : f.packet.size ≤ Packet.maxSize) :
    decode f.packet.write =
      (Code.ofByte f.code.byte).map fun code => { f with code, payload := f.packet.written } := by
  rw [decode, Packet.read_write ht (options_writable h)]
  simp only [packet]
  cases Code.ofByte f.code.byte with
  | error e => rfl
  | ok code => exact congrArg Except.ok (ofPacket_packet f code f.packet.written)

theorem encode_eq_ok_iff {f : Frame} {b : Bytes} :
    f.encode = .ok b ↔
      f.token.length ≤ maxToken ∧ f.packet.size ≤ Packet.maxSize ∧ f.packet.write = b := by
  unfold encode
  by_cases ht : f.token.length > maxToken
  · rw [if_pos ht]
    exact ⟨fun h => (by cases h), fun h => absurd h.1 (Nat.not_le_of_gt ht)⟩
  rw [if_neg ht]
  by_cases hs : f.packet.size > Packet.maxSize
  · rw [if_pos hs]
    exact ⟨fun h => (by cases h), fun h => absurd h.2.1 (Nat.not_le_of_gt hs)⟩
  · rw [if_neg hs]
    exact ⟨fun h => (by cases h; exact ⟨Nat.le_of_not_gt ht, Nat.le_of_not_gt hs, rfl⟩),
      fun h => congrArg Except.ok h.2.2⟩

/-- **A message comes back from its datagram** exactly if its code is legible and its payload is
written. -/
theorem decode_encode_iff {f : Frame} {b : Bytes} (h : f.encode = .ok b) :
    decode b = .ok f ↔ f.code.Legible ∧ f.packet.written = f.payload := by
  obtain ⟨ht, hs, rfl⟩ := encode_eq_ok_iff.1 h
  rw [decode_write ht hs]
  constructor
  · intro hd
    cases hc : Code.ofByte f.code.byte with
    | error e => rw [hc] at hd; cases hd
    | ok code =>
      rw [hc] at hd
      simp only [Except.map, Except.ok.injEq] at hd
      have hcode : code = f.code := congrArg Frame.code hd
      have hpay : f.packet.written = f.payload := congrArg Frame.payload hd
      rw [hcode] at hc
      exact ⟨(Code.ofByte_eq_ok_iff.1 hc).2, hpay⟩
  · rintro ⟨hl, hw⟩
    rw [Code.ofByte_eq_ok_iff.2 ⟨rfl, hl⟩, hw]
    rfl

/-- Only the empty message among the legible ones goes without its payload. -/
theorem written_eq_iff {f : Frame} (hl : f.code.Legible) :
    f.packet.written = f.payload ↔ (f.code = .empty → f.payload = []) := by
  -- among the legible codes the byte 0 belongs to the empty one alone
  have hbyte : f.packet.code = 0 ↔ f.code = .empty := by
    constructor
    · intro h
      have h0 : Code.ofByte 0 = .ok f.code := Code.ofByte_eq_ok_iff.2 ⟨h, hl⟩
      exact Except.ok.inj (h0.symm.trans rfl)
    · intro h
      show f.code.byte = 0
      rw [h]
      rfl
  unfold Packet.written Packet.carriesPayload
  by_cases hp : f.payload = []
  · simp [packet, hp]
  · by_cases hc : f.code = .empty
    · simp [hbyte.2 hc, hc, eq_comm]
    · have : f.packet.code ≠ 0 := fun h => hc (hbyte.1 h)
      simp [packet, hc, hp]
      intro h
      exact absurd h this

/-- The bytes that are counted against the limit. -/
theorem size_packet (f : Frame) :
    f.packet.size = 4 + f.token.length + (writeOptions 0 f.options).length + f.payload.length +
      if f.payload ≠ [] ∧ f.code.byte ≠ 0 then 1 else 0 := by
  have hc : f.packet.carriesPayload = true ↔ f.payload ≠ [] ∧ f.code.byte ≠ 0 := by
    simp [Packet.carriesPayload, packet]
  by_cases h : f.packet.carriesPayload = true
  · rw [Packet.size, if_pos h, if_pos (hc.1 h)]
    rfl
  · rw [Packet.size, if_neg h, if_neg fun hn => h (hc.2 hn)]
    rfl

/-- **The domain of the codec.** A message is refused for its token, or else for its size, or else
it is written in at most 1280 bytes; and these are read as the same message exactly if it is an
empty one without payload, a request, or a response of a class from 2 to 5. -/
theorem encode_domain (f : Frame) :
    let size := 4 + f.token.length + (writeOptions 0 f.options).length + f.payload.length +
      if f.payload ≠ [] ∧ f.code.byte ≠ 0 then 1 else 0
    ((∃ n, f.encode = .error (.tokenTooLong n)) ↔ 8 < f.token.length) ∧
    ((∃ detail, f.encode = .error (.encode detail)) ↔ f.token.length ≤ 8 ∧ 1280 < size) ∧
    ((∃ b, f.encode = .ok b ∧ b.length ≤ 1280 ∧
        (decode b = .ok f ↔
          f.code = .empty ∧ f.payload = [] ∨ (∃ m, f.code = .request m) ∨
            ∃ c, f.code = .response c ∧ 2 ≤ c.cls.val ∧ c.cls.val ≤ 5)) ↔
      f.token.length ≤ 8 ∧ size ≤ 1280) := by
  intro size
  have hsize : f.packet.size = size := f.size_packet
  have ht : maxToken = 8 := rfl
  have hm : Packet.maxSize = 1280 := rfl
  have hiff : f.code.Legible ∧ (f.code = .empty → f.payload = []) ↔
      f.code = .empty ∧ f.payload = [] ∨ (∃ m, f.code = .request m) ∨
        ∃ c, f.code = .response c ∧ 2 ≤ c.cls.val ∧ c.cls.val ≤ 5 := by
    cases f.code <;> simp [Code.Legible]
  refine ⟨?_, ?_, ?_⟩
  · unfold encode
    rw [hsize, ht, hm]
    split_ifs with h1 h2 <;> simp <;> omega
  · unfold encode
    rw [hsize, ht, hm]
    split_ifs with h1 h2 <;> simp <;> omega
  · constructor
    · rintro ⟨b, hb, -⟩
      obtain ⟨h1, h2, -⟩ := encode_eq_ok_iff.1 hb
      omega
    · rintro ⟨h1, h2⟩
      have hb : f.encode = .ok f.packet.write := encode_eq_ok_iff.2 ⟨by omega, by omega, rfl⟩
      -- a payload that goes unwritten has been counted nevertheless
      have hlen := f.packet.length_write_le
      refine ⟨_, hb, by omega, ?_⟩
      rw [decode_encode_iff hb, ← hiff]
      exact and_congr_right written_eq_iff

/-- A request comes back from its datagram. -/
theorem decode_encode_ofRequest {kind : Kind} {id : UInt16} {token b : Bytes} {r : Request}
    (h : (ofRequest kind id token r).encode = .ok b) :
    decode b = .ok (ofRequest kind id token r) := by
  have hl : (ofRequest kind id token r).code.Legible := trivial
  exact (decode_encode_iff h).2 ⟨hl, (written_eq_iff hl).2 fun he => (by cases he)⟩

/-- An empty message comes back from its datagram. -/
theorem decode_write_empty (kind : Kind) (id : UInt16) :
    decode (empty kind id).packet.write = .ok (empty kind id) := by
  have hs : (empty kind id).packet.size = 4 := by
    rw [size_packet]
    rfl
  have he : (empty kind id).encode = .ok (empty kind id).packet.write :=
    encode_eq_ok_iff.2 ⟨Nat.zero_le _, by rw [hs]; decide, rfl⟩
  have hl : (empty kind id).code.Legible := trivial
  exact (decode_encode_iff he).2 ⟨hl, (written_eq_iff hl).2 fun _ => rfl⟩

/-- **Nothing tells where a payload ends**: behind the bytes before it any other one is read as
well. -/
theorem decode_front {d : Bytes} {f : Frame} (h : decode d = .ok f) (hp : f.payload ≠ []) :
    ∃ front, d = front ++ f.payload ∧
      ∀ payload, decode (front ++ payload) = .ok { f with payload } := by
  obtain ⟨p, code, hread, hcode, rfl⟩ := decode_eq_ok_iff.1 h
  obtain ⟨front, hd, hother⟩ := Packet.read_front hread hp
  exact ⟨front, hd, fun payload => decode_eq_ok_iff.2 ⟨_, code, hother payload, hcode, rfl⟩⟩

/-- **A datagram that was cut to its first `n` bytes** is read with the header, the token and the
code that it has, and with its payload cut, if it can be read at all. -/
theorem decode_take {d : Bytes} {n : Nat} {f whole : Frame} (h : decode (d.take n) = .ok f)
    (hw : decode d = .ok whole) :
    f.kind = whole.kind ∧ f.messageId = whole.messageId ∧ f.token = whole.token ∧
      f.code = whole.code ∧ f.payload <+: whole.payload := by
  obtain ⟨p, code, hp, hc, rfl⟩ := decode_eq_ok_iff.1 h
  obtain ⟨p', code', hp', hc', rfl⟩ := decode_eq_ok_iff.1 hw
  rw [← List.take_append_drop n d] at hp'
  have hcut := Packet.read_cut hp hp'
  rw [hcut.code] at hc
  cases hc.symm.trans hc'
  exact ⟨hcut.kind, hcut.messageId, hcut.token, rfl, hcut.payload⟩

end Frame

end NodeClock.Coap
