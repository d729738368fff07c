import NodeClock.Proofs.Decoding

/-!
# Messages that are written again

A datagram is read as a message, and the message is written again. What is lost on the way is what
a message does not tell: the version, options that are not kept, bytes that are no text, zeros in
front of a number, and a mark with no payload behind it.

* `Frame.kept`, `Frame.respelled`: the options that a message is read from, and how each is written
  again.
* `Frame.options_ofPacket`: **the options of a message that was read.**
* `Frame.Normal`: options that are written again as they are.
* `Frame.map_kept_eq_iff`: **which options these are.**
* `Frame.encode_layout`: the layout in which a message is written.
* `Frame.encode_normalizes` (every datagram): **what a message is written as again, and when nothing
  is lost.**
-/

namespace NodeClock.Coap

namespace Frame

/-! ## Numbers in as few bytes as they need -/

/-- A number has two bytes at most, and no zero in front. -/
theorem uintBytes_spec (n : UInt16) :
    (uintBytes n).length ≤ 2 ∧ (uintBytes n).head? ≠ some 0 := by
  have hlt := n.toNat_lt
  unfold uintBytes
  by_cases h0 : n = 0
  · rw [if_pos h0]
    exact ⟨by decide, nofun⟩
  have hne : n.toNat ≠ 0 := fun h => h0 (UInt16.toNat_inj.1 h)
  rw [if_neg h0]
  by_cases h1 : n < 256
  · have hbyte : n.toNat < 256 := UInt16.lt_iff_toNat_lt.1 h1
    rw [if_pos h1]
    refine ⟨Nat.le_succ 1, ?_⟩
    intro h
    have hzero := congrArg UInt8.toNat (Option.some.inj h)
    rw [UInt8.toNat_ofNat_of_lt' (show n.toNat < 256 from hbyte)] at hzero
    exact hne hzero
  · have hword : ¬ n.toNat < 256 := fun h => h1 (UInt16.lt_iff_toNat_lt.2 h)
    rw [if_neg h1]
    refine ⟨Nat.le_refl 2, ?_⟩
    intro h
    have hzero := congrArg UInt8.toNat (Option.some.inj h)
    rw [UInt8.toNat_ofNat_of_lt' (show n.toNat / 256 < 256 by omega)] at hzero
    have : (0 : UInt8).toNat = 0 := rfl
    omega

theorem toNat_uintOf_single (a : UInt8) : (uintOf [a]).toNat = a.toNat := by
  simp [uintOf]

theorem toNat_uintOf_pair (a b : UInt8) :
    (uintOf [a, b]).toNat = a.toNat * 256 + b.toNat := by
  have ha := a.toNat_lt
  have hb := b.toNat_lt
  simp [uintOf]
  omega

/-- **Bytes are those of their number** exactly if they are two at most with no zero in front. -/
theorem uintBytes_uintOf_iff {v : Bytes} :
    uintBytes (uintOf v) = v ↔ v.length ≤ 2 ∧ v.head? ≠ some 0 := by
  constructor
  · intro h
    rw [← h]
    exact uintBytes_spec _
  · rintro ⟨hlen, hhead⟩
    match v, hlen, hhead with
    | [], _, _ => rfl
    | [a], _, hhead =>
      have hn := toNat_uintOf_single a
      have ha := a.toNat_lt
      have hne : a.toNat ≠ 0 := fun h => hhead (congrArg some (UInt8.toNat_inj.1 h))
      have h0 : uintOf [a] ≠ 0 := by
        intro h
        rw [h] at hn
        exact hne hn.symm
      have h1 : uintOf [a] < 256 := by
        rw [UInt16.lt_iff_toNat_lt, hn]
        exact ha
      rw [uintBytes, if_neg h0, if_pos h1, hn, UInt8.ofNat_toNat]
    | [a, b], _, hhead =>
      have hn := toNat_uintOf_pair a b
      have ha := a.toNat_lt
      have hb := b.toNat_lt
      have hne : a.toNat ≠ 0 := fun h => hhead (congrArg some (UInt8.toNat_inj.1 h))
      have h0 : uintOf [a, b] ≠ 0 := by
        intro h
        have hzero : (0 : UInt16).toNat = 0 := rfl
        rw [h] at hn
        omega
      have h1 : ¬ uintOf [a, b] < 256 := by
        have h256 : (256 : UInt16).toNat = 256 := rfl
        rw [UInt16.lt_iff_toNat_lt, hn, h256]
        omega
      have hhigh : UInt8.ofNat ((a.toNat * 256 + b.toNat) / 256) = a := by
        rw [show (a.toNat * 256 + b.toNat) / 256 = a.toNat by omega, UInt8.ofNat_toNat]
      have hlow : UInt8.ofNat (a.toNat * 256 + b.toNat) = b := by
        apply UInt8.toNat_inj.1
        rw [UInt8.toNat_ofNat']
        omega
      rw [uintBytes, if_neg h0, if_neg h1, hn, hhigh, hlow]

/-! ## Options that are read and written again -/

variable {os : List Opt} {o : Opt}

/-- The options that a message is read from. -/
def kept (os : List Opt) : List Opt :=
  (os.filter (·.number == uriHostNumber)).take 1 ++ os.filter (·.number == uriPathNumber) ++
    (os.filter (·.number == contentFormatNumber)).take 1 ++
    os.filter (·.number == uriQueryNumber)

/-- An option that is kept, as it is written again. -/
def respelled (o : Opt) : Opt :=
  ⟨o.number, if o.number = contentFormatNumber then uintBytes (uintOf o.value)
    else Utf8.encode (Utf8.decodeLossy o.value)⟩

/-- A text is written again as it is. -/
theorem respelled_of_text (hn : o.number ≠ contentFormatNumber)
    (h : ∃ s, o.value = Utf8.encode s) : respelled o = o := by
  obtain ⟨s, hs⟩ := h
  rw [respelled, if_neg hn, hs, Utf8.decodeLossy_encode, ← hs]

/-- Options of one number are spelled alike. -/
theorem map_respelled {number : Nat} {spell : Bytes → Bytes}
    (h : ∀ v, respelled ⟨number, v⟩ = ⟨number, spell v⟩) (os : List Opt) :
    (os.filter (·.number == number)).map respelled =
      (values number os).map fun v => ⟨number, spell v⟩ := by
  rw [values, List.map_map]
  apply List.map_congr_left
  rintro ⟨n, v⟩ ho
  have hn : n = number := beq_iff_eq.1 (List.mem_filter.1 ho).2
  rw [hn]
  exact h v

theorem toList_head?_map {α β : Type} (g : α → β) (xs : List α) :
    (xs.head?.map g).toList = (xs.map g).take 1 := by
  cases xs <;> rfl

/-- **The options of a message that was read** are those that it was read from, written again. -/
theorem options_ofPacket (code : Code) (p : Packet) :
    (ofPacket code p).options = (kept p.options).map respelled := by
  have htext : ∀ number, number ≠ contentFormatNumber → ∀ v,
      respelled ⟨number, v⟩ = ⟨number, Utf8.encode (Utf8.decodeLossy v)⟩ := by
    intro number hne v
    simp only [respelled, if_neg hne]
  have hformat : ∀ v, respelled ⟨contentFormatNumber, v⟩ =
      ⟨contentFormatNumber, uintBytes (uintOf v)⟩ := by
    intro v
    simp only [respelled, if_true]
  rw [options, kept]
  simp only [ofPacket, List.map_append, List.map_take, Option.map_map, List.map_map,
    toList_head?_map]
  rw [map_respelled (htext uriHostNumber (by decide)),
    map_respelled (htext uriPathNumber (by decide)), map_respelled hformat,
    map_respelled (htext uriQueryNumber (by decide))]
  rfl

/-- Options in order, picked by a number above some others that are picked. -/
theorem filter_or_number {q : Opt → Bool} {number : Nat} (hq : ∀ o, q o = true → o.number < number)
    (hos : os.Pairwise (·.number ≤ ·.number)) :
    os.filter (fun o => q o || o.number == number) =
      os.filter q ++ os.filter (·.number == number) := by
  induction os with
  | nil => rfl
  | cons o os ih =>
    obtain ⟨hle, hos⟩ := List.pairwise_cons.1 hos
    have ih := ih hos
    by_cases hn : o.number = number
    · -- nothing below the number comes after it
      have hnone : ∀ o' ∈ o :: os, ¬ q o' = true := by
        intro o' ho' hq'
        have hlt := hq o' hq'
        rcases List.mem_cons.1 ho' with rfl | ho'
        · omega
        · have := hle o' ho'
          omega
      have hnil : (o :: os).filter q = [] := List.filter_eq_nil_iff.2 hnone
      have hsame : ∀ o' ∈ o :: os, (q o' || o'.number == number) = (o'.number == number) := by
        intro o' ho'
        rw [Bool.eq_false_iff.2 (hnone o' ho'), Bool.false_or]
      rw [hnil, List.nil_append, List.filter_congr hsame]
    · by_cases hqo : q o = true
      · rw [List.filter_cons_of_pos (by simp [hqo]), List.filter_cons_of_pos hqo,
          List.filter_cons_of_neg (by simpa using hn), ih, List.cons_append]
      · rw [List.filter_cons_of_neg (by simp [hqo, hn]), List.filter_cons_of_neg hqo,
          List.filter_cons_of_neg (by simpa using hn), ih]

/-- The options that a message keeps, number by number. -/
theorem filter_keeps (hos : os.Pairwise (·.number ≤ ·.number)) :
    os.filter keeps =
      os.filter (·.number == uriHostNumber) ++ os.filter (·.number == uriPathNumber) ++
        os.filter (·.number == contentFormatNumber) ++ os.filter (·.number == uriQueryNumber) := by
  have hsplit : os.filter keeps = os.filter fun o => (((o.number == uriHostNumber) ||
    (o.number == uriPathNumber)) || (o.number == contentFormatNumber)) ||
      (o.number == uriQueryNumber) := rfl
  rw [hsplit, filter_or_number ?_ hos, filter_or_number ?_ hos, filter_or_number ?_ hos]
  all_goals
    intro o ho
    simp only [Bool.or_eq_true, beq_iff_eq, uriHostNumber, uriPathNumber, contentFormatNumber,
      uriQueryNumber] at *
    omega

theorem kept_sublist_filter (hos : os.Pairwise (·.number ≤ ·.number)) :
    (kept os).Sublist (os.filter keeps) := by
  rw [filter_keeps hos, kept]
  exact (((List.take_sublist _ _).append (.refl _)).append (List.take_sublist _ _)).append (.refl _)

/-- What is kept of options in order is in order. -/
theorem kept_sublist (hos : os.Pairwise (·.number ≤ ·.number)) : (kept os).Sublist os :=
  (kept_sublist_filter hos).trans List.filter_sublist

/-- Options that are written again as they are. -/
structure Normal (os : List Opt) : Prop where
  number : ∀ o ∈ os, o.number = 3 ∨ o.number = 11 ∨ o.number = 12 ∨ o.number = 15
  host : (values 3 os).length ≤ 1
  format : (values 12 os).length ≤ 1
  text : ∀ o ∈ os, o.number = 3 ∨ o.number = 11 ∨ o.number = 15 → ∃ s, o.value = Utf8.encode s
  short : ∀ o ∈ os, o.number = 12 → o.value.length ≤ 2 ∧ o.value.head? ≠ some 0

theorem keeps_iff : keeps o = true ↔
    o.number = 3 ∨ o.number = 11 ∨ o.number = 12 ∨ o.number = 15 := by
  simp only [keeps, Bool.or_eq_true, beq_iff_eq, uriHostNumber, uriPathNumber,
    contentFormatNumber, uriQueryNumber, or_assoc]

theorem keeps_of_mem_kept (hos : os.Pairwise (·.number ≤ ·.number)) (ho : o ∈ kept os) :
    keeps o = true := (List.mem_filter.1 ((kept_sublist_filter hos).subset ho)).2

theorem length_kept (os : List Opt) :
    (kept os).length = min 1 (values 3 os).length + (values 11 os).length +
      min 1 (values 12 os).length + (values 15 os).length := by
  simp only [kept, values, List.length_append, List.length_take, List.length_map, uriHostNumber,
    uriPathNumber, contentFormatNumber, uriQueryNumber]

theorem length_filter_keeps (hos : os.Pairwise (·.number ≤ ·.number)) :
    (os.filter keeps).length = (values 3 os).length + (values 11 os).length +
      (values 12 os).length + (values 15 os).length := by
  simp only [filter_keeps hos, values, List.length_append, List.length_map, uriHostNumber,
    uriPathNumber, contentFormatNumber, uriQueryNumber]

/-- **Options are written again as they are** exactly if they are normal. -/
theorem map_kept_eq_iff (hos : os.Pairwise (·.number ≤ ·.number)) :
    (kept os).map respelled = os ↔ Normal os := by
  have hsub := kept_sublist_filter hos
  constructor
  · intro h
    -- as many options are left as there were, so none has been left out
    have hlen : (kept os).length = os.length := by rw [← List.length_map respelled, h]
    have hfilter := List.length_filter_le keeps os
    have hle := hsub.length_le
    have hkept := length_kept os
    have hkeeps := length_filter_keeps hos
    have hform : ∀ o ∈ os, ∃ o' ∈ kept os, respelled o' = o := by
      intro o ho
      rw [← h] at ho
      exact List.mem_map.1 ho
    refine ⟨?_, by omega, by omega, ?_, ?_⟩
    · intro o ho
      obtain ⟨o', ho', rfl⟩ := hform o ho
      have hkeeps : keeps o' = true := keeps_of_mem_kept hos ho'
      exact keeps_iff.1 (show keeps (respelled o') = true from hkeeps)
    · intro o ho hn
      obtain ⟨o', ho', rfl⟩ := hform o ho
      have hne : o'.number ≠ contentFormatNumber := by
        simp only [respelled, contentFormatNumber] at hn ⊢
        omega
      refine ⟨Utf8.decodeLossy o'.value, ?_⟩
      simp only [respelled, if_neg hne]
    · intro o ho hn
      obtain ⟨o', ho', rfl⟩ := hform o ho
      have heq : o'.number = contentFormatNumber := hn
      simp only [respelled, if_pos heq]
      exact uintBytes_spec _
  · intro h
    have hall : os.filter keeps = os :=
      List.filter_eq_self.2 fun o ho => keeps_iff.2 (h.number o ho)
    have hkept : kept os = os := by
      have hlen := length_kept os
      have hkeeps := length_filter_keeps hos
      have hhost := h.host
      have hformat := h.format
      rw [hall] at hsub hkeeps
      exact hsub.eq_of_length (by omega)
    rw [hkept]
    refine (List.map_congr_left ?_).trans (List.map_id os)
    intro o ho
    by_cases hn : o.number = contentFormatNumber
    · rw [respelled, if_pos hn, uintBytes_uintOf_iff.2 (h.short o ho hn)]
      rfl
    · have htext : o.number = 3 ∨ o.number = 11 ∨ o.number = 15 := by
        have := h.number o ho
        simp only [contentFormatNumber] at hn
        omega
      exact respelled_of_text hn (h.text o ho htext)

end Frame

/-! ## Messages that are written again -/

namespace Packet

variable (p : Packet)

theorem carriesPayload_written :
    ({ p with payload := p.written } : Packet).carriesPayload = p.carriesPayload := by
  unfold written
  by_cases h : p.carriesPayload = true
  · rw [if_pos h]
  · rw [if_neg h, Bool.eq_false_iff.2 h]
    rfl

/-- A payload that is not written makes no difference to the bytes. -/
theorem write_written : ({ p with payload := p.written } : Packet).write = p.write := by
  rw [write, write, carriesPayload_written]
  by_cases h : p.carriesPayload = true
  · rw [written, if_pos h]
  · rw [if_neg h, if_neg h]

theorem size_written_le : ({ p with payload := p.written } : Packet).size ≤ p.size := by
  have hle : p.written.length ≤ p.payload.length := by
    unfold written
    by_cases h : p.carriesPayload = true
    · rw [if_pos h]
    · rw [if_neg h]
      exact Nat.zero_le _
  rw [size, size, carriesPayload_written]
  simp only
  omega

end Packet

namespace Frame

variable {b b' : Bytes} {f : Frame} {p : Packet} {code : Code} {version : Nat} {marked : Bool}

/-- What comes back of a message: all but the payload of an empty one. -/
def restored (f : Frame) : Frame :=
  { f with payload := if f.code = .empty then [] else f.payload }

theorem restored_eq (hl : f.code.Legible) : f.restored = { f with payload := f.packet.written } := by
  by_cases he : f.code = .empty
  · have hcode : f.packet.code = 0 := by
      rw [packet, he]
      rfl
    have hnone : f.packet.carriesPayload = false := by
      rw [Packet.carriesPayload, hcode]
      exact Bool.and_false _
    rw [restored, if_pos he, Packet.written, hnone]
    rfl
  · rw [restored, if_neg he, (written_eq_iff hl).2 fun h => absurd h he]

/-- The layout in which a message is written. -/
theorem encode_layout (h : f.encode = .ok b) :
    Layout 1 { f.packet with payload := f.packet.written } f.packet.carriesPayload b := by
  obtain ⟨ht, hs, rfl⟩ := encode_eq_ok_iff.1 h
  exact Packet.layout_write (p := f.packet) ht (options_writable hs)

/-- A message is read from its datagram, and what is read has the same datagram. -/
theorem encode_restored (hl : f.code.Legible) (h : f.encode = .ok b) :
    decode b = .ok f.restored ∧ f.restored.encode = .ok b := by
  obtain ⟨ht, hs, rfl⟩ := encode_eq_ok_iff.1 h
  rw [restored_eq hl]
  constructor
  · rw [decode_write ht hs, Code.ofByte_eq_ok_iff.2 ⟨rfl, hl⟩]
    rfl
  · have hsize := f.packet.size_written_le
    exact encode_eq_ok_iff.2 ⟨ht, Nat.le_trans hsize hs, f.packet.write_written⟩

theorem carriesPayload_ofPacket (hbyte : code.byte = p.code) :
    (ofPacket code p).packet.carriesPayload = p.carriesPayload := by
  have hcode : (ofPacket code p).packet.code = p.code := hbyte
  rw [Packet.carriesPayload, Packet.carriesPayload, hcode]
  rfl

/-- **A datagram is written again as it is** exactly if it has the version 1, normal options, and no
mark without a payload that is written. -/
theorem encode_eq_self_iff (h : Layout version p marked b) (hbyte : code.byte = p.code)
    (he : (ofPacket code p).encode = .ok b') :
    b' = b ↔ version = 1 ∧ Normal p.options ∧ (marked = true → p.payload ≠ [] ∧ p.code ≠ 0) := by
  have h' := encode_layout he
  have hcarries := carriesPayload_ofPacket hbyte
  have hoptions : (ofPacket code p).packet.options = p.options ↔ Normal p.options := by
    rw [← map_kept_eq_iff h.ordered, ← options_ofPacket code p]
    rfl
  have hpayload : p.carriesPayload = true ↔ p.payload ≠ [] ∧ p.code ≠ 0 := by
    simp [Packet.carriesPayload]
  constructor
  · rintro rfl
    obtain ⟨hversion, hp, hmarked⟩ := h'.unique h
    have hos : (ofPacket code p).packet.options = p.options := (congrArg Packet.options hp :)
    refine ⟨hversion.symm, hoptions.1 hos, ?_⟩
    rintro rfl
    rw [hcarries] at hmarked
    exact hpayload.1 hmarked
  · rintro ⟨rfl, hnormal, hmark⟩
    -- there is a mark just where there is a payload that is written
    have hmarked : p.carriesPayload = marked := by
      cases marked with
      | true => exact hpayload.2 (hmark rfl)
      | false => exact Bool.eq_false_iff.2 fun hc => (hpayload.1 hc).1 (h.unmarked rfl)
    have hwritten : (ofPacket code p).packet.written = p.payload := by
      rw [Packet.written, hcarries]
      cases marked with
      | true => rw [if_pos hmarked]; rfl
      | false => rw [if_neg (by rw [hmarked]; decide), h.unmarked rfl]
    have hp : { (ofPacket code p).packet with payload := (ofPacket code p).packet.written } = p := by
      have hcode : (ofPacket code p).packet.code = p.code := hbyte
      simp only [hwritten, hoptions.2 hnormal, hcode]
      rfl
    rw [hcarries, hmarked, hp] at h'
    exact h'.bytes_eq h

/-- **A message that was read is written again in its normal form.** Its token is never too long.
The bytes that are written are read as the same message, but for the payload of an empty one, and
that message is written as the same bytes. They are those that came exactly if these had the version
1, normal options, and no payload mark but one with a payload behind it in a message that is not
empty. -/
theorem encode_normalizes (h : decode b = .ok f) :
    (∀ n, f.encode ≠ .error (.tokenTooLong n)) ∧
    ∃ version p marked, Layout version p marked b ∧
      ∀ b', f.encode = .ok b' →
        decode b' = .ok f.restored ∧ f.restored.encode = .ok b' ∧
        (b' = b ↔ version = 1 ∧ Normal p.options ∧
          (marked = true → p.payload ≠ [] ∧ p.code ≠ 0)) := by
  obtain ⟨p, code, hp, hcode, rfl⟩ := decode_eq_ok_iff.1 h
  obtain ⟨version, marked, hlayout⟩ := Packet.read_eq_ok_iff.1 hp
  obtain ⟨hbyte, hlegible⟩ := Code.ofByte_eq_ok_iff.1 hcode
  constructor
  · intro n
    have htoken := hlayout.length_token
    have hshort : ¬ (ofPacket code p).token.length > maxToken := Nat.not_lt_of_le htoken
    rw [encode, if_neg hshort]
    split <;> nofun
  · refine ⟨version, p, marked, hlayout, ?_⟩
    intro b' he
    obtain ⟨hback, hagain⟩ := encode_restored hlegible he
    exact ⟨hback, hagain, encode_eq_self_iff hlayout hbyte he⟩

/-- A request of the version 2 with two hosts, a path that is no text, a format with a zero in
front, an option that is not kept, and a mark with nothing behind it, and the same request
written again. -/
theorem encode_normalizes_untidy :
    let f : Frame :=
      { kind := .confirmable, messageId := 7, code := .request .get, uriHost := some "a",
        uriPath := ["\uFFFD"], contentFormat := some 40 }
    decode [0x80, 1, 0, 7, 0x31, 97, 1, 98, 0x81, 0xFF, 0x12, 0, 40, 0x21, 60, 0xFF] = .ok f ∧
      decode [0x40, 1, 0, 7, 0x31, 97, 0x83, 0xEF, 0xBF, 0xBD, 0x11, 40] = .ok f := by
  intro f
  let p : Packet :=
    ⟨.confirmable, 7, [], 1, [⟨3, [97]⟩, ⟨3, [98]⟩, ⟨11, [0xFF]⟩, ⟨12, [0, 40]⟩, ⟨14, [60]⟩], []⟩
  have ho : Writable 0 p.options := ⟨by decide, by decide, by decide, by decide⟩
  have hopts : Laid 0 [0x31, 97, 1, 98, 0x81, 0xFF, 0x12, 0, 40, 0x21, 60] p.options :=
    laid_iff.2 ⟨ho, by decide⟩
  have hlayout : Layout 2 p true
      [0x80, 1, 0, 7, 0x31, 97, 1, 98, 0x81, 0xFF, 0x12, 0, 40, 0x21, 60, 0xFF] :=
    @Layout.mk 2 p true 0x80 0 7 _ rfl rfl rfl (by decide) rfl hopts nofun
  have h := decode_eq_ok_iff.2 ⟨p, .request .get, Packet.read_of_layout hlayout, rfl,
    (by decide : ofPacket (.request .get) p = f)⟩
  have he : f.encode = .ok [0x40, 1, 0, 7, 0x31, 97, 0x83, 0xEF, 0xBF, 0xBD, 0x11, 40] := by
    decide
  obtain ⟨-, _, _, _, -, hagain⟩ := encode_normalizes h
  exact ⟨h, (hagain _ he).1⟩

end Frame

end NodeClock.Coap
