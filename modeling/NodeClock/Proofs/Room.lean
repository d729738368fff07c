import NodeClock.Proofs.Normalization

/-!
# Room for messages that are written again

A message that was read takes no more bytes when it is written again, as long as its texts are
texts. Where an option is left out, the difference to the option before it is added to the next one.
The sum may need a byte more than the two, but the byte in front of the option is saved.

* `length_extension_add`: what the sum of two differences needs.
* `length_writeOptions_skip`, `length_writeOptions_sublist`: **options that are left out take no
  room.**
* `Frame.length_options_le`: the options of a message that was read.
* `Frame.encode_fits` (every datagram that is not too long): **the message can be written again, in
  no more bytes.**
-/

namespace NodeClock.Coap

/-! ## Options that are left out -/

theorem length_extension (n : Nat) :
    (extension n).length = if n < 13 then 0 else if n < 269 then 1 else 2 := by
  unfold extension
  by_cases h1 : n < 13
  · rw [if_pos h1, if_pos h1]
    rfl
  · by_cases h2 : n < 269
    · rw [if_neg h1, if_pos h2, if_neg h1, if_pos h2]
      rfl
    · rw [if_neg h1, if_neg h2, if_neg h1, if_neg h2]
      rfl

theorem length_extension_mono {m n : Nat} (h : m ≤ n) :
    (extension m).length ≤ (extension n).length := by
  rw [length_extension, length_extension]
  split_ifs <;> omega

/-- The sum of two differences needs one byte more than they do, at most. -/
theorem length_extension_add (m n : Nat) :
    (extension (m + n)).length ≤ (extension m).length + (extension n).length + 1 := by
  rw [length_extension, length_extension, length_extension]
  split_ifs <;> omega

theorem Opt.length_write (before : Nat) (o : Opt) :
    (o.write before).length = (extension (o.number - before)).length +
      (extension o.value.length).length + o.value.length + 1 := by
  simp only [Opt.write, List.length_cons, List.length_append]

variable {before : Nat} {o : Opt} {os os' : List Opt}

/-- An option takes as much room as its leaving out makes the next difference grow. -/
theorem length_writeOptions_skip (hle : before ≤ o.number) (hos : ∀ o' ∈ os, o.number ≤ o'.number) :
    (writeOptions before os).length ≤
      (o.write before).length + (writeOptions o.number os).length := by
  cases os with
  | nil => exact Nat.zero_le _
  | cons o' os =>
    have hle' := hos o' List.mem_cons_self
    have hsum : o'.number - before = (o.number - before) + (o'.number - o.number) := by omega
    have hadd := length_extension_add (o.number - before) (o'.number - o.number)
    rw [← hsum] at hadd
    simp only [writeOptions, List.length_append, Opt.length_write]
    omega

/-- **Options that are left out take no room.** -/
theorem length_writeOptions_sublist (hsub : os'.Sublist os)
    (hos : os.Pairwise (·.number ≤ ·.number)) (hle : ∀ o ∈ os, before ≤ o.number) :
    (writeOptions before os').length ≤ (writeOptions before os).length := by
  -- an option that is left out is the one that the next difference is counted from
  induction hsub generalizing before with
  | slnil => exact Nat.le_refl _
  | @cons os' os o hsub ih =>
    obtain ⟨habove, hos⟩ := List.pairwise_cons.1 hos
    have hrest := ih hos habove
    have hskip := length_writeOptions_skip (hle o List.mem_cons_self)
      fun o' ho' => habove o' (hsub.subset ho')
    rw [writeOptions, List.length_append]
    omega
  | @cons_cons os' os o hsub ih =>
    obtain ⟨habove, hos⟩ := List.pairwise_cons.1 hos
    have hrest := ih hos habove
    rw [writeOptions, writeOptions, List.length_append, List.length_append]
    omega

/-- Options with shorter values take less room. -/
theorem length_writeOptions_map {spell : Opt → Opt} (hnumber : ∀ o, (spell o).number = o.number)
    (hvalue : ∀ o ∈ os, (spell o).value.length ≤ o.value.length) :
    (writeOptions before (os.map spell)).length ≤ (writeOptions before os).length := by
  induction os generalizing before with
  | nil => exact Nat.le_refl _
  | cons o os ih =>
    have hlen := hvalue o List.mem_cons_self
    have hmono := length_extension_mono hlen
    have hrest := @ih o.number fun o' ho' => hvalue o' (List.mem_cons_of_mem _ ho')
    rw [List.map_cons]
    simp only [writeOptions, List.length_append, Opt.length_write, hnumber]
    omega

/-! ## Messages that were read -/

namespace Frame

variable {b : Bytes} {f : Frame} {p : Packet} {code : Code} {version : Nat} {marked : Bool}

/-- A number needs no more bytes than it came in. -/
theorem length_uintBytes_uintOf (v : Bytes) : (uintBytes (uintOf v)).length ≤ v.length := by
  have htwo := (uintBytes_spec (uintOf v)).1
  match v with
  | [] => exact Nat.le_refl 0
  | [a] =>
    have hn := toNat_uintOf_single a
    have ha := a.toNat_lt
    have h1 : uintOf [a] < 256 := by
      rw [UInt16.lt_iff_toNat_lt, hn]
      exact ha
    unfold uintBytes
    by_cases h0 : uintOf [a] = 0
    · rw [if_pos h0]
      exact Nat.zero_le _
    · rw [if_neg h0, if_pos h1]
      exact Nat.le_refl 1
  | a :: c :: v =>
    simp only [List.length_cons]
    omega

/-- The texts of the options that are kept are texts. -/
structure Textual (os : List Opt) : Prop where
  host : ∀ v, (values 3 os).head? = some v → ∃ s, v = Utf8.encode s
  path : ∀ v ∈ values 11 os, ∃ s, v = Utf8.encode s
  query : ∀ v ∈ values 15 os, ∃ s, v = Utf8.encode s

theorem head?_of_mem_take_one {α : Type} {a : α} {xs : List α} (h : a ∈ xs.take 1) :
    xs.head? = some a := by
  cases xs with
  | nil => cases h
  | cons b xs =>
    rw [List.take_succ_cons, List.take_zero, List.mem_singleton] at h
    rw [h]
    rfl

theorem Textual.length_respelled (h : Textual os) (ho : o ∈ kept os) :
    (respelled o).value.length ≤ o.value.length := by
  have htext : o.number ≠ contentFormatNumber → (∃ s, o.value = Utf8.encode s) →
      (respelled o).value.length ≤ o.value.length := by
    intro hn hs
    rw [respelled_of_text hn hs]
  simp only [kept, List.mem_append] at ho
  rcases ho with ((ho | ho) | ho) | ho
  · -- of the hosts only the first one is kept
    have hmem := List.mem_of_mem_take ho
    obtain ⟨-, hn⟩ := List.mem_filter.1 hmem
    have hfirst : (values 3 os).head? = some o.value := by
      rw [values, List.head?_map]
      exact congrArg (Option.map Opt.value) (head?_of_mem_take_one ho)
    exact htext (by rw [beq_iff_eq.1 hn]; decide) (h.host _ hfirst)
  · obtain ⟨-, hn⟩ := List.mem_filter.1 ho
    exact htext (by rw [beq_iff_eq.1 hn]; decide) (h.path _ (List.mem_map_of_mem ho))
  · obtain ⟨-, hn⟩ := List.mem_filter.1 (List.mem_of_mem_take ho)
    rw [respelled, if_pos (beq_iff_eq.1 hn)]
    exact length_uintBytes_uintOf o.value
  · obtain ⟨-, hn⟩ := List.mem_filter.1 ho
    exact htext (by rw [beq_iff_eq.1 hn]; decide) (h.query _ (List.mem_map_of_mem ho))

/-- The options of a message that was read take no more room than those that it was read from. -/
theorem length_options_le (code : Code) (hos : p.options.Pairwise (·.number ≤ ·.number))
    (h : Textual p.options) :
    (writeOptions 0 (ofPacket code p).options).length ≤ (writeOptions 0 p.options).length := by
  rw [options_ofPacket]
  have hmap : (writeOptions 0 ((kept p.options).map respelled)).length ≤
      (writeOptions 0 (kept p.options)).length :=
    length_writeOptions_map (fun _ => rfl) fun o ho => h.length_respelled ho
  have hkept : (writeOptions 0 (kept p.options)).length ≤ (writeOptions 0 p.options).length :=
    length_writeOptions_sublist (kept_sublist hos) hos fun o _ => Nat.zero_le _
  omega

/-- **A message that was read can be written again.** If a datagram of 1280 bytes at most is read as
a message, and its host, path and query are texts, the message is written again in no more bytes
than it came in. They are read as the same message, but for the payload of an empty one. -/
theorem encode_fits (hlayout : Layout version p marked b) (h : decode b = .ok f)
    (hlen : b.length ≤ 1280) (htext : Textual p.options) :
    ∃ b', f.encode = .ok b' ∧ b'.length ≤ b.length ∧ decode b' = .ok f.restored := by
  obtain ⟨p', code, hp, hcode, rfl⟩ := decode_eq_ok_iff.1 h
  obtain rfl : p = p' := Except.ok.inj ((Packet.read_of_layout hlayout).symm.trans hp)
  have htoken := hlayout.length_token
  have hbytes := hlayout.length_eq
  have hoptions := length_options_le code hlayout.ordered htext
  -- a payload stands behind a mark, which makes room for the one that may be written
  have hsize : (ofPacket code p).packet.size ≤ b.length := by
    have hpayload : (ofPacket code p).payload = p.payload := rfl
    have htok : (ofPacket code p).token = p.token := rfl
    rw [size_packet, hbytes, hpayload, htok]
    cases marked with
    | true =>
      rw [if_pos rfl]
      split <;> omega
    | false =>
      have hnone := hlayout.unmarked rfl
      rw [hnone, if_neg fun hp => hp.1 rfl, if_neg Bool.false_ne_true]
      simp only [List.length_nil]
      omega
  have hwrite := (ofPacket code p).packet.length_write_le
  have he := encode_eq_ok_iff.2 ⟨htoken, Nat.le_trans hsize hlen, rfl⟩
  obtain ⟨-, hlegible⟩ := Code.ofByte_eq_ok_iff.1 hcode
  exact ⟨_, he, Nat.le_trans hwrite hsize, (encode_restored hlegible he).1⟩

/-- An empty message with a payload, and with a query that needs a byte more when the option before
it is left out. -/
theorem encode_fits_empty :
    decode [0x60, 0, 0, 7, 0x40, 0xB1, 120, 0xFF, 9, 9] =
        .ok { kind := .acknowledgement, messageId := 7, uriQuery := ["x"], payload := [9, 9] } ∧
      ∃ b', ({ kind := .acknowledgement, messageId := 7, uriQuery := ["x"],
               payload := [9, 9] } : Frame).encode = .ok b' ∧ b'.length ≤ 10 ∧
        decode b' = .ok { kind := .acknowledgement, messageId := 7, uriQuery := ["x"] } := by
  let p : Packet := ⟨.acknowledgement, 7, [], 0, [⟨4, []⟩, ⟨15, [120]⟩], [9, 9]⟩
  have ho : Writable 0 p.options := ⟨by decide, by decide, by decide, by decide⟩
  have hopts : Laid 0 [0x40, 0xB1, 120] p.options := laid_iff.2 ⟨ho, by decide⟩
  have hlayout : Layout 1 p true [0x60, 0, 0, 7, 0x40, 0xB1, 120, 0xFF, 9, 9] :=
    @Layout.mk 1 p true 0x60 0 7 _ rfl rfl rfl (by decide) rfl hopts nofun
  have h := decode_eq_ok_iff.2 ⟨p, .empty, Packet.read_of_layout hlayout, rfl, rfl⟩
  have hquery : ∀ v ∈ values 15 p.options, ∃ s, v = Utf8.encode s := by
    intro v hv
    rw [show values 15 p.options = [Utf8.encode "x"] by decide, List.mem_singleton] at hv
    exact ⟨"x", hv⟩
  have hf : ofPacket .empty p =
      { kind := .acknowledgement, messageId := 7, uriQuery := ["x"], payload := [9, 9] } := by decide
  rw [← hf]
  exact ⟨h, encode_fits hlayout h (by decide) ⟨nofun, nofun, hquery⟩⟩

end Frame

end NodeClock.Coap
