import NodeClock.Text.Utf8

/-!
# Written text is read back

* `lead_ascii`, `lead_two`, `lead_three`, `lead_four`: what a first byte begins.
* `scan_two`, `scan_three`, `scan_four`: the characters of two, three and four bytes.
* `scan_utf8EncodeChar`: a written character is read back, whatever follows it.
* `decodeLossy_encode`, `decode?_encode`: so is a text, by either reader.
* `Begins`, `lead_cases`: what a first byte says of those that follow it.
* `char_of_scan`: a character that was read was written.
* `decode?_eq_some_iff`: **bytes are read as a text only if they are those of the text.**
-/

namespace NodeClock.Utf8

theorem lead_ascii {n : Nat} (h : n < 0x80) : lead (UInt8.ofNat n) = .whole (Char.ofNat n) := by
  have hb : (UInt8.ofNat n).toNat = n := UInt8.toNat_ofNat_of_lt' (show n < 256 by omega)
  have hlt : UInt8.ofNat n < 0x80 := by rw [UInt8.lt_iff_toNat_lt, hb]; exact h
  rw [lead, if_pos hlt, hb]

/-- The first of two bytes. -/
theorem lead_two {n : Nat} (h1 : 0xC2 ≤ n) (h2 : n < 0xE0) :
    lead (UInt8.ofNat n) = .first ⟨1, 0x80, 0xBF, n - 0xC0⟩ := by
  have hb : (UInt8.ofNat n).toNat = n := UInt8.toNat_ofNat_of_lt' (show n < 256 by omega)
  simp only [lead, UInt8.lt_iff_toNat_lt, hb, UInt8.reduceToNat]
  rw [if_neg (by omega), if_neg (by omega), if_pos h2]

/-- The first of three bytes. -/
theorem lead_three {n : Nat} (h1 : 0xE0 ≤ n) (h2 : n < 0xF0) :
    lead (UInt8.ofNat n) =
      .first ⟨2, if n = 0xE0 then 0xA0 else 0x80, if n = 0xED then 0x9F else 0xBF, n - 0xE0⟩ := by
  have hb : (UInt8.ofNat n).toNat = n := UInt8.toNat_ofNat_of_lt' (show n < 256 by omega)
  simp only [lead, UInt8.lt_iff_toNat_lt, ← UInt8.toNat_inj, hb, UInt8.reduceToNat]
  rw [if_neg (by omega), if_neg (by omega), if_neg (by omega)]
  by_cases hE0 : n = 0xE0
  · subst hE0; rfl
  by_cases hED : n = 0xED
  · subst hED; rfl
  rw [if_neg hE0, if_neg hED, if_pos h2, if_neg hE0, if_neg hED]

/-- The first of four bytes. -/
theorem lead_four {n : Nat} (h1 : 0xF0 ≤ n) (h2 : n ≤ 0xF4) :
    lead (UInt8.ofNat n) =
      .first ⟨3, if n = 0xF0 then 0x90 else 0x80, if n = 0xF4 then 0x8F else 0xBF, n - 0xF0⟩ := by
  have hn : n = 0xF0 ∨ n = 0xF1 ∨ n = 0xF2 ∨ n = 0xF3 ∨ n = 0xF4 := by omega
  rcases hn with rfl | rfl | rfl | rfl | rfl <;> rfl

/-- A byte in range ends the character under way or goes on with it. -/
theorem scan_next {p : Pending} {n : Nat} (hn : n < 256) (hlow : p.low.toNat ≤ n)
    (hhigh : n ≤ p.high.toNat) (rest : Bytes) :
    scan (some p) (UInt8.ofNat n :: rest) =
      if p.more ≤ 1 then some (Char.ofNat (p.bits * 64 + (n - 0x80))) :: scan none rest
      else scan (some ⟨p.more - 1, 0x80, 0xBF, p.bits * 64 + (n - 0x80)⟩) rest := by
  have hb : (UInt8.ofNat n).toNat = n := UInt8.toNat_ofNat_of_lt' hn
  have hin : p.low ≤ UInt8.ofNat n ∧ UInt8.ofNat n ≤ p.high := by
    rw [UInt8.le_iff_toNat_le, UInt8.le_iff_toNat_le, hb]
    exact ⟨hlow, hhigh⟩
  rw [scan, advance, if_pos hin, hb]
  by_cases hmore : p.more ≤ 1
  · rw [if_pos hmore, if_pos hmore]
    rfl
  · rw [if_neg hmore, if_neg hmore]
    rfl

/-- The first byte of a longer character. -/
theorem scan_first {b : UInt8} {p : Pending} (h : lead b = .first p) (rest : Bytes) :
    scan none (b :: rest) = scan (some p) rest := by
  rw [scan, advance, begin, h]
  rfl

/-- Two bytes of a character. -/
theorem scan_two {x y : Nat} (hx : 0xC2 ≤ x ∧ x < 0xE0) (hy : 0x80 ≤ y ∧ y < 0xC0)
    (rest : Bytes) :
    scan none (UInt8.ofNat x :: UInt8.ofNat y :: rest) =
      some (Char.ofNat ((x - 0xC0) * 64 + (y - 0x80))) :: scan none rest := by
  rw [scan_first (lead_two hx.1 hx.2)]
  exact scan_next (by omega) hy.1 (show y ≤ 0xBF by omega) rest

theorem toNat_ite_le {c : Prop} [Decidable c] {a b : UInt8} {n : Nat} (ha : c → a.toNat ≤ n)
    (hb : b.toNat ≤ n) : (if c then a else b).toNat ≤ n := by
  split
  · exact ha ‹c›
  · exact hb

theorem le_toNat_ite {c : Prop} [Decidable c] {a b : UInt8} {n : Nat} (ha : c → n ≤ a.toNat)
    (hb : n ≤ b.toNat) : n ≤ (if c then a else b).toNat := by
  split
  · exact ha ‹c›
  · exact hb

/-- Three bytes of a character, which is not one of two bytes and no surrogate. -/
theorem scan_three {x y z : Nat} (hx : 0xE0 ≤ x ∧ x < 0xF0) (hy : 0x80 ≤ y ∧ y < 0xC0)
    (hz : 0x80 ≤ z ∧ z < 0xC0) (hlow : x = 0xE0 → 0xA0 ≤ y) (hhigh : x = 0xED → y < 0xA0)
    (rest : Bytes) :
    scan none (UInt8.ofNat x :: UInt8.ofNat y :: UInt8.ofNat z :: rest) =
      some (Char.ofNat (((x - 0xE0) * 64 + (y - 0x80)) * 64 + (z - 0x80))) :: scan none rest := by
  have hy2 : x = 0xED → y ≤ 0x9F := fun h => Nat.le_of_lt_succ (hhigh h)
  rw [scan_first (lead_three hx.1 hx.2),
    scan_next (by omega) (toNat_ite_le hlow hy.1) (le_toNat_ite hy2 (Nat.le_of_lt_succ hy.2))]
  exact scan_next (by omega) hz.1 (show z ≤ 0xBF by omega) rest

/-- Four bytes of a character, which is not one of three bytes and not beyond the last. -/
theorem scan_four {x y z w : Nat} (hx : 0xF0 ≤ x ∧ x ≤ 0xF4) (hy : 0x80 ≤ y ∧ y < 0xC0)
    (hz : 0x80 ≤ z ∧ z < 0xC0) (hw : 0x80 ≤ w ∧ w < 0xC0) (hlow : x = 0xF0 → 0x90 ≤ y)
    (hhigh : x = 0xF4 → y < 0x90) (rest : Bytes) :
    scan none (UInt8.ofNat x :: UInt8.ofNat y :: UInt8.ofNat z :: UInt8.ofNat w :: rest) =
      some (Char.ofNat ((((x - 0xF0) * 64 + (y - 0x80)) * 64 + (z - 0x80)) * 64 + (w - 0x80))) ::
        scan none rest := by
  have hy2 : x = 0xF4 → y ≤ 0x8F := fun h => Nat.le_of_lt_succ (hhigh h)
  rw [scan_first (lead_four hx.1 hx.2),
    scan_next (by omega) (toNat_ite_le hlow hy.1) (le_toNat_ite hy2 (Nat.le_of_lt_succ hy.2))]
  refine (scan_next (by omega) hz.1 (show z ≤ 0xBF by omega) _).trans ?_
  exact scan_next (by omega) hw.1 (show w ≤ 0xBF by omega) rest

/-- **A written character is read back**, whatever follows it. -/
theorem scan_utf8EncodeChar (c : Char) (rest : Bytes) :
    scan none (String.utf8EncodeChar c ++ rest) = some c :: scan none rest := by
  obtain ⟨n, hn⟩ : ∃ n, n = c.val.toNat := ⟨_, rfl⟩
  have hv : n < 0xD800 ∨ 0xDFFF < n ∧ n < 0x110000 := hn ▸ c.valid
  have hc : c = Char.ofNat n := by rw [hn]; exact (Char.ofNat_toNat c).symm
  simp only [String.utf8EncodeChar, ← hn]
  rw [hc]
  -- one case for each number of bytes that a character is written in
  by_cases h1 : n ≤ 0x7F
  · rw [if_pos h1, List.singleton_append, scan, advance, begin, lead_ascii (by omega)]
    rfl
  rw [if_neg h1]
  by_cases h2 : n ≤ 0x7FF
  · rw [if_pos h2]
    refine (scan_two (by omega) (by omega) rest).trans ?_
    rw [show (n / 64 % 32 + 0xC0 - 0xC0) * 64 + (n % 64 + 0x80 - 0x80) = n by omega]
  rw [if_neg h2]
  by_cases h3 : n ≤ 0xFFFF
  · rw [if_pos h3]
    refine (scan_three (by omega) (by omega) (by omega) (by omega) (by omega) rest).trans ?_
    rw [show ((n / 4096 % 16 + 0xE0 - 0xE0) * 64 + (n / 64 % 64 + 0x80 - 0x80)) * 64 +
      (n % 64 + 0x80 - 0x80) = n by omega]
  · rw [if_neg h3]
    refine (scan_four (by omega) (by omega) (by omega) (by omega) (by omega) (by omega)
      rest).trans ?_
    rw [show (((n / 262144 % 8 + 0xF0 - 0xF0) * 64 + (n / 4096 % 64 + 0x80 - 0x80)) * 64 +
      (n / 64 % 64 + 0x80 - 0x80)) * 64 + (n % 64 + 0x80 - 0x80) = n by omega]

/-- A written text is read as its characters. -/
theorem pieces_encode (s : String) : pieces (encode s) = s.toList.map some := by
  unfold pieces encode
  induction s.toList with
  | nil => rfl
  | cons c cs ih => rw [List.flatMap_cons, scan_utf8EncodeChar, ih, List.map_cons]

/-- **A written text is read back.** -/
@[simp] theorem decodeLossy_encode (s : String) : decodeLossy (encode s) = s := by
  have hget : (fun x : Option Char => x.getD '\uFFFD') ∘ some = id := rfl
  rw [decodeLossy, pieces_encode, List.map_map, hget, List.map_id, String.ofList_toList]

theorem decodeLossy_comp_encode : decodeLossy ∘ encode = id := funext decodeLossy_encode

/-- What comes of pieces none of which is broken. -/
theorem mapM_id_eq_some_iff {os : List (Option Char)} {cs : List Char} :
    os.mapM id = some cs ↔ os = cs.map some := by
  induction os generalizing cs with
  | nil => cases cs <;> simp
  | cons o os ih =>
    cases o with
    | none => cases cs <;> simp
    | some c =>
      simp only [List.mapM_cons, id_eq, Option.bind_eq_bind, Option.bind_some, Option.pure_def,
        Option.bind_eq_some_iff, Option.some.injEq, ih]
      cases cs with
      | nil => simp
      | cons c' cs =>
        simp only [List.cons.injEq, List.map_cons, Option.some.injEq, exists_eq_right_right]
        exact and_comm

/-- The same for the reader that refuses broken runs. -/
@[simp] theorem decode?_encode (s : String) : decode? (encode s) = some s := by
  rw [decode?, pieces_encode, mapM_id_eq_some_iff.2 rfl, Option.map_some, String.ofList_toList]

/-- Different texts have different bytes. -/
theorem encode_inj {s t : String} (h : encode s = encode t) : s = t := by
  have hread := decode?_encode s
  rw [h, decode?_encode] at hread
  exact (Option.some.inj hread).symm

/-- The bytes of a text are as many as are counted. -/
theorem length_encode (s : String) : (encode s).length = s.utf8ByteSize := by
  obtain ⟨cs, rfl⟩ : ∃ cs, s = String.ofList cs := ⟨s.toList, String.ofList_toList.symm⟩
  rw [encode, String.toList_ofList, String.utf8ByteSize, String.toByteArray_ofList, List.utf8Encode,
    List.size_toByteArray]

/-- A text of ASCII has one byte for each character. -/
theorem utf8ByteSize_ofList {cs : List Char} (h : ∀ c ∈ cs, c.toNat < 128) :
    (String.ofList cs).utf8ByteSize = cs.length := by
  rw [← length_encode, encode, String.toList_ofList]
  induction cs with
  | nil => rfl
  | cons c cs ih =>
    obtain ⟨hc, hcs⟩ := List.forall_mem_cons.1 h
    have hone : (String.utf8EncodeChar c).length = 1 := by
      rw [String.length_utf8EncodeChar]
      exact Char.utf8Size_eq_one_iff.2 (Nat.le_of_lt_succ hc)
    rw [List.flatMap_cons, List.length_append, hone, ih hcs, List.length_cons, Nat.add_comm]

/-! ## Only what was written is read -/

variable {b : UInt8} {bs rest : Bytes} {cs : List Char} {p : Pending}

theorem val_ofNat {n : Nat} (h : n < 0xD800 ∨ 0xDFFF < n ∧ n < 0x110000) :
    (Char.ofNat n).val.toNat = n := by
  rw [Char.ofNat, dif_pos h]
  rfl

/-- What a first byte says of those that follow it: how many they are, from which range the next
one is, and which bits they go on. -/
inductive Begins (b : UInt8) : Pending → Prop where
  | two : 0xC2 ≤ b.toNat → b.toNat < 0xE0 → Begins b ⟨1, 0x80, 0xBF, b.toNat - 0xC0⟩
  | three {low high : UInt8} : 0xE0 ≤ b.toNat → b.toNat < 0xF0 →
      0x80 ≤ low.toNat → high.toNat ≤ 0xBF → (b.toNat = 0xE0 → 0xA0 ≤ low.toNat) →
      (b.toNat = 0xED → high.toNat ≤ 0x9F) → Begins b ⟨2, low, high, b.toNat - 0xE0⟩
  | four {low high : UInt8} : 0xF0 ≤ b.toNat → b.toNat ≤ 0xF4 →
      0x80 ≤ low.toNat → high.toNat ≤ 0xBF → (b.toNat = 0xF0 → 0x90 ≤ low.toNat) →
      (b.toNat = 0xF4 → high.toNat ≤ 0x8F) → Begins b ⟨3, low, high, b.toNat - 0xF0⟩

/-- No character begins with a byte of these. -/
theorem lead_stray {n : Nat} (hn : n < 256) (h : 0x80 ≤ n ∧ n < 0xC2 ∨ 0xF4 < n) :
    lead (UInt8.ofNat n) = .stray := by
  have hb : (UInt8.ofNat n).toNat = n := UInt8.toNat_ofNat_of_lt' hn
  simp only [lead, UInt8.lt_iff_toNat_lt, ← UInt8.toNat_inj, hb, UInt8.reduceToNat]
  rcases h with ⟨h1, h2⟩ | h
  · rw [if_neg (by omega), if_pos h2]
  · rw [if_neg (by omega), if_neg (by omega), if_neg (by omega), if_neg (by omega),
      if_neg (by omega), if_neg (by omega), if_neg (by omega), if_neg (by omega),
      if_neg (by omega)]

/-- **What a byte between two characters is**: one of them, the first of several bytes, or none. -/
theorem lead_cases (b : UInt8) : (∃ c, lead b = .whole c ∧ String.utf8EncodeChar c = [b]) ∨
    (∃ p, lead b = .first p ∧ Begins b p) ∨ lead b = .stray := by
  have hlt : b.toNat < 256 := b.toNat_lt
  rw [← UInt8.ofNat_toNat (x := b)]
  by_cases h1 : b.toNat < 0x80
  · refine Or.inl ⟨_, lead_ascii h1, ?_⟩
    simp only [String.utf8EncodeChar]
    rw [val_ofNat (by omega), if_pos (by omega)]
  by_cases h2 : b.toNat < 0xC2
  · exact Or.inr (Or.inr (lead_stray hlt (Or.inl ⟨by omega, h2⟩)))
  by_cases h3 : b.toNat < 0xE0
  · rw [lead_two (by omega) h3, UInt8.ofNat_toNat]
    exact Or.inr (Or.inl ⟨_, rfl, .two (by omega) h3⟩)
  by_cases h4 : b.toNat < 0xF0
  · rw [lead_three (by omega) h4, UInt8.ofNat_toNat]
    refine Or.inr (Or.inl ⟨_, rfl, .three (by omega) h4 ?_ ?_ ?_ ?_⟩)
    · exact le_toNat_ite (fun _ => by decide) (by decide)
    · exact toNat_ite_le (fun _ => by decide) (by decide)
    · exact fun hE0 => by rw [if_pos hE0]; decide
    · exact fun hED => by rw [if_pos hED]; decide
  by_cases h5 : b.toNat ≤ 0xF4
  · rw [lead_four (by omega) h5, UInt8.ofNat_toNat]
    refine Or.inr (Or.inl ⟨_, rfl, .four (by omega) h5 ?_ ?_ ?_ ?_⟩)
    · exact le_toNat_ite (fun _ => by decide) (by decide)
    · exact toNat_ite_le (fun _ => by decide) (by decide)
    · exact fun hF0 => by rw [if_pos hF0]; decide
    · exact fun hF4 => by rw [if_pos hF4]; decide
  · exact Or.inr (Or.inr (lead_stray hlt (Or.inr (by omega))))

/-- A character under way that is not broken off goes on with a byte in range. -/
theorem next_of_scan {bs : Bytes} (h : scan (some p) bs = cs.map some) :
    ∃ b rest, bs = b :: rest ∧ p.low.toNat ≤ b.toNat ∧ b.toNat ≤ p.high.toNat ∧
      (if p.more ≤ 1 then some (Char.ofNat (p.bits * 64 + (b.toNat - 0x80))) :: scan none rest
        else scan (some ⟨p.more - 1, 0x80, 0xBF, p.bits * 64 + (b.toNat - 0x80)⟩) rest) =
          cs.map some := by
  cases bs with
  | nil => cases cs <;> cases h
  | cons b rest =>
    by_cases hin : p.low ≤ b ∧ b ≤ p.high
    · refine ⟨b, rest, rfl, hin.1, hin.2, ?_⟩
      rw [← scan_next b.toNat_lt hin.1 hin.2, UInt8.ofNat_toNat]
      exact h
    · rw [scan, advance, if_neg hin] at h
      cases cs <;> cases h

theorem eq_ofNat {n : Nat} (h : b.toNat = n) : UInt8.ofNat n = b := by
  rw [← h, UInt8.ofNat_toNat]

/-- **A character that was read was written**: it is the first of the text, and the bytes are those
of it and of the rest. -/
theorem char_of_scan (hp : Begins b p) (h : scan (some p) bs = cs.map some) :
    ∃ c cs' rest, cs = c :: cs' ∧ b :: bs = String.utf8EncodeChar c ++ rest ∧
      scan none rest = cs'.map some := by
  have hhead : ∀ {c : Char} {out : List (Option Char)}, some c :: out = cs.map some →
      ∃ cs', cs = c :: cs' ∧ out = cs'.map some := by
    intro c out hcs
    obtain ⟨c', cs', rfl, hc, hout⟩ := List.map_eq_cons_iff.1 hcs.symm
    cases hc
    exact ⟨cs', rfl, hout.symm⟩
  obtain ⟨x, rest, rfl, hlow, hhigh, h⟩ := next_of_scan h
  cases hp with
  | two h1 h2 =>
    obtain ⟨cs', rfl, hout⟩ := hhead h
    have hx : 0x80 ≤ x.toNat ∧ x.toNat ≤ 0xBF := ⟨hlow, hhigh⟩
    refine ⟨_, cs', rest, rfl, ?_, hout⟩
    simp only [String.utf8EncodeChar]
    rw [val_ofNat (by omega), if_neg (by omega), if_pos (by omega), eq_ofNat (b := b) (by omega),
      eq_ofNat (b := x) (by omega)]
    rfl
  | three h1 h2 h3 h4 h5 h6 =>
    obtain ⟨y, rest, rfl, hlowy, hhighy, h⟩ := next_of_scan h
    obtain ⟨cs', rfl, hout⟩ := hhead h
    have hy : 0x80 ≤ y.toNat ∧ y.toNat ≤ 0xBF := ⟨hlowy, hhighy⟩
    dsimp only at hlow hhigh
    refine ⟨_, cs', rest, rfl, ?_, hout⟩
    simp only [String.utf8EncodeChar]
    rw [val_ofNat (by omega), if_neg (by omega), if_neg (by omega), if_pos (by omega),
      eq_ofNat (b := b) (by omega), eq_ofNat (b := x) (by omega), eq_ofNat (b := y) (by omega)]
    rfl
  | four h1 h2 h3 h4 h5 h6 =>
    obtain ⟨y, rest, rfl, hlowy, hhighy, h⟩ := next_of_scan h
    obtain ⟨z, rest, rfl, hlowz, hhighz, h⟩ := next_of_scan h
    obtain ⟨cs', rfl, hout⟩ := hhead h
    have hy : 0x80 ≤ y.toNat ∧ y.toNat ≤ 0xBF := ⟨hlowy, hhighy⟩
    have hz : 0x80 ≤ z.toNat ∧ z.toNat ≤ 0xBF := ⟨hlowz, hhighz⟩
    dsimp only at hlow hhigh
    refine ⟨_, cs', rest, rfl, ?_, hout⟩
    simp only [String.utf8EncodeChar]
    rw [val_ofNat (by omega), if_neg (by omega), if_neg (by omega), if_neg (by omega),
      eq_ofNat (b := b) (by omega), eq_ofNat (b := x) (by omega), eq_ofNat (b := y) (by omega),
      eq_ofNat (b := z) (by omega)]
    rfl

theorem eq_encode_of_scan (h : scan none bs = cs.map some) :
    bs = cs.flatMap String.utf8EncodeChar := by
  -- a character has at least one byte, so that fewer are left after it
  induction hn : bs.length using Nat.strongRecOn generalizing bs cs with
  | ind n ih =>
    subst hn
    cases bs with
    | nil =>
      cases cs with
      | nil => rfl
      | cons c cs => cases h
    | cons b bs =>
      obtain ⟨c, cs', rest, rfl, hbytes, hrest⟩ : ∃ c cs' rest, cs = c :: cs' ∧
          b :: bs = String.utf8EncodeChar c ++ rest ∧ scan none rest = cs'.map some := by
        rw [scan, advance, begin] at h
        rcases lead_cases b with ⟨c, hlead, hbyte⟩ | ⟨p, hlead, hbegins⟩ | hlead
        · rw [hlead] at h
          obtain ⟨c', cs', rfl, hc, hout⟩ := List.map_eq_cons_iff.1 h.symm
          cases hc
          exact ⟨c, cs', bs, rfl, by rw [hbyte]; rfl, hout.symm⟩
        · rw [hlead] at h
          exact char_of_scan hbegins h
        · rw [hlead] at h
          cases cs <;> cases h
      have hlen := congrArg List.length hbytes
      rw [List.length_cons, List.length_append, String.length_utf8EncodeChar] at hlen
      have hpos := c.utf8Size_pos
      rw [hbytes, List.flatMap_cons, ← ih rest.length (by rw [List.length_cons]; omega) hrest rfl]

/-- **Bytes are read as a text only if they are those of the text.** -/
theorem decode?_eq_some_iff {s : String} : decode? bs = some s ↔ bs = encode s := by
  constructor
  · intro h
    obtain ⟨cs, hcs, rfl⟩ := Option.map_eq_some_iff.1 h
    rw [encode, String.toList_ofList]
    exact eq_encode_of_scan (mapM_id_eq_some_iff.1 hcs)
  · rintro rfl
    exact decode?_encode s

end NodeClock.Utf8
