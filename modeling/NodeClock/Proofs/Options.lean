import NodeClock.Coap.Options

/-!
# Options come back

What the bytes of options have to look like is told here without a reader and without a writer.
What is written has that form, and it is read from that form alone.

* `Extent`: the form of a difference or a length; `readExtent_eq_ok_iff`: it is read from that form.
* `readOption_eq_ok_iff`: the same for one option.
* `Writable`: options in ascending order, none too wide for the wire.
* `Laid`: the form of options; `laid_iff`: **it is that in which writable options are written**.
* `Laid.readOptions_append`: options in their form are read, whatever payload stands behind them.
* `readOptions_sound`: **nothing but options in their form is read.**
* `length_le_writeOptions`: a value is no longer than the bytes of all options.
* `readOptions_cut`: what is read of bytes that are cut.
-/

namespace NodeClock.Coap

/-! ## Differences and lengths -/

/-- Four bits hold `nibble n`, and never all of them. -/
theorem nibble_lt (n : Nat) : nibble n < 15 := by
  unfold nibble
  split
  · omega
  · split <;> omega

/-- The four bits and the bytes after them that stand for a number. -/
inductive Extent : Nat → Bytes → Nat → Prop where
  | bits {n : Nat} : n < 13 → Extent n [] n
  | byte {a : UInt8} {n : Nat} : n = a.toNat + 13 → Extent 13 [a] n
  | word {a b : UInt8} {n : Nat} : n = a.toNat * 256 + b.toNat + 269 → n ≤ maxExtent →
      Extent 14 [a, b] n

/-- A number has one form alone. -/
theorem extent_iff {bits n : Nat} {ext : Bytes} :
    Extent bits ext n ↔ bits = nibble n ∧ ext = extension n ∧ n ≤ maxExtent := by
  have hmax : maxExtent = 65535 := rfl
  constructor
  · intro h
    unfold nibble extension
    cases h with
    | bits hn =>
      rw [if_pos hn, if_pos hn]
      exact ⟨rfl, rfl, by omega⟩
    | @byte a _ hn =>
      have ha := a.toNat_lt
      rw [if_neg (by omega), if_pos (by omega), if_neg (by omega), if_pos (by omega), hn,
        Nat.add_sub_cancel, UInt8.ofNat_toNat]
      exact ⟨rfl, rfl, by omega⟩
    | @word a b _ hn hle =>
      have ha := a.toNat_lt
      have hb := b.toNat_lt
      have hhigh : UInt8.ofNat ((n - 269) / 256) = a := by
        rw [show (n - 269) / 256 = a.toNat by omega, UInt8.ofNat_toNat]
      have hlow : UInt8.ofNat (n - 269) = b := by
        apply UInt8.toNat_inj.1
        rw [UInt8.toNat_ofNat']
        omega
      rw [if_neg (by omega), if_neg (by omega), if_neg (by omega), if_neg (by omega), hhigh, hlow]
      exact ⟨rfl, rfl, hle⟩
  · rintro ⟨rfl, rfl, hle⟩
    unfold nibble extension
    by_cases h1 : n < 13
    · rw [if_pos h1, if_pos h1]
      exact .bits h1
    by_cases h2 : n < 269
    · have hb : (UInt8.ofNat (n - 13)).toNat = n - 13 :=
        UInt8.toNat_ofNat_of_lt' (show n - 13 < 256 by omega)
      rw [if_neg h1, if_pos h2, if_neg h1, if_pos h2]
      exact .byte (by omega)
    · have hhigh : (UInt8.ofNat ((n - 269) / 256)).toNat = (n - 269) / 256 :=
        UInt8.toNat_ofNat_of_lt' (show (n - 269) / 256 < 256 by omega)
      have hlow : (UInt8.ofNat (n - 269)).toNat = (n - 269) % 256 := UInt8.toNat_ofNat'
      rw [if_neg h1, if_neg h2, if_neg h1, if_neg h2]
      exact .word (by omega) hle

/-- **A difference or length is read from its form** and from nothing else. -/
theorem readExtent_eq_ok_iff {beyond : WireFault} {bits n : Nat} {bs r : Bytes} :
    readExtent beyond bits bs = .ok (n, r) ↔ ∃ ext, Extent bits ext n ∧ bs = ext ++ r := by
  constructor
  · intro h
    unfold readExtent at h
    by_cases h1 : bits < 13
    · rw [if_pos h1] at h
      cases h
      exact ⟨[], .bits h1, rfl⟩
    rw [if_neg h1] at h
    by_cases h2 : bits = 13
    · rw [if_pos h2] at h
      match bs, h with
      | a :: r, h =>
        cases h
        exact ⟨[a], h2 ▸ .byte rfl, rfl⟩
    rw [if_neg h2] at h
    by_cases h3 : bits = 14
    · rw [if_pos h3] at h
      match bs, h with
      | a :: b :: r, h =>
        simp only at h
        split at h
        · rename_i hle
          cases h
          exact ⟨[a, b], h3 ▸ .word rfl hle, rfl⟩
        · cases h
    · rw [if_neg h3] at h
      cases h
  · rintro ⟨ext, hext, rfl⟩
    unfold readExtent
    cases hext with
    | bits hn =>
      rw [if_pos hn]
      rfl
    | byte hn =>
      rw [if_neg (by omega), if_pos rfl, hn]
      rfl
    | word hn hle =>
      rw [hn] at hle ⊢
      rw [if_neg (by omega), if_neg (by omega), if_pos rfl]
      exact if_pos hle

/-! ## One option -/

/-- **An option is read from its form** and from nothing else. -/
theorem readOption_eq_ok_iff {before : Nat} {b : UInt8} {bs rest : Bytes} {o : Opt} :
    readOption before b bs = .ok (o, rest) ↔
      ∃ delta x y, Extent (b.toNat / 16) x delta ∧ Extent (b.toNat % 16) y o.value.length ∧
        o.number = before + delta ∧ o.number ≤ maxExtent ∧
        bs = x ++ (y ++ (o.value ++ rest)) := by
  constructor
  · intro h
    unfold readOption at h
    cases h1 : readExtent .optionDelta (b.toNat / 16) bs with
    | error e => rw [h1] at h; cases h
    | ok p1 =>
      rw [h1] at h
      simp only at h
      cases h2 : readExtent .optionLength (b.toNat % 16) p1.2 with
      | error e => rw [h2] at h; cases h
      | ok p2 =>
        rw [h2] at h
        simp only at h
        split at h
        · cases h
        rename_i hnum
        split at h
        · cases h
        rename_i hlen
        cases h
        obtain ⟨x, hx, hbs⟩ := readExtent_eq_ok_iff.1 h1
        obtain ⟨y, hy, hp1⟩ := readExtent_eq_ok_iff.1 h2
        have htake : (p2.2.take p2.1).length = p2.1 :=
          List.length_take_of_le (Nat.le_of_not_gt hlen)
        refine ⟨p1.1, x, y, hx, ?_, rfl, Nat.le_of_not_gt hnum, ?_⟩
        · rw [htake]
          exact hy
        · rw [hbs, hp1, List.take_append_drop]
  · rintro ⟨delta, x, y, hx, hy, hnum, hmax, rfl⟩
    have hlen : ¬ o.value.length > (o.value ++ rest).length := by
      rw [List.length_append]
      omega
    rw [readOption, readExtent_eq_ok_iff.2 ⟨x, hx, rfl⟩]
    simp only
    rw [readExtent_eq_ok_iff.2 ⟨y, hy, rfl⟩]
    simp only
    rw [← hnum, if_neg (Nat.not_lt_of_le hmax), if_neg hlen, List.take_left, List.drop_left]

/-- What is read of an option does not depend on what comes after it. -/
theorem readOption_append {before : Nat} {b : UInt8} {bs rest : Bytes} {o : Opt}
    (h : readOption before b bs = .ok (o, rest)) (tail : Bytes) :
    readOption before b (bs ++ tail) = .ok (o, rest ++ tail) := by
  obtain ⟨delta, x, y, hx, hy, hnum, hmax, rfl⟩ := readOption_eq_ok_iff.1 h
  refine readOption_eq_ok_iff.2 ⟨delta, x, y, hx, hy, hnum, hmax, ?_⟩
  simp only [List.append_assoc]

/-! ## Options -/

/-- Options that the wire can carry after one numbered `before`: in ascending order, with numbers
and lengths that are not too large. -/
structure Writable (before : Nat) (os : List Opt) : Prop where
  ordered : os.Pairwise (·.number ≤ ·.number)
  above : ∀ o ∈ os, before ≤ o.number
  number_le : ∀ o ∈ os, o.number ≤ maxExtent
  length_le : ∀ o ∈ os, o.value.length ≤ maxExtent

theorem Writable.tail {before : Nat} {o : Opt} {os : List Opt} (h : Writable before (o :: os)) :
    Writable o.number os := by
  obtain ⟨hord, -, hnum, hlen⟩ := h
  rw [List.pairwise_cons] at hord
  exact ⟨hord.2, hord.1, fun p hp => hnum p (List.mem_cons_of_mem _ hp),
    fun p hp => hlen p (List.mem_cons_of_mem _ hp)⟩

theorem Writable.nil (before : Nat) : Writable before [] := ⟨.nil, nofun, nofun, nofun⟩

theorem Writable.cons {before : Nat} {o : Opt} {os : List Opt} (hle : before ≤ o.number)
    (hnum : o.number ≤ maxExtent) (hlen : o.value.length ≤ maxExtent)
    (h : Writable o.number os) : Writable before (o :: os) := by
  refine ⟨List.pairwise_cons.2 ⟨h.above, h.ordered⟩, ?_, ?_, ?_⟩
  · intro p hp
    rcases List.mem_cons.1 hp with rfl | hp
    · exact hle
    · exact Nat.le_trans hle (h.above p hp)
  · intro p hp
    rcases List.mem_cons.1 hp with rfl | hp
    · exact hnum
    · exact h.number_le p hp
  · intro p hp
    rcases List.mem_cons.1 hp with rfl | hp
    · exact hlen
    · exact h.length_le p hp

/-- The bytes of options that come after one numbered `before`. -/
inductive Laid : Nat → Bytes → List Opt → Prop where
  | nil {before : Nat} : Laid before [] []
  | cons {before delta : Nat} {head : UInt8} {x y rest : Bytes} {o : Opt} {os : List Opt} :
      Extent (head.toNat / 16) x delta → Extent (head.toNat % 16) y o.value.length →
      o.number = before + delta → o.number ≤ maxExtent → Laid o.number rest os →
      Laid before (head :: (x ++ (y ++ (o.value ++ rest)))) (o :: os)

/-- The two halves of the first byte of an option. -/
theorem head_halves (m n : Nat) :
    (UInt8.ofNat (nibble m * 16 + nibble n)).toNat / 16 = nibble m ∧
      (UInt8.ofNat (nibble m * 16 + nibble n)).toNat % 16 = nibble n := by
  have hm := nibble_lt m
  have hn := nibble_lt n
  rw [UInt8.toNat_ofNat_of_lt' (show nibble m * 16 + nibble n < 256 by omega)]
  omega

/-- **Options have one form alone**: they are as they are written. -/
theorem laid_iff {before : Nat} {bs : Bytes} {os : List Opt} :
    Laid before bs os ↔ Writable before os ∧ bs = writeOptions before os := by
  constructor
  · intro h
    induction h with
    | nil => exact ⟨.nil _, rfl⟩
    | @cons before delta head x y rest o os hx hy hnum hmax _ ih =>
      obtain ⟨hw, hrest⟩ := ih
      obtain ⟨hd, rfl, -⟩ := extent_iff.1 hx
      obtain ⟨hl, rfl, hlen⟩ := extent_iff.1 hy
      have hdelta : o.number - before = delta := by omega
      have hhead : UInt8.ofNat (nibble delta * 16 + nibble o.value.length) = head := by
        rw [← hd, ← hl, show head.toNat / 16 * 16 + head.toNat % 16 = head.toNat by omega,
          UInt8.ofNat_toNat]
      refine ⟨.cons (by omega) hmax hlen hw, ?_⟩
      rw [writeOptions, Opt.write, hdelta, hhead, hrest]
      simp only [List.cons_append, List.append_assoc]
  · rintro ⟨hw, rfl⟩
    induction os generalizing before with
    | nil => exact .nil
    | cons o os ih =>
      have hmem : o ∈ o :: os := List.mem_cons_self
      have hle := hw.above o hmem
      have hnum := hw.number_le o hmem
      obtain ⟨hhigh, hlow⟩ := head_halves (o.number - before) o.value.length
      have hdelta := extent_iff.2 ⟨hhigh, rfl, (by omega : o.number - before ≤ maxExtent)⟩
      have hlength := extent_iff.2 ⟨hlow, rfl, hw.length_le o hmem⟩
      have hsum : o.number = before + (o.number - before) := by omega
      rw [writeOptions, Opt.write]
      simp only [List.cons_append, List.append_assoc]
      exact .cons hdelta hlength hsum hnum (ih hw.tail)

theorem readOptions_nil (before : Nat) : readOptions before [] = .ok ([], []) := by
  rw [readOptions]

/-- Behind the mark stands the payload. -/
theorem readOptions_mark (before : Nat) (payload : Bytes) :
    readOptions before (payloadMark :: payload) = .ok ([], payload) := by
  rw [readOptions, if_pos rfl]

/-- How reading goes on after an option. -/
theorem readOptions_cons {before : Nat} {b : UInt8} {bs payload : Bytes} {os : List Opt}
    (hb : b ≠ payloadMark) :
    readOptions before (b :: bs) = .ok (os, payload) ↔
      ∃ o rest os', readOption before b bs = .ok (o, rest) ∧
        readOptions o.number rest = .ok (os', payload) ∧ os = o :: os' := by
  rw [readOptions, if_neg hb]
  split
  · rename_i h
    simp [h]
  · rename_i o rest h
    simp only [h, Except.ok.injEq, Prod.mk.injEq]
    cases hr : readOptions o.number rest with
    | error e =>
      refine ⟨fun he => (by cases he), ?_⟩
      rintro ⟨_, _, _, ⟨rfl, rfl⟩, he, -⟩
      rw [hr] at he
      cases he
    | ok p =>
      constructor
      · intro he
        cases he
        exact ⟨o, rest, p.1, ⟨rfl, rfl⟩, hr, rfl⟩
      · rintro ⟨_, _, _, ⟨rfl, rfl⟩, he, rfl⟩
        rw [hr] at he
        cases he
        rfl

/-- The first byte of an option is not the mark. -/
theorem Extent.ne_mark {head : UInt8} {x : Bytes} {delta : Nat}
    (h : Extent (head.toNat / 16) x delta) : head ≠ payloadMark := by
  rintro rfl
  have hmark : payloadMark.toNat = 255 := rfl
  have hbits := (extent_iff.1 h).1
  have hlt := nibble_lt delta
  omega

/-- **Options are read from their form**, with whatever payload stands behind them. -/
theorem Laid.readOptions_append {before : Nat} {opts payload behind : Bytes} {os : List Opt}
    (hp : ∀ before, readOptions before behind = .ok ([], payload)) (h : Laid before opts os) :
    readOptions before (opts ++ behind) = .ok (os, payload) := by
  induction h with
  | nil => exact hp _
  | @cons before delta head x y rest o os hx hy hnum hmax _ ih =>
    have ho : readOption before head (x ++ (y ++ (o.value ++ (rest ++ behind)))) =
        .ok (o, rest ++ behind) := readOption_eq_ok_iff.2 ⟨delta, x, y, hx, hy, hnum, hmax, rfl⟩
    simp only [List.cons_append, List.append_assoc]
    exact (readOptions_cons hx.ne_mark).2 ⟨o, _, os, ho, ih, rfl⟩

/-- What stands behind the options. -/
def closing (marked : Bool) (payload : Bytes) : Bytes :=
  if marked then payloadMark :: payload else []

/-- Options in their form are read with what stands behind them. -/
theorem Laid.readOptions_closing {before : Nat} {opts payload : Bytes} {os : List Opt}
    {marked : Bool} (h : Laid before opts os) (hmarked : marked = false → payload = []) :
    readOptions before (opts ++ closing marked payload) = .ok (os, payload) := by
  cases marked with
  | true => exact h.readOptions_append fun n => readOptions_mark n payload
  | false =>
    rw [hmarked rfl]
    exact h.readOptions_append readOptions_nil

/-- **Nothing but options in their form is read**, with nothing or a payload behind them. -/
theorem readOptions_sound {bs : Bytes} :
    ∀ {before : Nat} {os : List Opt} {payload : Bytes}, readOptions before bs = .ok (os, payload) →
      ∃ opts marked, Laid before opts os ∧ bs = opts ++ closing marked payload ∧
        (marked = false → payload = []) := by
  induction hn : bs.length using Nat.strongRecOn generalizing bs with
  | ind n ih =>
    intro before os payload h
    cases bs with
    | nil =>
      rw [readOptions_nil] at h
      cases h
      exact ⟨[], false, .nil, rfl, fun _ => rfl⟩
    | cons b bs =>
      by_cases hb : b = payloadMark
      · rw [hb, readOptions_mark] at h
        cases h
        exact ⟨[], true, .nil, by rw [hb]; rfl, nofun⟩
      · obtain ⟨o, rest, os', ho, hrest, rfl⟩ := (readOptions_cons hb).1 h
        have hlen := readOption_length ho
        have hlt : rest.length < n := by
          rw [← hn, List.length_cons]
          omega
        obtain ⟨opts, marked, hos, rfl, hmarked⟩ := ih _ hlt rfl hrest
        obtain ⟨delta, x, y, hx, hy, hnum, hmax, rfl⟩ := readOption_eq_ok_iff.1 ho
        refine ⟨_, marked, .cons hx hy hnum hmax hos, ?_, hmarked⟩
        simp only [List.cons_append, List.append_assoc]

/-- A value is no longer than the bytes of all options. -/
theorem length_le_writeOptions {o : Opt} {os : List Opt} (h : o ∈ os) (before : Nat) :
    o.value.length ≤ (writeOptions before os).length := by
  induction os generalizing before with
  | nil => cases h
  | cons p os ih =>
    rw [writeOptions, List.length_append]
    rcases List.mem_cons.1 h with rfl | h
    · simp only [Opt.write, List.length_cons, List.length_append]
      omega
    · have := ih h p.number
      omega

/-! ## Bytes that are cut -/

/-- **Of bytes that are cut the payload is cut**, or nothing is left of it, if they can be read at
all. -/
theorem readOptions_cut {bs tail : Bytes} :
    ∀ {before : Nat} {os os' : List Opt} {payload payload' : Bytes},
      readOptions before bs = .ok (os, payload) →
      readOptions before (bs ++ tail) = .ok (os', payload') → payload <+: payload' := by
  induction hn : bs.length using Nat.strongRecOn generalizing bs with
  | ind n ih =>
    intro before os os' payload payload' h h'
    cases bs with
    | nil =>
      rw [readOptions_nil] at h
      cases h
      exact List.nil_prefix
    | cons b bs =>
      by_cases hb : b = payloadMark
      · subst hb
        rw [readOptions_mark] at h
        rw [List.cons_append, readOptions_mark] at h'
        cases h
        cases h'
        exact List.prefix_append _ _
      · -- the option that the shorter bytes begin with is whole, so both readings take it
        obtain ⟨o, rest, os1, ho, hr, -⟩ := (readOptions_cons hb).1 h
        obtain ⟨o', rest', os2, ho', hr', -⟩ := (readOptions_cons hb).1 h'
        cases (readOption_append ho tail).symm.trans ho'
        have hlen := readOption_length ho
        simp only [List.length_cons] at hn
        exact ih rest.length (by omega) rfl hr hr'

end NodeClock.Coap
