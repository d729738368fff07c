import NodeClock.Proofs.Text
import Mathlib

/-!
# Letters of either case

Only the letters of ASCII change to lower case, so that marks stay where they are and a text is
taken apart in the same places.

* `toLower_congr`: what does not depend on the case of a letter.
* `isDigit_toLower`, `toLower_eq_iff`: what stays as it is.
* `Decimal.read?_toLower`: so does a number.
* `Text.cut_map`, `cutPair_map`: cutting a text whose characters are changed.
* `Text.trim_map`: the same for blanks.
-/

namespace NodeClock

variable {c m : Char}

/-- A character that changes is one of ASCII. -/
theorem toLower_eq_self_or_lt (c : Char) : c.toLower = c ∨ c.toNat < 128 := by
  by_cases h : c.isUpper = true
  · refine Or.inr ?_
    simp only [Char.isUpper, ge_iff_le, decide_eq_true_eq, UInt32.le_iff_toNat_le,
      Char.reduceVal, UInt32.reduceToNat] at h
    have hval : c.toNat = c.val.toNat := rfl
    omega
  · exact Or.inl (Char.toLower_eq_of_not_isUpper (by simpa using h))

/-- **What is alike for both cases of an ASCII letter** is so for all characters. -/
theorem toLower_congr {α : Type} {f : Char → α}
    (h : ∀ n < 128, f (Char.ofNat n).toLower = f (Char.ofNat n)) (c : Char) :
    f c.toLower = f c := by
  rcases toLower_eq_self_or_lt c with hc | hc
  · rw [hc]
  · have hsame := h c.toNat hc
    rwa [Char.ofNat_toNat] at hsame

theorem isDigit_toLower (c : Char) : c.toLower.isDigit = c.isDigit := toLower_congr (by decide) c

/-- Only letters change. -/
theorem toLower_eq_iff (hm : m.isAlpha = false) : c.toLower = m ↔ c = m := by
  by_cases h : c.isUpper = true
  · have halpha : c.isAlpha = true := by rw [Char.isAlpha, h, Bool.true_or]
    constructor
    · rintro rfl
      rw [Char.isAlpha_toLower_eq_isAlpha, halpha] at hm
      cases hm
    · rintro rfl
      rw [halpha] at hm
      cases hm
  · rw [Char.toLower_eq_of_not_isUpper (by simpa using h)]

theorem map_toLower_eq_iff {o : Option Char} (hm : m.isAlpha = false) :
    o.map Char.toLower = some m ↔ o = some m := by
  cases o <;> simp [toLower_eq_iff hm]

/-- A text without letters is the same in lower case, and no other is. -/
theorem map_toLower_eq_iff_of_letterless {s t : List Char} (h : ∀ c ∈ t, c.isAlpha = false) :
    s.map Char.toLower = t ↔ s = t := by
  induction t generalizing s with
  | nil => rw [List.map_eq_nil_iff]
  | cons m t ih =>
    obtain ⟨hm, ht⟩ := List.forall_mem_cons.1 h
    cases s with
    | nil => exact iff_of_false nofun nofun
    | cons c s => rw [List.map_cons, List.cons.injEq, List.cons.injEq, toLower_eq_iff hm, ih ht]

theorem isAlpha_of_isDigit (h : c.isDigit = true) : c.isAlpha = false := by
  simp only [Char.isDigit, Char.isAlpha, Char.isUpper, Char.isLower, ge_iff_le, Bool.and_eq_true,
    decide_eq_true_eq, Bool.or_eq_false_iff, Bool.and_eq_false_iff, decide_eq_false_iff_not,
    UInt32.le_iff_toNat_le, Char.reduceVal, UInt32.reduceToNat] at h ⊢
  omega

/-- Numbers have no letters. -/
theorem Decimal.read?_toLower (bound : Nat) (s : List Char) :
    read? bound (s.map Char.toLower) = read? bound s := by
  by_cases h : ∀ c ∈ s, c.isDigit = true
  · rw [(map_toLower_eq_iff_of_letterless fun c hc => isAlpha_of_isDigit (h c hc)).2 rfl]
  · simp only [not_forall, Bool.not_eq_true] at h
    obtain ⟨c, hc, hdigit⟩ := h
    rw [read?_eq_none hc hdigit,
      read?_eq_none (List.mem_map_of_mem hc) (by rw [isDigit_toLower, hdigit])]

theorem isBlank_toLower (c : Char) : Text.isBlank c.toLower = Text.isBlank c :=
  toLower_congr (by decide) c

namespace Text

variable {f : Char → Char} {s : List Char}

/-- A change of characters that spares the mark leaves the pieces apart. -/
theorem cut_map (hf : ∀ c, f c = m ↔ c = m) (s : List Char) :
    cut m (s.map f) = (cut m s).map fun (a, b) => (a.map f, b.map f) := by
  induction s with
  | nil => rfl
  | cons c s ih =>
    rw [List.map_cons, cut, cut]
    by_cases hc : c = m
    · rw [if_pos ((hf c).2 hc), if_pos hc]
      rfl
    · rw [if_neg (mt (hf c).1 hc), if_neg hc, ih, Option.map_map, Option.map_map]
      rfl

theorem cutPair_map (hf : ∀ c, f c = m ↔ c = m) (s : List Char) :
    cutPair m (s.map f) = (cutPair m s).map fun (a, b) => (a.map f, b.map f) := by
  induction s with
  | nil => rfl
  | cons c s ih =>
    cases s with
    | nil => rfl
    | cons d s =>
      rw [List.map_cons, List.map_cons, cutPair, cutPair, ← List.map_cons]
      by_cases hp : c = m ∧ d = m
      · rw [if_pos ⟨(hf c).2 hp.1, (hf d).2 hp.2⟩, if_pos hp]
        rfl
      · have hp' : ¬ (f c = m ∧ f d = m) := fun h => hp ⟨(hf c).1 h.1, (hf d).1 h.2⟩
        rw [if_neg hp', if_neg hp, ih, Option.map_map, Option.map_map]
        rfl

theorem trim_map (hf : ∀ c, isBlank (f c) = isBlank c) (s : List Char) :
    trim (s.map f) = (trim s).map f := by
  have hdrop : ∀ t : List Char, (t.map f).dropWhile isBlank = (t.dropWhile isBlank).map f := by
    intro t
    rw [List.dropWhile_map]
    have hsame : isBlank ∘ f = isBlank := funext hf
    rw [hsame]
  rw [trim, hdrop, ← List.map_reverse, hdrop, ← List.map_reverse, trim]

end Text

end NodeClock
