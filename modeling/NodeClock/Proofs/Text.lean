import NodeClock.Text.Blank
import NodeClock.Text.Decimal
import NodeClock.Text.Split
import Mathlib.Data.List.Basic
import Mathlib.Data.List.Induction

/-!
# Numerals and texts put together

* `Decimal.toDigits_induction`: induction on the digits of a number.
* `Decimal.isDigit_of_mem_digits`, `not_mem_digits`: a numeral is made of digits.
* `Decimal.read?_eq_some_iff`: what is read as a number.
* `Decimal.renderInt_inj`: **different integers have different texts.**
* `Decimal.map_digitChar`, `eq_digits_value`: **digits are those of their number** behind zeros.
* `Text.splitOn_join`: texts put together with a mark between them are cut there.
* `Text.mem_of_mem_intercalate`, `exists_mem_splitOn`, `mem_splitOn`: what stands in a text and in
  its pieces.
* `Text.splitOn_map`: a change of characters that spares the mark leaves the pieces apart.
* `Text.cutPair_intercalate`: such a text has no two marks in a row.
-/

namespace NodeClock

namespace Decimal

variable {c : Char} {m n bound : Nat} {s : List Char}

/-- **Induction on the digits of a number**, in any base: the last digit goes first. -/
theorem toDigits_induction {b : Nat} {P : Nat → List Char → Prop} (hb : 1 < b)
    (single : ∀ n < b, P n [Nat.digitChar n])
    (snoc : ∀ n, b ≤ n → P (n / b) (Nat.toDigits b (n / b)) →
      P n (Nat.toDigits b (n / b) ++ [Nat.digitChar (n % b)]))
    (n : Nat) : P n (Nat.toDigits b n) := by
  induction n using Nat.strongRecOn with
  | ind n ih =>
    by_cases hn : n < b
    · rw [Nat.toDigits_of_lt_base hn]
      exact single n hn
    · have hle : b ≤ n := Nat.le_of_not_lt hn
      have hlt : n / b < n := Nat.div_lt_self (by omega) hb
      rw [Nat.toDigits_of_base_le hb hle]
      exact snoc n hle (ih _ hlt)

theorem isDigit_of_mem_digits (h : c ∈ digits n) : c.isDigit = true :=
  Nat.isDigit_of_mem_toDigits (by decide) (by decide) h

theorem not_mem_digits (h : c.isDigit = false) : c ∉ digits n := by
  intro hc
  rw [isDigit_of_mem_digits hc] at h
  cases h

theorem toList_render (n : Nat) : (render n).toList = digits n := String.toList_ofList

/-- A number is read from digits alone. -/
theorem read?_eq_some_iff :
    read? bound s = some n ↔ s ≠ [] ∧ (∀ c ∈ s, c.isDigit = true) ∧ value s = n ∧ n ≤ bound := by
  simp only [read?, isNumeral, Bool.and_eq_true, Bool.not_eq_true', List.isEmpty_eq_false_iff,
    List.all_eq_true, Option.ite_none_right_eq_some, Option.some.injEq]
  constructor
  · rintro ⟨⟨⟨hne, hall⟩, hle⟩, rfl⟩
    exact ⟨hne, hall, rfl, hle⟩
  · rintro ⟨hne, hall, rfl, hle⟩
    exact ⟨⟨⟨hne, hall⟩, hle⟩, rfl⟩

/-- A text with a character that is no digit is no number. -/
theorem read?_eq_none (hc : c ∈ s) (h : c.isDigit = false) : read? bound s = none := by
  cases hr : read? bound s with
  | none => rfl
  | some n =>
    rw [(read?_eq_some_iff.1 hr).2.1 c hc] at h
    cases h

theorem digits_inj (h : digits m = digits n) : m = n := by
  rw [← value_digits m, h, value_digits]

theorem toList_renderInt (i : Int) :
    (renderInt i).toList = if i < 0 then '-' :: digits i.natAbs else digits i.natAbs := by
  unfold renderInt
  split
  · rw [String.toList_append, toList_render]
    rfl
  · exact toList_render _

/-- The text of an integer is made of digits and perhaps a minus sign. -/
theorem mem_renderInt {i : Int} (h : c ∈ (renderInt i).toList) : c = '-' ∨ c.isDigit = true := by
  rw [toList_renderInt] at h
  split at h
  · rcases List.mem_cons.1 h with hc | hc
    · exact Or.inl hc
    · exact Or.inr (isDigit_of_mem_digits hc)
  · exact Or.inr (isDigit_of_mem_digits h)

/-- **Different integers have different texts.** -/
theorem renderInt_inj {i j : Int} (h : renderInt i = renderInt j) : i = j := by
  -- a sign on one side cannot be a digit on the other
  have hsign : '-' ∉ digits i.natAbs ∧ '-' ∉ digits j.natAbs :=
    ⟨not_mem_digits (by decide), not_mem_digits (by decide)⟩
  have hlist := congrArg String.toList h
  rw [toList_renderInt, toList_renderInt] at hlist
  split at hlist <;> split at hlist
  · have habs := digits_inj (List.cons.inj hlist).2
    omega
  · exact absurd (hlist ▸ List.mem_cons_self) hsign.2
  · exact absurd (hlist ▸ List.mem_cons_self) hsign.1
  · have habs := digits_inj hlist
    omega

/-- **Digits are those of their number** behind zeros, in any base. -/
theorem map_digitChar {b : Nat} (hb : 1 < b) {ds : List Nat} (hne : ds ≠ [])
    (h : ∀ d ∈ ds, d < b) :
    ∃ k, ds.map Nat.digitChar =
      List.replicate k '0' ++ Nat.toDigits b (ds.foldl (fun n d => n * b + d) 0) := by
  induction ds using List.reverseRecOn with
  | nil => exact absurd rfl hne
  | append_singleton ds d ih =>
    have hd : d < b := h d (by simp)
    rw [List.foldl_append, List.foldl_cons, List.foldl_nil, List.map_append, List.map_singleton]
    by_cases hds : ds = []
    · refine ⟨0, ?_⟩
      rw [hds, List.foldl_nil, Nat.zero_mul, Nat.zero_add, Nat.toDigits_of_lt_base hd]
      rfl
    · obtain ⟨k, hk⟩ := ih hds fun d hd => h d (List.mem_append_left _ hd)
      generalize ds.foldl (fun n d => n * b + d) 0 = n at hk ⊢
      by_cases hn : n = 0
      · -- zero is one more zero in front
        have hzero : Nat.toDigits b 0 = ['0'] := Nat.toDigits_of_lt_base (by omega)
        refine ⟨k + 1, ?_⟩
        rw [hk, hn, hzero, Nat.zero_mul, Nat.zero_add, Nat.toDigits_of_lt_base hd,
          List.replicate_succ']
      · have hle : b ≤ n * b + d := by
          have hmul : 1 * b ≤ n * b := Nat.mul_le_mul_right b (by omega)
          omega
        have hdiv : (n * b + d) / b = n := by
          rw [Nat.mul_comm, Nat.mul_add_div (by omega), Nat.div_eq_of_lt hd, Nat.add_zero]
        have hmod : (n * b + d) % b = d := by
          rw [Nat.mul_comm, Nat.mul_add_mod, Nat.mod_eq_of_lt hd]
        refine ⟨k, ?_⟩
        rw [hk, Nat.toDigits_of_base_le hb hle, hdiv, hmod, List.append_assoc]

theorem digitChar_digitValue {c : Char} (h : c.isDigit = true) :
    digitValue c < 10 ∧ Nat.digitChar (digitValue c) = c := by
  simp only [Char.isDigit, ge_iff_le, Bool.and_eq_true, decide_eq_true_eq,
    UInt32.le_iff_toNat_le, Char.reduceVal, UInt32.reduceToNat] at h
  have hval : c.toNat = c.val.toNat := rfl
  have hzero : '0'.toNat = 48 := rfl
  have hlt : digitValue c < 10 := by
    rw [digitValue]
    omega
  have hdigit : ∀ d < 10, (Nat.digitChar d).toNat = d + 48 := by decide
  refine ⟨hlt, ?_⟩
  apply Char.toNat_inj.1
  rw [hdigit _ hlt, digitValue]
  omega

theorem value_eq_foldl (s : List Char) :
    value s = (s.map digitValue).foldl (fun n d => n * 10 + d) 0 := by
  rw [value, Nat.ofDigitChars, List.foldl_map]
  simp only [Nat.mul_comm 10, digitValue]

/-- **A numeral is that of its number** behind zeros. -/
theorem eq_digits_value {s : List Char} (hne : s ≠ []) (h : ∀ c ∈ s, c.isDigit = true) :
    ∃ k, s = List.replicate k '0' ++ digits (value s) := by
  have hback : (s.map digitValue).map Nat.digitChar = s := by
    rw [List.map_map]
    refine (List.map_congr_left fun c hc => ?_).trans (List.map_id s)
    exact (digitChar_digitValue (h c hc)).2
  have hlt : ∀ d ∈ s.map digitValue, d < 10 := by
    rw [List.forall_mem_map]
    exact fun c hc => (digitChar_digitValue (h c hc)).1
  obtain ⟨k, hk⟩ := map_digitChar (b := 10) (by decide) (by simpa using hne) hlt
  rw [hback, ← value_eq_foldl] at hk
  exact ⟨k, hk⟩

end Decimal

namespace Text

variable {m : Char} {a b : List Char}

/-- What stands in texts put together is a mark or stands in one of them. -/
theorem mem_of_mem_intercalate {α : Type} {mark c : α} {parts : List (List α)}
    (h : c ∈ [mark].intercalate parts) : c = mark ∨ ∃ s ∈ parts, c ∈ s := by
  induction parts with
  | nil => cases h
  | cons s parts ih =>
    cases parts with
    | nil =>
      rw [List.intercalate_singleton] at h
      exact Or.inr ⟨s, List.mem_singleton_self s, h⟩
    | cons s' parts =>
      rw [List.intercalate_cons_cons, List.append_assoc, List.mem_append,
        List.mem_append, List.mem_singleton] at h
      rcases h with h | h | h
      · exact Or.inr ⟨s, List.mem_cons_self, h⟩
      · exact Or.inl h
      · rcases ih h with h | ⟨t, ht, hc⟩
        · exact Or.inl h
        · exact Or.inr ⟨t, List.mem_cons_of_mem _ ht, hc⟩

/-- What stands in a text is a mark or stands in one of its pieces. -/
theorem exists_mem_splitOn {c : Char} {s : List Char} (h : c ∈ s) (m : Char) :
    c = m ∨ ∃ piece ∈ s.splitOn m, c ∈ piece := by
  have hjoined : [m].intercalate (s.splitOn m) = s := List.intercalate_splitOn m
  rw [← hjoined] at h
  exact mem_of_mem_intercalate h

/-- **Texts put together with a mark between them are cut there**, if the mark is in none of
them. -/
theorem splitOn_join {mark : Char} {joint : String} {texts : List String}
    (hj : joint.toList = [mark]) (h : ∀ s ∈ texts, mark ∉ s.toList) (hne : texts ≠ []) :
    (joint.intercalate texts).toList.splitOn mark = texts.map String.toList := by
  rw [String.toList_intercalate, hj]
  refine List.splitOn_intercalate mark ?_ (by simpa using hne)
  simpa using h

/-- A text that begins with another character than the mark has this in its first piece. -/
theorem splitOn_cons_of_ne {c : Char} (h : c ≠ m) (s : List Char) :
    ∃ piece pieces, s.splitOn m = piece :: pieces ∧
      (c :: s).splitOn m = (c :: piece) :: pieces := by
  obtain ⟨piece, pieces, hs⟩ := List.exists_cons_of_ne_nil (List.splitOn_ne_nil m s)
  refine ⟨piece, pieces, hs, ?_⟩
  rw [List.splitOn_cons_eq_if_modifyHead, if_neg (by simpa using h), hs]
  rfl

theorem splitOn_cons_self (m : Char) (s : List Char) : (m :: s).splitOn m = [] :: s.splitOn m := by
  rw [List.splitOn_cons_eq_if_modifyHead, if_pos (beq_self_eq_true m)]

/-- The pieces of a text have no marks, and nothing that the text has not. -/
theorem mem_splitOn {s piece : List Char} (h : piece ∈ s.splitOn m) :
    m ∉ piece ∧ ∀ c ∈ piece, c ∈ s := by
  induction s generalizing piece with
  | nil =>
    rw [List.splitOn_nil, List.mem_singleton] at h
    subst h
    exact ⟨nofun, nofun⟩
  | cons c s ih =>
    by_cases hc : c = m
    · subst hc
      rw [splitOn_cons_self, List.mem_cons] at h
      rcases h with rfl | h
      · exact ⟨nofun, nofun⟩
      · exact ⟨(ih h).1, fun d hd => List.mem_cons_of_mem _ ((ih h).2 d hd)⟩
    · obtain ⟨first, rest, hs, hcs⟩ := splitOn_cons_of_ne hc s
      rw [hs] at ih
      rw [hcs, List.mem_cons] at h
      rcases h with rfl | h
      · obtain ⟨hm, hall⟩ := ih List.mem_cons_self
        refine ⟨?_, ?_⟩
        · exact fun hmem => (List.mem_cons.1 hmem).elim (fun heq => hc heq.symm) hm
        · exact fun d hd => (List.mem_cons.1 hd).elim (fun heq => heq ▸ List.mem_cons_self)
            fun hd => List.mem_cons_of_mem _ (hall d hd)
      · obtain ⟨hm, hall⟩ := ih (List.mem_cons_of_mem _ h)
        exact ⟨hm, fun d hd => List.mem_cons_of_mem _ (hall d hd)⟩

/-- A change of characters that spares the mark leaves the pieces apart. -/
theorem splitOn_map {f : Char → Char} (hf : ∀ c, f c = m ↔ c = m) (s : List Char) :
    (s.map f).splitOn m = (s.splitOn m).map (List.map f) := by
  induction s with
  | nil => rfl
  | cons c s ih =>
    rw [List.map_cons]
    by_cases hc : c = m
    · rw [(hf c).2 hc, hc, splitOn_cons_self, splitOn_cons_self, ih]
      rfl
    · obtain ⟨piece, pieces, hs, hcs⟩ := splitOn_cons_of_ne hc s
      obtain ⟨piece', pieces', hs', hcs'⟩ := splitOn_cons_of_ne (mt (hf c).1 hc) (s.map f)
      rw [ih, hs] at hs'
      cases hs'
      rw [hcs, hcs']
      rfl

/-- Blanks at the front of a text are dropped. -/
theorem dropWhile_isBlank_append {blanks t : List Char} (hb : ∀ c ∈ blanks, isBlank c = true)
    (ht : ∀ c ∈ t.head?, isBlank c = false) : (blanks ++ t).dropWhile isBlank = t := by
  induction blanks with
  | nil =>
    cases t with
    | nil => rfl
    | cons c t => rw [List.nil_append, List.dropWhile_cons_of_neg (by simp [ht c rfl])]
  | cons c blanks ih =>
    obtain ⟨hc, hrest⟩ := List.forall_mem_cons.1 hb
    rw [List.cons_append, List.dropWhile_cons_of_pos hc, ih hrest]

/-- **What stands between blanks** is left when these are dropped. -/
theorem trim_append {before t after : List Char} (hb : ∀ c ∈ before, isBlank c = true)
    (hhead : ∀ c ∈ t.head?, isBlank c = false) (hlast : ∀ c ∈ t.getLast?, isBlank c = false)
    (ha : ∀ c ∈ after, isBlank c = true) : trim (before ++ t ++ after) = t := by
  have hat : ∀ c ∈ after.reverse, isBlank c = true := by simpa using ha
  cases t with
  | nil =>
    have hall : ∀ c ∈ before ++ after, isBlank c = true := by
      intro c hc
      exact (List.mem_append.1 hc).elim (hb c) (ha c)
    have hnone := dropWhile_isBlank_append (t := []) hall nofun
    rw [List.append_nil] at hnone
    rw [trim, List.append_nil, hnone]
    rfl
  | cons c t =>
    rw [← List.head?_reverse] at hlast
    rw [trim, List.append_assoc, List.cons_append,
      dropWhile_isBlank_append hb (by simpa using hhead), ← List.cons_append,
      List.reverse_append, dropWhile_isBlank_append hat hlast, List.reverse_reverse]

/-- What is dropped from a text are blanks at its ends. -/
theorem exists_trim (s : List Char) : ∃ before after, s = before ++ trim s ++ after ∧
    (∀ c ∈ before, isBlank c = true) ∧ ∀ c ∈ after, isBlank c = true := by
  have hfront : ∀ t : List Char, ∃ blanks, t = blanks ++ t.dropWhile isBlank ∧
      ∀ c ∈ blanks, isBlank c = true := fun t =>
    ⟨t.takeWhile isBlank, List.takeWhile_append_dropWhile.symm,
      fun c hc => List.all_eq_true.1 List.all_takeWhile c hc⟩
  obtain ⟨before, hbefore, hb⟩ := hfront s
  obtain ⟨after, hafter, ha⟩ := hfront (s.dropWhile isBlank).reverse
  refine ⟨before, after.reverse, ?_, hb, by simpa using ha⟩
  have hmiddle := congrArg List.reverse hafter
  rw [List.reverse_reverse, List.reverse_append] at hmiddle
  rw [trim, List.append_assoc, ← hmiddle, ← hbefore]

theorem mem_of_mem_trim {c : Char} {s : List Char} (h : c ∈ trim s) : c ∈ s := by
  obtain ⟨before, after, hs, -⟩ := exists_trim s
  rw [hs]
  exact List.mem_append_left _ (List.mem_append_right _ h)

/-- A text without blanks has none at its ends. -/
theorem trim_eq_self {s : List Char} (h : ∀ c ∈ s, isBlank c = false) : trim s = s := by
  have hnone : ∀ c ∈ ([] : List Char), isBlank c = true := List.forall_mem_nil _
  have htrim := trim_append hnone (fun c hc => h c (List.mem_of_mem_head? hc))
    (fun c hc => h c (List.mem_of_getLast? hc)) hnone
  rwa [List.nil_append, List.append_nil] at htrim

/-- A text that is not cut has no mark. -/
theorem not_mem_of_cut_eq_none {s : List Char} (h : cut m s = none) : m ∉ s := by
  intro hm
  obtain ⟨a, b, rfl, ha⟩ := List.eq_append_cons_of_mem hm
  rw [cut_append ha] at h
  cases h

/-- What a text is cut into gives the text. -/
theorem cutPair_eq_some {s : List Char} (h : cutPair m s = some (a, b)) :
    s = a ++ m :: m :: b := by
  induction s generalizing a with
  | nil => cases h
  | cons c s ih =>
    cases s with
    | nil => cases h
    | cons d s =>
      rw [cutPair] at h
      split at h
      next hpair =>
        cases h
        rw [hpair.1, hpair.2]
        rfl
      · obtain ⟨⟨a', b'⟩, hcut, heq⟩ := Option.map_eq_some_iff.1 h
        cases heq
        rw [ih hcut]
        rfl

/-- A part without the mark is no part of a pair. -/
theorem cutPair_append_of_not_mem (h : m ∉ a) (s : List Char) :
    cutPair m (a ++ s) = (cutPair m s).map fun (front, back) => (a ++ front, back) := by
  induction a with
  | nil => simp
  | cons c a ih =>
    simp only [List.mem_cons, not_or] at h
    obtain ⟨hc, ha⟩ := h
    cases hs : a ++ s with
    | nil =>
      rw [List.append_eq_nil_iff] at hs
      simp [hs.1, hs.2, cutPair]
    | cons d r =>
      have hcut := ih ha
      rw [hs] at hcut
      rw [List.cons_append, hs, cutPair, if_neg (fun hp => hc hp.1.symm), hcut, Option.map_map]
      rfl

/-- A mark that another character follows is no pair. -/
theorem cutPair_cons (s : List Char) (h : ∀ c ∈ s.head?, c ≠ m) :
    cutPair m (m :: s) = (cutPair m s).map fun (front, back) => (m :: front, back) := by
  cases s with
  | nil => rfl
  | cons c s => rw [cutPair, if_neg (fun hp => h c rfl hp.2)]

/-- **Parts put together with single marks are followed by the first pair**, if none of them is
empty or has the mark. -/
theorem cutPair_intercalate {parts : List (List Char)}
    (h : ∀ s ∈ parts, s ≠ [] ∧ m ∉ s) :
    cutPair m ([m].intercalate parts ++ m :: m :: b) = some ([m].intercalate parts, b) ∧
      cutPair m ([m].intercalate parts) = none := by
  induction parts with
  | nil => exact ⟨if_pos ⟨rfl, rfl⟩, rfl⟩
  | cons s parts ih =>
    obtain ⟨⟨hs, hm⟩, hrest⟩ := List.forall_mem_cons.1 h
    obtain ⟨ih1, ih2⟩ := ih hrest
    cases parts with
    | nil =>
      rw [List.intercalate_singleton, cutPair_append_of_not_mem hm]
      have hnone := cutPair_append_of_not_mem hm []
      rw [List.append_nil] at hnone
      exact ⟨by simp [cutPair], hnone⟩
    | cons s' parts =>
      -- the next part begins with another character than the mark
      have hhead : ∀ rest, ∀ c ∈ ([m].intercalate (s' :: parts) ++ rest).head?, c ≠ m := by
        obtain ⟨hs', hm'⟩ := hrest s' List.mem_cons_self
        obtain ⟨c, r, rfl⟩ := List.exists_cons_of_ne_nil hs'
        have hc : c ≠ m := fun hcm => hm' (hcm ▸ List.mem_cons_self)
        cases parts <;> simp [hc]
      have hjoined : [m].intercalate (s :: s' :: parts) =
          s ++ m :: [m].intercalate (s' :: parts) := by
        rw [List.intercalate_cons_cons, List.append_assoc]
        rfl
      constructor
      · rw [hjoined, List.append_assoc, cutPair_append_of_not_mem hm, List.cons_append,
          cutPair_cons _ (hhead _), ih1]
        rfl
      · have hhead' := hhead []
        rw [List.append_nil] at hhead'
        rw [hjoined, cutPair_append_of_not_mem hm, cutPair_cons _ hhead', ih2]
        rfl

end Text

end NodeClock
