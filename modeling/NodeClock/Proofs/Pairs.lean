import NodeClock.Time.Query
import NodeClock.Proofs.Text
import Mathlib.Data.List.Induction
import Mathlib.Data.List.Nodup
import Mathlib.Logic.Function.Basic

/-!
# Pairs that are read one after another

Pairs are read from first to last, and the first one that is defective, by itself or as one that
repeats a field, ends the reading.

* `Civil.Defect`: what is wrong with a pair behind others.
* `Civil.Flawless`, `Civil.Spelled`: pairs without defects, told by the defects that there are not
  and by the fields that there are.
* `Civil.flawless_iff`: **the two are the same.**
* `Civil.spelled_or_defect`: there is a first defect unless the pairs are those of different fields.
* `Civil.Spelled.readPairs_eq`: pairs without defects are read as their numbers.
* `Civil.readPairs_of_defect`: **the first defect is blamed.**
-/

namespace NodeClock.Civil

namespace Field

variable {f f' : Field} {s s' : String}

/-- The pair of a field with a text as its value. -/
def pair (f : Field) (s : String) : String := f.key ++ "=" ++ s

theorem ofKey?_eq_some_iff {k : String} : ofKey? k = some f ↔ f.key = k := by
  constructor
  · intro h
    have hkey : (f.key == k) = true := List.find?_some (p := fun f : Field => f.key == k) h
    exact beq_iff_eq.1 hkey
  · rintro rfl
    exact ofKey?_key f

theorem ofKey?_eq_none_iff {k : String} : ofKey? k = none ↔ ∀ f : Field, f.key ≠ k := by
  simp [ofKey?, List.find?_eq_none, mem_all]

theorem mark_not_mem_key (f : Field) : '=' ∉ f.key.toList := by cases f <;> decide

theorem key_inj (h : f.key = f'.key) : f = f' :=
  Option.some.inj ((ofKey?_key f).symm.trans (ofKey?_eq_some_iff.2 h.symm))

end Field

/-- A text with a mark is cut at the first one. -/
theorem cut_text {k s : String} (h : '=' ∉ k.toList) :
    Text.cut '=' (k ++ "=" ++ s).toList = some (k.toList, s.toList) := by
  have hlist : (k ++ "=" ++ s).toList = k.toList ++ '=' :: s.toList := by simp
  rw [hlist, Text.cut_append h]

theorem exists_text {p : String} {a b : List Char} (h : Text.cut '=' p.toList = some (a, b)) :
    p = String.ofList a ++ "=" ++ String.ofList b ∧ '=' ∉ (String.ofList a).toList := by
  obtain ⟨hp, ha⟩ := Text.cut_eq_some h
  rw [String.toList_ofList]
  refine ⟨String.toList_inj.1 ?_, ha⟩
  simp [hp]

theorem mark_mem_text (k s : String) : '=' ∈ (k ++ "=" ++ s).toList := by simp

/-- A text is cut at its first mark in one way. -/
theorem text_inj {k k' s s' : String} (h : '=' ∉ k.toList) (h' : '=' ∉ k'.toList)
    (heq : k ++ "=" ++ s = k' ++ "=" ++ s') : k = k' ∧ s = s' := by
  have hcut := cut_text (s := s) h
  rw [heq, cut_text h', Option.some.injEq, Prod.mk.injEq] at hcut
  exact ⟨(String.toList_inj.1 hcut.1).symm, (String.toList_inj.1 hcut.2).symm⟩

theorem Field.pair_inj {f f' : Field} {s s' : String} (h : f.pair s = f'.pair s') :
    f = f' ∧ s = s' := by
  obtain ⟨hkey, hs⟩ := text_inj f.mark_not_mem_key f'.mark_not_mem_key h
  exact ⟨Field.key_inj hkey, hs⟩

/-! ## Defects -/

/-- The number that a numeral stands for. -/
def number (s : String) : Nat := Decimal.value s.toList

/-- What a pair may have as its value: one digit or more and nothing else, for a number that is not
too great. -/
def Readable (s : String) : Prop :=
  s ≠ "" ∧ (∀ c ∈ s.toList, c.isDigit = true) ∧ number s ≤ maxNumber

/-- There is a pair of the field. -/
def Given (ps : List String) (f : Field) : Prop := ∃ s, f.pair s ∈ ps

/-- What is wrong with the pair `p` behind the pairs `before`. A pair is judged by its mark, then by
its key, then by whether its field has been given, and by its value last. -/
inductive Defect (before : List String) (p : String) : TimeError → Prop where
  | unmarked : '=' ∉ p.toList → Defect before p (.malformedPair p)
  | unknown {k s : String} : p = k ++ "=" ++ s → '=' ∉ k.toList → (∀ f : Field, f.key ≠ k) →
      Defect before p (.unknownField k)
  | repeated {f : Field} {s : String} : p = f.pair s → Given before f →
      Defect before p (.duplicateField f)
  | unreadable {f : Field} {s : String} : p = f.pair s → ¬ Given before f → ¬ Readable s →
      Defect before p (.invalidNumber s)

/-- No pair is defective behind those before it. -/
def Flawless (ps : List String) : Prop :=
  ∀ before p after e, ps = before ++ p :: after → ¬ Defect before p e

/-- The pairs are those of different fields, each with a readable text. -/
structure Spelled (ps : List String) (fs : List Field) (w : Field → String) : Prop where
  nodup : fs.Nodup
  readable : ∀ f ∈ fs, Readable (w f)
  eq : ps = fs.map fun f => f.pair (w f)

variable {ps before after : List String} {fs : List Field} {w : Field → String} {f : Field}
  {p s : String} {e : TimeError} {seen : List (Field × Nat)}

theorem readable_iff : Readable s ↔ Decimal.read? maxNumber s.toList = some (number s) := by
  have hempty : s ≠ "" ↔ s.toList ≠ [] := by simp
  rw [Decimal.read?_eq_some_iff, Readable, hempty]
  exact ⟨fun ⟨hne, hall, hle⟩ => ⟨hne, hall, rfl, hle⟩, fun ⟨hne, hall, _, hle⟩ => ⟨hne, hall, hle⟩⟩

theorem read?_of_not_readable (h : ¬ Readable s) : Decimal.read? maxNumber s.toList = none := by
  cases hr : Decimal.read? maxNumber s.toList with
  | none => rfl
  | some n =>
    obtain ⟨-, -, hn, -⟩ := Decimal.read?_eq_some_iff.1 hr
    rw [← hn] at hr
    exact absurd (readable_iff.2 hr) h

/-- A pair has a defect or gives a field anew. -/
theorem defect_or_pair (before : List String) (p : String) :
    (∃ e, Defect before p e) ∨ ∃ f s, p = f.pair s ∧ ¬ Given before f ∧ Readable s := by
  cases hcut : Text.cut '=' p.toList with
  | none =>
    refine Or.inl ⟨_, .unmarked fun hmem => ?_⟩
    obtain ⟨a, b, hp, ha⟩ := List.eq_append_cons_of_mem hmem
    rw [hp, Text.cut_append ha] at hcut
    cases hcut
  | some ab =>
    obtain ⟨hp, ha⟩ := exists_text hcut
    cases hkey : Field.ofKey? (String.ofList ab.1) with
    | none => exact Or.inl ⟨_, .unknown hp ha (Field.ofKey?_eq_none_iff.1 hkey)⟩
    | some f =>
      rw [← Field.ofKey?_eq_some_iff.1 hkey] at hp
      by_cases hgiven : Given before f
      · exact Or.inl ⟨_, .repeated hp hgiven⟩
      · by_cases hread : Readable (String.ofList ab.2)
        · exact Or.inr ⟨f, _, hp, hgiven, hread⟩
        · exact Or.inl ⟨_, .unreadable hp hgiven hread⟩

theorem not_defect_pair (hgiven : ¬ Given before f) (hread : Readable s) :
    ¬ Defect before (f.pair s) e := by
  rintro (hmark | ⟨hp, hk, hother⟩ | ⟨hp, hgiven'⟩ | ⟨hp, -, hread'⟩)
  · exact hmark (mark_mem_text _ _)
  · exact hother f (text_inj f.mark_not_mem_key hk hp).1
  · rw [← (Field.pair_inj hp).1] at hgiven'
    exact hgiven hgiven'
  · rw [← (Field.pair_inj hp).2] at hread'
    exact hread' hread

/-! ## Pairs without defects -/

namespace Spelled

theorem mem_iff (h : Spelled ps fs w) : f.pair s ∈ ps ↔ f ∈ fs ∧ w f = s := by
  rw [h.eq, List.mem_map]
  constructor
  · rintro ⟨g, hg, hpair⟩
    obtain ⟨rfl, hs⟩ := Field.pair_inj hpair
    exact ⟨hg, hs⟩
  · rintro ⟨hf, rfl⟩
    exact ⟨f, hf, rfl⟩

theorem given_iff (h : Spelled ps fs w) : Given ps f ↔ f ∈ fs := by
  constructor
  · rintro ⟨s, hs⟩
    exact (h.mem_iff.1 hs).1
  · intro hf
    exact ⟨w f, h.mem_iff.2 ⟨hf, rfl⟩⟩

/-- A readable pair of another field may follow. -/
theorem snoc (h : Spelled ps fs w) (hf : ¬ Given ps f) (hs : Readable s) :
    Spelled (ps ++ [f.pair s]) (fs ++ [f]) (Function.update w f s) := by
  rw [h.given_iff] at hf
  have hold : ∀ g ∈ fs, Function.update w f s g = w g := by
    intro g hg
    have hne : g ≠ f := fun heq => hf (heq ▸ hg)
    exact Function.update_of_ne hne s w
  refine ⟨List.nodup_append.2 ⟨h.nodup, List.nodup_singleton f, ?_⟩, ?_, ?_⟩
  · rintro g hg g' hg' rfl
    rw [List.mem_singleton] at hg'
    exact hf (hg' ▸ hg)
  · intro g hg
    rcases List.mem_append.1 hg with hg | hg
    · rw [hold g hg]
      exact h.readable g hg
    · rw [List.mem_singleton.1 hg, Function.update_self]
      exact hs
  · rw [List.map_append, List.map_singleton, Function.update_self, h.eq]
    congr 1
    exact List.map_congr_left fun g hg => by rw [hold g hg]

theorem flawless (h : Spelled ps fs w) : Flawless ps := by
  intro before p after e hps
  obtain ⟨as, cs, hfs, hbefore, hrest⟩ := List.map_eq_append_iff.1 (h.eq.symm.trans hps)
  obtain ⟨f, bs, rfl, rfl, -⟩ := List.map_eq_cons_iff.1 hrest
  have hnodup := h.nodup
  rw [hfs] at hnodup
  obtain ⟨has, -, hapart⟩ := List.nodup_append.1 hnodup
  have hall : ∀ g ∈ as, Readable (w g) := by
    intro g hg
    exact h.readable g (hfs ▸ List.mem_append_left _ hg)
  have hspelled : Spelled before as w := ⟨has, hall, hbefore.symm⟩
  refine not_defect_pair ?_ (h.readable f (hfs ▸ List.mem_append_right _ List.mem_cons_self))
  rw [hspelled.given_iff]
  exact fun hf => hapart f hf f List.mem_cons_self rfl

end Spelled

/-- **There is a first defect** unless the pairs are those of different fields. -/
theorem spelled_or_defect (ps : List String) :
    (∃ fs w, Spelled ps fs w) ∨
      ∃ before p after fs w e, ps = before ++ p :: after ∧ Spelled before fs w ∧
        Defect before p e := by
  -- the last pair comes last: what is before it has a first defect or none
  induction ps using List.reverseRecOn with
  | nil => exact Or.inl ⟨[], fun _ => "", List.nodup_nil, nofun, rfl⟩
  | append_singleton ps p ih =>
    rcases ih with ⟨fs, w, h⟩ | ⟨before, q, after, fs, w, e, rfl, h, hdefect⟩
    · rcases defect_or_pair ps p with ⟨e, hdefect⟩ | ⟨f, s, rfl, hgiven, hread⟩
      · exact Or.inr ⟨ps, p, [], fs, w, e, rfl, h, hdefect⟩
      · exact Or.inl ⟨_, _, h.snoc hgiven hread⟩
    · refine Or.inr ⟨before, q, after ++ [p], fs, w, e, ?_, h, hdefect⟩
      rw [List.append_assoc, List.cons_append]

/-- **Pairs have no defects** exactly if they are those of different fields with readable texts. -/
theorem flawless_iff : Flawless ps ↔ ∃ fs w, Spelled ps fs w := by
  constructor
  · intro h
    rcases spelled_or_defect ps with hspelled | ⟨before, p, after, -, -, e, hps, -, hdefect⟩
    · exact hspelled
    · exact absurd hdefect (h before p after e hps)
  · rintro ⟨fs, w, h⟩
    exact h.flawless

/-! ## Reading -/

/-- The numbers of fields, the last one first, as they are kept. -/
def kept (fs : List Field) (w : Field → String) : List (Field × Nat) :=
  (fs.map fun f => (f, number (w f))).reverse

theorem lookup_map : (fs.map fun f => (f, number (w f))).lookup f =
    if f ∈ fs then some (number (w f)) else none := by
  induction fs with
  | nil => rfl
  | cons g fs ih =>
    rw [List.map_cons, List.lookup_cons]
    by_cases h : f = g
    · rw [h, beq_self_eq_true, if_pos List.mem_cons_self]
    · rw [beq_false_of_ne h, ih]
      exact if_congr (by simp [h]) rfl rfl

/-- What is kept of a field is its number. -/
theorem lookup_kept : (kept fs w).lookup f = if f ∈ fs then some (number (w f)) else none := by
  rw [kept, ← List.map_reverse, lookup_map]
  exact if_congr List.mem_reverse rfl rfl

/-- A pair is judged by whether its field has been seen, and by its value. -/
theorem readPair_pair (seen : List (Field × Nat)) (f : Field) (s : String) :
    readPair seen (f.pair s) =
      if (seen.lookup f).isSome then .error (.duplicateField f)
      else (Decimal.read? maxNumber s.toList).elim (.error (.invalidNumber s))
        fun n => .ok (f, n) := by
  rw [readPair, Field.pair, cut_text f.mark_not_mem_key]
  simp only [String.ofList_toList, Field.ofKey?_key]
  cases Decimal.read? maxNumber s.toList <;> rfl

theorem readPair_readable (hseen : seen.lookup f = none) (hs : Readable s) :
    readPair seen (f.pair s) = .ok (f, number s) := by
  rw [readPair_pair, hseen, readable_iff.1 hs]
  rfl

/-- A defect is blamed by what it is. -/
theorem readPair_of_defect (hseen : ∀ f, (seen.lookup f).isSome = true ↔ Given before f)
    (h : Defect before p e) : readPair seen p = .error e := by
  cases h with
  | unmarked hmark => rw [readPair, Text.cut_eq_none hmark]
  | unknown hp hk hother =>
    rw [readPair, hp, cut_text hk]
    simp only [String.ofList_toList, Field.ofKey?_eq_none_iff.2 hother]
  | repeated hp hgiven => rw [hp, readPair_pair, if_pos ((hseen _).2 hgiven)]
  | unreadable hp hgiven hread =>
    rw [hp, readPair_pair, if_neg (mt (hseen _).1 hgiven), read?_of_not_readable hread]
    rfl

theorem readPairs_append (seen : List (Field × Nat)) (ps qs : List String) :
    readPairs seen (ps ++ qs) =
      match readPairs seen ps with
      | .error e => .error e
      | .ok seen' => readPairs seen' qs := by
  induction ps generalizing seen with
  | nil => rfl
  | cons p ps ih =>
    rw [List.cons_append, readPairs, readPairs]
    cases readPair seen p with
    | error e => rfl
    | ok entry => exact ih _

/-- **Pairs without defects are read as their numbers.** -/
theorem Spelled.readPairs_eq (h : Spelled ps fs w) : readPairs [] ps = .ok (kept fs w) := by
  obtain ⟨hnodup, hread, rfl⟩ := h
  induction fs using List.reverseRecOn with
  | nil => rfl
  | append_singleton fs f ih =>
    obtain ⟨hnodup', -, hapart⟩ := List.nodup_append.1 hnodup
    have hread' : ∀ g ∈ fs, Readable (w g) := fun g hg => hread g (List.mem_append_left _ hg)
    have hnew : (kept fs w).lookup f = none := by
      rw [lookup_kept]
      exact if_neg fun hf => hapart f hf f (List.mem_singleton_self f) rfl
    have hlast := hread f (List.mem_append_right _ (List.mem_singleton_self f))
    rw [List.map_append, readPairs_append, ih hnodup' hread']
    simp only [List.map_singleton, readPairs, readPair_readable hnew hlast]
    rw [kept, kept, List.map_append, List.reverse_append]
    rfl

/-- **The first defect is blamed.** -/
theorem readPairs_of_defect (h : Spelled before fs w) (hdefect : Defect before p e) :
    readPairs [] (before ++ p :: after) = .error e := by
  have hseen : ∀ f, ((kept fs w).lookup f).isSome = true ↔ Given before f := by
    intro f
    rw [lookup_kept, h.given_iff]
    split <;> simp [*]
  rw [readPairs_append, h.readPairs_eq]
  simp only [readPairs, readPair_of_defect hseen hdefect]

end NodeClock.Civil
