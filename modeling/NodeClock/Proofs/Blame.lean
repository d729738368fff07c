import NodeClock.Proofs.QueryText
import Mathlib.Data.List.Perm.Basic

/-!
# Pairs that form a civil time, and what is wrong with others

* `Civil.Blamed`: what can be wrong with pairs.
* `Civil.ofPairs_cases`: pairs are those of all fields or something is wrong with them.
* `Civil.ofPairs_eq_ok_iff`: what is read as a civil time.
* `Civil.ofPairs_grammar`: **six pairs, one for each field, in any order, are read by their
  numbers, and nothing else is.**
* `Civil.Blamed.ofPairs_eq`: pairs with which something is wrong are refused for it.
* `Civil.ofPairs_blame`: **pairs are refused for what is wrong with them.**
* `Civil.Named`: the field that is named when several numbers are out of range.
* `Civil.ofPairs_outOfRange`: **pairs with numbers out of range are refused for that field**, which
  is the first of them as long as numbers can be kept.
-/

namespace NodeClock.Civil

variable {t : Civil} {ps before after : List String} {fs : List Field} {w : Field → String}
  {f : Field} {p : String} {e e' : TimeError}

/-! ## What can be wrong -/

/-- What can be wrong with pairs: the first defect; if there is none, the first field that is
missing; if none is, a number that is out of range; and if none is, the date. -/
inductive Blamed (ps : List String) : TimeError → Prop where
  | defect {before after : List String} {p : String} {e : TimeError} :
      ps = before ++ p :: after → Flawless before → Defect before p e → Blamed ps e
  | missing {f : Field} :
      Flawless ps → Field.First (fun g => ¬ Given ps g) f → Blamed ps (.missingField f)
  | range {f : Field} {s : String} :
      Flawless ps → (∀ g, Given ps g) → f.pair s ∈ ps → ¬ f.admits (number s) = true →
        Blamed ps (.outOfRange f (number s))
  | date {y m d : String} :
      Flawless ps → (∀ g, Given ps g) →
        (∀ (f : Field) (s : String), f.pair s ∈ ps → f.admits (number s) = true) →
        Field.year.pair y ∈ ps → Field.month.pair m ∈ ps → Field.day.pair d ∈ ps →
        monthLength (number y) (number m) < number d →
        Blamed ps (.nonexistentDate (number y) (number m) (number d))

theorem ofPairs_of_defect (h : Spelled before fs w) (hdefect : Defect before p e) :
    ofPairs (before ++ p :: after) = .error e := by
  rw [ofPairs, readPairs_of_defect h hdefect]

/-- **Pairs are those of all fields**, or are refused before their numbers are judged. -/
theorem ofPairs_cases (ps : List String) :
    (∃ fs w, Spelled ps fs w ∧ ∀ f, f ∈ fs) ∨ ∃ e, ofPairs ps = .error e ∧ Blamed ps e := by
  rcases spelled_or_defect ps with ⟨fs, w, h⟩ | ⟨before, p, after, fs, w, e, rfl, h, hdefect⟩
  · by_cases hall : ∀ f, f ∈ fs
    · exact Or.inl ⟨fs, w, h, hall⟩
    · obtain ⟨f, hf⟩ := Field.exists_first (not_forall.1 hall)
      refine Or.inr ⟨_, h.ofPairs_missing hf, .missing h.flawless ?_⟩
      simpa only [h.given_iff] using hf
  · exact Or.inr ⟨e, ofPairs_of_defect h hdefect, .defect rfl h.flawless hdefect⟩

/-! ## What is read -/

/-- **What is read as a civil time**: pairs without defects of all fields, whose numbers form it. -/
theorem ofPairs_eq_ok_iff :
    ofPairs ps = .ok t ↔
      ∃ fs w, Spelled ps fs w ∧ fs.Perm Field.all ∧ ofValues (fun f => number (w f)) = .ok t := by
  constructor
  · intro h
    rcases ofPairs_cases ps with ⟨fs, w, hs, hall⟩ | ⟨e, he, -⟩
    · have hperm : fs.Perm Field.all := by
        rw [List.perm_ext_iff_of_nodup hs.nodup (by decide)]
        exact fun f => iff_of_true (hall f) f.mem_all
      rw [hs.ofPairs_eq hall] at h
      split at h
      · cases h
      · exact ⟨fs, w, hs, hperm, h⟩
    · rw [he] at h
      cases h
  · rintro ⟨fs, w, hs, hperm, h⟩
    obtain ⟨hget, hvalid, hy⟩ := ofValues_eq_ok_iff.1 h
    have hadmits := hvalid.admits hy
    rw [hget] at hadmits
    rw [hs.ofPairs_admitted (fun f => hperm.mem_iff.2 f.mem_all) hadmits, h]

/-- **Which pairs form a civil time.** Pairs are read as a civil time exactly if they are six, in
any order, one for each field, each with digits alone as its value, for a number that is not too
great, and these numbers, whatever their size, form that time. So it does not matter in which order
pairs are, and no number becomes another one. -/
theorem ofPairs_grammar (ps : List String) (t : Civil) :
    (ofPairs ps = .ok t ↔
      ∃ w : Field → String, ps.Perm (Field.all.map fun f => f.key ++ "=" ++ w f) ∧
        (∀ f, w f ≠ "" ∧ (∀ c ∈ (w f).toList, c.isDigit = true) ∧ number (w f) ≤ maxNumber) ∧
        ofValues (fun f => number (w f)) = .ok t) ∧
    (∀ ps' : List String, ps'.Perm ps → ofPairs ps = .ok t → ofPairs ps' = .ok t) ∧
    ∀ f s, ofPairs ps = .ok t → f.key ++ "=" ++ s ∈ ps → t.get f = number s := by
  have hgrammar : ∀ ps' : List String, ofPairs ps' = .ok t ↔
      ∃ w : Field → String, ps'.Perm (Field.all.map fun f => f.pair (w f)) ∧
        (∀ f, Readable (w f)) ∧ ofValues (fun f => number (w f)) = .ok t := by
    intro ps'
    rw [ofPairs_eq_ok_iff]
    constructor
    · rintro ⟨fs, w, hs, hperm, h⟩
      refine ⟨w, ?_, fun f => hs.readable f (hperm.mem_iff.2 f.mem_all), h⟩
      rw [hs.eq]
      exact hperm.map _
    · rintro ⟨w, hperm, hread, h⟩
      -- an order of pairs is one of their fields
      have hfields : Relation.Comp (· = List.map (fun f => f.pair (w f)) ·) (List.Perm · ·) ps'
          Field.all := by
        rw [List.eq_map_comp_perm]
        exact hperm
      obtain ⟨fs, hps, hfs⟩ := hfields
      exact ⟨fs, w, ⟨hfs.nodup_iff.2 (by decide), fun f _ => hread f, hps⟩, hfs, h⟩
  refine ⟨hgrammar ps, ?_, ?_⟩
  · intro ps' horder h
    obtain ⟨w, hperm, hw⟩ := (hgrammar ps).1 h
    exact (hgrammar ps').2 ⟨w, horder.trans hperm, hw⟩
  · intro f s h hmem
    obtain ⟨fs, w, hs, -, hvalues⟩ := ofPairs_eq_ok_iff.1 h
    obtain ⟨hget, -⟩ := ofValues_eq_ok_iff.1 hvalues
    rw [hget]
    simp only [(hs.mem_iff.1 hmem).2]

/-- Six pairs out of order, with zeros in front of their numbers, and six with a year that has the
last 32 bits of another. -/
theorem ofPairs_grammar_padded :
    ofPairs ["se=09", "mi=5", "h=014", "d=15", "mo=3", "y=0000000000000000000002024"] =
        .ok ⟨2024, 3, 15, 14, 5, 9⟩ ∧
      ∀ t, ofPairs ["y=4294969320", "mo=3", "d=15", "h=14", "mi=5", "se=9"] ≠ .ok t := by
  constructor
  · let texts : List (Field × String) :=
      [(.year, "0000000000000000000002024"), (.month, "3"), (.day, "15"), (.hour, "014"),
        (.minute, "5"), (.second, "09")]
    let w : Field → String := fun f => (texts.lookup f).getD ""
    have hread : ∀ f, Readable (w f) := fun f => by cases f <;> exact readable_iff.2 (by decide)
    exact (ofPairs_grammar _ _).1.2 ⟨w, by decide, hread, by decide⟩
  · intro t h
    have hnumber : number "4294969320" = 4294969320 := by decide
    have hyear : t.year = number "4294969320" :=
      (ofPairs_grammar _ t).2.2 .year "4294969320" h (by decide)
    have h9999 := (ofPairs_valid h).2.2
    omega

/-! ## What is refused -/

theorem Blamed.ne_epochOverflow (h : Blamed ps e) : e ≠ .epochOverflow := by
  cases h with
  | defect _ _ hdefect => cases hdefect <;> nofun
  | missing | range | date => nofun

/-- **Pairs are refused** for something that is wrong with them. -/
theorem Blamed.of_ofPairs (h : ofPairs ps = .error e) : Blamed ps e := by
  rcases ofPairs_cases ps with ⟨fs, w, hs, hall⟩ | ⟨e', he', hblamed⟩
  · have hgiven : ∀ f, Given ps f := fun f => hs.given_iff.2 (hall f)
    have hpair : ∀ f : Field, f.pair (w f) ∈ ps := fun f => hs.mem_iff.2 ⟨hall f, rfl⟩
    rw [hs.ofPairs_eq hall] at h
    split at h
    next f hf =>
      -- what cannot be kept is out of range
      cases h
      have hnot : ¬ f.holds (number (w f)) = true := by
        simpa using (Field.find?_all_eq_some_iff.1 hf).1
      exact .range hs.flawless hgiven (hpair f) (mt Field.holds_of_admits hnot)
    next =>
      rcases ofValues_eq_error h with ⟨f, hf, rfl⟩ | ⟨hadmits, hday, rfl⟩
      · exact .range hs.flawless hgiven (hpair f) hf.1
      · refine .date hs.flawless hgiven ?_ (hpair .year) (hpair .month) (hpair .day) hday
        intro f s hmem
        rw [← (hs.mem_iff.1 hmem).2]
        exact hadmits f
  · rw [he'] at h
    cases h
    exact hblamed

/-- **What is wrong with pairs is what they are refused for**, but for the choice among numbers that
are out of range. -/
theorem Blamed.ofPairs_eq (h : Blamed ps e) :
    ofPairs ps = .error e ∨
      ∃ f n f' n', e = .outOfRange f n ∧ ofPairs ps = .error (.outOfRange f' n') := by
  cases h with
  | defect hps hbefore hdefect =>
    obtain ⟨fs, w, hs⟩ := flawless_iff.1 hbefore
    rw [hps]
    exact Or.inl (ofPairs_of_defect hs hdefect)
  | missing hps hf =>
    obtain ⟨fs, w, hs⟩ := flawless_iff.1 hps
    simp only [hs.given_iff] at hf
    exact Or.inl (hs.ofPairs_missing hf)
  | @range f s hps hgiven hmem hnot =>
    obtain ⟨fs, w, hs⟩ := flawless_iff.1 hps
    refine Or.inr ⟨f, number s, ?_⟩
    rw [hs.ofPairs_eq fun g => hs.given_iff.1 (hgiven g)]
    split
    next g hg => exact ⟨g, _, rfl, rfl⟩
    next =>
      rw [← (hs.mem_iff.1 hmem).2] at hnot
      rcases admits_or_first fun g => number (w g) with hadmits | ⟨g, hg⟩
      · exact absurd (hadmits f) hnot
      · exact ⟨g, _, rfl, ofValues_of_first hg⟩
  | @date y m d hps hgiven hadmits hy hm hd hday =>
    obtain ⟨fs, w, hs⟩ := flawless_iff.1 hps
    have hall : ∀ f, f ∈ fs := fun f => hs.given_iff.1 (hgiven f)
    have hvalue : ∀ f : Field, f.admits (number (w f)) = true :=
      fun f => hadmits f _ (hs.mem_iff.2 ⟨hall f, rfl⟩)
    rw [← (hs.mem_iff.1 hy).2, ← (hs.mem_iff.1 hm).2, ← (hs.mem_iff.1 hd).2] at hday ⊢
    have hnot : ¬ (ofFields fun f => number (w f)).Valid := by
      rw [valid_ofFields_iff hvalue]
      exact Nat.not_le_of_lt hday
    rw [hs.ofPairs_admitted hall hvalue, ofValues_of_admits hvalue, if_neg hnot]
    exact Or.inl rfl

/-- **Pairs are refused for what is wrong with them**, and for nothing else: what else may be wrong
comes later, unless both are numbers out of range. They are never refused for epoch seconds. -/
theorem ofPairs_blame (h : ofPairs ps = .error e) :
    Blamed ps e ∧ e ≠ .epochOverflow ∧
      ∀ e', Blamed ps e' → e' = e ∨ ∃ f n f' n', e' = .outOfRange f n ∧ e = .outOfRange f' n' := by
  have hblamed := Blamed.of_ofPairs h
  refine ⟨hblamed, hblamed.ne_epochOverflow, ?_⟩
  intro e' h'
  rcases h'.ofPairs_eq with heq | ⟨f, n, f', n', rfl, heq⟩
  · exact Or.inl (Except.error.inj (heq.symm.trans h))
  · exact Or.inr ⟨f, n, f', n', rfl, Except.error.inj (h.symm.trans heq)⟩

/-- A month that is out of range, given again, before a key that there is not. -/
theorem ofPairs_blame_repeated :
    ofPairs ["mo=13", "y=2024", "mo=3a", "tz=1"] = .error (.duplicateField .month) ∧
      Blamed ["mo=13", "y=2024", "mo=3a", "tz=1"] (.duplicateField .month) := by
  have h : ofPairs ["mo=13", "y=2024", "mo=3a", "tz=1"] = .error (.duplicateField .month) := by rfl
  exact ⟨h, (ofPairs_blame h).1⟩

/-! ## Which of several numbers is named -/

/-- A number is too great to be kept for its field: for the year if it is out of range, for the
other fields if it takes more than a byte. -/
def Field.Overflows (f : Field) (n : Nat) : Prop := (if f = .year then 9999 else 255) < n

instance (f : Field) (n : Nat) : Decidable (f.Overflows n) := inferInstanceAs (Decidable (_ < _))

/-- The field that is named when numbers are out of range: the first one whose number cannot be
kept, or else the first one whose number is out of range. -/
inductive Named (n : Field → Nat) (f : Field) : Prop where
  | overflow : Field.First (fun g => g.Overflows (n g)) f → Named n f
  | range : (∀ g : Field, ¬ g.Overflows (n g)) →
      Field.First (fun g => ¬ g.admits (n g) = true) f → Named n f

theorem Field.overflows_iff {n : Nat} : f.Overflows n ↔ (!f.holds n) = true := by
  rw [Bool.not_eq_true', Overflows, holds]
  by_cases hf : f = .year
  · subst hf
    have hrange : Field.year.range = (0, 9999) := rfl
    rw [if_pos rfl, if_pos rfl, Bool.eq_false_iff, Ne, admits_iff, hrange]
    omega
  · rw [if_neg hf, if_neg hf, Bool.eq_false_iff, Ne, Bool.and_eq_true, decide_eq_true_eq,
      decide_eq_true_eq]
    omega

/-- What cannot be kept is out of range. -/
theorem Field.Overflows.not_admits {n : Nat} (h : f.Overflows n) : ¬ f.admits n = true := by
  intro hadmits
  have hheld := holds_of_admits hadmits
  rw [overflows_iff, hheld] at h
  cases h

theorem Named.not_admits {n : Field → Nat} (h : Named n f) : ¬ f.admits (n f) = true := by
  rcases h with hfirst | ⟨-, hfirst⟩
  · exact hfirst.1.not_admits
  · exact hfirst.1

/-- Numbers of which one is out of range have one that is named. -/
theorem exists_named {n : Field → Nat} (h : ∃ f : Field, ¬ f.admits (n f) = true) :
    ∃ f, Named n f := by
  by_cases hkept : ∃ f : Field, f.Overflows (n f)
  · obtain ⟨f, hf⟩ := Field.exists_first hkept
    exact ⟨f, .overflow hf⟩
  · obtain ⟨f, hf⟩ := Field.exists_first h
    exact ⟨f, .range (not_exists.1 hkept) hf⟩

/-- Numbers that can all be kept are judged as they are. -/
theorem Spelled.ofPairs_kept (h : Spelled ps fs w) (hall : ∀ f, f ∈ fs)
    (hkept : ∀ f : Field, ¬ f.Overflows (number (w f))) :
    ofPairs ps = ofValues fun f => number (w f) := by
  have hfind : Field.all.find? (fun f => !f.holds (number (w f))) = none := by
    apply Field.find?_all_eq_none_iff.2
    intro f
    exact Bool.eq_false_iff.2 (mt Field.overflows_iff.2 (hkept f))
  rw [h.ofPairs_eq hall, hfind]

theorem Spelled.ofPairs_named (h : Spelled ps fs w) (hall : ∀ f, f ∈ fs)
    (hf : Named (fun g => number (w g)) f) :
    ofPairs ps = .error (.outOfRange f (number (w f))) := by
  rcases hf with hfirst | ⟨hkept, hfirst⟩
  · have hfind : Field.all.find? (fun g => !g.holds (number (w g))) = some f := by
      simp only [Field.overflows_iff] at hfirst
      exact Field.find?_all_eq_some_iff.2 hfirst
    rw [h.ofPairs_eq hall, hfind]
  · rw [h.ofPairs_kept hall hkept]
    exact ofValues_of_first hfirst

/-- **Of several numbers out of range one is named.** Six pairs, one for each field, in any order,
with numbers of which one or more are out of range, are refused for the first number that cannot be
kept, or else for the first number out of range. So as long as numbers can be kept, they are refused
like six values. -/
theorem ofPairs_outOfRange (hfs : fs.Perm Field.all)
    (hread : ∀ f, w f ≠ "" ∧ (∀ c ∈ (w f).toList, c.isDigit = true) ∧ number (w f) ≤ maxNumber)
    (hbad : ∃ f : Field, ¬ f.admits (number (w f)) = true) :
    (∃ f, Named (fun g => number (w g)) f ∧ ¬ f.admits (number (w f)) = true ∧
      ofPairs (fs.map fun g => g.key ++ "=" ++ w g) = .error (.outOfRange f (number (w f)))) ∧
    ((∀ g : Field, g ≠ .year → number (w g) ≤ 255) →
      ofPairs (fs.map fun g => g.key ++ "=" ++ w g) = ofValues fun g => number (w g)) := by
  have hspelled : Spelled (fs.map fun g => g.key ++ "=" ++ w g) fs w :=
    ⟨hfs.nodup_iff.2 (by decide), fun f _ => hread f, rfl⟩
  have hall : ∀ f, f ∈ fs := fun f => hfs.mem_iff.2 f.mem_all
  obtain ⟨f, hf⟩ := exists_named (n := fun g => number (w g)) hbad
  have hnamed := hspelled.ofPairs_named hall hf
  refine ⟨⟨f, hf, hf.not_admits, hnamed⟩, ?_⟩
  intro hbytes
  -- a year that cannot be kept is the first field out of range as well
  by_cases hy : Field.year.Overflows (number (w .year))
  · have hfirst : ∀ P : Field → Prop, P .year → Field.First P .year := by
      intro P hP
      exact ⟨hP, [], _, rfl, nofun⟩
    have hvalues := ofValues_of_first (v := fun g => number (w g)) (hfirst _ hy.not_admits)
    rw [hvalues, hspelled.ofPairs_named hall (.overflow (hfirst _ hy))]
  · apply hspelled.ofPairs_kept hall
    intro g
    by_cases hg : g = .year
    · rw [hg]
      exact hy
    · have hle := hbytes g hg
      rw [Field.Overflows, if_neg hg]
      omega

/-- A month that is out of range and fits into a byte, and a day that does not, which is named. -/
theorem ofPairs_outOfRange_day :
    ofPairs ["se=9", "d=300", "h=14", "y=2024", "mo=13", "mi=05"] =
      .error (.outOfRange .day 300) := by
  let texts : List (Field × String) :=
    [(.year, "2024"), (.month, "13"), (.day, "300"), (.hour, "14"), (.minute, "05"),
      (.second, "9")]
  let w : Field → String := fun f => (texts.lookup f).getD ""
  have hread : ∀ f, Readable (w f) := fun f => by cases f <;> exact readable_iff.2 (by decide)
  have hperm : [.second, .day, .hour, .year, .month, .minute].Perm Field.all := by decide
  obtain ⟨⟨f, hf, -, h⟩, -⟩ := ofPairs_outOfRange hperm hread ⟨.month, by decide⟩
  have honly : ∀ g : Field, g.Overflows (number (w g)) → g = .day :=
    fun g => by cases g <;> decide
  have hpairs : [.second, .day, .hour, .year, .month, .minute].map (fun g => g.key ++ "=" ++ w g) =
      ["se=9", "d=300", "h=14", "y=2024", "mo=13", "mi=05"] := by decide
  have hnumber : number (w .day) = 300 := by decide
  rcases hf with hfirst | ⟨hkept, -⟩
  · rw [honly f hfirst.1, hpairs, hnumber] at h
    exact h
  · exact absurd (by decide) (hkept .day)

/-- **Numbers out of range are not always named in their order**: a day that takes more than a byte
is named before a month that does not. -/
theorem not_ofPairs_inOrder :
    ¬ ∀ (fs : List Field) (w : Field → String) (f : Field), fs.Perm Field.all →
      (∀ g, w g ≠ "" ∧ (∀ c ∈ (w g).toList, c.isDigit = true) ∧ number (w g) ≤ maxNumber) →
      Field.First (fun g => ¬ g.admits (number (w g)) = true) f →
      ofPairs (fs.map fun g => g.key ++ "=" ++ w g) = .error (.outOfRange f (number (w f))) := by
  intro h
  let texts : List (Field × String) :=
    [(.year, "2024"), (.month, "13"), (.day, "300"), (.hour, "14"), (.minute, "5"), (.second, "9")]
  let w : Field → String := fun f => (texts.lookup f).getD ""
  have hread : ∀ f, Readable (w f) := fun f => by cases f <;> exact readable_iff.2 (by decide)
  have hfirst : Field.First (fun g => ¬ g.admits (number (w g)) = true) .month :=
    ⟨by decide, [.year], _, rfl, by decide⟩
  have hmonth := h Field.all w .month (List.Perm.refl _) hread hfirst
  have hspelled : Spelled (Field.all.map fun g => g.key ++ "=" ++ w g) Field.all w :=
    ⟨by decide, fun f _ => hread f, rfl⟩
  have hday := hspelled.ofPairs_named Field.mem_all
    (.overflow ⟨by decide, [.year, .month], _, rfl, by decide⟩ : Named _ .day)
  rw [hday] at hmonth
  cases hmonth

end NodeClock.Civil
