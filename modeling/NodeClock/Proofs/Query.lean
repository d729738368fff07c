import NodeClock.Proofs.Calendar
import NodeClock.Proofs.Pairs

/-!
# Civil times on the wire

* `Civil.Field.First`: the first field of a kind.
* `Civil.ofValues_of_first`, `ofValues_of_admits`: six values, out of range and in range.
* `Civil.ofValues_eq_ok_iff`, `ofValues_eq_error`: **which six values form a civil time, and what is
  wrong with others.**
* `Civil.Spelled.ofPairs_eq`, `Spelled.ofPairs_missing`: pairs without defects are judged by their
  numbers, if no field is missing.
* `Civil.ofPairs_written`: so are the pairs of six values.
* `Civil.ofPairs_map`: **a valid civil time comes back from its pairs**, in whatever order they
  are.
* `Civil.ofTimestamp?_eq_some`, `ofEpoch_eq_ofSeconds`: **all seconds of 32 bits have a date.**
* `Civil.ofEpoch_epoch`: **a valid civil time comes back from its epoch seconds**.
-/

namespace NodeClock

theorem Decimal.renderInt_natCast (n : Nat) : renderInt n = render n := by
  rw [renderInt, if_neg (by omega), Int.natAbs_natCast]

namespace Civil

variable {t : Civil} {f : Field} {fs : List Field} {ps : List String} {w : Field → String}
  {v : Field → Int} {e : TimeError}

/-! ## The first field of a kind -/

/-- The first field of which `P` holds. -/
def Field.First (P : Field → Prop) (f : Field) : Prop :=
  P f ∧ ∃ front back, all = front ++ f :: back ∧ ∀ g ∈ front, ¬ P g

theorem Field.find?_all_eq_some_iff {p : Field → Bool} :
    all.find? p = some f ↔ First (fun g => p g = true) f := by
  simp only [List.find?_eq_some_iff_append, First, Bool.not_eq_true', Bool.not_eq_true]

theorem Field.find?_all_eq_none_iff {p : Field → Bool} :
    all.find? p = none ↔ ∀ f, p f = false := by
  simp [List.find?_eq_none, mem_all]

/-- Fields of which `P` holds have a first one. -/
theorem Field.exists_first {P : Field → Prop} (h : ∃ f, P f) : ∃ f, First P f := by
  classical
  obtain ⟨f, hf⟩ := h
  cases hfind : all.find? fun g => decide (P g) with
  | some g => exact ⟨g, by simpa using find?_all_eq_some_iff.1 hfind⟩
  | none => exact absurd hf (by simpa using find?_all_eq_none_iff.1 hfind f)

/-! ## Ranges -/

theorem Field.admits_iff {v : Int} : f.admits v = true ↔ f.range.1 ≤ v ∧ v ≤ f.range.2 := by
  simp [admits]

/-- What is in range can be written as a number and kept. -/
theorem Field.range_holds (f : Field) :
    0 ≤ f.range.1 ∧ f.range.2 ≤ maxNumber ∧ (f ≠ .year → f.range.2 ≤ 255) := by
  cases f <;> decide

theorem Field.holds_of_admits {v : Int} (h : f.admits v = true) : f.holds v = true := by
  obtain ⟨h0, -, hbyte⟩ := f.range_holds
  obtain ⟨hl, hr⟩ := admits_iff.1 h
  unfold holds
  by_cases hf : f = .year
  · rw [if_pos hf]
    exact h
  · have h255 := hbyte hf
    rw [if_neg hf, Bool.and_eq_true, decide_eq_true_eq, decide_eq_true_eq]
    omega

theorem Field.find?_unheld_eq_none {v : Field → Int} (h : ∀ f : Field, f.admits (v f) = true) :
    all.find? (fun f => !f.holds (v f)) = none :=
  find?_all_eq_none_iff.2 fun f => by rw [holds_of_admits (h f), Bool.not_true]

/-- The fields of a valid time are in range, the year apart. -/
theorem Valid.admits_of_ne_year (h : t.Valid) (hf : f ≠ .year) : f.admits (t.get f) = true := by
  obtain ⟨h1, hle, hh, hmi, hs⟩ := h
  have hm := month_of_le_monthLength h1 hle
  have h31 := monthLength_le t.year t.month
  rw [Field.admits_iff]
  cases f with
  | year => exact absurd rfl hf
  | _ =>
    simp only [Field.range, get]
    omega

theorem Valid.admits (h : t.Valid) (hy : 0 ≤ t.year ∧ t.year ≤ 9999) (f : Field) :
    f.admits (t.get f) = true := by
  by_cases hf : f = .year
  · rw [hf]
    exact Field.admits_iff.2 hy
  · exact h.admits_of_ne_year hf

/-! ## Six values -/

/-- The civil time with these values as its fields. -/
def ofFields (v : Field → Int) : Civil :=
  { year := v .year, month := (v .month).toNat, day := (v .day).toNat,
    hour := (v .hour).toNat, minute := (v .minute).toNat, second := (v .second).toNat }

theorem ofFields_get (t : Civil) : ofFields t.get = t := rfl

theorem get_ofFields (h : ∀ f : Field, f.admits (v f) = true) : (ofFields v).get = v := by
  funext f
  have hf := Field.admits_iff.1 (h f)
  cases f <;> simp only [Field.range] at hf <;> simp only [get, ofFields] <;> omega

/-- Values in range need only a day that their month has. -/
theorem valid_ofFields_iff (h : ∀ f : Field, f.admits (v f) = true) :
    (ofFields v).Valid ↔
      (v .day).toNat ≤ monthLength (v .year) (v .month).toNat := by
  have hd := Field.admits_iff.1 (h .day)
  have hh := Field.admits_iff.1 (h .hour)
  have hmi := Field.admits_iff.1 (h .minute)
  have hs := Field.admits_iff.1 (h .second)
  simp only [Field.range] at hd hh hmi hs
  simp only [Valid, ofFields]
  omega

/-- The first value that is out of range is blamed. -/
theorem ofValues_of_first (hf : Field.First (fun g => ¬ g.admits (v g) = true) f) :
    ofValues v = .error (.outOfRange f (v f)) := by
  have hfind : Field.all.find? (fun g => !g.admits (v g)) = some f := by
    rw [Field.find?_all_eq_some_iff]
    simpa using hf
  rw [ofValues, hfind]

/-- Values in range form a civil time unless there is no such date. -/
theorem ofValues_of_admits (h : ∀ f : Field, f.admits (v f) = true) :
    ofValues v =
      if (ofFields v).Valid then .ok (ofFields v)
      else .error (.nonexistentDate (v .year) (v .month).toNat (v .day).toNat) := by
  have hfind : Field.all.find? (fun g => !g.admits (v g)) = none :=
    Field.find?_all_eq_none_iff.2 fun f => by rw [h f, Bool.not_true]
  rw [ofValues, hfind]
  exact if_congr (valid_ofFields_iff h).symm rfl rfl

/-- Values in range, or the first that is not. -/
theorem admits_or_first (v : Field → Int) :
    (∀ f : Field, f.admits (v f) = true) ∨
      ∃ f, Field.First (fun g => ¬ g.admits (v g) = true) f := by
  by_cases h : ∀ f : Field, f.admits (v f) = true
  · exact Or.inl h
  · exact Or.inr (Field.exists_first (not_forall.1 h))

/-- **Six values form a civil time** exactly if they are the fields of a valid one whose year has
at most four digits and no sign. -/
theorem ofValues_eq_ok_iff :
    ofValues v = .ok t ↔ t.get = v ∧ t.Valid ∧ 0 ≤ t.year ∧ t.year ≤ 9999 := by
  constructor
  · intro h
    rcases admits_or_first v with hall | ⟨f, hf⟩
    · rw [ofValues_of_admits hall] at h
      split at h
      next hvalid =>
        cases h
        exact ⟨get_ofFields hall, hvalid, Field.admits_iff.1 (hall .year)⟩
      · cases h
    · rw [ofValues_of_first hf] at h
      cases h
  · rintro ⟨rfl, hvalid, hy⟩
    rw [ofValues_of_admits (hvalid.admits hy), ofFields_get, if_pos hvalid]

theorem ofValues_get (h : t.Valid) (hy : 0 ≤ t.year ∧ t.year ≤ 9999) : ofValues t.get = .ok t :=
  ofValues_eq_ok_iff.2 ⟨rfl, h, hy⟩

/-- **What is wrong with six values**: the first that is out of range, or else the date. -/
theorem ofValues_eq_error (h : ofValues v = .error e) :
    (∃ f, Field.First (fun g => ¬ g.admits (v g) = true) f ∧ e = .outOfRange f (v f)) ∨
      ((∀ f : Field, f.admits (v f) = true) ∧
        monthLength (v .year) (v .month).toNat < (v .day).toNat ∧
        e = .nonexistentDate (v .year) (v .month).toNat (v .day).toNat) := by
  rcases admits_or_first v with hall | ⟨f, hf⟩
  · rw [ofValues_of_admits hall] at h
    split at h
    · cases h
    next hnot =>
      cases h
      exact Or.inr ⟨hall, Nat.lt_of_not_le (mt (valid_ofFields_iff hall).2 hnot), rfl⟩
  · rw [ofValues_of_first hf] at h
    cases h
    exact Or.inl ⟨f, hf, rfl⟩

/-! ## Pairs and their numbers -/

/-- **Pairs without defects are judged by their numbers**, if no field is missing. -/
theorem Spelled.ofPairs_eq (h : Spelled ps fs w) (hall : ∀ f, f ∈ fs) :
    ofPairs ps =
      match Field.all.find? fun f => !f.holds (number (w f)) with
      | some f => .error (.outOfRange f (number (w f)))
      | none => ofValues fun f => number (w f) := by
  rw [ofPairs, h.readPairs_eq]
  simp only [lookup_kept, hall, if_true, Option.getD_some]
  rfl

theorem Spelled.ofPairs_admitted (h : Spelled ps fs w) (hall : ∀ f, f ∈ fs)
    (hadmits : ∀ f : Field, f.admits (number (w f)) = true) :
    ofPairs ps = ofValues fun f => number (w f) := by
  rw [h.ofPairs_eq hall, Field.find?_unheld_eq_none hadmits]

/-- The first field that is missing is blamed. -/
theorem Spelled.ofPairs_missing (h : Spelled ps fs w) (hf : Field.First (· ∉ fs) f) :
    ofPairs ps = .error (.missingField f) := by
  have hfirst : Field.all.find? (fun g => ((kept fs w).lookup g).isNone) = some f := by
    rw [Field.find?_all_eq_some_iff]
    simpa [lookup_kept] using hf
  rw [ofPairs, h.readPairs_eq]
  simp only [hfirst]

theorem number_renderInt {i : Int} (h : 0 ≤ i) : (number (Decimal.renderInt i) : Int) = i := by
  obtain ⟨n, rfl⟩ := Int.eq_ofNat_of_zero_le h
  rw [Decimal.renderInt_natCast, number, Decimal.toList_render, Decimal.value_digits]

theorem readable_renderInt {i : Int} (h : 0 ≤ i) (hmax : i ≤ maxNumber) :
    Readable (Decimal.renderInt i) := by
  obtain ⟨n, rfl⟩ := Int.eq_ofNat_of_zero_le h
  have hread : Decimal.read? maxNumber (Decimal.digits n) = some n :=
    Decimal.read?_digits (by omega)
  rw [readable_iff, number, Decimal.renderInt_natCast, Decimal.toList_render, Decimal.value_digits,
    hread]

/-- The pairs of numbers that can be read, in whatever order they are, are judged by their
values. -/
theorem ofPairs_written (h : ∀ f, 0 ≤ t.get f ∧ t.get f ≤ maxNumber) (hfs : fs.Perm Field.all) :
    ofPairs (fs.map t.pair) =
      match Field.all.find? fun f => !f.holds (t.get f) with
      | some f => .error (.outOfRange f (t.get f))
      | none => ofValues t.get := by
  have hspelled : Spelled (fs.map t.pair) fs fun f => Decimal.renderInt (t.get f) :=
    ⟨hfs.nodup_iff.2 (by decide), fun f _ => readable_renderInt (h f).1 (h f).2, rfl⟩
  have hvalue : ∀ f, (number (Decimal.renderInt (t.get f)) : Int) = t.get f :=
    fun f => number_renderInt (h f).1
  rw [hspelled.ofPairs_eq fun f => hfs.mem_iff.2 f.mem_all]
  simp only [hvalue]

/-- **A valid civil time comes back from its pairs**, in whatever order they are. -/
theorem ofPairs_map (h : t.Valid) (hy : 0 ≤ t.year ∧ t.year ≤ 9999) (hfs : fs.Perm Field.all) :
    ofPairs (fs.map t.pair) = .ok t := by
  have hadmits := h.admits hy
  have hrange : ∀ f : Field, 0 ≤ t.get f ∧ t.get f ≤ maxNumber := by
    intro f
    obtain ⟨h0, hmax, -⟩ := f.range_holds
    obtain ⟨hl, hr⟩ := Field.admits_iff.1 (hadmits f)
    omega
  rw [ofPairs_written hrange hfs, Field.find?_unheld_eq_none hadmits]
  exact ofValues_get h hy

/-- **All seconds of 32 bits have a date.** -/
theorem ofTimestamp?_eq_some {n : Nat} (h : n ≤ maxEpoch) :
    ofTimestamp? n = some (ofSeconds n) := by
  have hbounds := (ofSeconds_valid n).year_bounds
  rw [seconds_ofSeconds] at hbounds
  have hyear : -262143 ≤ (ofSeconds n).year ∧ (ofSeconds n).year ≤ 262142 := by
    simp only [maxEpoch] at h
    omega
  exact if_pos hyear

/-- So no date has to stand in for another. -/
theorem ofEpoch_eq_ofSeconds {n : Nat} (h : n ≤ maxEpoch) : ofEpoch n = ofSeconds n := by
  rw [ofEpoch, ofTimestamp?_eq_some h, Option.getD_some]

/-- **A valid civil time comes back from its epoch seconds.** -/
theorem ofEpoch_epoch (h : t.Valid) (h0 : 0 ≤ t.seconds) (hmax : t.seconds ≤ maxEpoch) :
    ∃ n ≤ maxEpoch, t.epoch = .ok n ∧ ofEpoch n = t := by
  have hn : t.seconds.toNat ≤ maxEpoch := by omega
  refine ⟨t.seconds.toNat, hn, ?_, ?_⟩
  · rw [epoch, seconds?, if_pos h]
    exact if_pos ⟨h0, hmax⟩
  · rw [ofEpoch_eq_ofSeconds hn, Int.toNat_of_nonneg h0]
    exact ofSeconds_seconds h

end Civil

end NodeClock
