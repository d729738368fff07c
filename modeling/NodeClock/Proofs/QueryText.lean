import NodeClock.Proofs.Text
import NodeClock.Proofs.Query

/-!
# Civil times and their queries

A civil time that comes from six values, from pairs, from epoch seconds or from an instant is read
back from its query exactly if its year has at most four digits and no sign.

* `Civil.Arises`: the ways in which a civil time comes about.
* `Civil.Arises.valid`, `Arises.year_bounds`: what they have in common.
* `Civil.ofQuery_query`: the pairs of a query are those that were joined.
* `Civil.ofPairs_pairs_negative`, `ofPairs_pairs_late`: what is wrong with other years.
* `Civil.query_inj`: **different times have different queries.**
* `Civil.query_roundTrip`: all of it, for every civil time that comes about.
-/

namespace NodeClock

namespace Civil

/-- The ways in which a civil time comes about. Instants are counted in 64 bits, and no zone is a
day away. -/
inductive Arises : Civil → Prop where
  | ofValues {v : Field → Int} {t : Civil} : Civil.ofValues v = .ok t → Arises t
  | ofPairs {ps : List String} {t : Civil} : Civil.ofPairs ps = .ok t → Arises t
  | ofEpoch {n : Nat} : n ≤ maxEpoch → Arises (Civil.ofEpoch n)
  | ofInstant {secs : Int} {nanos : Nat} {offset : Int} :
      -0x8000000000000000 ≤ secs → secs < 0x8000000000000000 → -86400 < offset →
      offset < 86400 → Arises (Civil.ofInstant secs nanos offset)

variable {t t' : Civil} {f : Field}

/-! ## What arises -/

theorem ofValues_valid {v : Field → Int} (h : ofValues v = .ok t) :
    t.Valid ∧ 0 ≤ t.year ∧ t.year ≤ 9999 := (ofValues_eq_ok_iff.1 h).2

theorem ofPairs_valid {ps : List String} (h : ofPairs ps = .ok t) :
    t.Valid ∧ 0 ≤ t.year ∧ t.year ≤ 9999 := by
  unfold ofPairs at h
  split at h
  · cases h
  split at h
  · cases h
  simp only at h
  split at h
  · cases h
  · exact ofValues_valid h

theorem Arises.valid (h : t.Arises) : t.Valid := by
  cases h with
  | ofValues h => exact (ofValues_valid h).1
  | ofPairs h => exact (ofPairs_valid h).1
  | ofEpoch hn =>
    rw [ofEpoch_eq_ofSeconds hn]
    exact ofSeconds_valid _
  | ofInstant _ _ _ _ => exact ofSeconds_valid _

/-- The year of a time has no more digits than a number that is read. -/
theorem Arises.year_bounds (h : t.Arises) :
    -(maxNumber : Int) ≤ t.year ∧ t.year ≤ maxNumber := by
  have hmax : (9999 : Int) ≤ maxNumber := by decide
  have hvalid := h.valid.year_bounds
  cases h with
  | ofValues h =>
    have hyear := (ofValues_valid h).2
    omega
  | ofPairs h =>
    have hyear := (ofPairs_valid h).2
    omega
  | @ofEpoch n hn =>
    rw [ofEpoch_eq_ofSeconds hn] at hvalid ⊢
    rw [seconds_ofSeconds] at hvalid
    have hn : n ≤ 0xFFFFFFFF := hn
    simp only [maxNumber]
    omega
  | ofInstant hlow hhigh hwest heast =>
    rw [Civil.ofInstant, seconds_ofSeconds] at hvalid
    rw [Civil.ofInstant]
    simp only [maxNumber]
    omega

/-- The year of a time can be written as a number that is read. -/
theorem Arises.year_le (h : t.Arises) : t.year ≤ maxNumber := h.year_bounds.2

/-! ## Queries and their pairs -/

theorem toList_pair (t : Civil) (f : Field) :
    (t.pair f).toList = f.key.toList ++ '=' :: (Decimal.renderInt (t.get f)).toList := by
  simp [pair]

/-- No pair has the mark that joins them. -/
theorem not_mem_pair (t : Civil) (f : Field) : '&' ∉ (t.pair f).toList := by
  have hkey : '&' ∉ f.key.toList := by cases f <;> decide
  rw [toList_pair]
  intro h
  rcases List.mem_append.1 h with h | h
  · exact hkey h
  · rcases List.mem_cons.1 h with h | h
    · exact absurd h (by decide)
    · rcases Decimal.mem_renderInt h with h | h
      · exact absurd h (by decide)
      · exact absurd h (by decide)

/-- A query is cut into the pairs that were joined. -/
theorem split_query (t : Civil) : (t.query.toList.splitOn '&').map String.ofList = t.pairs := by
  have hpairs : ∀ s ∈ t.pairs, '&' ∉ s.toList := by
    intro s hs
    obtain ⟨f, -, rfl⟩ := List.mem_map.1 hs
    exact t.not_mem_pair f
  rw [query, Text.splitOn_join rfl hpairs (by simp [pairs, Field.all]), List.map_map]
  simp

theorem ofQuery_query (t : Civil) : ofQuery t.query = ofPairs t.pairs := by
  rw [ofQuery, split_query]

/-- A negative year is no number, because of its sign. -/
theorem ofPairs_pairs_negative (h : t.year < 0) :
    ofPairs t.pairs = .error (.invalidNumber (Decimal.renderInt t.year)) := by
  have hread : Decimal.read? maxNumber (Decimal.renderInt t.year).toList = none := by
    rw [Decimal.toList_renderInt, if_pos h]
    exact Decimal.read?_eq_none List.mem_cons_self (by decide)
  have hfirst : readPair [] (t.pair .year) =
      .error (.invalidNumber (Decimal.renderInt t.year)) := by
    have hpair : t.pair .year = Field.year.pair (Decimal.renderInt t.year) := rfl
    rw [hpair, readPair_pair, List.lookup_nil, hread]
    rfl
  -- the year stands first, so that no other pair is read
  unfold ofPairs pairs Field.all
  rw [List.map_cons, readPairs, hfirst]

/-- A year of more than four digits is out of range. -/
theorem ofPairs_pairs_late (h : t.Valid) (hlate : 9999 < t.year) (hmax : t.year ≤ maxNumber) :
    ofPairs t.pairs = .error (.outOfRange .year t.year) := by
  have hrange : ∀ f, 0 ≤ t.get f ∧ t.get f ≤ maxNumber := by
    intro f
    obtain ⟨h1, hd, hh, hmi, hs⟩ := h
    have hm := month_of_le_monthLength h1 hd
    have h31 := monthLength_le t.year t.month
    simp only [maxNumber] at *
    cases f <;> simp only [get] <;> omega
  have hnot : Field.year.holds t.year = false := by
    rw [Field.holds, if_pos rfl, Bool.eq_false_iff, Ne, Field.admits_iff]
    exact fun hin => absurd hlate (Int.not_lt.2 hin.2)
  rw [pairs, ofPairs_written hrange (List.Perm.refl _), Field.all,
    List.find?_cons_of_pos (by rw [get, hnot]; rfl)]
  rfl

/-- **Different times have different queries.** -/
theorem query_inj (h : t.query = t'.query) : t = t' := by
  have hpairs : t.pairs = t'.pairs := by rw [← split_query, h, split_query]
  have hget : ∀ f, t.get f = t'.get f := by
    intro f
    have hpair : t.pair f = t'.pair f := List.map_inj_left.1 hpairs f f.mem_all
    have hlist := congrArg String.toList hpair
    rw [toList_pair, toList_pair] at hlist
    exact Decimal.renderInt_inj
      (String.toList_inj.1 (List.cons.inj (List.append_cancel_left hlist)).2)
  -- only the year is an integer in itself
  have hyear : t.year = t'.year := hget .year
  have hmonth : (t.month : Int) = t'.month := hget .month
  have hday : (t.day : Int) = t'.day := hget .day
  have hhour : (t.hour : Int) = t'.hour := hget .hour
  have hminute : (t.minute : Int) = t'.minute := hget .minute
  have hsecond : (t.second : Int) = t'.second := hget .second
  cases t
  cases t'
  simp only [mk.injEq]
  simp only at hyear hmonth hday hhour hminute hsecond
  omega

/-- **A civil time and its query.** However a time has come about, it is read back from its query
and from its pairs if its year is from 0 to 9999; a negative year is refused as no number and a
later one as out of range; and no other time has the same query. -/
theorem query_roundTrip (h : t.Arises) :
    (0 ≤ t.year ∧ t.year ≤ 9999 → ofQuery t.query = .ok t ∧ ofPairs t.pairs = .ok t) ∧
    (t.year < 0 → ofQuery t.query = .error (.invalidNumber (Decimal.renderInt t.year)) ∧
      ofPairs t.pairs = .error (.invalidNumber (Decimal.renderInt t.year))) ∧
    (9999 < t.year → ofQuery t.query = .error (.outOfRange .year t.year) ∧
      ofPairs t.pairs = .error (.outOfRange .year t.year)) ∧
    ∀ t' : Civil, t'.Arises → t.query = t'.query → t = t' := by
  rw [ofQuery_query]
  refine ⟨fun hy => ?_, fun hneg => ?_, fun hlate => ?_, fun t' _ heq => query_inj heq⟩
  · have hback := ofPairs_map h.valid hy (List.Perm.refl Field.all)
    exact ⟨hback, hback⟩
  · have hbad := ofPairs_pairs_negative hneg
    exact ⟨hbad, hbad⟩
  · have hbad := ofPairs_pairs_late h.valid hlate h.year_le
    exact ⟨hbad, hbad⟩

/-- The last second of the year before the year 0, shown by a clock at an instant. -/
theorem query_roundTrip_beforeZero :
    ofQuery (Civil.ofInstant (-62167219201) 0 0).query = .error (.invalidNumber "-1") ∧
      (Civil.ofInstant (-62167219201) 0 0).query = "y=-1&mo=12&d=31&h=23&mi=59&se=59" := by
  have harises : (Civil.ofInstant (-62167219201) 0 0).Arises :=
    .ofInstant (by decide) (by decide) (by decide) (by decide)
  exact ⟨((query_roundTrip harises).2.1 (by decide)).1, rfl⟩

end Civil

end NodeClock
