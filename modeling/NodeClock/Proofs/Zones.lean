import NodeClock.Proofs.Ticking

/-!
# Clocks in their zones

The civil times that come about are those of seconds that exist, and a clock further east shows
what others show later.

* `Civil.Valid.byte_get`: every field but the year is kept in a byte.
* `Civil.exists_ofValues_iff`: the values that form a civil time.
* `Civil.fields_exist`: **however a civil time has come about, its fields name a second.**
* `Civil.iterate_next_ofInstant`: a clock further east shows what others show later.
* `Civil.eq_ofInstant`: no other civil time is that of the second shown.
* `Civil.zone_shift`: **a zone is as many seconds on a clock.**
-/

namespace NodeClock.Civil

variable {t : Civil} {f : Field}

/-! ## Fields that exist -/

/-- Every field but the year is kept in a byte. -/
theorem Valid.byte_get (h : t.Valid) (hf : f ≠ .year) :
    ((UInt8.ofNat (t.get f).toNat).toNat : Int) = t.get f := by
  obtain ⟨h0, -, hbyte⟩ := f.range_holds
  obtain ⟨hl, hr⟩ := Field.admits_iff.1 (h.admits_of_ne_year hf)
  have h255 := hbyte hf
  rw [UInt8.toNat_ofNat_of_lt' (by show (t.get f).toNat < 256; omega)]
  omega

theorem Valid.seconds?_eq (h : t.Valid) : t.seconds? = some t.seconds := if_pos h

/-- The values that form a civil time. -/
theorem exists_ofValues_iff {v : Field → Int} :
    (∃ t, ofValues v = .ok t) ↔
      (0 ≤ v .year ∧ v .year ≤ 9999) ∧ (1 ≤ v .month ∧ v .month ≤ 12) ∧
        (1 ≤ v .day ∧ v .day ≤ monthLength (v .year) (v .month).toNat) ∧
        (0 ≤ v .hour ∧ v .hour ≤ 23) ∧ (0 ≤ v .minute ∧ v .minute ≤ 59) ∧
        0 ≤ v .second ∧ v .second ≤ 59 := by
  constructor
  · rintro ⟨t, h⟩
    obtain ⟨rfl, ⟨h1, hd, hh, hmi, hs⟩, hy⟩ := ofValues_eq_ok_iff.1 h
    have hm := month_of_le_monthLength h1 hd
    simp only [get, Int.toNat_natCast]
    omega
  · rintro ⟨hy, hm, hd, hh, hmi, hs⟩
    have h31 := monthLength_le (v .year) (v .month).toNat
    have hall : ∀ f : Field, f.admits (v f) = true := by
      intro f
      rw [Field.admits_iff]
      cases f <;> simp only [Field.range] <;> omega
    have hvalid : (ofFields v).Valid := by
      rw [valid_ofFields_iff hall]
      omega
    exact ⟨ofFields v, ofValues_eq_ok_iff.2 ⟨get_ofFields hall, hvalid, hy⟩⟩

/-- **The fields of a civil time name a second.** However a time has come about, its month is one of
twelve, its day is in that month, as long as the month is in that year, and its hour, minute and
second are those of a day; all but the year is kept in a byte. The time is that of a second. Its
fields form a civil time again, which is the same, exactly if the year is from 0 to 9999; and six
values of any size form one exactly if they are in these ranges. -/
theorem fields_exist (h : t.Arises) :
    ((1 ≤ t.month ∧ t.month ≤ 12) ∧ (1 ≤ t.day ∧ t.day ≤ monthLength t.year t.month) ∧
      t.hour ≤ 23 ∧ t.minute ≤ 59 ∧ t.second ≤ 59) ∧
    (∀ y, (List.range' 1 12).map (monthLength y) =
      [31, if 4 ∣ y ∧ ¬ 100 ∣ y ∨ 400 ∣ y then 29 else 28, 31, 30, 31, 30, 31, 31, 30, 31, 30,
        31]) ∧
    (∀ f : Field, f ≠ .year → ((UInt8.ofNat (t.get f).toNat).toNat : Int) = t.get f) ∧
    (∃ s, t.seconds? = some s ∧ ofSeconds s = t) ∧
    (ofValues t.get = .ok t ↔ 0 ≤ t.year ∧ t.year ≤ 9999) ∧
    ∀ v : Field → Int, (∃ t', ofValues v = .ok t') ↔
      (0 ≤ v .year ∧ v .year ≤ 9999) ∧ (1 ≤ v .month ∧ v .month ≤ 12) ∧
        (1 ≤ v .day ∧ v .day ≤ monthLength (v .year) (v .month).toNat) ∧
        (0 ≤ v .hour ∧ v .hour ≤ 23) ∧ (0 ≤ v .minute ∧ v .minute ≤ 59) ∧
        0 ≤ v .second ∧ v .second ≤ 59 := by
  have hvalid := h.valid
  obtain ⟨h1, hd, hh, hmi, hs⟩ := id hvalid
  have hm := month_of_le_monthLength h1 hd
  refine ⟨⟨hm, ⟨h1, hd⟩, by omega, by omega, by omega⟩, monthLengths_eq, fun f => hvalid.byte_get,
    ⟨t.seconds, hvalid.seconds?_eq, ofSeconds_seconds hvalid⟩, ?_, fun v => exists_ofValues_iff⟩
  constructor
  · intro hok
    exact (ofValues_eq_ok_iff.1 hok).2.2
  · exact ofValues_get hvalid

/-- A leap second, shown by a clock that is ahead of UTC by a number of seconds, and an instant
before the year 0. -/
theorem fields_exist_leapSecond :
    let leap := Civil.ofInstant 1483228799 1500000000 3630
    let early := Civil.ofInstant (-62167219201) 0 0
    leap.Arises ∧ leap = ⟨2017, 1, 1, 1, 0, 29⟩ ∧ ofValues leap.get = .ok leap ∧
      early.Arises ∧ early = ⟨-1, 12, 31, 23, 59, 59⟩ ∧ ofValues early.get ≠ .ok early := by
  intro leap early
  have hleap : leap.Arises := .ofInstant (by decide) (by decide) (by decide) (by decide)
  have hearly : early.Arises := .ofInstant (by decide) (by decide) (by decide) (by decide)
  obtain ⟨-, -, -, -, hback, -⟩ := fields_exist hleap
  obtain ⟨-, -, -, -, hback', -⟩ := fields_exist hearly
  exact ⟨hleap, by decide, hback.2 (by decide), hearly, by decide,
    fun h => absurd (hback'.1 h) (by decide)⟩

/-! ## Zones -/

section Zones

variable (s : Int) (nanos : Nat) (z : Int)

theorem ofInstant_valid : (ofInstant s nanos z).Valid := ofSeconds_valid _

theorem seconds_ofInstant : (ofInstant s nanos z).seconds = s + z := seconds_ofSeconds _

/-- No other civil time is that of the second shown. -/
theorem eq_ofInstant (h : t.Valid) (hs : t.seconds = s + z) : t = ofInstant s nanos z :=
  seconds_inj h (ofInstant_valid s nanos z) (hs.trans (seconds_ofInstant s nanos z).symm)

/-- **A clock further east shows what others show later.** -/
theorem iterate_next_ofInstant (k : Nat) :
    next^[k] (ofInstant s nanos z) = ofInstant s nanos (z + k) := by
  rw [ofInstant, iterate_next_ofSeconds, Int.add_assoc]
  rfl

/-- The difference of two clocks is that of their zones. -/
theorem secondsSince_ofInstant (z' : Int) :
    (ofInstant s nanos z).secondsSince (ofInstant s nanos z') = some (z - z') := by
  have hdiff : s + z - (s + z') = z - z' := by omega
  rw [(ofInstant_valid s nanos z).secondsSince_eq (ofInstant_valid s nanos z'), seconds_ofInstant,
    seconds_ofInstant, hdiff]

theorem epoch_ofInstant :
    (ofInstant s nanos z).epoch =
      if 0 ≤ s + z ∧ s + z ≤ maxEpoch then .ok (s + z).toNat else .error .epochOverflow := by
  rw [(ofInstant_valid s nanos z).epoch_eq, seconds_ofInstant]

/-- **A zone is as many seconds on a clock.** At an instant of `s` seconds, a clock `z` seconds east
shows the one civil time whose second is `s + z`, whatever the nanoseconds. A clock as far west as
the instant is after 1970 shows the beginning of that year, and one `k` seconds further east shows
what it shows `k` ticks later. Two clocks differ by their zones. What is shown has epoch seconds,
namely `s + z`, exactly if they fit; and a clock of UTC shows the time of its epoch seconds. -/
theorem zone_shift :
    ((ofInstant s nanos z).Valid ∧ (ofInstant s nanos z).seconds = s + z ∧
      ∀ t : Civil, t.Valid → t.seconds = s + z → t = ofInstant s nanos z) ∧
    (∀ nanos', ofInstant s nanos' z = ofInstant s nanos z) ∧
    ofInstant s nanos (-s) = ⟨1970, 1, 1, 0, 0, 0⟩ ∧
    (∀ k : Nat, ofInstant s nanos (z + k) = next^[k] (ofInstant s nanos z)) ∧
    (∀ z', (ofInstant s nanos z).secondsSince (ofInstant s nanos z') = some (z - z')) ∧
    (∀ n : Nat, (ofInstant s nanos z).epoch = .ok n ↔ (n : Int) = s + z ∧ n ≤ maxEpoch) ∧
    ((ofInstant s nanos z).epoch = .error .epochOverflow ↔ s + z < 0 ∨ maxEpoch < s + z) ∧
    ∀ n : Nat, n ≤ maxEpoch → ofInstant n nanos 0 = ofEpoch n := by
  refine ⟨⟨ofInstant_valid s nanos z, seconds_ofInstant s nanos z, ?_⟩, fun _ => rfl, ?_, ?_,
    secondsSince_ofInstant s nanos z, ?_, ?_, ?_⟩
  · intro t
    exact eq_ofInstant s nanos z
  · rw [ofInstant, Int.add_right_neg]
    decide
  · intro k
    exact (iterate_next_ofInstant s nanos z k).symm
  · intro n
    rw [epoch_ofInstant]
    split
    · rw [Except.ok.injEq]
      omega
    · constructor
      · rintro ⟨⟩
      · omega
  · rw [epoch_ofInstant]
    split
    · constructor
      · rintro ⟨⟩
      · omega
    · exact iff_of_true rfl (by omega)
  · intro n hn
    rw [ofInstant, Int.add_zero, ofEpoch_eq_ofSeconds hn]

/-- A leap second in UTC is early on a leap day further east. -/
example : ofInstant 951782399 1500000000 30 = ⟨2000, 2, 29, 0, 0, 29⟩ := by decide

end Zones

end NodeClock.Civil
