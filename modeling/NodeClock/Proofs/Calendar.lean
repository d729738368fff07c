import NodeClock.Time.Calendar
import Mathlib.Data.Int.Init
import Mathlib.Tactic.IntervalCases

/-!
# Dates and seconds

Months follow each other without gaps, so that a date is told by its day and a civil time by its
second.

* `monthStart_succ`: a month begins where the one before it ends.
* `dayNumber_lt`: in later months the days are greater.
* `countedYear_spec`: the year in which a day lies, and which day of it.
* `Civil.ofSeconds_seconds`: **a valid civil time is that of its second**.
-/

namespace NodeClock

variable {y y' : Int} {m m' d d' : Nat}

theorem isLeap_iff : isLeap y = true ↔ y % 4 = 0 ∧ (y % 100 ≠ 0 ∨ y % 400 = 0) := by
  simp [isLeap]

/-- Only the twelve months have days. -/
theorem month_of_le_monthLength (h1 : 1 ≤ d) (h : d ≤ monthLength y m) : 1 ≤ m ∧ m ≤ 12 := by
  by_contra hm
  have hzero : monthLength y m = 0 := by
    unfold monthLength
    split <;> omega
  omega

theorem monthLength_le (y : Int) (m : Nat) : monthLength y m ≤ 31 := by
  have hfebruary : (if isLeap y then 29 else 28) ≤ 31 := by split <;> omega
  unfold monthLength
  split <;> omega

/-- Within a year, the next month begins where a month ends. -/
theorem dayNumber_succ_month (h1 : 1 ≤ m) (h11 : m ≤ 11) :
    dayNumber y (m + 1) 1 = dayNumber y m 1 + monthLength y m := by
  by_cases h2 : m = 2
  · -- years are counted from March, so that the counted year changes here
    subst h2
    by_cases h : isLeap y = true
    · have hy := isLeap_iff.1 h
      simp only [dayNumber, monthLength, if_pos h]
      omega
    · have hy := mt isLeap_iff.2 h
      simp only [dayNumber, monthLength, if_neg h]
      omega
  · have hyear : (if m + 1 ≤ 2 then y - 1 else y) = if m ≤ 2 then y - 1 else y :=
      if_congr (by omega) rfl rfl
    rw [dayNumber, dayNumber, hyear]
    generalize (if m ≤ 2 then y - 1 else y) = c
    -- only the days of the months differ, not those of the years before
    generalize c * 365 + c / 4 - c / 100 + c / 400 = before
    interval_cases m <;> simp only [monthLength] <;> omega

/-- So does the next year. -/
theorem dayNumber_succ_year (y : Int) :
    dayNumber (y + 1) 1 1 = dayNumber y 12 1 + monthLength y 12 := by
  simp only [dayNumber, monthLength]
  omega

/-- The first day of a month, the months being counted from January of the year 0. -/
def monthStart (i : Int) : Int := dayNumber (i / 12) ((i % 12).toNat + 1) 1

/-- **A month begins where the one before it ends.** -/
theorem monthStart_succ (i : Int) :
    monthStart (i + 1) = monthStart i + monthLength (i / 12) ((i % 12).toNat + 1) := by
  unfold monthStart
  by_cases h : i % 12 = 11
  · have hy : (i + 1) / 12 = i / 12 + 1 := by omega
    have hm : (i + 1) % 12 = 0 := by omega
    rw [hy, hm, h]
    exact dayNumber_succ_year _
  · have hy : (i + 1) / 12 = i / 12 := by omega
    have hm : ((i + 1) % 12).toNat = (i % 12).toNat + 1 := by omega
    rw [hy, hm]
    exact dayNumber_succ_month (by omega) (by omega)

/-- Months do not overlap. -/
theorem monthStart_add_le {i j : Int} (h : i < j) :
    monthStart i + monthLength (i / 12) ((i % 12).toNat + 1) ≤ monthStart j := by
  induction j, h using Int.leInduction with
  | base => exact Int.le_of_eq (monthStart_succ i).symm
  | succ j hj ih =>
    rw [monthStart_succ]
    omega

/-- The month that is counted `12 * y + m - 1`. -/
theorem dayNumber_eq (hm : 1 ≤ m ∧ m ≤ 12) (hd : 1 ≤ d) :
    dayNumber y m d = monthStart (12 * y + m - 1) + (d - 1) := by
  have hy : (12 * y + m - 1) / 12 = y := by omega
  have hm' : ((12 * y + m - 1) % 12).toNat + 1 = m := by omega
  rw [monthStart, hy, hm']
  simp only [dayNumber]
  omega

/-- **In later months the days are greater.** -/
theorem dayNumber_lt (h1 : 1 ≤ d) (h : d ≤ monthLength y m) (h1' : 1 ≤ d')
    (h' : d' ≤ monthLength y' m') (hlt : 12 * y + m < 12 * y' + m') :
    dayNumber y m d < dayNumber y' m' d' := by
  have hm := month_of_le_monthLength h1 h
  have hm' := month_of_le_monthLength h1' h'
  have hle := monthStart_add_le (show 12 * y + m - 1 < 12 * y' + m' - 1 by omega)
  have hyear : (12 * y + m - 1) / 12 = y := by omega
  have hmonth : ((12 * y + m - 1) % 12).toNat + 1 = m := by omega
  rw [hyear, hmonth] at hle
  rw [dayNumber_eq hm h1, dayNumber_eq hm' h1']
  omega

/-- A date is told by its day. -/
theorem dayNumber_inj (h1 : 1 ≤ d) (h : d ≤ monthLength y m) (h1' : 1 ≤ d')
    (h' : d' ≤ monthLength y' m') (heq : dayNumber y m d = dayNumber y' m' d') :
    y = y' ∧ m = m' ∧ d = d' := by
  have hm := month_of_le_monthLength h1 h
  have hm' := month_of_le_monthLength h1' h'
  have hmonth : 12 * y + m = 12 * y' + m' := by
    rcases Int.lt_trichotomy (12 * y + m) (12 * y' + m') with hlt | hsame | hlt
    · exact absurd heq (Int.ne_of_lt (dayNumber_lt h1 h h1' h' hlt))
    · exact hsame
    · exact absurd heq.symm (Int.ne_of_lt (dayNumber_lt h1' h' h1 h hlt))
  rw [dayNumber_eq hm h1, dayNumber_eq hm' h1', hmonth] at heq
  omega

/-- The year that begins in March and has the day `n`, counted from 0000-03-01, and which day of
it that is. -/
def countedYear (n : Int) : Int × Nat :=
  let inCycle := (n % cycleDays).toNat
  let century := min (inCycle / 36524) 3
  let inCentury := inCycle - century * 36524
  let quad := inCentury / 1461
  let inQuad := inCentury % 1461
  let single := min (inQuad / 365) 3
  (n / cycleDays * 400 + (century * 100 + quad * 4 + single : Nat), inQuad - single * 365)

theorem ofDayNumber_eq (n : Int) :
    ofDayNumber n =
      let (year, inYear) := countedYear (n + epochDay)
      let m := (5 * inYear + 2) / 153
      let month := if m < 10 then m + 3 else m - 9
      (if month ≤ 2 then year + 1 else year, month, inYear - (153 * m + 2) / 5 + 1) := rfl

/-- **The year in which a day lies** has the days before it and has the day. -/
theorem countedYear_spec {n : Int} {j : Nat} (h : countedYear n = (y, j)) :
    y * 365 + y / 4 - y / 100 + y / 400 + j = n ∧ j < if isLeap (y + 1) then 366 else 365 := by
  obtain ⟨hy, hj⟩ := Prod.mk.inj h
  simp only [cycleDays] at hy hj
  generalize hc : n / 146097 = c at hy
  generalize he : (n % 146097).toNat = e at hy hj
  generalize hk : min (e / 36524) 3 = k at hy hj
  generalize ha : (e - k * 36524) / 1461 = a at hy
  generalize hq : (e - k * 36524) % 1461 = q at hy hj
  generalize hb : min (q / 365) 3 = b at hy hj
  -- the fourth century and the fourth year of four may be one day longer
  have hk3 : k ≤ 3 := by omega
  have ha24 : a ≤ 24 := by omega
  have hb3 : b ≤ 3 := by omega
  have h4 : y / 4 = c * 100 + 25 * k + a := by omega
  have h100 : y / 100 = c * 4 + k := by omega
  have h400 : y / 400 = c := by omega
  constructor
  · omega
  · split
    · omega
    · rename_i hleap
      have hy := mt isLeap_iff.2 hleap
      omega

/-- The month of a day in the year from March of `c` on, and which day of the month that is. -/
theorem countedMonth_spec {c : Int} {j k : Nat} (hj : j < if isLeap (c + 1) then 366 else 365)
    (hk : (5 * j + 2) / 153 = k) (hm : (if k < 10 then k + 3 else k - 9) = m)
    (hy : (if m ≤ 2 then c + 1 else c) = y) (hd : j - (153 * k + 2) / 5 + 1 = d) :
    1 ≤ d ∧ d ≤ monthLength y m ∧
      dayNumber y m d = c * 365 + c / 4 - c / 100 + c / 400 + j - epochDay := by
  have hj366 : j < 366 := by split at hj <;> omega
  have hk11 : k ≤ 11 := by omega
  have hleast : (153 * k + 2) / 5 ≤ j := by omega
  refine ⟨by omega, ?_, ?_⟩
  · -- February ends the counted year, whose length bounds its days; no other month is cut
    by_cases hfeb : k = 11
    · have hm2 : m = 2 := by
        rw [hfeb] at hm
        exact hm.symm
      have hyc : y = c + 1 := by
        rw [hm2] at hy
        exact hy.symm
      rw [hm2, hyc]
      simp only [monthLength]
      split at hj <;> rename_i hl
      · rw [if_pos hl]
        omega
      · rw [if_neg hl]
        omega
    · rw [← hm]
      interval_cases k <;>
        simp only [Nat.reduceLT, if_true, if_false, Nat.reduceAdd, Nat.reduceSub, monthLength] <;>
        omega
  · have hm9 : (m + 9) % 12 = k := by split at hm <;> omega
    have hc : (if m ≤ 2 then y - 1 else y) = c := by split at hy <;> omega
    rw [dayNumber, hm9, hc]
    omega

/-- **Every day has its date.** -/
theorem ofDayNumber_spec (n : Int) :
    1 ≤ (ofDayNumber n).2.2 ∧
      (ofDayNumber n).2.2 ≤ monthLength (ofDayNumber n).1 (ofDayNumber n).2.1 ∧
      dayNumber (ofDayNumber n).1 (ofDayNumber n).2.1 (ofDayNumber n).2.2 = n := by
  rw [ofDayNumber_eq]
  cases hc : countedYear (n + epochDay) with
  | mk c j =>
    obtain ⟨hn, hj⟩ := countedYear_spec hc
    obtain ⟨h1, hle, hday⟩ := countedMonth_spec hj rfl rfl rfl rfl
    exact ⟨h1, hle, hday.trans (by omega)⟩

namespace Civil

variable {t t' : Civil}

/-- Every second has a valid civil time. -/
theorem ofSeconds_valid (s : Int) : (ofSeconds s).Valid := by
  obtain ⟨h1, hle, -⟩ := ofDayNumber_spec (s / 86400)
  refine ⟨h1, hle, ?_, ?_, ?_⟩ <;> simp only [ofSeconds] <;> omega

theorem seconds_ofSeconds (s : Int) : (ofSeconds s).seconds = s := by
  obtain ⟨-, -, hday⟩ := ofDayNumber_spec (s / 86400)
  simp only [seconds, ofSeconds]
  rw [hday]
  omega

/-- **The year is told by the second**, give or take one: 400 years have so many on average. -/
theorem Valid.year_bounds (h : t.Valid) :
    (t.year - 1971) * 31556952 ≤ t.seconds ∧ t.seconds ≤ (t.year - 1968) * 31556952 := by
  obtain ⟨h1, hle, hhour, hminute, hsecond⟩ := h
  have hday : t.day ≤ 31 := Nat.le_trans hle (monthLength_le _ _)
  have hmonth := month_of_le_monthLength h1 hle
  unfold seconds dayNumber
  simp only [epochDay]
  split <;> omega

/-- A valid civil time is told by its second. -/
theorem seconds_inj (h : t.Valid) (h' : t'.Valid) (heq : t.seconds = t'.seconds) : t = t' := by
  obtain ⟨h1, hle, hh, hmi, hs⟩ := h
  obtain ⟨h1', hle', hh', hmi', hs'⟩ := h'
  simp only [seconds] at heq
  have hday : dayNumber t.year t.month t.day = dayNumber t'.year t'.month t'.day := by omega
  obtain ⟨hy, hm, hd⟩ := dayNumber_inj h1 hle h1' hle' hday
  have hhour : t.hour = t'.hour := by omega
  have hminute : t.minute = t'.minute := by omega
  have hsecond : t.second = t'.second := by omega
  cases t
  cases t'
  simp only [mk.injEq]
  exact ⟨hy, hm, hd, hhour, hminute, hsecond⟩

/-- **A valid civil time is that of its second.** -/
theorem ofSeconds_seconds (h : t.Valid) : ofSeconds t.seconds = t :=
  seconds_inj (ofSeconds_valid _) h (seconds_ofSeconds _)

end Civil

end NodeClock
