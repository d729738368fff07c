import NodeClock.Proofs.Chronology
import Mathlib.Logic.Function.Iterate

/-!
# A ticking clock

A clock that counts seconds and carries, from the second up to the year, shows what the closed
form of the calendar says.

* `monthLengths_eq`: the lengths of the months, with the rule for leap days.
* `Civil.next`, `Civil.tomorrow`: the next second and the next day, by carries alone.
* `Civil.Valid.dayNumber_tomorrow`: the next day has the next number.
* `Civil.Valid.seconds_next`: **one tick is one second.**
* `Civil.iterate_next_ofSeconds`: a clock that ticks on shows the seconds in turn.
* `Civil.next_ticks`: **stepping a clock and counting its seconds agree.**
-/

namespace NodeClock

/-- The months of a year, from January to December. -/
theorem monthLengths_eq (y : Int) :
    (List.range' 1 12).map (monthLength y) =
      [31, if 4 ∣ y ∧ ¬ 100 ∣ y ∨ 400 ∣ y then 29 else 28, 31, 30, 31, 30, 31, 31, 30, 31, 30,
        31] := by
  have hleap : isLeap y = true ↔ 4 ∣ y ∧ ¬ 100 ∣ y ∨ 400 ∣ y := by
    rw [isLeap_iff]
    omega
  have hfebruary : monthLength y 2 = if 4 ∣ y ∧ ¬ 100 ∣ y ∨ 400 ∣ y then 29 else 28 :=
    if_congr hleap rfl rfl
  rw [← hfebruary]
  rfl

theorem one_le_monthLength {m : Nat} (hm : 1 ≤ m ∧ m ≤ 12) (y : Int) : 1 ≤ monthLength y m := by
  obtain ⟨h1, h12⟩ := hm
  have hfebruary : 1 ≤ if isLeap y then 29 else 28 := by split <;> omega
  interval_cases m <;> simp only [monthLength] <;> omega

namespace Civil

/-- Midnight after a civil time: the next day of the month, or else the first of the next month, or
else that of the next year. -/
def tomorrow (t : Civil) : Civil :=
  if t.day < monthLength t.year t.month then ⟨t.year, t.month, t.day + 1, 0, 0, 0⟩
  else if t.month < 12 then ⟨t.year, t.month + 1, 1, 0, 0, 0⟩
  else ⟨t.year + 1, 1, 1, 0, 0, 0⟩

/-- The next second, carried into the minute, the hour and the day. -/
def next (t : Civil) : Civil :=
  if t.second < 59 then { t with second := t.second + 1 }
  else if t.minute < 59 then { t with minute := t.minute + 1, second := 0 }
  else if t.hour < 23 then { t with hour := t.hour + 1, minute := 0, second := 0 }
  else t.tomorrow

variable {t : Civil}

/-! ## The next day -/

theorem tomorrow_midnight (t : Civil) :
    t.tomorrow.hour = 0 ∧ t.tomorrow.minute = 0 ∧ t.tomorrow.second = 0 := by
  fun_cases Civil.tomorrow t <;> exact ⟨rfl, rfl, rfl⟩

theorem Valid.tomorrow (h : t.Valid) : t.tomorrow.Valid := by
  obtain ⟨h1, hd, -⟩ := h
  have hm := month_of_le_monthLength h1 hd
  have hdate : 1 ≤ t.tomorrow.day ∧
      t.tomorrow.day ≤ monthLength t.tomorrow.year t.tomorrow.month := by
    fun_cases Civil.tomorrow t with
    | case1 hday => exact ⟨Nat.succ_pos _, hday⟩
    | case2 _ hmonth =>
      have hrange : 1 ≤ t.month + 1 ∧ t.month + 1 ≤ 12 := by omega
      exact ⟨Nat.le_refl 1, one_le_monthLength hrange _⟩
    | case3 =>
      have hrange : 1 ≤ 1 ∧ 1 ≤ 12 := by decide
      exact ⟨Nat.le_refl 1, one_le_monthLength hrange _⟩
  obtain ⟨hhour, hminute, hsecond⟩ := t.tomorrow_midnight
  exact ⟨hdate.1, hdate.2, by omega, by omega, by omega⟩

/-- **The next day has the next number.** -/
theorem Valid.dayNumber_tomorrow (h : t.Valid) :
    dayNumber t.tomorrow.year t.tomorrow.month t.tomorrow.day =
      dayNumber t.year t.month t.day + 1 := by
  obtain ⟨h1, hd, -⟩ := h
  have hm := month_of_le_monthLength h1 hd
  have hday : ∀ d, 1 ≤ d → dayNumber t.year t.month d = dayNumber t.year t.month 1 + (d - 1) := by
    intro d hd1
    rw [dayNumber_eq hm hd1, dayNumber_eq hm (Nat.le_refl 1)]
    omega
  have htoday := hday t.day h1
  -- a month ends where the next begins, in the same year or at the turn of the year
  fun_cases Civil.tomorrow t with
  | case1 =>
    have hnext := hday (t.day + 1) (by omega)
    simp only
    omega
  | case2 hlast hmonth =>
    have hnext := dayNumber_succ_month (y := t.year) hm.1 (by omega)
    simp only
    omega
  | case3 hlast hmonth =>
    have h12 : t.month = 12 := by omega
    have hnext := dayNumber_succ_year t.year
    rw [← h12] at hnext
    simp only
    omega

/-! ## The next second -/

theorem Valid.next (h : t.Valid) : t.next.Valid := by
  obtain ⟨h1, hd, hh, hmi, hs⟩ := id h
  fun_cases Civil.next t with
  | case1 hsecond => exact ⟨h1, hd, hh, hmi, Nat.succ_lt_succ hsecond⟩
  | case2 _ hminute => exact ⟨h1, hd, hh, Nat.succ_lt_succ hminute, Nat.succ_pos _⟩
  | case3 _ _ hhour => exact ⟨h1, hd, Nat.succ_lt_succ hhour, Nat.succ_pos _, Nat.succ_pos _⟩
  | case4 => exact h.tomorrow

/-- **One tick is one second.** -/
theorem Valid.seconds_next (h : t.Valid) : t.next.seconds = t.seconds + 1 := by
  obtain ⟨-, -, hh, hmi, hs⟩ := id h
  fun_cases Civil.next t with
  | case1 | case2 | case3 =>
    simp only [seconds]
    omega
  | case4 =>
    obtain ⟨hhour, hminute, hsecond⟩ := t.tomorrow_midnight
    rw [seconds, seconds, h.dayNumber_tomorrow, hhour, hminute, hsecond]
    omega

theorem next_ofSeconds (s : Int) : (ofSeconds s).next = ofSeconds (s + 1) := by
  have hvalid := ofSeconds_valid s
  apply seconds_inj hvalid.next (ofSeconds_valid _)
  rw [hvalid.seconds_next, seconds_ofSeconds, seconds_ofSeconds]

/-- **A clock that ticks on shows the seconds in turn.** -/
theorem iterate_next_ofSeconds (s : Int) (k : Nat) : next^[k] (ofSeconds s) = ofSeconds (s + k) := by
  induction k with
  | zero => rw [Function.iterate_zero_apply, Int.natCast_zero, Int.add_zero]
  | succ k ih =>
    rw [Function.iterate_succ_apply', ih, next_ofSeconds, Int.natCast_succ, Int.add_assoc]

/-- **Stepping a clock and counting its seconds agree.** The months are as long as the calendar
says, the next second of a valid civil time is one second later, and what comes after a second of
the count is what the clock shows next. So the civil time of `n` epoch seconds is shown by a clock
that began with 1970 and has ticked `n` times. -/
theorem next_ticks (ht : t.Valid) :
    (∀ y, (List.range' 1 12).map (monthLength y) =
      [31, if 4 ∣ y ∧ ¬ 100 ∣ y ∨ 400 ∣ y then 29 else 28, 31, 30, 31, 30, 31, 31, 30, 31, 30,
        31]) ∧
    t.next.Valid ∧ t.next.secondsSince t = some 1 ∧
    ofEpoch 0 = ⟨1970, 1, 1, 0, 0, 0⟩ ∧
    (∀ s, ofSeconds (s + 1) = (ofSeconds s).next) ∧
    (∀ n : Nat, ofSeconds n = next^[n] ⟨1970, 1, 1, 0, 0, 0⟩) ∧
    (∀ n < maxEpoch, ofEpoch (n + 1) = (ofEpoch n).next) ∧
    ∀ n ≤ maxEpoch, ofEpoch n = next^[n] ⟨1970, 1, 1, 0, 0, 0⟩ := by
  have hstart : ofSeconds 0 = ⟨1970, 1, 1, 0, 0, 0⟩ := by decide
  have hticks (n : Nat) : ofSeconds n = next^[n] ⟨1970, 1, 1, 0, 0, 0⟩ := by
    rw [← hstart, iterate_next_ofSeconds, Int.zero_add]
  refine ⟨monthLengths_eq, ht.next, ?_, by decide, fun s => (next_ofSeconds s).symm, hticks, ?_,
    ?_⟩
  · have hone : t.seconds + 1 - t.seconds = 1 := by omega
    rw [ht.next.secondsSince_eq ht, ht.seconds_next, hone]
  · intro n hn
    rw [ofEpoch_eq_ofSeconds hn, ofEpoch_eq_ofSeconds (Nat.le_of_lt hn), Int.natCast_succ,
      next_ofSeconds]
  · intro n hn
    rw [ofEpoch_eq_ofSeconds hn, hticks]

/-- The last second before a leap day, and that of February in a century without one. -/
theorem next_ticks_february :
    let leap : Civil := ⟨2000, 2, 28, 23, 59, 59⟩
    let century : Civil := ⟨2100, 2, 28, 23, 59, 59⟩
    leap.Valid ∧ leap.next = ⟨2000, 2, 29, 0, 0, 0⟩ ∧ leap.next.secondsSince leap = some 1 ∧
      century.Valid ∧ century.next = ⟨2100, 3, 1, 0, 0, 0⟩ ∧
      century.next.secondsSince century = some 1 := by
  intro leap century
  have hleap : leap.Valid := by decide
  have hcentury : century.Valid := by decide
  obtain ⟨-, -, hone, -⟩ := next_ticks hleap
  obtain ⟨-, -, hone', -⟩ := next_ticks hcentury
  exact ⟨hleap, by decide, hone, hcentury, by decide, hone'⟩

end Civil

end NodeClock
