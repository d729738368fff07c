import NodeClock.Proofs.QueryText
import Mathlib.Order.Defs.LinearOrder

/-!
# Earlier and later

The fields of civil times, compared one by one, tell which of two is earlier, and by how much they
differ is told by their seconds.

* `Civil.order_eq_lt_iff`, `order_eq_eq_iff`, `order_swap`: the order, field by field.
* `Civil.Valid.seconds_lt`: an earlier civil time has an earlier second.
* `Civil.order_eq_compare`: **valid civil times are ordered as their seconds are.**
* `Civil.epoch_eq_ok_iff`, `epoch_eq_error_iff`: which civil times have epoch seconds.
* `Civil.secondsSince_order`: **order, equality and difference agree.**
* `Civil.epoch_bijection`: **epoch seconds and the civil times between their bounds are one to one
  and in the same order.**
-/

namespace NodeClock.Civil

variable {a b c t : Civil} {n : Nat} {e : TimeError}

/-! ## The order -/

theorem order_eq_lt_iff :
    order a b = .lt ↔
      a.year < b.year ∨ a.year = b.year ∧ (a.month < b.month ∨ a.month = b.month ∧
        (a.day < b.day ∨ a.day = b.day ∧ (a.hour < b.hour ∨ a.hour = b.hour ∧
          (a.minute < b.minute ∨ a.minute = b.minute ∧ a.second < b.second)))) := by
  simp only [order, Ordering.then_eq_lt, compare_lt_iff_lt, compare_eq_iff_eq]

theorem order_eq_eq_iff : order a b = .eq ↔ a = b := by
  simp only [order, Ordering.then_eq_eq, compare_eq_iff_eq]
  constructor
  · rintro ⟨hy, hm, hd, hh, hmi, hs⟩
    cases a
    cases b
    simp only [mk.injEq]
    exact ⟨hy, hm, hd, hh, hmi, hs⟩
  · rintro rfl
    exact ⟨rfl, rfl, rfl, rfl, rfl, rfl⟩

theorem order_swap (a b : Civil) : (order a b).swap = order b a := by
  simp only [order, Ordering.swap_then, ← Std.OrientedCmp.eq_swap]

theorem order_eq_gt_iff : order a b = .gt ↔ order b a = .lt := by
  rw [← order_swap a b, Ordering.swap_eq_lt]

/-! ## Order and seconds -/

/-- On an earlier day, every second is earlier. -/
theorem Valid.seconds_lt_of_day (ha : a.Valid)
    (h : dayNumber a.year a.month a.day < dayNumber b.year b.month b.day) :
    a.seconds < b.seconds := by
  obtain ⟨-, -, hh, hmi, hs⟩ := ha
  simp only [seconds]
  omega

/-- **An earlier civil time has an earlier second.** -/
theorem Valid.seconds_lt (ha : a.Valid) (hb : b.Valid) (h : order a b = .lt) :
    a.seconds < b.seconds := by
  obtain ⟨hd1, hd, hh, hmi, hs⟩ := id ha
  obtain ⟨hd1', hd', hh', hmi', hs'⟩ := id hb
  have hm := month_of_le_monthLength hd1 hd
  have hm' := month_of_le_monthLength hd1' hd'
  rw [order_eq_lt_iff] at h
  -- an earlier month or an earlier day is an earlier day number; else only the time of day counts
  rcases h with hy | ⟨hy, hmonth | ⟨hmonth, hday | ⟨hday, hclock⟩⟩⟩
  · exact ha.seconds_lt_of_day (dayNumber_lt hd1 hd hd1' hd' (by omega))
  · exact ha.seconds_lt_of_day (dayNumber_lt hd1 hd hd1' hd' (by omega))
  · refine ha.seconds_lt_of_day ?_
    rw [dayNumber_eq hm hd1, dayNumber_eq hm' hd1', hy, hmonth]
    omega
  · rw [seconds, seconds, hy, hmonth, hday]
    omega

/-- **Valid civil times are ordered as their seconds are.** -/
theorem order_eq_compare (ha : a.Valid) (hb : b.Valid) :
    order a b = compare a.seconds b.seconds := by
  cases h : order a b with
  | lt => exact (compare_lt_iff_lt.2 (ha.seconds_lt hb h)).symm
  | eq =>
    rw [order_eq_eq_iff.1 h]
    exact (compare_eq_iff_eq.2 rfl).symm
  | gt => exact (compare_gt_iff_gt.2 (hb.seconds_lt ha (order_eq_gt_iff.1 h))).symm

theorem Valid.secondsSince_eq (ha : a.Valid) (hb : b.Valid) :
    a.secondsSince b = some (a.seconds - b.seconds) := by
  simp [Civil.secondsSince, seconds?, ha, hb]

/-! ## Epoch seconds -/

theorem Valid.epoch_eq (h : t.Valid) :
    t.epoch = if 0 ≤ t.seconds ∧ t.seconds ≤ maxEpoch then .ok t.seconds.toNat
      else .error .epochOverflow := by
  rw [Civil.epoch, seconds?, if_pos h]

theorem seconds_ofEpoch (h : n ≤ maxEpoch) : (ofEpoch n).seconds = n := by
  rw [ofEpoch_eq_ofSeconds h, seconds_ofSeconds]

theorem ofEpoch_valid (h : n ≤ maxEpoch) : (ofEpoch n).Valid := by
  rw [ofEpoch_eq_ofSeconds h]
  exact ofSeconds_valid _

/-- A civil time has epoch seconds exactly if it is the civil time of these. -/
theorem epoch_eq_ok_iff : t.epoch = .ok n ↔ n ≤ maxEpoch ∧ ofEpoch n = t := by
  constructor
  · intro h
    have ht : t.Valid := by
      by_contra hnot
      rw [Civil.epoch, seconds?, if_neg hnot] at h
      cases h
    by_cases hin : 0 ≤ t.seconds ∧ t.seconds ≤ maxEpoch
    · obtain ⟨k, hk, hok, hback⟩ := ofEpoch_epoch ht hin.1 hin.2
      have hkn : k = n := Except.ok.inj (hok.symm.trans h)
      rw [← hkn]
      exact ⟨hk, hback⟩
    · rw [ht.epoch_eq, if_neg hin] at h
      cases h
  · rintro ⟨hn, rfl⟩
    rw [(ofEpoch_valid hn).epoch_eq, seconds_ofEpoch hn, if_pos ⟨by omega, by omega⟩,
      Int.toNat_natCast]

/-- A valid civil time lies to an epoch second as its own second does. -/
theorem Valid.order_ofEpoch (h : t.Valid) (hn : n ≤ maxEpoch) :
    order t (ofEpoch n) = compare t.seconds n := by
  rw [order_eq_compare h (ofEpoch_valid hn), seconds_ofEpoch hn]

/-- **A valid civil time has no epoch seconds** exactly if it lies before the first or after the
last. -/
theorem Valid.epoch_eq_error_iff (h : t.Valid) :
    t.epoch = .error e ↔
      e = .epochOverflow ∧ (order t (ofEpoch 0) = .lt ∨ order t (ofEpoch maxEpoch) = .gt) := by
  rw [h.order_ofEpoch (Nat.zero_le _), h.order_ofEpoch (Nat.le_refl _), compare_lt_iff_lt,
    compare_gt_iff_gt, h.epoch_eq]
  by_cases hin : 0 ≤ t.seconds ∧ t.seconds ≤ maxEpoch
  · rw [if_pos hin]
    constructor
    · rintro ⟨⟩
    · rintro ⟨-, hout⟩
      omega
  · rw [if_neg hin]
    constructor
    · rintro ⟨⟩
      exact ⟨rfl, by omega⟩
    · rintro ⟨rfl, -⟩
      rfl

/-! ## Main results -/

/-- **Order, equality and difference agree.** However three civil times have come about, they
differ by numbers of seconds. The sign of a difference tells which time is earlier, turns with the
times exchanged, and differences add up. -/
theorem secondsSince_order (ha : a.Arises) (hb : b.Arises) (hc : c.Arises) :
    ∃ d d' : Int, a.secondsSince b = some d ∧ b.secondsSince c = some d' ∧
      b.secondsSince a = some (-d) ∧ a.secondsSince c = some (d + d') ∧
      (d < 0 ↔ order a b = .lt) ∧ (d = 0 ↔ order a b = .eq) ∧ (0 < d ↔ order a b = .gt) ∧
      (d = 0 ↔ a = b) := by
  have horder := order_eq_compare ha.valid hb.valid
  have heq : a.seconds - b.seconds = 0 ↔ order a b = .eq := by
    rw [horder, compare_eq_iff_eq]
    omega
  refine ⟨a.seconds - b.seconds, b.seconds - c.seconds, ha.valid.secondsSince_eq hb.valid,
    hb.valid.secondsSince_eq hc.valid, ?_, ?_, ?_, heq, ?_, heq.trans order_eq_eq_iff⟩
  · rw [hb.valid.secondsSince_eq ha.valid, Int.neg_sub]
  · have hsum : a.seconds - b.seconds + (b.seconds - c.seconds) = a.seconds - c.seconds := by omega
    rw [ha.valid.secondsSince_eq hc.valid, hsum]
  · rw [horder, compare_lt_iff_lt]
    omega
  · rw [horder, compare_gt_iff_gt]
    omega

/-- The last second before the year 0 and the first one in it. -/
theorem secondsSince_order_yearZero :
    let before : Civil := ⟨-1, 12, 31, 23, 59, 59⟩
    let after : Civil := ⟨0, 1, 1, 0, 0, 0⟩
    before.Arises ∧ after.Arises ∧ before.secondsSince after = some (-1) ∧
      after.secondsSince before = some 1 ∧ order before after = .lt := by
  intro before after
  have hshown : Civil.ofInstant (-62167219201) 0 0 = before := by decide
  have hshown' : Civil.ofInstant (-62167219200) 0 0 = after := by decide
  have hbefore : before.Arises := by
    rw [← hshown]
    exact .ofInstant (by decide) (by decide) (by decide) (by decide)
  have hafter : after.Arises := by
    rw [← hshown']
    exact .ofInstant (by decide) (by decide) (by decide) (by decide)
  have hvalue : before.secondsSince after = some (-1) := by decide
  obtain ⟨d, d', hd, -, hback, -, hless, -⟩ := secondsSince_order hbefore hafter hafter
  have hd1 : d = -1 := Option.some.inj (hd.symm.trans hvalue)
  rw [hd1] at hback hless
  exact ⟨hbefore, hafter, hvalue, hback, hless.1 (by decide)⟩

/-- **Epoch seconds and civil times are one to one**, and in the same order. An epoch second comes
back from its civil time. However a civil time has come about, it comes back from its epoch
seconds, and it has none exactly if it lies before the first or after the last time that has. Any
second, with or without a count of 32 bits, lies before an epoch second exactly if it is less. -/
theorem epoch_bijection {n : Nat} (hn : n ≤ maxEpoch) (ht : t.Arises) :
    (ofEpoch n).epoch = .ok n ∧
    (∀ k, t.epoch = .ok k → k ≤ maxEpoch ∧ ofEpoch k = t) ∧
    (∀ e, t.epoch = .error e ↔
      e = .epochOverflow ∧ (order t (ofEpoch 0) = .lt ∨ order t (ofEpoch maxEpoch) = .gt)) ∧
    ofEpoch 0 = ⟨1970, 1, 1, 0, 0, 0⟩ ∧ ofEpoch maxEpoch = ⟨2106, 2, 7, 6, 28, 15⟩ ∧
    (∀ s : Int, s < n ↔ order (ofSeconds s) (ofEpoch n) = .lt) ∧
    ∀ m ≤ maxEpoch, m < n ↔ order (ofEpoch m) (ofEpoch n) = .lt := by
  have hless (s : Int) : s < n ↔ order (ofSeconds s) (ofEpoch n) = .lt := by
    rw [(ofSeconds_valid s).order_ofEpoch hn, seconds_ofSeconds, compare_lt_iff_lt]
  refine ⟨epoch_eq_ok_iff.2 ⟨hn, rfl⟩, fun k hk => epoch_eq_ok_iff.1 hk,
    fun e => ht.valid.epoch_eq_error_iff, by decide, by decide, hless, ?_⟩
  intro m hm
  rw [ofEpoch_eq_ofSeconds hm, ← hless m]
  omega

/-- The last second that has a count, and the one after it. -/
theorem epoch_bijection_last :
    let last : Civil := ⟨2106, 2, 7, 6, 28, 15⟩
    let late : Civil := ⟨2106, 2, 7, 6, 28, 16⟩
    last.epoch = .ok maxEpoch ∧ late.Arises ∧ late.epoch = .error .epochOverflow ∧
      order (ofEpoch 0) last = .lt := by
  intro last late
  have hlate : late.Arises := .ofValues (v := late.get) (by rfl)
  obtain ⟨hback, -, hnone, -, hlast, -, hless⟩ := epoch_bijection (Nat.le_refl maxEpoch) hlate
  have hafter : order late (ofEpoch maxEpoch) = .gt := by decide
  rw [hlast] at hback hless
  exact ⟨hback, hlate, (hnone _).2 ⟨rfl, Or.inr hafter⟩,
    (hless 0 (Nat.zero_le _)).1 (by decide)⟩

end NodeClock.Civil
