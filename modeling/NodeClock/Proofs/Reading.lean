import NodeClock.Proofs.ReadBack
import NodeClock.Proofs.SetRead

/-!
# What a reading tells

A node tells its clock as a text of digits. If the text can be read, the reading is exact: no
default stands in for a date or for a difference that could not be found.

* `EpochText`, `readEpoch_eq_ok_iff`: **the bodies that are read as epoch seconds.**
* `Reading.ofAnswer_eq_ok_iff`, `ofAnswer_garbled`, `ofAnswer_rejected`: what an answer is.
* `Reading.ofAnswer_exact`: **a reading tells what the node told**, and nothing else is a reading.
-/

namespace NodeClock

open Coap

variable {body : Bytes} {n : Nat}

/-! ## Bodies that are read -/

/-- The body tells a number of seconds: in UTF-8, by digits alone, with or without blanks around
them. -/
def EpochText (body : Bytes) (n : Nat) : Prop :=
  ∃ before digits after : List Char,
    body = Utf8.encode (String.ofList (before ++ digits ++ after)) ∧
    (∀ c ∈ before, Text.isBlank c = true) ∧ (∀ c ∈ after, Text.isBlank c = true) ∧
    digits ≠ [] ∧ (∀ c ∈ digits, c.isDigit = true) ∧ Decimal.value digits = n

/-- A body is read if its text without blanks is a number. -/
theorem readEpoch_eq_ok_iff_trim : readEpoch body = .ok n ↔
    ∃ s, body = Utf8.encode s ∧ Decimal.read? Civil.maxEpoch (Text.trim s.toList) = some n := by
  simp only [← Utf8.decode?_eq_some_iff]
  unfold readEpoch
  cases Utf8.decode? body with
  | none => simp
  | some s =>
    simp only [Option.some.injEq, exists_eq_left']
    cases hnumeral : Decimal.isNumeral (Text.trim s.toList) with
    | false =>
      have hnone : Decimal.read? Civil.maxEpoch (Text.trim s.toList) = none := by
        rw [Decimal.read?, hnumeral, if_neg fun h => Bool.false_ne_true h.1]
      simp [hnone]
    | true =>
      simp only [Bool.not_true, Bool.false_eq_true, if_false]
      cases Decimal.read? Civil.maxEpoch (Text.trim s.toList) with
      | none => simp
      | some m => rw [Except.ok.injEq, Option.some.injEq]

/-- **The bodies that are read as epoch seconds** are those that tell a number of 32 bits. -/
theorem readEpoch_eq_ok_iff : readEpoch body = .ok n ↔ EpochText body n ∧ n ≤ Civil.maxEpoch := by
  rw [readEpoch_eq_ok_iff_trim]
  constructor
  · rintro ⟨s, rfl, hread⟩
    obtain ⟨hne, hdigits, hvalue, hle⟩ := Decimal.read?_eq_some_iff.1 hread
    obtain ⟨before, after, hs, hbefore, hafter⟩ := Text.exists_trim s.toList
    refine ⟨⟨before, _, after, ?_, hbefore, hafter, hne, hdigits, hvalue⟩, hle⟩
    rw [← hs, String.ofList_toList]
  · rintro ⟨⟨before, digits, after, rfl, hbefore, hafter, hne, hdigits, hvalue⟩, hle⟩
    have hblank : ∀ c ∈ digits, Text.isBlank c = false := fun c hc =>
      Target.isBlank_eq_false_of_isDigit (hdigits c hc)
    have htrim : Text.trim (before ++ digits ++ after) = digits :=
      Text.trim_append hbefore (fun c hc => hblank c (List.mem_of_mem_head? hc))
        (fun c hc => hblank c (List.mem_of_getLast? hc)) hafter
    refine ⟨_, rfl, ?_⟩
    rw [String.toList_ofList, htrim]
    exact Decimal.read?_eq_some_iff.2 ⟨hne, hdigits, hvalue, hle⟩

/-! ## Readings -/

namespace Reading

/-- An answer of another class than 2 is a rejection. -/
theorem ofAnswer_rejected {r : Response} (h : r.code.cls ≠ 2) (now : Civil) :
    ofAnswer now (.ok r) = .error (.rejected r.code) := by
  have hcode : r.code.isSuccess = false := beq_eq_false_iff_ne.2 h
  simp only [ofAnswer, hcode, Bool.not_false, if_true]

/-- An answer of class 2 is what its body is. -/
theorem ofAnswer_accepted {r : Response} (h : r.code.cls = 2) (now : Civil) :
    ofAnswer now (.ok r) = (readEpoch r.payload).map (ofEpoch · now) := by
  have hcode : r.code.isSuccess = true := beq_iff_eq.2 h
  simp only [ofAnswer, hcode, Bool.not_true, Bool.false_eq_true, if_false]
  cases readEpoch r.payload <;> rfl

/-- **What an answer of class 2 is read as.** -/
theorem ofAnswer_eq_ok_iff {r : Response} (h : r.code.cls = 2) {now : Civil} {reading : Reading} :
    ofAnswer now (.ok r) = .ok reading ↔
      ∃ n ≤ Civil.maxEpoch, EpochText r.payload n ∧ reading = ofEpoch n now := by
  rw [ofAnswer_accepted h]
  constructor
  · intro hread
    cases hbody : readEpoch r.payload with
    | error e =>
      rw [hbody] at hread
      cases hread
    | ok n =>
      rw [hbody] at hread
      obtain ⟨htext, hn⟩ := readEpoch_eq_ok_iff.1 hbody
      exact ⟨n, hn, htext, (Except.ok.inj hread).symm⟩
  · rintro ⟨n, hn, htext, rfl⟩
    rw [readEpoch_eq_ok_iff.2 ⟨htext, hn⟩]
    rfl

/-- An answer of class 2 with any other body is an unexpected reply. -/
theorem ofAnswer_garbled {r : Response} (h : r.code.cls = 2)
    (hbody : ∀ n ≤ Civil.maxEpoch, ¬ EpochText r.payload n) (now : Civil) :
    ∃ detail, ofAnswer now (.ok r) = .error (.transport (.protocol detail)) := by
  rw [ofAnswer_accepted h]
  cases hread : readEpoch r.payload with
  | error e =>
    obtain ⟨detail, rfl⟩ := readEpoch_error hread
    exact ⟨detail, rfl⟩
  | ok n =>
    obtain ⟨htext, hn⟩ := readEpoch_eq_ok_iff.1 hread
    exact absurd htext (hbody n hn)

/-- **A reading tells what the node told.** Let the local clock show second `s` of UTC when an
answer comes. If its code is not of class 2, it is a rejection by this code, whatever its body says.
If it is, the answer is a reading just if its body tells a number of 32 bits, and the reading has
this number, its date, and its distance from `s`; any other body is an unexpected reply. No default
is taken: the number has a date, which counts the same number, and the dates have a difference. -/
theorem ofAnswer_exact (s : Int) (nanos : Nat) (zone : Int) (r : Response) :
    let now := ClockSource.utc.timeAt s nanos zone
    (r.code.cls ≠ 2 → ofAnswer now (.ok r) = .error (.rejected r.code)) ∧
    (r.code.cls = 2 →
      (∀ reading, ofAnswer now (.ok r) = .ok reading ↔
        ∃ n ≤ Civil.maxEpoch, EpochText r.payload n ∧
          reading = { remote := Civil.ofEpoch n, epoch := n, localTime := now, offset := n - s }) ∧
      ((∀ n ≤ Civil.maxEpoch, ¬ EpochText r.payload n) →
        ∃ detail, ofAnswer now (.ok r) = .error (.transport (.protocol detail)))) ∧
    ∀ n ≤ Civil.maxEpoch, (Civil.ofEpoch n).epoch = .ok n ∧
      Civil.ofTimestamp? n = some (Civil.ofEpoch n) ∧
      (Civil.ofEpoch n).secondsSince now = some (n - s) := by
  intro now
  have hnow : now = Civil.ofSeconds s := ClockSource.timeAt_utc s nanos zone
  refine ⟨fun hcls => ofAnswer_rejected hcls now, fun hcls => ⟨fun reading => ?_, fun hbody => ?_⟩,
    fun n hn => ?_⟩
  · rw [ofAnswer_eq_ok_iff hcls, hnow]
    constructor
    · rintro ⟨n, hn, htext, rfl⟩
      exact ⟨n, hn, htext, ofEpoch_ofSeconds hn s⟩
    · rintro ⟨n, hn, htext, rfl⟩
      exact ⟨n, hn, htext, (ofEpoch_ofSeconds hn s).symm⟩
  · exact ofAnswer_garbled hcls hbody now
  · -- the number has a date, and both dates are valid, so that nothing is left to a default
    have hdate : Civil.ofTimestamp? n = some (Civil.ofEpoch n) := by
      rw [Civil.ofEpoch_eq_ofSeconds hn]
      exact Civil.ofTimestamp?_eq_some hn
    have hdiff := (Civil.ofEpoch_valid hn).secondsSince_eq (Civil.ofSeconds_valid s)
    rw [Civil.seconds_ofEpoch hn, Civil.seconds_ofSeconds, ← hnow] at hdiff
    exact ⟨Civil.epoch_eq_ok_iff.2 ⟨hn, rfl⟩, hdate, hdiff⟩

/-- The last second of 32 bits, between blanks; the first one too many; and a rejection with a body
that could be read. -/
theorem ofAnswer_exact_lastSecond :
    let now := ClockSource.utc.timeAt 1735684200 0 3600
    let body (text : String) : Bytes := Utf8.encode text
    ofAnswer now (.ok { code := .ofParts 2 5, payload := body "\u00A04294967295\r\n" }) =
        .ok { remote := ⟨2106, 2, 7, 6, 28, 15⟩, epoch := 4294967295,
              localTime := ⟨2024, 12, 31, 22, 30, 0⟩, offset := 2559283095 } ∧
      (∃ detail, ofAnswer now (.ok { code := .ofParts 2 5, payload := body "4294967296" }) =
        .error (.transport (.protocol detail))) ∧
      ofAnswer now (.ok { code := .ofParts 4 4, payload := body "4294967295" }) =
        .error (.rejected (.ofParts 4 4)) := by
  intro now body
  have hsuccess : (ResponseCode.ofParts 2 5).cls = 2 := by decide
  have htext : EpochText (body "\u00A04294967295\r\n") 4294967295 :=
    ⟨['\u00A0'], "4294967295".toList, ['\r', '\n'], rfl, List.all_eq_true.1 (by decide),
      List.all_eq_true.1 (by decide), by simp, List.all_eq_true.1 (by cbv), by cbv⟩
  have hremote : Civil.ofEpoch 4294967295 = ⟨2106, 2, 7, 6, 28, 15⟩ := by decide
  have hnow : now = ⟨2024, 12, 31, 22, 30, 0⟩ := by decide
  have hdiff : ((4294967295 : Nat) : Int) - 1735684200 = 2559283095 := by decide
  have hnone : ∀ n ≤ Civil.maxEpoch, ¬ EpochText (body "4294967296") n := by
    intro n hn htext
    obtain ⟨text, hbody, hread⟩ := readEpoch_eq_ok_iff_trim.1 (readEpoch_eq_ok_iff.2 ⟨htext, hn⟩)
    have htext : some text = some "4294967296" := by
      rw [← Utf8.decode?_encode text, ← hbody, Utf8.decode?_encode]
    have htrim : Text.trim "4294967296".toList = "4294967296".toList := by decide
    have hlarge : Decimal.read? Civil.maxEpoch "4294967296".toList = none := by cbv
    rw [Option.some.inj htext, htrim, hlarge] at hread
    cases hread
  obtain ⟨-, hread, -⟩ := ofAnswer_exact 1735684200 0 3600
    { code := .ofParts 2 5, payload := body "\u00A04294967295\r\n" }
  obtain ⟨-, hunread, -⟩ := ofAnswer_exact 1735684200 0 3600
    { code := .ofParts 2 5, payload := body "4294967296" }
  obtain ⟨hrejected, -⟩ := ofAnswer_exact 1735684200 0 3600
    { code := .ofParts 4 4, payload := body "4294967295" }
  refine ⟨?_, (hunread hsuccess).2 hnone, hrejected (by decide)⟩
  refine ((hread hsuccess).1 _).2 ⟨4294967295, by decide, htext, ?_⟩
  rw [hremote, hdiff, ← hnow]

end Reading

end NodeClock
