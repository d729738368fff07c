import NodeClock.Text.Integer
import NodeClock.Proofs.Authority
import NodeClock.Proofs.Pairs
import NodeClock.Proofs.Reading
import Mathlib.Data.Nat.Digits.Defs

/-!
# Numbers that are read

Three kinds of numbers come from outside: those of pairs, ports, and epoch seconds. Each is a text
of digits, however long, for a number up to a bound of its own.

* `Decimal.Tells`: the texts that tell a number, by the places of their digits.
* `Decimal.tells_iff_zeros`: **these are its own digits behind zeros.**
* `Text.readMagnitude_digits`: digits that are added up one by one never leave the bound unseen.
* `Decimal.read?_eq_readWord`: **a number is read as it is in a word of bounded size**, once texts
  with a sign are put aside.
* `Decimal.readers_exact`: **what each reader takes, and as which number.**
-/

namespace NodeClock

open Coap

/-! ## Texts that tell a number -/

namespace Decimal

variable {s : List Char} {m n bound : Nat}

/-- The text tells the number `n`: it is made of digits, and each place counts ten times as much as
the one after it. -/
structure Tells (s : List Char) (n : Nat) : Prop where
  ne_nil : s ≠ []
  digits : ∀ c ∈ s, c.isDigit = true
  places : Nat.ofDigits 10 (s.reverse.map digitValue) = n

theorem isNumeral_iff : isNumeral s = true ↔ s ≠ [] ∧ ∀ c ∈ s, c.isDigit = true := by
  rw [isNumeral, Bool.and_eq_true, Bool.not_eq_true', List.isEmpty_eq_false_iff, List.all_eq_true]

/-- The value of a text is that of its digits in their places. -/
theorem value_eq_ofDigits (s : List Char) :
    value s = Nat.ofDigits 10 (s.reverse.map digitValue) := by
  induction s using List.reverseRecOn with
  | nil => rfl
  | append_singleton s c ih =>
    have hlast : value (s ++ [c]) = 10 * value s + digitValue c := Nat.ofDigitChars_append 0
    rw [hlast, ih, List.reverse_append, List.reverse_singleton, List.singleton_append,
      List.map_cons, Nat.ofDigits_cons, Nat.add_comm]

theorem tells_iff : Tells s n ↔ s ≠ [] ∧ (∀ c ∈ s, c.isDigit = true) ∧ value s = n := by
  rw [value_eq_ofDigits]
  exact ⟨fun ⟨hne, hdigits, hvalue⟩ => ⟨hne, hdigits, hvalue⟩,
    fun ⟨hne, hdigits, hvalue⟩ => ⟨hne, hdigits, hvalue⟩⟩

theorem tells_digits (n : Nat) : Tells (digits n) n :=
  tells_iff.2 ⟨Nat.toDigits_ne_nil, fun _ hc => isDigit_of_mem_digits hc, value_digits n⟩

/-- Zeros in front change nothing. -/
theorem Tells.zeros (h : Tells s n) (k : Nat) : Tells (List.replicate k '0' ++ s) n := by
  induction k with
  | zero => exact h
  | succ k ih =>
    obtain ⟨-, hdigits, hvalue⟩ := tells_iff.1 ih
    rw [List.replicate_succ, List.cons_append]
    exact tells_iff.2 ⟨List.cons_ne_nil _ _, List.forall_mem_cons.2 ⟨rfl, hdigits⟩, hvalue⟩

/-- **The texts that tell a number are its own digits behind zeros.** -/
theorem tells_iff_zeros : Tells s n ↔ ∃ k, s = List.replicate k '0' ++ digits n := by
  constructor
  · intro h
    obtain ⟨hne, hdigits, hvalue⟩ := tells_iff.1 h
    rw [← hvalue]
    exact eq_digits_value hne hdigits
  · rintro ⟨k, rfl⟩
    exact (tells_digits n).zeros k

/-- A text tells one number at most. -/
theorem Tells.unique (h : Tells s m) (h' : Tells s n) : m = n := h.places.symm.trans h'.places

/-- A text with a character that is no digit tells none. -/
theorem not_tells_of_mem {c : Char} (hc : c ∈ s) (h : c.isDigit = false) : ¬ Tells s n := by
  intro htells
  rw [htells.digits c hc] at h
  cases h

theorem read?_eq_some_iff_tells : read? bound s = some n ↔ Tells s n ∧ n ≤ bound := by
  rw [read?_eq_some_iff, tells_iff, and_assoc, and_assoc]

theorem read?_eq_none_iff_tells : read? bound s = none ↔ ∀ n ≤ bound, ¬ Tells s n := by
  simp only [Option.eq_none_iff_forall_ne_some, ne_eq, read?_eq_some_iff_tells]
  exact ⟨fun h n hn ht => h n ⟨ht, hn⟩, fun h n ⟨ht, hn⟩ => h n hn ht⟩

end Decimal

/-! ## Digits that are added up -/

namespace Text

variable {s : List Char} {n bound : Nat}

/-- The number in a word that holds no more than `bound`: digits, with or without a plus sign in
front of them, that are added up one by one. -/
def readWord (bound : Nat) : List Char → Except IntegerFault Nat
  | [] => .error .empty
  | '+' :: c :: rest => readMagnitude bound .tooLarge 0 (c :: rest)
  | s => readMagnitude bound .tooLarge 0 s

/-- A number only grows with the digits behind it. -/
theorem le_ofDigitChars (s : List Char) (n : Nat) : n ≤ Nat.ofDigitChars 10 s n := by
  induction s generalizing n with
  | nil => exact Nat.le_refl n
  | cons c s ih =>
    have hstep : n ≤ 10 * n + (c.toNat - '0'.toNat) := by omega
    exact Nat.le_trans hstep (ih _)

/-- **Digits that are added up one by one never leave the bound unseen**, however many there
are. -/
theorem readMagnitude_digits (beyond : IntegerFault) (h : ∀ c ∈ s, c.isDigit = true)
    (hn : n ≤ bound) :
    readMagnitude bound beyond n s =
      if Nat.ofDigitChars 10 s n ≤ bound then .ok (Nat.ofDigitChars 10 s n)
      else .error beyond := by
  induction s generalizing n with
  | nil => exact (if_pos hn).symm
  | cons c s ih =>
    obtain ⟨hc, hs⟩ := List.forall_mem_cons.1 h
    have hstep : Nat.ofDigitChars 10 (c :: s) n =
        Nat.ofDigitChars 10 s (n * 10 + Decimal.digitValue c) := by
      rw [Nat.ofDigitChars_cons, Nat.mul_comm 10]
      rfl
    rw [readMagnitude, hc, hstep]
    simp only [Bool.not_true, Bool.false_eq_true, if_false]
    by_cases hm : n * 10 + Decimal.digitValue c > bound
    · -- what is too large once stays so
      have hlarge := le_ofDigitChars s (n * 10 + Decimal.digitValue c)
      rw [if_pos hm, if_neg (by omega)]
    · rw [if_neg hm, ih hs (Nat.le_of_not_gt hm)]

/-- Of a text without a sign the digits are added up. -/
theorem readWord_numeral (bound : Nat) (h : Decimal.isNumeral s = true) :
    readWord bound s =
      if Decimal.value s ≤ bound then .ok (Decimal.value s) else .error .tooLarge := by
  obtain ⟨hne, hdigits⟩ := Decimal.isNumeral_iff.1 h
  unfold readWord
  split
  · exact absurd rfl hne
  · exact absurd (hdigits '+' List.mem_cons_self) (by decide)
  · exact readMagnitude_digits .tooLarge hdigits (Nat.zero_le bound)

/-- Without a sign in front, a signed integer is read like an unsigned one. -/
theorem readInteger_numeral (h : Decimal.isNumeral s = true) :
    readInteger s = (readWord (integerBound - 1) s).map Int.ofNat := by
  obtain ⟨hne, hdigits⟩ := Decimal.isNumeral_iff.1 h
  rw [readWord_numeral _ h]
  unfold readInteger
  split
  · exact absurd rfl hne
  · exact absurd (hdigits '+' List.mem_cons_self) (by decide)
  · exact absurd (hdigits '-' List.mem_cons_self) (by decide)
  · rw [readMagnitude_digits .tooLarge hdigits (Nat.zero_le _)]
    rfl

end Text

namespace Decimal

/-- **A number is read as it is in a word of bounded size**, once texts with a sign are put
aside. -/
theorem read?_eq_readWord (bound : Nat) (s : List Char) :
    read? bound s = if isNumeral s then (Text.readWord bound s).toOption else none := by
  cases h : isNumeral s with
  | false =>
    rw [read?, h, if_neg fun hn => Bool.false_ne_true hn.1]
    rfl
  | true =>
    rw [if_pos rfl, Text.readWord_numeral bound h]
    by_cases hle : value s ≤ bound
    · rw [if_pos hle, read?, if_pos ⟨h, hle⟩]
      rfl
    · rw [if_neg hle, read?, if_neg fun hn => hle hn.2]
      rfl

theorem read?_eq_readInteger (s : List Char) :
    (read? Civil.maxNumber s).map Int.ofNat =
      if isNumeral s then (Text.readInteger s).toOption else none := by
  have hbound : Civil.maxNumber = Text.integerBound - 1 := rfl
  rw [read?_eq_readWord, hbound]
  cases h : isNumeral s with
  | false => rfl
  | true =>
    rw [if_pos rfl, if_pos rfl, Text.readInteger_numeral h]
    cases Text.readWord (Text.integerBound - 1) s <;> rfl

end Decimal

/-! ## The three readers -/

open Decimal (Tells)

/-- The value of a pair is read if it tells a number of 63 bits. -/
theorem Civil.readPair_tells {seen : List (Field × Nat)} {f : Field}
    (hseen : seen.lookup f = none) (s : String) :
    (∀ n, readPair seen (f.pair s) = .ok (f, n) ↔ Tells s.toList n ∧ n ≤ maxNumber) ∧
      ((∀ n ≤ maxNumber, ¬ Tells s.toList n) →
        readPair seen (f.pair s) = .error (.invalidNumber s)) := by
  rw [readPair_pair, hseen, if_neg (by simp)]
  constructor
  · intro n
    rw [← Decimal.read?_eq_some_iff_tells]
    cases Decimal.read? maxNumber s.toList <;> simp
  · intro hnone
    rw [Decimal.read?_eq_none_iff_tells.2 hnone]
    rfl

/-- A port is read if it tells a number from 1 to 65535. -/
theorem Target.readPort_tells (s : List Char) :
    (∀ n, (∃ port, readPort s = .ok port ∧ port.toNat = n) ↔ Tells s n ∧ 1 ≤ n ∧ n ≤ 65535) ∧
      ((∀ n, 1 ≤ n → n ≤ 65535 → ¬ Tells s n) →
        readPort s = .error (.invalidPort (String.ofList s))) := by
  have hport : ∀ port, readPort s = .ok port ↔ Tells s port.toNat ∧ 1 ≤ port.toNat := by
    intro port
    rw [readPort_eq_ok_iff, Decimal.tells_iff]
    constructor
    · intro h
      cases h with
      | given hne hdigits hvalue hpos => exact ⟨⟨hne, hdigits, hvalue⟩, hpos⟩
    · rintro ⟨⟨hne, hdigits, hvalue⟩, hpos⟩
      exact .given hne hdigits hvalue hpos
  constructor
  · intro n
    constructor
    · rintro ⟨port, hread, rfl⟩
      have hlt := port.toNat_lt
      obtain ⟨htells, hpos⟩ := (hport port).1 hread
      exact ⟨htells, hpos, by omega⟩
    · rintro ⟨htells, hpos, hle⟩
      have hn : (UInt16.ofNat n).toNat = n := UInt16.toNat_ofNat_of_lt' (show n < 65536 by omega)
      exact ⟨.ofNat n, (hport _).2 (by rw [hn]; exact ⟨htells, hpos⟩), hn⟩
  · intro hnone
    cases hread : readPort s with
    | ok port =>
      have hlt := port.toNat_lt
      obtain ⟨htells, hpos⟩ := (hport port).1 hread
      exact absurd htells (hnone _ hpos (by omega))
    | error e =>
      unfold readPort at hread
      split at hread
      · cases hread
      · exact hread.symm

/-- A body is read as epoch seconds if its text tells a number of 32 bits, blanks around it put
aside. -/
theorem readEpoch_tells (body : Bytes) :
    (∀ n, readEpoch body = .ok n ↔
      ∃ text, body = Utf8.encode text ∧ Tells (Text.trim text.toList) n ∧ n ≤ Civil.maxEpoch) ∧
      ((∀ text, body = Utf8.encode text →
          ∀ n ≤ Civil.maxEpoch, ¬ Tells (Text.trim text.toList) n) →
        ∃ detail, readEpoch body = .error (.transport (.protocol detail))) := by
  have hread : ∀ n, readEpoch body = .ok n ↔
      ∃ text, body = Utf8.encode text ∧ Tells (Text.trim text.toList) n ∧ n ≤ Civil.maxEpoch := by
    intro n
    rw [readEpoch_eq_ok_iff_trim]
    simp only [Decimal.read?_eq_some_iff_tells]
  refine ⟨hread, fun hnone => ?_⟩
  cases hbody : readEpoch body with
  | ok n =>
    obtain ⟨text, htext, htells, hle⟩ := (hread n).1 hbody
    exact absurd htells (hnone text htext n hle)
  | error e =>
    obtain ⟨detail, rfl⟩ := readEpoch_error hbody
    exact ⟨detail, rfl⟩

/-- **What each reader takes, and as which number.** A text tells a number if it is the digits of
the number behind zeros, as many as there are. The value of a pair whose field has not been given
before is read if it tells a number of 63 bits, a port if it tells one from 1 to 65535, and epoch
seconds if their text, without the blanks around it, tells one of 32 bits. Each is read as the
number that it tells, and all other texts are blamed. Nothing wraps: what is read is what the digits
of a text without a sign add up to in a word that holds the bound and no more. -/
theorem Decimal.readers_exact :
    (∀ (seen : List (Civil.Field × Nat)) (f : Civil.Field) (s : String), seen.lookup f = none →
      (∀ n, Civil.readPair seen (f.pair s) = .ok (f, n) ↔
        Tells s.toList n ∧ n ≤ 2 ^ 63 - 1) ∧
      ((∀ n ≤ 2 ^ 63 - 1, ¬ Tells s.toList n) →
        Civil.readPair seen (f.pair s) = .error (.invalidNumber s))) ∧
    (∀ s : List Char,
      (∀ n, (∃ port, Target.readPort s = .ok port ∧ port.toNat = n) ↔
        Tells s n ∧ 1 ≤ n ∧ n ≤ 65535) ∧
      ((∀ n, 1 ≤ n → n ≤ 65535 → ¬ Tells s n) →
        Target.readPort s = .error (.invalidPort (String.ofList s)))) ∧
    (∀ body : Bytes,
      (∀ n, readEpoch body = .ok n ↔
        ∃ text, body = Utf8.encode text ∧ Tells (Text.trim text.toList) n ∧ n ≤ 2 ^ 32 - 1) ∧
      ((∀ text, body = Utf8.encode text →
          ∀ n ≤ 2 ^ 32 - 1, ¬ Tells (Text.trim text.toList) n) →
        ∃ detail, readEpoch body = .error (.transport (.protocol detail)))) ∧
    (∀ s n, Tells s n ↔ ∃ k, s = List.replicate k '0' ++ digits n) ∧
    (∀ bound s, read? bound s =
      if isNumeral s then (Text.readWord bound s).toOption else none) ∧
    ∀ s, (read? (2 ^ 63 - 1) s).map Int.ofNat =
      if isNumeral s then (Text.readInteger s).toOption else none := by
  have hnumber : Civil.maxNumber = 2 ^ 63 - 1 := by decide
  have hepoch : Civil.maxEpoch = 2 ^ 32 - 1 := by decide
  simp only [← hnumber, ← hepoch]
  exact ⟨fun _ _ s hseen => Civil.readPair_tells hseen s, Target.readPort_tells, readEpoch_tells,
    fun _ _ => tells_iff_zeros, read?_eq_readWord, read?_eq_readInteger⟩

/-- The last number of each range behind zeros, the first one beyond, and texts with a sign, with a
blank inside and with a digit of another script. -/
theorem Decimal.readers_exact_edges :
    let zeros := List.replicate 40 '0'
    let year (value : List Char) := Civil.Field.year.pair (String.ofList value)
    Civil.readPair [] (year (zeros ++ digits 9223372036854775807)) =
        .ok (.year, 9223372036854775807) ∧
      Civil.readPair [] (year (digits 9223372036854775808)) =
        .error (.invalidNumber "9223372036854775808") ∧
      (∃ port, Target.readPort (zeros ++ digits 65535) = .ok port ∧ port.toNat = 65535) ∧
      Target.readPort (digits 65536) = .error (.invalidPort "65536") ∧
      Target.readPort ['+', '5'] = .error (.invalidPort "+5") ∧
      readEpoch (Utf8.encode "\u00A0004294967295\r\n") = .ok 4294967295 ∧
      (∃ detail, readEpoch (Utf8.encode "4 2") = .error (.transport (.protocol detail))) ∧
      ∃ detail, readEpoch (Utf8.encode "\u0661") = .error (.transport (.protocol detail)) := by
  intro zeros year
  obtain ⟨hpair, hport, hepoch, hzeros, -⟩ := readers_exact
  have hword : ∀ n, Tells (zeros ++ digits n) n := fun n => (hzeros _ n).2 ⟨40, rfl⟩
  refine ⟨?_, ?_, ?_, ?_, ?_, ?_, ?_, ?_⟩
  · refine ((hpair [] .year _ rfl).1 _).2 ⟨?_, by decide⟩
    rw [String.toList_ofList]
    exact hword _
  · refine (hpair [] .year _ rfl).2 fun n hn htells => ?_
    rw [String.toList_ofList] at htells
    have hbeyond := htells.unique (tells_digits _)
    omega
  · exact ((hport _).1 _).2 ⟨hword _, by decide, by decide⟩
  · refine (hport _).2 fun n _ hn htells => ?_
    have hbeyond := htells.unique (tells_digits _)
    omega
  · exact (hport _).2 fun n _ _ => not_tells_of_mem List.mem_cons_self (by decide)
  · refine ((hepoch _).1 _).2 ⟨_, rfl, (hzeros _ _).2 ⟨2, by decide⟩, by decide⟩
  · refine (hepoch _).2 fun text htext n _ => ?_
    rw [← Utf8.encode_inj htext]
    exact not_tells_of_mem (c := ' ') (by decide) (by decide)
  · refine (hepoch _).2 fun text htext n _ => ?_
    rw [← Utf8.encode_inj htext]
    exact not_tells_of_mem (c := '\u0661') (by decide) (by decide)

end NodeClock
