/-!
# Decimal numbers in text

Plain decimal numerals: ASCII digits only, no sign, leading zeros allowed when read and never
written.

* `render`, `padded`, `signed`: numbers as text.
* `read?`: the number of a numeral, up to a bound.
-/

namespace NodeClock.Decimal

/-- The digits of `n`, most significant first. -/
def digits (n : Nat) : List Char := Nat.toDigits 10 n

/-- `n` in decimal, without leading zeros. -/
def render (n : Nat) : String := String.ofList (digits n)

/-- `n` in decimal, with zeros in front up to `width` characters. -/
def padded (width n : Nat) : String :=
  String.ofList (List.replicate (width - (digits n).length) '0' ++ digits n)

/-- `i` in decimal with zeros up to `width` characters, the minus sign of a negative one counted. -/
def paddedInt (width : Nat) (i : Int) : String :=
  if i < 0 then "-" ++ padded (width - 1) i.natAbs else padded width i.natAbs

/-- `i` in decimal, with a minus sign if it is negative. -/
def renderInt (i : Int) : String := if i < 0 then "-" ++ render i.natAbs else render i.natAbs

/-- `i` in decimal, always with a sign. -/
def signed (i : Int) : String := if i < 0 then "-" ++ render i.natAbs else "+" ++ render i.natAbs

/-- A numeral: one or more ASCII digits. -/
def isNumeral (s : List Char) : Bool := !s.isEmpty && s.all Char.isDigit

/-- The value of one digit. -/
def digitValue (c : Char) : Nat := c.toNat - '0'.toNat

/-- The value of a numeral. -/
def value (s : List Char) : Nat := Nat.ofDigitChars 10 s 0

/-- The value of a numeral that is at most `bound`. -/
def read? (bound : Nat) (s : List Char) : Option Nat :=
  if isNumeral s ∧ value s ≤ bound then some (value s) else none

theorem value_digits (n : Nat) : value (digits n) = n :=
  Nat.ofDigitChars_toDigits (by decide) (by decide)

theorem isNumeral_digits (n : Nat) : isNumeral (digits n) = true := by
  simp only [isNumeral, Bool.and_eq_true, Bool.not_eq_true', List.isEmpty_eq_false_iff,
    List.all_eq_true]
  exact ⟨Nat.toDigits_ne_nil, fun c h => Nat.isDigit_of_mem_toDigits (by decide) (by decide) h⟩

theorem read?_digits {n bound : Nat} (h : n ≤ bound) : read? bound (digits n) = some n := by
  simp [read?, isNumeral_digits, value_digits, h]

end NodeClock.Decimal
