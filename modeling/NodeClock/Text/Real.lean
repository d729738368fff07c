import NodeClock.Text.Decimal
import NodeClock.Text.Split

/-!
# Real numbers in text

Decimal numerals with a point and an exponent, and the words for what is no finite number. Only
whether a text is one counts.

* `isReal`: a numeral with or without a sign.
-/

namespace NodeClock.Text

/-- The text without a sign in front of it. -/
def dropSign : List Char → List Char
  | '+' :: rest | '-' :: rest => rest
  | s => s

/-- Digits with a point before, between or behind them, or without one. -/
def isMantissa (s : List Char) : Bool :=
  match cut '.' s with
  | some (whole, fraction) => Decimal.isNumeral (whole ++ fraction)
  | none => Decimal.isNumeral s

/-- A numeral without a sign. An exponent begins with `e`. -/
def isMagnitude (s : List Char) : Bool :=
  let s := s.map Char.toLower
  match cut 'e' s with
  | some (mantissa, exponent) => isMantissa mantissa && Decimal.isNumeral (dropSign exponent)
  | none => isMantissa s || String.ofList s ∈ ["nan", "inf", "infinity"]

/-- A numeral with or without a sign. -/
def isReal (s : List Char) : Bool := isMagnitude (dropSign s)

end NodeClock.Text
