import NodeClock.Text.Decimal

/-!
# Signed integers in text

Integers of 64 bits, with an optional sign. The digits are judged one after another, so that a
number is found too large before what follows its first digits is looked at.

* `readInteger`: the integer of a text.
* `IntegerFault`: why a text is none.
-/

namespace NodeClock.Text

/-- Why a text is not an integer of 64 bits. -/
inductive IntegerFault where
  | empty | invalidDigit | tooLarge | tooSmall
  deriving DecidableEq, Repr

def IntegerFault.message : IntegerFault → String
  | empty => "cannot parse integer from empty string"
  | invalidDigit => "invalid digit found in string"
  | tooLarge => "number too large to fit in target type"
  | tooSmall => "number too small to fit in target type"

/-- The number with the digits that follow it, at most `bound`. -/
def readMagnitude (bound : Nat) (beyond : IntegerFault) (n : Nat) :
    List Char → Except IntegerFault Nat
  | [] => .ok n
  | c :: rest =>
    if !c.isDigit then .error .invalidDigit
    else
      let m := n * 10 + Decimal.digitValue c
      if m > bound then .error beyond else readMagnitude bound beyond m rest

/-- One more than the greatest integer, and the magnitude of the least one: 2 ^ 63. -/
def integerBound : Nat := 0x8000000000000000

/-- The integer of a text. -/
def readInteger (s : List Char) : Except IntegerFault Int :=
  match s with
  | [] => .error .empty
  | '+' :: c :: rest => (readMagnitude (integerBound - 1) .tooLarge 0 (c :: rest)).map Int.ofNat
  | '-' :: c :: rest => (readMagnitude integerBound .tooSmall 0 (c :: rest)).map fun n => -(n : Int)
  | s => (readMagnitude (integerBound - 1) .tooLarge 0 s).map Int.ofNat

end NodeClock.Text
