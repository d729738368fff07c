import NodeClock.Span.Basic
import NodeClock.Text.Blank

/-!
# Spans in words

A span is written as numbers with units, `1h 30m` or `1.5 s`, which are added up. Blanks may
stand around each part and between digits. Nothing is rounded: what does not come out exact, or
does not fit, is refused.

* `TimeUnit`: the units and their names.
* `Span.ofPhrase`: the span of a phrase.
* `Span.readTimeout`: the same for a span that has to be positive.
* `PhraseError`: why a phrase is refused.
-/

namespace NodeClock

/-- A unit of time. -/
inductive TimeUnit where
  | nano | micro | milli | second | minute | hour | day | week | month | year
  deriving DecidableEq, Repr

namespace TimeUnit

def all : List TimeUnit := [nano, micro, milli, second, minute, hour, day, week, month, year]

/-- The names of a unit. -/
def names : TimeUnit → List String
  | nano => ["ns", "nsec", "nanos"]
  | micro => ["us", "usec", "µs"]
  | milli => ["ms", "msec", "millis"]
  | second => ["s", "sec", "secs", "second", "seconds"]
  | minute => ["m", "min", "mins", "minute", "minutes"]
  | hour => ["h", "hr", "hrs", "hour", "hours"]
  | day => ["d", "day", "days"]
  | week => ["w", "wk", "wks", "week", "weeks"]
  | month => ["M", "month", "months"]
  | year => ["y", "yr", "yrs", "year", "years"]

def ofName? (s : String) : Option TimeUnit := all.find? (·.names.contains s)

/-- Nanoseconds in the unit. A month has 30.44 days and a year 365.25. -/
def nanos : TimeUnit → Nat
  | nano => 1
  | micro => Span.microNanos
  | milli => Span.milliNanos
  | second => Span.secondNanos
  | minute => 60 * Span.secondNanos
  | hour => 3600 * Span.secondNanos
  | day => 86400 * Span.secondNanos
  | week => 604800 * Span.secondNanos
  | month => 2630016 * Span.secondNanos
  | year => 31557600 * Span.secondNanos

/-- What whole numbers of the unit are counted in: nanoseconds below the second, then seconds. -/
def wholeGrain : TimeUnit → Nat
  | nano | micro | milli => 1
  | _ => Span.secondNanos

/-- What fractions of the unit are counted in: nanoseconds up to the minute, then seconds. A
nanosecond has no fractions. -/
def fractionGrain? : TimeUnit → Option Nat
  | nano => none
  | micro | milli | second | minute => some 1
  | _ => some Span.secondNanos

end TimeUnit

/-- Why a phrase is not the span of a timeout. -/
inductive PhraseError where
  | empty
  | numberExpected (offset : Nat)
  | invalidCharacter (offset : Nat)
  | unitNeeded (number : Nat)
  | unknownUnit (name : String)
  | tooLarge
  | notPositive
  deriving DecidableEq, Repr

def PhraseError.message : PhraseError → String
  | empty => "value was empty"
  | numberExpected n => s!"expected number at {Decimal.render n}"
  | invalidCharacter n => s!"invalid character at {Decimal.render n}"
  | unitNeeded n =>
    s!"time unit needed, for example {Decimal.render n}sec or {Decimal.render n}ms"
  | unknownUnit u =>
    "unknown time unit \"" ++ u ++ "\", supported units: ns, us/µs, ms, sec, min, hours, days, " ++
      "weeks, months, years (and few variations)"
  | tooLarge =>
    "number is too large or cannot be represented without a lack of precision " ++
      "(values below 1ns are not supported)"
  | notPositive => "timeout must be positive"

namespace Span

/-- Numbers in a phrase and their products stay below this bound, 2 ^ 64. -/
def wordBound : Nat := 0x10000000000000000

/-- A decimal fraction: `5 / 100` for `.05`. -/
structure Fraction where
  numerator : Nat
  denominator : Nat
  deriving DecidableEq, Repr

/-- `numerator / denominator` units in grains, if that is a whole number. -/
def grains? (unit : TimeUnit) (grain : Nat) (f : Fraction) : Option Nat :=
  let product := f.numerator * (unit.nanos / grain)
  if product < wordBound ∧ product % f.denominator = 0 then some (product / f.denominator)
  else none

/-- The span and `count` grains. Nanoseconds below the second are added up in one word. -/
def plus? (s : Span) (grain count : Nat) : Option Span :=
  let nanos := s.nanos + count * grain
  if grain = 1 ∧ s.nanos % secondNanos + count ≥ wordBound then none
  else if h : nanos ≤ maxNanos then some ⟨nanos, h⟩
  else none

/-- The span and `n` units, with a fraction of one. -/
def plusUnits? (s : Span) (unit : TimeUnit) (n : Nat) (f? : Option Fraction) : Option Span := do
  let s ← s.plus? unit.wholeGrain (← grains? unit unit.wholeGrain ⟨n, 1⟩)
  match f? with
  | none => some s
  | some f =>
    let grain ← unit.fractionGrain?
    s.plus? grain (← grains? unit grain f)

/-- How far a phrase has been read: a number is being looked for, its whole or its fractional
digits are being read, or the letters of its unit. Marks are offsets to blame. -/
inductive PhraseState where
  | seeking (mark : Nat)
  | whole (n : Nat)
  | fraction (n : Nat) (f : Fraction) (mark : Nat)
  | unit (n : Nat) (f? : Option Fraction) (letters : List Char)

def isUnitLetter (c : Char) : Bool := c.isAlpha || c == 'µ'

/-- The sum with one more number and its unit. -/
def close (sum : Option Span) (n : Nat) (f? : Option Fraction) (letters : List Char) :
    Except PhraseError Span :=
  if letters.isEmpty then .error (.unitNeeded n)
  else match TimeUnit.ofName? (String.ofList letters) with
    | none => .error (.unknownUnit (String.ofList letters))
    | some unit =>
      match (sum.getD zero).plusUnits? unit n f? with
      | none => .error .tooLarge
      | some s => .ok s

/-- The number with one more digit, if it fits in a word. -/
def pushDigit (n : Nat) (c : Char) : Except PhraseError Nat :=
  let n := n * 10 + Decimal.digitValue c
  if n < wordBound then .ok n else .error .tooLarge

/-- The fraction with one more digit, if its parts fit in words. -/
def Fraction.push (f : Fraction) (c : Char) : Except PhraseError Fraction :=
  let g : Fraction := ⟨f.numerator * 10 + Decimal.digitValue c, f.denominator * 10⟩
  if g.numerator < wordBound ∧ g.denominator < wordBound then .ok g else .error .tooLarge

/-- Reads a phrase from the byte offset `offset` on, `sum` being the numbers read before. -/
def scan (st : PhraseState) (sum : Option Span) (offset : Nat) :
    List Char → Except PhraseError Span
  | [] =>
    match st with
    | .seeking _ => sum.elim (.error .empty) .ok
    | .whole n => close sum n none []
    | .fraction n f mark =>
      if f.denominator = 1 then .error (.invalidCharacter mark) else close sum n (some f) []
    | .unit n f? letters => close sum n f? letters
  | c :: rest => do
    let next := offset + c.utf8Size
    match st with
    | .seeking mark =>
      if c.isDigit then scan (.whole (Decimal.digitValue c)) sum next rest
      else if Text.isBlank c then scan (.seeking mark) sum next rest
      else .error (.numberExpected mark)
    | .whole n =>
      if c.isDigit then scan (.whole (← pushDigit n c)) sum next rest
      else if Text.isBlank c then scan (.whole n) sum next rest
      else if isUnitLetter c then scan (.unit n none [c]) sum next rest
      else if c = '.' then scan (.fraction n ⟨0, 1⟩ offset) sum next rest
      else .error (.invalidCharacter offset)
    | .fraction n f mark =>
      if c.isDigit then scan (.fraction n (← f.push c) next) sum next rest
      else if Text.isBlank c then scan (.fraction n f next) sum next rest
      else if isUnitLetter c ∧ f.denominator ≠ 1 then scan (.unit n (some f) [c]) sum next rest
      else .error (.invalidCharacter mark)
    | .unit n f? letters =>
      if isUnitLetter c then scan (.unit n f? (letters ++ [c])) sum next rest
      else if c.isDigit then
        scan (.whole (Decimal.digitValue c)) (some (← close sum n f? letters)) next rest
      else if Text.isBlank c then
        scan (.seeking next) (some (← close sum n f? letters)) next rest
      else .error (.invalidCharacter offset)

/-- The span of a phrase. A zero needs no unit if it stands alone. -/
def ofPhrase (s : String) : Except PhraseError Span :=
  if s = "0" then .ok zero else scan (.seeking 0) none 0 s.toList

/-- The span of a phrase that gives a timeout. -/
def readTimeout (s : String) : Except PhraseError Span :=
  match ofPhrase s with
  | .error e => .error e
  | .ok span => if span = zero then .error .notPositive else .ok span

end Span

end NodeClock
