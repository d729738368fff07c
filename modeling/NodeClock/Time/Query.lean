import NodeClock.Text.Split
import NodeClock.Time.Calendar

/-!
# Civil times as query pairs and as epoch seconds

A civil time travels as six pairs `key=value` or as one 32-bit count of seconds.

* `TimeError`: why fields do not form a time.
* `Civil.ofValues`: a civil time from six values.
* `Civil.pairs`, `Civil.ofPairs`: the pairs written and read, in any order.
* `Civil.query`, `Civil.ofQuery`: the pairs joined by `&`.
* `Civil.epoch`, `Civil.ofEpoch`: seconds from 1970 in 32 bits.
* `Civil.ofTimestamp?`: the seconds for which there is a date.
-/

namespace NodeClock

/-- Why fields do not form a time. -/
inductive TimeError where
  | outOfRange (field : Civil.Field) (value : Int)
  | nonexistentDate (year : Int) (month day : Nat)
  | missingField (field : Civil.Field)
  | duplicateField (field : Civil.Field)
  | unknownField (key : String)
  | malformedPair (pair : String)
  | invalidNumber (text : String)
  | epochOverflow
  deriving DecidableEq, Repr

def TimeError.message : TimeError → String
  | .outOfRange f v => s!"time field '{f.key}' out of range: {Decimal.renderInt v}"
  | .nonexistentDate y m d =>
    s!"date does not exist: {Decimal.paddedInt 4 y}-{Decimal.padded 2 m}-{Decimal.padded 2 d}"
  | .missingField f => s!"missing time field '{f.key}'"
  | .duplicateField f => s!"duplicate time field '{f.key}'"
  | .unknownField k => s!"unknown time field '{k}'"
  | .malformedPair p => s!"malformed query pair '{p}'"
  | .invalidNumber t => s!"not a decimal integer: '{t}'"
  | .epochOverflow => "time is outside the 32-bit epoch range"

namespace Civil

/-- The civil time with these values. The first field out of range is blamed, and a date only
when every field is in range. -/
def ofValues (v : Field → Int) : Except TimeError Civil :=
  match Field.all.find? fun f => !f.admits (v f) with
  | some f => .error (.outOfRange f (v f))
  | none =>
    let t : Civil :=
      { year := v .year, month := (v .month).toNat, day := (v .day).toNat,
        hour := (v .hour).toNat, minute := (v .minute).toNat, second := (v .second).toNat }
    if t.day ≤ monthLength t.year t.month then .ok t
    else .error (.nonexistentDate t.year t.month t.day)

/-- One field as `key=value`. -/
def pair (t : Civil) (f : Field) : String := f.key ++ "=" ++ Decimal.renderInt (t.get f)

/-- The six pairs, the year first. -/
def pairs (t : Civil) : List String := Field.all.map t.pair

/-- The six pairs joined by `&`. -/
def query (t : Civil) : String := "&".intercalate t.pairs

/-- The greatest number that a pair may carry, 2 ^ 63 - 1. -/
def maxNumber : Nat := 0x7FFFFFFFFFFFFFFF

/-- The field and number of one pair, given the fields seen before it. -/
def readPair (seen : List (Field × Nat)) (pair : String) : Except TimeError (Field × Nat) :=
  match Text.cut '=' pair.toList with
  | none => .error (.malformedPair pair)
  | some (key, value) =>
    match Field.ofKey? (String.ofList key) with
    | none => .error (.unknownField (String.ofList key))
    | some f =>
      if (seen.lookup f).isSome then .error (.duplicateField f)
      else match Decimal.read? maxNumber value with
        | none => .error (.invalidNumber (String.ofList value))
        | some n => .ok (f, n)

/-- The fields and numbers of the pairs, added to those seen; the first bad pair is blamed. -/
def readPairs (seen : List (Field × Nat)) : List String → Except TimeError (List (Field × Nat))
  | [] => .ok seen
  | p :: rest =>
    match readPair seen p with
    | .error e => .error e
    | .ok entry => readPairs (entry :: seen) rest

/-- Whether a value can be kept for its field: a byte for every field but the year. -/
def Field.holds (f : Field) (v : Int) : Bool := if f = .year then f.admits v else 0 ≤ v && v ≤ 255

/-- The civil time of six pairs in any order. Values too wide to keep are blamed first, then
those out of range. -/
def ofPairs (ps : List String) : Except TimeError Civil :=
  match readPairs [] ps with
  | .error e => .error e
  | .ok seen =>
    match Field.all.find? fun f => (seen.lookup f).isNone with
    | some f => .error (.missingField f)
    | none =>
      let v : Field → Int := fun f => ((seen.lookup f).getD 0 : Nat)
      match Field.all.find? fun f => !f.holds (v f) with
      | some f => .error (.outOfRange f (v f))
      | none => ofValues v

/-- The civil time of pairs joined by `&`. -/
def ofQuery (q : String) : Except TimeError Civil :=
  ofPairs ((q.toList.splitOn '&').map String.ofList)

/-- The greatest epoch count, 2 ^ 32 - 1. -/
def maxEpoch : Nat := 0xFFFFFFFF

/-- Seconds from 1970 to the time, read as UTC. -/
def epoch (t : Civil) : Except TimeError Nat :=
  match t.seconds? with
  | none => .error .epochOverflow
  | some s => if 0 ≤ s ∧ s ≤ maxEpoch then .ok s.toNat else .error .epochOverflow

/-- The time that is `s` seconds after 1970 began, in UTC, if its year is one that dates are kept
for. -/
def ofTimestamp? (s : Int) : Option Civil :=
  let t := ofSeconds s
  if -262143 ≤ t.year ∧ t.year ≤ 262142 then some t else none

/-- The time that is `n` seconds after 1970 began, in UTC. If there is no date for it, the beginning
of 1970 stands in. -/
def ofEpoch (n : Nat) : Civil :=
  (ofTimestamp? n).getD
    { year := 1970, month := 1, day := 1, hour := 0, minute := 0, second := 0 }

end Civil

end NodeClock
