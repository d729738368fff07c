import NodeClock.Setting
import NodeClock.Span.Phrase
import NodeClock.Text.Integer
import NodeClock.Text.Printable

/-!
# Options of the command line

The options that a command takes, the values that they accept, and what is said of a command
line that cannot be used.

* `Param`: the options that take a value.
* `UsageError`: why a command line cannot be used, and `UsageError.lines`, how that is said.
* `Options`: the values given, and `Options.put`, one more of them.
-/

namespace NodeClock.Cli

/-- The options that take a value. -/
inductive Param where
  | port | path | timeout | method | format | attempts
  deriving DecidableEq, Repr

namespace Param

def all : List Param := [port, path, timeout, method, format, attempts]

def name : Param → String
  | port => "port"
  | path => "path"
  | timeout => "timeout"
  | method => "method"
  | format => "format"
  | attempts => "attempts"

/-- The option as messages show it: `--port <PORT>`. -/
def label (p : Param) : String := "--" ++ p.name ++ " <" ++ p.name.map Char.toUpper ++ ">"

/-- The values of an option that has only a few. -/
def choices : Param → List String
  | method => ["put", "post"]
  | format => ["query", "epoch"]
  | _ => []

/-- Whether only setting a clock takes the option. -/
def onlySets : Param → Bool
  | method | format | attempts => true
  | _ => false

end Param

/-- Why a command line cannot be used. -/
inductive UsageError where
  | unexpectedArgument (arg : String)
  | unexpectedValue (value flag : String)
  | unknownCommand (name : String)
  | valueMissing (p : Param)
  | repeated (label : String)
  | invalidChoice (p : Param) (value : String)
  | invalidValue (p : Param) (value reason : String)
  | hostMissing
  deriving DecidableEq, Repr

namespace UsageError

private def choiceLines (p : Param) : List String :=
  if p.choices.isEmpty then [] else ["  [possible values: " ++ ", ".intercalate p.choices ++ "]"]

/-- What was given, in quotes. Control characters are not repeated. -/
def quoted (given : String) : String := "'" ++ Text.printable given ++ "'"

/-- The error in words, the hints that may follow it left out. -/
def lines : UsageError → List String
  | unexpectedArgument a => [s!"error: unexpected argument {quoted a} found"]
  | unexpectedValue v flag =>
    [s!"error: unexpected value {quoted v} for '{flag}' found; no more were expected"]
  | unknownCommand n => [s!"error: unrecognized subcommand {quoted n}"]
  | valueMissing p =>
    s!"error: a value is required for '{p.label}' but none was supplied" :: choiceLines p
  | repeated label => [s!"error: the argument '{label}' cannot be used multiple times"]
  | invalidChoice p v => s!"error: invalid value {quoted v} for '{p.label}'" :: choiceLines p
  | invalidValue p v reason =>
    [s!"error: invalid value {quoted v} for '{p.label}': {reason}"]
  | hostMissing => ["error: the following required arguments were not provided:", "  <HOST>"]

end UsageError

/-- The values given to a command. -/
structure Options where
  host : Option String := none
  port : Option UInt16 := none
  path : Option String := none
  timeout : Option Span := none
  method : Option SetMethod := none
  format : Option WireFormat := none
  attempts : Option Nat := none
  utc : Bool := false

namespace Options

/-- Whether a value has been given to an option. -/
def has (o : Options) : Param → Bool
  | .port => o.port.isSome
  | .path => o.path.isSome
  | .timeout => o.timeout.isSome
  | .method => o.method.isSome
  | .format => o.format.isSome
  | .attempts => o.attempts.isSome

/-- The number that an option is given, from `low` to `high`. -/
def readNumber (p : Param) (low high : Nat) (value : String) : Except UsageError Nat :=
  match Text.readInteger value.toList with
  | .error e => .error (.invalidValue p value e.message)
  | .ok i =>
    if low ≤ i ∧ i ≤ high then .ok i.toNat
    else
      .error (.invalidValue p value
        (Decimal.renderInt i ++ " is not in " ++ Decimal.render low ++ "..=" ++
          Decimal.render high))

/-- The choice that an option is given. Nothing at all counts as no value. -/
def readChoice {α : Type} (p : Param) (table : List (String × α)) (value : String) :
    Except UsageError α :=
  match table.lookup value with
  | some a => .ok a
  | none => .error (if value.isEmpty then .valueMissing p else .invalidChoice p value)

/-- The options with the value `value` for `p`. A second value is refused unread. -/
def put (o : Options) (p : Param) (value : String) : Except UsageError Options := do
  if o.has p then throw (.repeated p.label)
  match p with
  | .port => return { o with port := some (.ofNat (← readNumber p 0 65535 value)) }
  | .path => return { o with path := some value }
  | .timeout =>
    match Span.readTimeout value with
    | .error e => throw (.invalidValue p value e.message)
    | .ok s => return { o with timeout := some s }
  | .method =>
    let m ← readChoice p [("put", SetMethod.put), ("post", SetMethod.post)] value
    return { o with method := some m }
  | .format =>
    let f ← readChoice p [("query", WireFormat.query), ("epoch", WireFormat.epoch)] value
    return { o with format := some f }
  | .attempts => return { o with attempts := some (← readNumber p 1 0xFFFFFFFF value) }

end Options

end NodeClock.Cli
