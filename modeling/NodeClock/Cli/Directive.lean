import NodeClock.Text.Alphanumeric
import NodeClock.Text.Blank
import NodeClock.Text.Decimal
import NodeClock.Text.Pattern
import NodeClock.Text.Real
import NodeClock.Text.Split

/-!
# Directives for the log

A directive `target[span{field=value}]=level` lets lines of a target through, up to a level.
All its parts may be left out. It is read character by character; its parts are what lies between
the signs.

* `Severity`: how grave a line is, and how much a directive lets through.
* `Directive.read`: the directive of a text.
* `Directive.appliesTo`: the lines that a directive speaks of.
-/

namespace NodeClock.Cli

/-- How grave a line of the log is. -/
inductive Severity where
  | error | warn | info | debug | trace
  deriving DecidableEq, Repr

namespace Severity

def name : Severity → String
  | error => "ERROR"
  | warn => "WARN"
  | info => "INFO"
  | debug => "DEBUG"
  | trace => "TRACE"

/-- The least verbosity that shows the line. -/
def rank : Severity → Nat
  | error => 1
  | warn => 2
  | info => 3
  | debug => 4
  | trace => 5

/-- The verbosity that shows all lines. -/
def mostVerbose : Nat := 5

/-- The verbosity that a word or a number names. -/
def readVerbosity? (s : List Char) : Option Nat :=
  let digits := match s with
    | '+' :: rest => rest
    | _ => s
  match Decimal.read? mostVerbose digits with
  | some n => some n
  | none =>
    [("off", 0), ("error", 1), ("warn", 2), ("info", 3), ("debug", 4), ("trace", 5)].lookup
      (String.ofList (s.map Char.toLower))

end Severity

/-- The verbosity for a target, or for all if that is empty. -/
structure Directive where
  target : List Char := []
  /-- The field that a line must have, or none if this is empty. -/
  field : List Char := []
  verbosity : Nat := Severity.mostVerbose
  /-- It speaks only of what happens in certain spans, not of single lines. -/
  ofSpan : Bool := false
  deriving DecidableEq, Repr

/-- Why a text is no directive. -/
inductive DirectiveFault where
  | malformed
  /-- One of its parts would begin or end inside a character. -/
  | torn
  deriving DecidableEq, Repr

namespace Directive

/-- Whether a directive may begin with a character, unless it begins with a span. -/
def isFirst (c : Char) : Bool := c == '-' || c == ':' || c == '_' || Text.isAlphanumeric c

/-- The directive with the level that follows a `=`; none at all lets all through. -/
def withLevel (d : Directive) (level : List Char) : Except DirectiveFault Directive :=
  if level.isEmpty then .ok d
  else
    match Severity.readVerbosity? level with
    | some verbosity => .ok { d with verbosity }
    | none => .error .malformed

/-- The directive of a word that stands alone: it is a level, or else a target of which all is
logged. -/
def ofWord (word : List Char) : Directive :=
  match Severity.readVerbosity? word with
  | some verbosity => { verbosity }
  | none => { target := word }

/-- Whether a field may be compared with a text: a number or a pattern. -/
def isValue (s : List Char) : Bool := Text.isReal s || Text.Pattern.isPattern s

/-- The directive with a field, and perhaps a value of it up to a further `=`. -/
def withField (d : Directive) (s : List Char) : Except DirectiveFault Directive :=
  match Text.cut '=' s with
  | none => if s.isEmpty then .error .malformed else .ok { d with field := s }
  | some (name, rest) =>
    if isValue (rest.takeWhile (· != '=')) then .ok { d with field := name, ofSpan := true }
    else .error .malformed

/-- The part that is being read, with the place of its first character. -/
inductive Part where
  | nothing
  | word (first : Nat)
  | span (first : Nat)
  | field (first : Nat)
  | spanEnd
  | level (first : Nat)
  /-- Only a `=` may follow. -/
  | levelSign
  deriving DecidableEq, Repr

/-- The text between two places. Places are counted in bytes from the first character that is not
blank, but the text is taken from the blanks on. -/
def slice (s : List Char) (first last : Nat) : Except DirectiveFault (List Char) :=
  match Text.cutBytes first s with
  | some (_, rest) =>
    match Text.cutBytes (last - first) rest with
    | some (part, _) => .ok part
    | none => .error .torn
  | none => .error .torn

/-- One more character of the directive `s`, at place `i`. -/
def step (s : List Char) (i : Nat) (d : Directive) (p : Part) (c : Char) :
    Except DirectiveFault (Directive × Part) :=
  match p, c with
  | .nothing, '[' => .ok (d, .span (i + 1))
  | .nothing, c => if isFirst c then .ok (d, .word i) else .error .malformed
  | .word first, '=' => do return ({ d with target := ← slice s first i }, .level (i + 1))
  | .word first, '[' => do return ({ d with target := ← slice s first i }, .span (i + 1))
  | .span first, ']' => do
    let _ ← slice s first i
    return ({ d with ofSpan := true }, .levelSign)
  | .span first, '\x7b' => do
    return ({ d with ofSpan := !(← slice s first i).isEmpty }, .field (i + 1))
  | .field first, '\x7d' => do return (← d.withField (← slice s first i), .spanEnd)
  | .spanEnd, ']' => .ok (d, .levelSign)
  | .levelSign, '=' => .ok (d, .level (i + 1))
  | .spanEnd, _ | .levelSign, _ => .error .malformed
  | _, _ => .ok (d, p)

/-- The directive when all has been read. -/
def finish (s : List Char) (d : Directive) : Part → Except DirectiveFault Directive
  | .word _ => .ok (ofWord s)
  | .level first =>
    match Text.cutBytes first s with
    | some (_, level) => d.withLevel level
    | none => .error .torn
  | .levelSign => .ok d
  | _ => .error .malformed

/-- The directive with the characters that follow, the first of them at place `i`. -/
def readFrom (s : List Char) (i : Nat) (d : Directive) (p : Part) :
    List Char → Except DirectiveFault Directive
  | [] => d.finish s p
  | c :: rest => do
    let (d, p) ← step s i d p c
    readFrom s (i + c.utf8Size) d p rest

/-- The directive of a text. Blanks at its ends are looked past but not cut off. -/
def read (s : List Char) : Except DirectiveFault Directive :=
  readFrom s 0 {} .nothing (Text.trim s)

/-- Whether a directive speaks of a line with some fields. A target comprises those that it begins
the name of. -/
def appliesTo (d : Directive) (target : String) (fields : List String) : Bool :=
  !d.ofSpan && d.target.isPrefixOf target.toList &&
    (d.field.isEmpty || fields.contains (String.ofList d.field))

/-- The more special one of two directives for the same line, or the second if there is none: the
one with the longer target, then the one with the greater field. -/
def closer (d e : Directive) : Directive :=
  if e.target.length < d.target.length then d
  else if d.target.length < e.target.length then e
  else if List.lex e.field d.field fun a b => a.toNat < b.toNat then d
  else e

end Directive

end NodeClock.Cli
