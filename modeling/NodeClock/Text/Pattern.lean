import NodeClock.Text.Alphanumeric
import NodeClock.Text.Blank
import NodeClock.Text.Split

/-!
# Patterns

Which texts are regular expressions. Beyond ASCII neither case nor classes of characters are
known, so that a pattern which asks for them is none. Counted repetitions are not known either:
their closing brace ends the text that a pattern stands in.

* `Flags`: how a pattern is read.
* `Escape.read?`: what stands behind a backslash.
* `readSet?`: a set of characters in brackets.
* `isPattern`: whether a text is a pattern.
-/

namespace NodeClock.Text.Pattern

/-- How a pattern is read. Flags that decide only what it matches are left out. -/
structure Flags where
  /-- Blanks and comments are skipped. -/
  spaced : Bool := false
  /-- A letter stands for both cases. -/
  caseless : Bool := false
  /-- Characters are matched, not bytes. -/
  unicode : Bool := true
  deriving DecidableEq, Repr

namespace Flags

/-- The flags with one of them set or cleared, if there is one of that name. -/
def put? (f : Flags) (value : Bool) : Char → Option Flags
  | 'x' => some { f with spaced := value }
  | 'i' => some { f with caseless := value }
  | 'u' => some { f with unicode := value }
  | 's' | 'm' | 'U' | 'R' => some f
  | _ => none

/-- The flags up to the sign that ends them, each given once at most, and that sign. Those behind
a hyphen are cleared. -/
def read? (f : Flags) (seen : List Char) : List Char → Option (Flags × Char × List Char)
  | [] => none
  | c :: rest =>
    if c = ':' ∨ c = ')' then
      if seen.head? = some '-' ∨ (seen = [] ∧ c = ')') then none else some (f, c, rest)
    else if seen.contains c then none
    else if c = '-' then read? f (c :: seen) rest
    else
      match f.put? (!seen.contains '-') c with
      | some g => read? g (c :: seen) rest
      | none => none

/-- The text behind the blanks and comments that are skipped. A comment ends with its line. -/
def skip (f : Flags) (s : List Char) : List Char := if f.spaced then go false s else s
where
  go (inComment : Bool) : List Char → List Char
    | [] => []
    | c :: rest =>
      if inComment then go (c != '\n') rest
      else if isBlank c then go false rest
      else if c = '#' then go true rest
      else c :: rest

/-- Whether a character may stand in a set. Its other case must be known if that is matched. -/
def admitsInSet (f : Flags) (c : Char) : Bool := if f.unicode then !f.caseless else c.toNat < 0x80

/-- Whether a character may stand by itself. A byte must be a character if bytes are matched. -/
def admits (f : Flags) (c : Char) (isByte : Bool) : Bool :=
  if f.unicode then !f.caseless else c.toNat < 0x80 || !isByte

/-- Whether a class of ASCII may stand in a set. A negated one holds bytes that are no
characters. -/
def admitsClass (f : Flags) (negated : Bool) : Bool := if f.unicode then !f.caseless else !negated

end Flags

/-- What stands behind a backslash. -/
inductive Escape where
  /-- A character, or the byte that two digits give. -/
  | literal (c : Char) (isByte : Bool)
  /-- Digits, words or blanks, or all else. -/
  | kind (negated : Bool)
  /-- A place between characters, perhaps at the edge of a word. -/
  | place (ofWord : Bool)
  deriving DecidableEq, Repr

def hexValue? (c : Char) : Option Nat :=
  if c.isDigit then some (c.toNat - '0'.toNat)
  else if 'a'.toNat ≤ c.toNat ∧ c.toNat ≤ 'f'.toNat then some (c.toNat - 'a'.toNat + 10)
  else if 'A'.toNat ≤ c.toNat ∧ c.toNat ≤ 'F'.toNat then some (c.toNat - 'A'.toNat + 10)
  else none

/-- The character whose number begins with `n` and goes on with some hexadecimal digits. -/
def readHex? (f : Flags) : (digits n : Nat) → List Char → Option (Char × List Char)
  | 0, n, s => if n.isValidChar then some (.ofNat n, s) else none
  | digits + 1, n, s =>
    match f.skip s with
    | [] => none
    | c :: rest =>
      match hexValue? c with
      | some d => readHex? f digits (n * 16 + d) rest
      | none => none

namespace Escape

/-- Letters that stand for control characters. -/
def controls : List (Char × Char) :=
  [('a', '\x07'), ('f', '\x0c'), ('t', '\t'), ('n', '\n'), ('r', '\x0d'), ('v', '\x0b')]

/-- What stands behind a backslash. Signs of ASCII stand for themselves. -/
def read? (f : Flags) : List Char → Option (Escape × List Char)
  | [] => none
  | 'x' :: rest => (readHex? f 2 0 rest).map fun (c, rest) => (literal c true, rest)
  | 'u' :: rest => (readHex? f 4 0 rest).map fun (c, rest) => (literal c false, rest)
  | 'U' :: rest => (readHex? f 8 0 rest).map fun (c, rest) => (literal c false, rest)
  | c :: rest =>
    if c ∈ ['d', 's', 'w'] then some (kind false, rest)
    else if c ∈ ['D', 'S', 'W'] then some (kind true, rest)
    else if c ∈ ['A', 'z'] then some (place false, rest)
    else if c ∈ ['b', 'B', '<', '>'] then some (place true, rest)
    else
      match controls.lookup c with
      | some control => some (literal control false, rest)
      | none =>
        if c.toNat < 0x80 ∧ c.isAlphanum = false then some (literal c false, rest) else none

/-- Whether it may stand by itself. -/
def isAdmitted (f : Flags) : Escape → Bool
  | literal c isByte => f.admits c isByte
  | kind negated => !f.unicode && !negated
  | place ofWord => !(f.unicode && ofWord)

/-- Whether it may stand in a set. -/
def isAdmittedInSet (f : Flags) : Escape → Bool
  | literal c _ => f.admitsInSet c
  | kind negated => !f.unicode && !negated
  | place _ => false

end Escape

/-- The names of the classes of ASCII. -/
def classNames : List String :=
  ["alnum", "alpha", "ascii", "blank", "cntrl", "digit", "graph", "lower", "print", "punct",
    "space", "upper", "word", "xdigit"]

/-- A class `[:name:]` or `[:^name:]` behind its first bracket: whether it is negated, and the
rest. -/
def readClass? : List Char → Option (Bool × List Char)
  | ':' :: '^' :: s => (readName? s).map (true, ·)
  | ':' :: s => (readName? s).map (false, ·)
  | _ => none
where
  readName? (s : List Char) : Option (List Char) :=
    match cut ':' s with
    | some (name, ']' :: rest) =>
      if String.ofList name ∈ classNames then some rest else none
    | _ => none

/-- One member of a set. -/
def readMember? (f : Flags) : List Char → Option (Escape × List Char)
  | [] => none
  | '\\' :: rest => Escape.read? f rest
  | c :: rest => some (.literal c false, rest)

/-- The text behind a member of a set, or behind a range of characters. -/
def readRange? (f : Flags) (s : List Char) : Option (List Char) := do
  let (first, rest) ← readMember? f s
  let alone := if first.isAdmittedInSet f then some (f.skip rest) else none
  match f.skip rest with
  | '-' :: behind =>
    match f.skip behind with
    | '-' :: _ | ']' :: _ => alone
    | behind =>
      let (last, rest) ← readMember? f behind
      match first, last with
      | .literal low _, .literal high _ =>
        if low.toNat ≤ high.toNat ∧ f.admitsInSet low ∧ f.admitsInSet high then some rest else none
      | _, _ => none
  | _ => alone

/-- How far a set has been read: to its bracket, to hyphens behind it, or further. -/
inductive SetPlace where
  | bracket | hyphens | members
  deriving DecidableEq, Repr

/-- The text behind the mark of a negated set, if there is one. Such a set holds bytes that are no
characters. -/
def readNegation? (f : Flags) (s : List Char) : Option (List Char) :=
  match f.skip s with
  | '^' :: rest => if f.unicode then some rest else none
  | s => some s

/-- The text behind a set, of which `depth` brackets are open. -/
def readSetFrom? (f : Flags) : (fuel depth : Nat) → SetPlace → List Char → Option (List Char)
  | 0, _, _, _ => none
  | fuel + 1, depth, place, s => do
    let go := readSetFrom? f fuel
    let literal (c : Char) (place : SetPlace) (rest : List Char) :=
      if f.admitsInSet c then go depth place rest else none
    match place, f.skip s with
    | _, [] => none
    | .bracket, ']' :: rest => literal ']' .members rest
    | .bracket, '-' :: rest | .hyphens, '-' :: rest => literal '-' .hyphens rest
    | _, '[' :: rest =>
      match readClass? rest with
      | some (negated, rest) =>
        if f.admitsClass negated then go depth .members rest else none
      | none => go (depth + 1) .bracket (← readNegation? f rest)
    | _, ']' :: rest => if depth ≤ 1 then some rest else go (depth - 1) .members rest
    | _, '&' :: '&' :: rest | _, '-' :: '-' :: rest | _, '~' :: '~' :: rest =>
      go depth .members rest
    | _, s => go depth .members (← readRange? f s)

/-- The text behind a set, read from behind its first bracket. -/
def readSet? (f : Flags) (s : List Char) : Option (List Char) := do
  readSetFrom? f (s.length + 1) 1 .bracket (← readNegation? f s)

/-- What has been read of a pattern: the flags in force, those of the groups around, the names
given, and whether the last item may be repeated. -/
structure Reader where
  flags : Flags := {}
  outer : List Flags := []
  names : List (List Char) := []
  repeatable : Bool := false

namespace Reader

/-- Inside a group with flags of its own. -/
def enter (r : Reader) (flags : Flags) : Reader :=
  { r with flags, outer := r.flags :: r.outer, repeatable := false }

/-- Whether a group may have the name. -/
def admitsName (r : Reader) : List Char → Bool
  | [] => false
  | c :: rest =>
    (c == '_' || isAlphabetic c) &&
      rest.all (fun c => c ∈ ['_', '.', '[', ']'] || isAlphanumeric c) &&
      !r.names.contains (c :: rest)

/-- A group whose name comes next. -/
def enterNamed? (r : Reader) (s : List Char) : Option (Reader × List Char) :=
  match cut '>' s with
  | some (name, rest) =>
    if r.admitsName name then some ({ r.enter r.flags with names := name :: r.names }, rest)
    else none
  | none => none

/-- What stands behind an opening parenthesis. Flags alone hold to the end of the group around
them. -/
def readGroup? (r : Reader) : List Char → Option (Reader × List Char)
  | '?' :: '<' :: s | '?' :: 'P' :: '<' :: s => r.enterNamed? s
  | '?' :: s =>
    match r.flags.read? [] s with
    | some (flags, ')', rest) => some ({ r with flags, repeatable := false }, rest)
    | some (flags, _, rest) => some (r.enter flags, rest)
    | none => none
  | s => some (r.enter r.flags, s)

/-- One more item of a pattern, which begins with `c`. -/
def step? (r : Reader) (c : Char) (rest : List Char) : Option (Reader × List Char) :=
  let item (admitted : Bool) (rest : List Char) :=
    if admitted then some ({ r with repeatable := true }, rest) else none
  match c with
  | '(' => r.readGroup? (r.flags.skip rest)
  | ')' =>
    match r.outer with
    | flags :: outer => some ({ r with flags, outer, repeatable := true }, rest)
    | [] => none
  | '|' => some ({ r with repeatable := false }, rest)
  | '?' | '*' | '+' =>
    if r.repeatable then
      -- a further mark makes the repetition a lazy one
      match rest with
      | '?' :: rest => some (r, rest)
      | _ => some (r, rest)
    else none
  | '\x7b' => none
  | '[' => do item true (← readSet? r.flags rest)
  | '\\' => do
    let (e, rest) ← Escape.read? r.flags rest
    item (e.isAdmitted r.flags) rest
  | '.' => item r.flags.unicode rest
  | '^' | '$' => item true rest
  | c => item (r.flags.admits c false) rest

/-- Whether a pattern ends well. -/
def accepts : (fuel : Nat) → Reader → List Char → Bool
  | 0, _, _ => false
  | fuel + 1, r, s =>
    match r.flags.skip s with
    | [] => r.outer.isEmpty
    | c :: rest =>
      match r.step? c rest with
      | some (r, rest) => accepts fuel r rest
      | none => false

end Reader

/-- Whether a text is a pattern. -/
def isPattern (s : List Char) : Bool := Reader.accepts (s.length + 1) {} s

end NodeClock.Text.Pattern
