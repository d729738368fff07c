/-!
# Texts without control sequences

What remains of a text when all that would steer a terminal is left out: control characters but
white space, and the sequences that an escape character opens.

* `Sequence`: the sequences, by how they end.
* `Sieve.step`: one character, and whether it is kept.
* `printable`: the characters that are kept.
-/

namespace NodeClock.Text

/-- The character that opens a sequence. -/
def escape : Char := '\x1b'

/-- White space of ASCII, the vertical tab left out. -/
def isSpacing (c : Char) : Bool :=
  c == ' ' || c == '\t' || c == '\n' || c == '\x0c' || c == '\x0d'

/-- The control characters of ASCII. -/
def isControl (c : Char) : Bool := c.toNat < 0x20 || c == '\x7f'

/-- The sequence that a text stands in. -/
inductive Sequence where
  /-- The escape character alone. -/
  | escape
  /-- The escape character with marks that ask for one more character. -/
  | marked
  /-- A command with parameters, up to a letter or a sign like one. -/
  | command
  /-- What stands before the text of a string for a device. -/
  | header
  /-- A string, up to the next escape character. -/
  | string
  /-- A string that a bell may end too. -/
  | bellString
  deriving DecidableEq, Repr

namespace Sequence

/-- Signs that end a sequence: from `0`, or from `@` in a command. -/
def isFinal (first c : Char) : Bool := first.toNat ≤ c.toNat && c.toNat < 0x7F

/-- Signs that ask for more characters: from the space to `/`. -/
def isMark (c : Char) : Bool := 0x20 ≤ c.toNat && c.toNat < 0x30

/-- What follows the character behind the escape character. -/
def afterEscape (c : Char) : Option Sequence :=
  if c = '[' then some command
  else if c = ']' then some bellString
  else if c = 'P' then some header
  else if c = 'X' ∨ c = '^' ∨ c = '_' then some string
  else if isFinal '0' c then none
  else if isMark c then some marked
  else some escape

/-- A string for a device ends at the byte 0x9C, which may be part of a character. -/
def endsString (c : Char) : Bool := (String.utf8EncodeChar c).contains 0x9C

/-- The sequence behind one more character, if it goes on. -/
def next (s : Sequence) (c : Char) : Option Sequence :=
  match s with
  | escape => afterEscape c
  | marked => if isFinal '0' c then none else some marked
  | command => if isFinal '@' c then none else some command
  | header => some (if isFinal '@' c then string else header)
  | string => if endsString c then none else some string
  | bellString => if c = '\x07' then none else some bellString

/-- Whether white space inside the sequence is kept. -/
def keepsSpacing : Sequence → Bool
  | escape | marked | command => true
  | header | string | bellString => false

end Sequence

/-- Where a text stands. White space inside a sequence suspends it: what follows is kept, up to
the next control character. -/
structure Sieve where
  sequence : Option Sequence := none
  suspended : Bool := false
  deriving DecidableEq, Repr

namespace Sieve

/-- The characters that are kept outside sequences. -/
def isPlain (c : Char) : Bool := isSpacing c || !isControl c

/-- One more character, and whether it is kept. -/
def step (s : Sieve) (c : Char) : Sieve × Bool :=
  if c = Text.escape then ({ sequence := some .escape }, false)
  -- these two break every sequence off
  else if c = '\x18' ∨ c = '\x1a' then ({}, false)
  else
    match s.sequence with
    | none => (s, isPlain c)
    | some q =>
      if s.suspended then
        if c.toNat ≥ 0x80 then ({}, true)
        else ({ s with suspended := isPlain c }, isPlain c)
      else if q.keepsSpacing && isSpacing c && c != ' ' then ({ s with suspended := true }, true)
      else ({ sequence := q.next c }, false)

/-- The characters that are kept. -/
def run (s : Sieve) : List Char → List Char
  | [] => []
  | c :: rest =>
    match s.step c with
    | (t, true) => c :: t.run rest
    | (t, false) => t.run rest

end Sieve

/-- The text without control characters and sequences. -/
def printable (s : String) : String := String.ofList (Sieve.run {} s.toList)

/-- A text without control characters stays as it is. -/
theorem printable_of_forall_not_isControl {s : String}
    (h : ∀ c ∈ s.toList, isControl c = false) : printable s = s := by
  suffices ∀ t : List Char, (∀ c ∈ t, isControl c = false) → Sieve.run {} t = t by
    rw [printable, this _ h, String.ofList_toList]
  intro t ht
  induction t with
  | nil => rfl
  | cons c r ih =>
    have hc := ht c List.mem_cons_self
    have h1 : c ≠ Text.escape := by rintro rfl; exact absurd hc (by decide)
    have h2 : ¬(c = '\x18' ∨ c = '\x1a') := by
      rintro (rfl | rfl) <;> exact absurd hc (by decide)
    have e : Sieve.step {} c = ({}, true) := by
      simp [Sieve.step, h1, h2, Sieve.isPlain, hc]
    simp only [Sieve.run, e, ih fun d hd => ht d (List.mem_cons_of_mem c hd)]

end NodeClock.Text
