/-!
# Cutting a text

* `cut`: the parts before and after the first occurrence of a character.
* `cutPair`: the same for two equal characters in a row.
* `cutBytes`: the parts before and after a number of bytes.
-/

namespace NodeClock.Text

/-- The text before and after the first `m`, if there is one. -/
def cut (m : Char) : List Char → Option (List Char × List Char)
  | [] => none
  | c :: r => if c = m then some ([], r) else (cut m r).map fun (a, b) => (c :: a, b)

/-- The text before and after the first `m` that another `m` follows, if there is one. -/
def cutPair (m : Char) : List Char → Option (List Char × List Char)
  | [] => none
  | [_] => none
  | c :: d :: r =>
    if c = m ∧ d = m then some ([], r) else (cutPair m (d :: r)).map fun (a, b) => (c :: a, b)

/-- The text before and after `n` bytes, if no character lies across. -/
def cutBytes : Nat → List Char → Option (List Char × List Char)
  | 0, s => some ([], s)
  | _ + 1, [] => none
  | n + 1, c :: r =>
    if c.utf8Size ≤ n + 1 then (cutBytes (n + 1 - c.utf8Size) r).map fun (a, b) => (c :: a, b)
    else none

theorem cut_eq_some {m : Char} {s a b : List Char} (h : cut m s = some (a, b)) :
    s = a ++ m :: b ∧ m ∉ a := by
  induction s generalizing a with
  | nil => simp [cut] at h
  | cons c r ih =>
    unfold cut at h
    split at h
    · simp only [Option.some.injEq, Prod.mk.injEq] at h
      obtain ⟨rfl, rfl⟩ := h
      simp_all
    · obtain ⟨⟨a', b'⟩, h', e⟩ := Option.map_eq_some_iff.1 h
      simp only [Prod.mk.injEq] at e
      obtain ⟨rfl, rfl⟩ := e
      obtain ⟨h1, h2⟩ := ih h'
      simp_all [eq_comm]

theorem cut_append {m : Char} {a b : List Char} (h : m ∉ a) :
    cut m (a ++ m :: b) = some (a, b) := by
  induction a with
  | nil => simp [cut]
  | cons c r ih =>
    simp only [List.mem_cons, not_or] at h
    simp [cut, Ne.symm h.1, ih h.2]

/-- A text without the character is not cut. -/
theorem cut_eq_none {m : Char} {s : List Char} (h : m ∉ s) : cut m s = none := by
  induction s with
  | nil => rfl
  | cons c r ih =>
    simp only [List.mem_cons, not_or] at h
    simp [cut, Ne.symm h.1, ih h.2]

end NodeClock.Text
