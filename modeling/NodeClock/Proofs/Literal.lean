import NodeClock.Net.Ipv6
import NodeClock.Proofs.LetterCase
import Mathlib.Data.List.Forall2

/-!
# Texts that spell an address

An IPv4 address has one text. An IPv6 address has many: letters of either case, zeros in front of a
group, a run of zero groups left out, an IPv4 address for the last two groups.

* `Ipv4.read?_eq_some_iff`: **a text spells an IPv4 address exactly if it is the text of that
  address.**
* `Ipv6.Group`, `Ipv6.Tail`, `Ipv6.Spelled`: the texts of a group, of groups, and of an address.
* `Ipv6.read?_eq_some_iff`: **what is read as an IPv6 address spells it.**
* `Ipv6.Spelled.mem`, `Spelled.colon_mem`: the characters of such a text.
* `Ipv4.read?_toLower`, `Ipv6.read?_toLower`: letters of either case are read alike.
-/

namespace NodeClock

/-! ## Lists -/

section Lists

variable {α β : Type} {f : α → Option β}

/-- **What is read piece by piece** is read from each piece. -/
theorem mapM_eq_some_iff {xs : List α} {ys : List β} :
    xs.mapM f = some ys ↔ List.Forall₂ (fun x y => f x = some y) xs ys := by
  induction xs generalizing ys with
  | nil => cases ys <;> simp
  | cons x xs ih =>
    simp only [List.mapM_cons, Option.pure_def, Option.bind_eq_bind, Option.bind_eq_some_iff,
      Option.some.injEq, List.forall₂_cons_left_iff, ih]
    constructor
    · rintro ⟨y, hy, rest, hrest, rfl⟩
      exact ⟨y, rest, hy, hrest, rfl⟩
    · rintro ⟨y, rest, hy, hrest, rfl⟩
      exact ⟨y, hy, rest, hrest, rfl⟩

theorem mapM_map {γ : Type} (g : γ → α) (xs : List γ) :
    (xs.map g).mapM f = xs.mapM fun x => f (g x) := by
  induction xs with
  | nil => rfl
  | cons x xs ih => rw [List.map_cons, List.mapM_cons, List.mapM_cons, ih]

end Lists

namespace Net

/-! ## IPv4 -/

namespace Ipv4

open Decimal

variable {s : List Char} {i : Ipv4} {c : Char}

/-- Only zero begins with a zero. -/
theorem eq_zero_of_head_digits {n : Nat} (h : (digits n).head? = some '0') : n = 0 := by
  refine toDigits_induction (P := fun n ds => ds.head? = some '0' → n = 0) (by decide) ?_ ?_ n h
  · intro n hn hhead
    have hdigit : ∀ d < 10, Nat.digitChar d = '0' → d = 0 := by decide
    exact hdigit n hn (Option.some.inj hhead)
  · intro n hn ih hhead
    have hne : Nat.toDigits 10 (n / 10) ≠ [] := Nat.toDigits_ne_nil
    rw [List.head?_append_of_ne_nil _ hne] at hhead
    -- a number that has a further digit is not below the base
    have hzero := ih hhead
    omega

/-- A number is spelled by its digits alone. -/
theorem readOctet?_eq_some_iff {x : UInt8} : readOctet? s = some x ↔ s = digits x.toNat := by
  constructor
  · intro h
    unfold readOctet? at h
    split at h
    next hshape =>
      obtain ⟨n, hn, rfl⟩ := Option.map_eq_some_iff.1 h
      obtain ⟨hne, hall, rfl, hle⟩ := read?_eq_some_iff.1 hn
      have hbyte : (UInt8.ofNat (value s)).toNat = value s :=
        UInt8.toNat_ofNat_of_lt' (show value s < 256 by omega)
      obtain ⟨k, hk⟩ := eq_digits_value hne hall
      rw [hbyte]
      cases k with
      | zero => exact hk
      | succ k =>
        -- a zero in front would have to be all of it
        have hpos : 0 < (digits (value s)).length := List.length_pos_of_ne_nil Nat.toDigits_ne_nil
        have hlen := congrArg List.length hk
        have hhead : s.head? = some '0' := by
          rw [hk, List.replicate_succ]
          rfl
        have hone := hshape.2 hhead
        rw [List.length_append, List.length_replicate] at hlen
        omega
    · cases h
  · rintro rfl
    have hx := x.toNat_lt
    have hlen : (digits x.toNat).length ≤ 3 :=
      (Nat.length_toDigits_le_iff (by decide) (by decide)).2 (by omega)
    have hhead : (digits x.toNat).head? = some '0' → (digits x.toNat).length = 1 := by
      intro h
      rw [eq_zero_of_head_digits h]
      rfl
    rw [readOctet?, if_pos ⟨hlen, hhead⟩, read?_digits (by omega), Option.map_some,
      UInt8.ofNat_toNat]

theorem splitOn_render (i : Ipv4) :
    i.render.toList.splitOn '.' = [i.a, i.b, i.c, i.d].map (digits ·.toNat) := by
  rw [render, Text.splitOn_join rfl _ (by simp), List.map_map]
  · simp [Decimal.toList_render]
  · simp only [List.forall_mem_map, Decimal.toList_render]
    exact fun _ _ => not_mem_digits (by decide)

/-- **A text spells an IPv4 address** exactly if it is the text of that address. -/
theorem read?_eq_some_iff : read? s = some i ↔ s = i.render.toList := by
  have hpieces : read? s = some i ↔
      (s.splitOn '.').mapM readOctet? = some [i.a, i.b, i.c, i.d] := by
    unfold read?
    split
    next a b c d hs =>
      rw [hs, Option.some.injEq, Option.some.injEq]
      constructor
      · rintro rfl
        rfl
      · intro h
        cases h
        rfl
    next hs =>
      refine iff_of_false nofun fun h => ?_
      exact hs _ _ _ _ h
  have hdigits : (fun (t : List Char) (x : UInt8) => readOctet? t = some x) =
      fun t x => t = digits x.toNat := by
    funext t x
    exact propext readOctet?_eq_some_iff
  rw [hpieces, mapM_eq_some_iff, hdigits, ← List.forall₂_map_right_iff (R := Eq),
    List.forall₂_eq_eq_eq, ← splitOn_render]
  constructor
  · intro h
    rw [← @List.intercalate_splitOn Char s _ _ '.', h, List.intercalate_splitOn]
  · rintro rfl
    rfl

theorem read?_render (i : Ipv4) : read? i.render.toList = some i := read?_eq_some_iff.2 rfl

/-- The text of an IPv4 address is made of digits and dots. -/
theorem mem_render (h : c ∈ i.render.toList) : c = '.' ∨ c.isDigit = true := by
  rw [render, String.toList_intercalate] at h
  rcases Text.mem_of_mem_intercalate h with h | ⟨s, hs, hc⟩
  · exact Or.inl h
  · simp only [List.map_map, List.mem_map, Function.comp_apply, Decimal.toList_render] at hs
    obtain ⟨x, -, rfl⟩ := hs
    exact Or.inr (isDigit_of_mem_digits hc)

theorem not_mem_render (hdot : c ≠ '.') (hdigit : c.isDigit = false) : c ∉ i.render.toList := by
  intro hc
  rcases mem_render hc with h | h
  · exact hdot h
  · rw [hdigit] at h
    cases h

theorem dot_mem_render (i : Ipv4) : '.' ∈ i.render.toList := by
  have hsplit := splitOn_render i
  by_contra hdot
  rw [List.splitOn_eq_singleton hdot] at hsplit
  have hlen := congrArg List.length hsplit
  cases hlen

/-- Only digits and dots spell an IPv4 address. -/
theorem read?_eq_none (hc : c ∈ s) (hdot : c ≠ '.') (hdigit : c.isDigit = false) :
    read? s = none := by
  cases hr : read? s with
  | none => rfl
  | some i =>
    rw [read?_eq_some_iff.1 hr] at hc
    exact absurd hc (not_mem_render hdot hdigit)

/-- A text without dots spells no IPv4 address. -/
theorem read?_eq_none_of_dotless (h : '.' ∉ s) : read? s = none := by
  cases hr : read? s with
  | none => rfl
  | some i =>
    rw [read?_eq_some_iff.1 hr] at h
    exact absurd (dot_mem_render i) h

/-- Letters of either case spell none. -/
theorem read?_toLower (s : List Char) : read? (s.map Char.toLower) = read? s := by
  have hletterless : ∀ (i : Ipv4), ∀ c ∈ i.render.toList, c.isAlpha = false := by
    intro i c hc
    rcases mem_render hc with rfl | hdigit
    · rfl
    · exact isAlpha_of_isDigit hdigit
  apply Option.ext
  intro i
  rw [read?_eq_some_iff, read?_eq_some_iff, map_toLower_eq_iff_of_letterless (hletterless i)]

/-- The address as two groups of an IPv6 address. -/
def groups (i : Ipv4) : List UInt16 :=
  [UInt16.ofNat (i.a.toNat * 256 + i.b.toNat), UInt16.ofNat (i.c.toNat * 256 + i.d.toNat)]

end Ipv4

/-! ## IPv6 -/

namespace Ipv6

variable {s : List Char} {c : Char} {d : Nat} {g : UInt16} {gs hs : List UInt16}
  {parts front back : List (List Char)}

theorem hexDigit?_digitChar : ∀ d < 16, hexDigit? (Nat.digitChar d) = some d := by decide

theorem hexDigit?_toLower (c : Char) : hexDigit? c.toLower = hexDigit? c :=
  toLower_congr (by decide) c

/-- **A hexadecimal digit** is, in lower case, the one that is written. -/
theorem hexDigit?_eq_some_iff : hexDigit? c = some d ↔ d < 16 ∧ c.toLower = Nat.digitChar d := by
  constructor
  · have hsmall : ∀ n < 128, ∀ d ∈ hexDigit? (Char.ofNat n),
        d < 16 ∧ (Char.ofNat n).toLower = Nat.digitChar d := by decide
    intro h
    have hc : c.toNat < 128 := by
      by_contra hlarge
      have hnone : hexDigit? c = none := by
        simp only [hexDigit?, Char.le_def, UInt32.le_iff_toNat_le, Char.reduceVal,
          UInt32.reduceToNat]
        have hval : c.toNat = c.val.toNat := rfl
        rw [if_neg (by omega), if_neg (by omega), if_neg (by omega)]
      cases hnone.symm.trans h
    have hdigit := hsmall c.toNat hc d
    rw [Char.ofNat_toNat] at hdigit
    exact hdigit h
  · rintro ⟨hd, hc⟩
    rw [← hexDigit?_toLower, hc, hexDigit?_digitChar d hd]

/-- The digits of a number are read back as that number. -/
theorem mapM_hexDigit? (n : Nat) :
    ∃ ds, (Nat.toDigits 16 n).mapM hexDigit? = some ds ∧
      ds.foldl (fun n d => n * 16 + d) 0 = n := by
  refine Decimal.toDigits_induction (P := fun n s => ∃ ds, s.mapM hexDigit? = some ds ∧
    ds.foldl (fun n d => n * 16 + d) 0 = n) (by decide) ?_ ?_ n
  · intro n hn
    refine ⟨[n], ?_, by simp⟩
    simp [List.mapM_cons, hexDigit?_digitChar n hn]
  · rintro n - ⟨ds, hds, hvalue⟩
    have hlast : hexDigit? (Nat.digitChar (n % 16)) = some (n % 16) :=
      hexDigit?_digitChar _ (Nat.mod_lt n (by decide))
    refine ⟨ds ++ [n % 16], ?_, ?_⟩
    · rw [List.mapM_append, hds]
      simp [List.mapM_cons, hlast]
    · rw [List.foldl_append, hvalue, List.foldl_cons, List.foldl_nil]
      omega

/-- So are they behind zeros. -/
theorem mapM_hexDigit?_zeros (k n : Nat) :
    ∃ ds, (List.replicate k '0' ++ Nat.toDigits 16 n).mapM hexDigit? = some ds ∧
      ds.foldl (fun n d => n * 16 + d) 0 = n := by
  induction k with
  | zero => exact mapM_hexDigit? n
  | succ k ih =>
    obtain ⟨ds, hds, hvalue⟩ := ih
    have hzero : hexDigit? '0' = some 0 := rfl
    refine ⟨0 :: ds, ?_, hvalue⟩
    rw [List.replicate_succ, List.cons_append, List.mapM_cons, hds, hzero]
    rfl

/-- A number has fewer digits than its power of the base. -/
theorem foldl_lt {ds : List Nat} (h : ∀ d ∈ ds, d < 16) :
    ds.foldl (fun n d => n * 16 + d) 0 < 16 ^ ds.length := by
  induction ds using List.reverseRecOn with
  | nil => decide
  | append_singleton ds d ih =>
    have hd : d < 16 := h d (by simp)
    have hlt := ih fun d hd => h d (List.mem_append_left _ hd)
    rw [List.foldl_append, List.foldl_cons, List.foldl_nil, List.length_append,
      List.length_singleton, Nat.pow_succ]
    omega

/-- **The texts of a group**: its digits in letters of either case, with zeros in front up to four
digits. -/
def Group (s : List Char) (g : UInt16) : Prop :=
  s.length ≤ 4 ∧ ∃ k, s.map Char.toLower = List.replicate k '0' ++ renderGroup g

theorem readGroup?_eq_some_iff : readGroup? s = some g ↔ Group s g := by
  constructor
  · intro h
    unfold readGroup? at h
    split at h
    · cases h
    next hlen =>
      obtain ⟨ds, hds, rfl⟩ := Option.map_eq_some_iff.1 h
      simp only [List.isEmpty_iff, not_or, Nat.not_lt] at hlen
      have hpieces := mapM_eq_some_iff.1 hds
      have hsame : ds.length = s.length := hpieces.length_eq.symm
      have hlt : ∀ d ∈ ds, d < 16 := by
        intro d hd
        obtain ⟨i, hi, rfl⟩ := List.mem_iff_getElem.1 hd
        exact (hexDigit?_eq_some_iff.1 (hpieces.get (hsame ▸ hi) hi)).1
      have hlower : s.map Char.toLower = ds.map Nat.digitChar := by
        rw [← List.forall₂_eq_eq_eq, List.forall₂_map_left_iff, List.forall₂_map_right_iff]
        exact hpieces.imp fun c d hc => (hexDigit?_eq_some_iff.1 hc).2
      have hne : ds ≠ [] := by
        intro hnil
        rw [hnil] at hsame
        exact hlen.1 (List.eq_nil_of_length_eq_zero hsame.symm)
      have hword : ds.foldl (fun n d => n * 16 + d) 0 < 65536 :=
        Nat.lt_of_lt_of_le (foldl_lt hlt) (Nat.pow_le_pow_right (by decide) (hsame ▸ hlen.2))
      obtain ⟨k, hk⟩ := Decimal.map_digitChar (by decide) hne hlt
      refine ⟨hlen.2, k, ?_⟩
      rw [hlower, hk, renderGroup, UInt16.toNat_ofNat_of_lt' hword]
  · rintro ⟨hlen, k, hk⟩
    have hne : s ≠ [] := by
      rintro rfl
      have hnil := (List.append_eq_nil_iff.1 hk.symm).2
      exact Nat.toDigits_ne_nil hnil
    obtain ⟨ds, hds, hvalue⟩ := mapM_hexDigit?_zeros k g.toNat
    have hmap : s.mapM hexDigit? = some ds := by
      have hlower : (s.map Char.toLower).mapM hexDigit? = s.mapM hexDigit? := by
        rw [mapM_map]
        simp only [hexDigit?_toLower]
      rw [← hlower, hk]
      exact hds
    rw [readGroup?, if_neg (by simp [hne]; omega), hmap, Option.map_some, hvalue,
      UInt16.ofNat_toNat]

/-- The characters of a group are the digits of the base 16. -/
theorem mem_renderGroup {c : Char} (h : c ∈ renderGroup g) : ∃ d < 16, c = Nat.digitChar d := by
  refine Decimal.toDigits_induction (P := fun _ ds => c ∈ ds → ∃ d < 16, c = Nat.digitChar d)
    (by decide) ?_ ?_ g.toNat h
  · intro n hn hmem
    exact ⟨n, hn, List.mem_singleton.1 hmem⟩
  · intro n _ ih hmem
    rw [List.mem_append, List.mem_singleton] at hmem
    rcases hmem with hmem | hlast
    · exact ih hmem
    · exact ⟨n % 16, Nat.mod_lt n (by decide), hlast⟩

/-- A digit or a letter of either case. -/
theorem Group.mem (h : Group s g) (hc : c ∈ s) : c.isAlphanum = true := by
  obtain ⟨-, k, hk⟩ := h
  have halnum : ∀ d < 16, (Nat.digitChar d).isAlphanum = true := by decide
  have hlower : c.toLower ∈ List.replicate k '0' ++ renderGroup g := hk ▸ List.mem_map_of_mem hc
  rw [← toLower_congr (f := Char.isAlphanum) (by decide) c]
  rcases List.mem_append.1 hlower with hzero | hdigit
  · rw [List.eq_of_mem_replicate hzero]
    decide
  · obtain ⟨d, hd, heq⟩ := mem_renderGroup hdigit
    rw [heq]
    exact halnum d hd

theorem Group.ne_nil (h : Group s g) : s ≠ [] := by
  rintro rfl
  obtain ⟨-, k, hk⟩ := h
  exact Nat.toDigits_ne_nil (List.append_eq_nil_iff.1 hk.symm).2

theorem Group.not_mem (h : Group s g) (hc : c.isAlphanum = false) : c ∉ s := by
  intro hmem
  rw [h.mem hmem] at hc
  cases hc

/-- Each part of several groups is the text of one. -/
theorem group_of_mem (h : List.Forall₂ Group parts gs) (hs : s ∈ parts) : ∃ g, Group s g := by
  obtain ⟨i, hi, rfl⟩ := List.mem_iff_getElem.1 hs
  exact ⟨_, h.get hi (h.length_eq ▸ hi)⟩

/-- **The texts of groups**, at the end of which an IPv4 address may stand for two. -/
inductive Tail : List (List Char) → List UInt16 → Prop where
  | nil : Tail [] []
  | address (i : Ipv4) : Tail [i.render.toList] i.groups
  | cons {s : List Char} {g : UInt16} {parts : List (List Char)} {gs : List UInt16} :
      Group s g → Tail parts gs → Tail (s :: parts) (g :: gs)

theorem readTail?_cons (hne : parts ≠ []) :
    readTail? (s :: parts) =
      (readGroup? s).bind fun g => (readTail? parts).bind fun gs => some (g :: gs) := by
  cases parts with
  | nil => exact absurd rfl hne
  | cons s' parts => rw [readTail?]; rfl; simp

/-- The last part alone may be an IPv4 address, and this has dots. -/
theorem readTail?_group (h : Group s g) : readTail? [s] = some [g] := by
  have hdot : '.' ∉ s := h.not_mem (by decide)
  rw [readTail?, Ipv4.read?_eq_none_of_dotless hdot]
  simp only [readGroup?_eq_some_iff.2 h, Option.map_some]

/-- **Groups are read from their texts.** -/
theorem readTail?_eq_some_iff : readTail? parts = some gs ↔ Tail parts gs := by
  constructor
  · intro h
    induction parts generalizing gs with
    | nil =>
      cases h
      exact .nil
    | cons s parts ih =>
      by_cases hne : parts = []
      · subst hne
        rw [readTail?] at h
        split at h
        next i hi =>
          cases h
          rw [Ipv4.read?_eq_some_iff.1 hi]
          exact .address i
        · obtain ⟨g, hg, rfl⟩ := Option.map_eq_some_iff.1 h
          exact .cons (readGroup?_eq_some_iff.1 hg) .nil
      · rw [readTail?_cons hne] at h
        obtain ⟨g, hg, hrest⟩ := Option.bind_eq_some_iff.1 h
        obtain ⟨gs', hgs, heq⟩ := Option.bind_eq_some_iff.1 hrest
        cases heq
        exact .cons (readGroup?_eq_some_iff.1 hg) (ih hgs)
  · intro h
    induction h with
    | nil => rfl
    | address i =>
      rw [readTail?, Ipv4.read?_render]
      rfl
    | @cons s g parts gs hg hparts ih =>
      by_cases hne : parts = []
      · subst hne
        cases hparts
        exact readTail?_group hg
      · rw [readTail?_cons hne, readGroup?_eq_some_iff.2 hg, ih]
        rfl

/-- Parts of groups are not empty, and have no colon. -/
theorem groups_apart (h : List.Forall₂ Group parts gs) : ∀ s ∈ parts, s ≠ [] ∧ ':' ∉ s := by
  intro s hs
  obtain ⟨g, hg⟩ := group_of_mem h hs
  exact ⟨hg.ne_nil, hg.not_mem (by decide)⟩

theorem Tail.apart (h : Tail parts gs) : ∀ s ∈ parts, s ≠ [] ∧ ':' ∉ s := by
  induction h with
  | nil => exact nofun
  | address i =>
    rw [List.forall_mem_singleton]
    exact ⟨List.ne_nil_of_mem (Ipv4.dot_mem_render i),
      Ipv4.not_mem_render (by decide) (by decide)⟩
  | cons hg _ ih =>
    rw [List.forall_mem_cons]
    exact ⟨⟨hg.ne_nil, hg.not_mem (by decide)⟩, ih⟩

theorem intercalate_pieces (s : List Char) : [':'].intercalate (pieces s) = s := by
  unfold pieces
  split
  next hs => rw [List.isEmpty_iff.1 hs]; rfl
  · exact List.intercalate_splitOn ':'

theorem pieces_intercalate (h : ∀ s ∈ parts, s ≠ [] ∧ ':' ∉ s) :
    pieces ([':'].intercalate parts) = parts := by
  by_cases hne : parts = []
  · rw [hne]
    rfl
  · have hsplit : ([':'].intercalate parts).splitOn ':' = parts :=
      List.splitOn_intercalate ':' (fun s hs => (h s hs).2) hne
    have hfull : [':'].intercalate parts ≠ [] := by
      -- an empty text would be cut into one empty part
      intro hnil
      rw [hnil, List.splitOn_nil] at hsplit
      exact (h [] (hsplit ▸ List.mem_singleton_self [])).1 rfl
    rw [pieces, if_neg (by simpa using hfull), hsplit]

/-- **The texts of an address**: its groups between colons, or those before and after a run of zero
groups that two colons stand for. -/
inductive Spelled : List Char → List UInt16 → Prop where
  | full {parts : List (List Char)} {gs : List UInt16} :
      Tail parts gs → Spelled ([':'].intercalate parts) gs
  | shortened {front back : List (List Char)} {gs hs : List UInt16} (n : Nat) : 0 < n →
      List.Forall₂ Group front gs → Tail back hs →
        Spelled ([':'].intercalate front ++ ':' :: ':' :: [':'].intercalate back)
          (gs ++ List.replicate n 0 ++ hs)

theorem ofGroups?_eq_some_iff {a : Ipv6} : ofGroups? gs = some a ↔ gs = a.groups := by
  unfold ofGroups?
  constructor
  · intro h
    split at h
    · cases h
      rfl
    · cases h
  · rintro rfl
    rw [dif_pos a.length_groups]

/-- What a text spells, if there are eight groups of it. -/
theorem Spelled.read?_eq (h : Spelled s gs) (hlen : gs.length = 8) : read? s = ofGroups? gs := by
  cases h with
  | full ht =>
    have hcut := (Text.cutPair_intercalate (b := []) ht.apart).2
    rw [read?, hcut]
    simp only [pieces_intercalate ht.apart, readTail?_eq_some_iff.2 ht, Option.bind_eq_bind,
      Option.bind_some]
  | @shortened front back gs hs n hn hfront hback =>
    have hapart := groups_apart hfront
    have hread : front.mapM readGroup? = some gs := by
      rw [mapM_eq_some_iff]
      exact hfront.imp fun _ _ => readGroup?_eq_some_iff.2
    -- with eight groups in all, as many are missing as were left out
    have hfound : gs.length + hs.length < 8 ∧ 8 - (gs.length + hs.length) = n := by
      simp only [List.length_append, List.length_replicate] at hlen
      omega
    rw [read?, (Text.cutPair_intercalate hapart).1]
    simp only [pieces_intercalate hapart, pieces_intercalate hback.apart, hread,
      readTail?_eq_some_iff.2 hback, Option.bind_eq_bind, Option.bind_some, if_pos hfound.1,
      hfound.2]

/-- **What is read as an IPv6 address spells it**, and nothing else does. -/
theorem read?_eq_some_iff {a : Ipv6} : read? s = some a ↔ Spelled s a.groups := by
  constructor
  · intro h
    unfold read? at h
    split at h
    · obtain ⟨gs, hgs, hof⟩ := Option.bind_eq_some_iff.1 h
      have hspelled := Spelled.full (readTail?_eq_some_iff.1 hgs)
      rw [intercalate_pieces, ofGroups?_eq_some_iff.1 hof] at hspelled
      exact hspelled
    next front back hcut =>
      obtain ⟨gs, hgs, hrest⟩ := Option.bind_eq_some_iff.1 h
      obtain ⟨hs, hhs, hof⟩ := Option.bind_eq_some_iff.1 hrest
      simp only at hof
      split at hof
      next hfew =>
        have hfront : List.Forall₂ Group (pieces front) gs :=
          (mapM_eq_some_iff.1 hgs).imp fun _ _ => readGroup?_eq_some_iff.1
        have hspelled := Spelled.shortened (8 - (gs.length + hs.length)) (by omega) hfront
          (readTail?_eq_some_iff.1 hhs)
        rw [intercalate_pieces, intercalate_pieces, ofGroups?_eq_some_iff.1 hof,
          ← Text.cutPair_eq_some hcut] at hspelled
        exact hspelled
      · cases hof
  · intro h
    rw [h.read?_eq a.length_groups]
    exact ofGroups?_eq_some_iff.2 rfl

/-- The text of an IPv6 address is made of letters, digits, colons and dots. -/
theorem Spelled.mem (h : Spelled s gs) (hc : c ∈ s) : c = ':' ∨ c = '.' ∨ c.isAlphanum = true := by
  have htail : ∀ {parts : List (List Char)} {gs : List UInt16}, Tail parts gs → ∀ p ∈ parts,
      c ∈ p → c = '.' ∨ c.isAlphanum = true := by
    intro parts gs ht
    induction ht with
    | nil => exact nofun
    | address i =>
      rw [List.forall_mem_singleton]
      intro hmem
      rcases Ipv4.mem_render hmem with hdot | hdigit
      · exact Or.inl hdot
      · exact Or.inr (by rw [Char.isAlphanum, hdigit, Bool.or_true])
    | cons hg _ ih =>
      rw [List.forall_mem_cons]
      exact ⟨fun hmem => Or.inr (hg.mem hmem), ih⟩
  have hjoined : ∀ {parts : List (List Char)}, c ∈ [':'].intercalate parts →
      (∀ p ∈ parts, c ∈ p → c = '.' ∨ c.isAlphanum = true) →
        c = ':' ∨ c = '.' ∨ c.isAlphanum = true := by
    intro parts hmem hparts
    rcases Text.mem_of_mem_intercalate hmem with hcolon | ⟨p, hp, hcp⟩
    · exact Or.inl hcolon
    · exact Or.inr (hparts p hp hcp)
  cases h with
  | full ht => exact hjoined hc (htail ht)
  | shortened n _ hfront hback =>
    simp only [List.mem_append, List.mem_cons] at hc
    rcases hc with hc | hc | hc | hc
    · refine hjoined hc fun p hp hcp => ?_
      obtain ⟨g, hg⟩ := group_of_mem hfront hp
      exact Or.inr (hg.mem hcp)
    · exact Or.inl hc
    · exact Or.inl hc
    · exact hjoined hc (htail hback)

theorem Tail.length_le (h : Tail parts gs) : gs.length ≤ parts.length + 1 := by
  induction h with
  | nil => exact Nat.zero_le 1
  | address i => exact Nat.le_refl 2
  | cons _ _ ih => exact Nat.succ_le_succ ih

/-- The text of more than two groups has a colon. -/
theorem Spelled.colon_mem (h : Spelled s gs) (hlen : 2 < gs.length) : ':' ∈ s := by
  cases h with
  | @full parts gs ht =>
    have hle := ht.length_le
    match parts, hle with
    | [], hle => simp only [List.length_nil] at hle; omega
    | [_], hle => simp only [List.length_singleton] at hle; omega
    | p :: p' :: parts, _ =>
      rw [List.intercalate_cons_cons]
      simp
  | shortened => simp

/-- A text without colons spells no IPv6 address. -/
theorem read?_eq_none_of_colonless (h : ':' ∉ s) : read? s = none := by
  cases hr : read? s with
  | none => rfl
  | some a =>
    have hcolon := (read?_eq_some_iff.1 hr).colon_mem (by rw [a.length_groups]; decide)
    exact absurd hcolon h

/-! ### Letters of either case -/

theorem readGroup?_toLower (s : List Char) : readGroup? (s.map Char.toLower) = readGroup? s := by
  simp only [readGroup?, List.isEmpty_map, List.length_map, mapM_map, hexDigit?_toLower]

theorem readTail?_toLower (parts : List (List Char)) :
    readTail? (parts.map (List.map Char.toLower)) = readTail? parts := by
  induction parts with
  | nil => rfl
  | cons s parts ih =>
    by_cases hne : parts = []
    · rw [hne, List.map_singleton, readTail?, readTail?, Ipv4.read?_toLower, readGroup?_toLower]
    · rw [List.map_cons, readTail?_cons (mt List.map_eq_nil_iff.1 hne), readTail?_cons hne, ih,
        readGroup?_toLower]

theorem pieces_toLower (s : List Char) :
    pieces (s.map Char.toLower) = (pieces s).map (List.map Char.toLower) := by
  unfold pieces
  rw [List.isEmpty_map]
  split
  · rfl
  · exact Text.splitOn_map (fun c => toLower_eq_iff (by decide)) s

/-- **Letters of either case spell the same address.** -/
theorem read?_toLower (s : List Char) : read? (s.map Char.toLower) = read? s := by
  unfold read?
  rw [Text.cutPair_map fun c => toLower_eq_iff (by decide)]
  cases Text.cutPair ':' s with
  | none =>
    show (readTail? (pieces (s.map Char.toLower)) >>= ofGroups?) = _
    rw [pieces_toLower, readTail?_toLower]
  | some cut =>
    obtain ⟨front, back⟩ := cut
    simp only [Option.map_some, pieces_toLower, readTail?_toLower, mapM_map, readGroup?_toLower]

end Ipv6

end Net

end NodeClock
