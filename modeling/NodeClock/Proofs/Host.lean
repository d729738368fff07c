import NodeClock.Target.Host
import NodeClock.Proofs.Address
import NodeClock.Proofs.LetterCase
import NodeClock.Proofs.Utf8

/-!
# Hosts and their texts

* `Host.isName_map_toLower`: a name in lower case is a name.
* `Host.Name`, `Host.isName_iff`: **the names that are read.**
* `Host.Spelled`, `Host.read_eq_ok_iff`: **the texts of a host** and those that are read as it.
* `Host.bare`: the text of a host without brackets.
* `Host.Sound`: what is known of each host that was read, by `Host.Spelled.sound`.
* `Host.Spelled.mem`: the characters of such a text.
* `Host.toList_render`: how a host is shown.
-/

namespace NodeClock

open Net

namespace Host

variable {s : List Char} {c : Char} {host : Host}

/-! ## Names -/

theorem isLabel_map_toLower (s : List Char) : isLabel (s.map Char.toLower) = isLabel s := by
  have hhyphen : ∀ o : Option Char, (o.map Char.toLower != some '-') = (o != some '-') := by
    intro o
    rw [Bool.eq_iff_iff, bne_iff_ne, bne_iff_ne, Ne, map_toLower_eq_iff (by decide)]
  have hchar : ∀ c : Char, (isLetterOrDigit c.toLower || c.toLower == '-') =
      (isLetterOrDigit c || c == '-') := by
    intro c
    rw [isLetterOrDigit, isLetterOrDigit, Char.isAlpha_toLower_eq_isAlpha, isDigit_toLower,
      Bool.eq_iff_iff]
    simp [toLower_eq_iff]
  simp only [isLabel, List.isEmpty_map, List.length_map, List.head?_map, List.getLast?_map,
    List.all_map, hhyphen, Function.comp_def, hchar]

theorem dropFinalDot_map_toLower (s : List Char) :
    dropFinalDot (s.map Char.toLower) = (dropFinalDot s).map Char.toLower := by
  unfold dropFinalDot
  rw [List.getLast?_map, apply_ite (List.map Char.toLower), List.map_dropLast]
  exact if_congr (map_toLower_eq_iff (by decide)) rfl rfl

/-- **A name in lower case is a name.** -/
theorem isName_map_toLower (s : List Char) : isName (s.map Char.toLower) = isName s := by
  have hchar : ∀ c : Char, (c.toLower.isDigit || c.toLower == '.') = (c.isDigit || c == '.') := by
    intro c
    rw [isDigit_toLower, Bool.eq_iff_iff]
    simp [toLower_eq_iff]
  have hlabel : isLabel ∘ List.map Char.toLower = isLabel := funext isLabel_map_toLower
  unfold isName
  simp only [dropFinalDot_map_toLower, List.isEmpty_map, List.length_map, List.all_map,
    Function.comp_def, hchar,
    Text.splitOn_map (m := '.') (f := Char.toLower) fun c => toLower_eq_iff (by decide)]
  rw [← Function.comp_def, hlabel]

/-- A label of a name: letters, digits and inner hyphens. -/
structure Label (s : List Char) : Prop where
  ne_nil : s ≠ []
  length : s.length ≤ 63
  chars : ∀ c ∈ s, isLetterOrDigit c = true ∨ c = '-'
  head : s.head? ≠ some '-'
  last : s.getLast? ≠ some '-'

theorem isLabel_iff : isLabel s = true ↔ Label s := by
  simp only [isLabel, Bool.and_eq_true, Bool.not_eq_true', List.isEmpty_eq_false_iff,
    decide_eq_true_eq, bne_iff_ne, List.all_eq_true, Bool.or_eq_true, beq_iff_eq]
  constructor
  · rintro ⟨⟨⟨⟨hne, hlen⟩, hhead⟩, hlast⟩, hchars⟩
    exact ⟨hne, hlen, hchars, hhead, hlast⟩
  · rintro ⟨hne, hlen, hchars, hhead, hlast⟩
    exact ⟨⟨⟨⟨hne, hlen⟩, hhead⟩, hlast⟩, hchars⟩

theorem Label.dot_not_mem (h : Label s) : '.' ∉ s := by
  intro hdot
  rcases h.chars '.' hdot with h | h <;> exact absurd h (by decide)

/-- A name without a dot at its end: labels between dots, at most 253 bytes, and not all of it
digits and dots. -/
structure Labels (s : List Char) : Prop where
  ne_nil : s ≠ []
  size : (String.ofList s).utf8ByteSize ≤ 253
  labels : ∃ labels, (∀ label ∈ labels, Label label) ∧ s = ['.'].intercalate labels
  exists_other : ∃ c ∈ s, c ≠ '.' ∧ c.isDigit = false

/-- A name: labels between dots, perhaps with a dot at the end. -/
def Name (s : List Char) : Prop := ∃ bare, Labels bare ∧ (s = bare ∨ s = bare ++ ['.'])

theorem Labels.mem (h : Labels s) (hc : c ∈ s) : isLetterOrDigit c = true ∨ c = '-' ∨ c = '.' := by
  obtain ⟨labels, hlabels, rfl⟩ := h.labels
  rcases Text.mem_of_mem_intercalate hc with hc | ⟨label, hlabel, hc⟩
  · exact Or.inr (Or.inr hc)
  · exact ((hlabels label hlabel).chars c hc).imp_right Or.inl

theorem Labels.splitOn (h : Labels s) : ∀ label ∈ s.splitOn '.', Label label := by
  obtain ⟨labels, hlabels, rfl⟩ := h.labels
  -- no labels at all would be an empty text
  have hne : labels ≠ [] := by
    rintro rfl
    exact h.ne_nil rfl
  rwa [List.splitOn_intercalate '.' (fun label hl => (hlabels label hl).dot_not_mem) hne]

/-- The last label is not empty. -/
theorem Labels.getLast?_ne (h : Labels s) : s.getLast? ≠ some '.' := by
  intro hlast
  have hs : s = s.dropLast ++ ['.'] := (List.dropLast_append_getLast? '.' hlast).symm
  have hempty : [] ∈ s.splitOn '.' := by
    rw [hs, List.splitOn_append_cons_self, List.splitOn_nil]
    exact List.mem_append_right _ (List.mem_singleton_self [])
  exact (h.splitOn [] hempty).ne_nil rfl

theorem isLetterOrDigit_of_isDigit (h : c.isDigit = true) : isLetterOrDigit c = true := by
  rw [isLetterOrDigit, h, Bool.or_true]

theorem toNat_of_isLetterOrDigit (h : isLetterOrDigit c = true) :
    0x30 ≤ c.toNat ∧ c.toNat ≤ 0x7A := by
  simp only [isLetterOrDigit, Char.isAlpha, Char.isUpper, Char.isLower, Char.isDigit, ge_iff_le,
    Bool.or_eq_true, Bool.and_eq_true, decide_eq_true_eq, UInt32.le_iff_toNat_le, Char.reduceVal,
    UInt32.reduceToNat] at h
  have hval : c.toNat = c.val.toNat := rfl
  omega

/-- The characters of a name have one byte each. -/
theorem utf8ByteSize_eq_length (h : ∀ c ∈ s, isLetterOrDigit c = true ∨ c = '-' ∨ c = '.') :
    (String.ofList s).utf8ByteSize = s.length := by
  refine Utf8.utf8ByteSize_ofList fun c hc => ?_
  rcases h c hc with hc | rfl | rfl
  · exact Nat.lt_of_le_of_lt (toNat_of_isLetterOrDigit hc).2 (by decide)
  · decide
  · decide

theorem labels_iff : Labels s ↔ s ≠ [] ∧ s.length ≤ maxName ∧
    (∃ c ∈ s, c ≠ '.' ∧ c.isDigit = false) ∧ ∀ label ∈ s.splitOn '.', Label label := by
  constructor
  · intro h
    refine ⟨h.ne_nil, ?_, h.exists_other, h.splitOn⟩
    rw [← utf8ByteSize_eq_length fun c hc => h.mem hc]
    exact h.size
  · rintro ⟨hne, hlen, hother, hlabels⟩
    have hchars : ∀ c ∈ s, isLetterOrDigit c = true ∨ c = '-' ∨ c = '.' := by
      intro c hc
      rcases Text.exists_mem_splitOn hc '.' with hc | ⟨label, hlabel, hc⟩
      · exact Or.inr (Or.inr hc)
      · exact ((hlabels label hlabel).chars c hc).imp_right Or.inl
    refine ⟨hne, ?_, ⟨_, hlabels, (List.intercalate_splitOn '.').symm⟩, hother⟩
    rw [utf8ByteSize_eq_length hchars]
    exact hlen

theorem isName_eq (s : List Char) : isName s = true ↔ Labels (dropFinalDot s) := by
  rw [labels_iff]
  simp only [isName, Bool.and_eq_true, Bool.not_eq_true', List.isEmpty_eq_false_iff,
    decide_eq_true_eq, List.all_eq_false, Bool.or_eq_true, beq_iff_eq, List.all_eq_true,
    isLabel_iff, not_or, Bool.not_eq_true, and_assoc, and_comm (a := Char.isDigit _ = false), ne_eq]

/-- **The names that are read.** -/
theorem isName_iff : isName s = true ↔ Name s := by
  rw [isName_eq]
  unfold dropFinalDot
  constructor
  · intro h
    split at h
    next hlast => exact ⟨s.dropLast, h, Or.inr (List.dropLast_append_getLast? '.' hlast).symm⟩
    · exact ⟨s, h, Or.inl rfl⟩
  · rintro ⟨bare, h, rfl | rfl⟩
    · rw [if_neg h.getLast?_ne]
      exact h
    · rw [if_pos List.getLast?_concat, List.dropLast_concat]
      exact h

/-- Names have letters, digits, hyphens and dots. -/
theorem Name.mem (h : Name s) (hc : c ∈ s) : isLetterOrDigit c = true ∨ c = '-' ∨ c = '.' := by
  obtain ⟨bare, hbare, rfl | rfl⟩ := h
  · exact hbare.mem hc
  · rcases List.mem_append.1 hc with hc | hc
    · exact hbare.mem hc
    · exact Or.inr (Or.inr (List.mem_singleton.1 hc))

theorem Name.not_mem (h : Name s) (hc : isLetterOrDigit c = false) (hhyphen : c ≠ '-')
    (hdot : c ≠ '.') : c ∉ s := by
  intro hmem
  rcases h.mem hmem with hl | hl | hl
  · rw [hc] at hl
    cases hl
  · exact hhyphen hl
  · exact hdot hl

/-- A name is no IPv4 address: not all of it are digits and dots. -/
theorem Name.exists_other (h : Name s) : ∃ c ∈ s, c ≠ '.' ∧ c.isDigit = false := by
  obtain ⟨bare, hbare, rfl | rfl⟩ := h
  · exact hbare.exists_other
  · obtain ⟨c, hc, hother⟩ := hbare.exists_other
    exact ⟨c, List.mem_append_left _ hc, hother⟩

/-- A dot at the end is one byte more. -/
theorem Name.size_le (h : Name s) : (String.ofList s).utf8ByteSize ≤ 254 := by
  obtain ⟨bare, hbare, rfl | rfl⟩ := h
  · exact Nat.le_succ_of_le hbare.size
  · rw [String.ofList_append, String.utf8ByteSize_append]
    exact Nat.succ_le_succ hbare.size

theorem Name.ne_nil (h : Name s) : s ≠ [] := by
  obtain ⟨c, hc, -⟩ := h.exists_other
  exact List.ne_nil_of_mem hc

/-! ## Hosts -/

/-- A zone: letters, digits, hyphens, underscores and dots. -/
def Zone (s : List Char) : Prop :=
  s ≠ [] ∧ ∀ c ∈ s, isLetterOrDigit c = true ∨ c ∈ ['-', '_', '.']

theorem isZone_iff : isZone s = true ↔ Zone s := by
  simp only [isZone, Zone, Bool.and_eq_true, Bool.not_eq_true', List.isEmpty_eq_false_iff,
    List.all_eq_true, Bool.or_eq_true, beq_iff_eq, List.mem_cons, List.not_mem_nil, or_false,
    or_assoc]

/-- **The texts of a host**: an address, an IPv6 address and a zone, or a name, of which the case
of letters does not count. -/
inductive Spelled : List Char → Host → Prop where
  | v4 (a : Ipv4) : Spelled a.render.toList (v4 a)
  | v6 {s : List Char} {a : Ipv6} : Ipv6.Spelled s a.groups → Spelled s (v6 a)
  | zoned {s zone : List Char} {a : Ipv6} : Ipv6.Spelled s a.groups → Zone zone →
      Spelled (s ++ '%' :: zone) (zoned a (String.ofList zone))
  | named {s : List Char} : Name s → Spelled s (named (String.ofList (s.map Char.toLower)))

theorem percent_not_mem {gs : List UInt16} (h : Ipv6.Spelled s gs) : '%' ∉ s := by
  intro hc
  rcases h.mem hc with h | h | h <;> exact absurd h (by decide)

theorem colon_mem {a : Ipv6} (h : Ipv6.Spelled s a.groups) : ':' ∈ s :=
  h.colon_mem (by rw [a.length_groups]; decide)

theorem Spelled.ne_nil (h : Spelled s host) : s ≠ [] := by
  cases h with
  | v4 a => exact List.ne_nil_of_mem a.dot_mem_render
  | v6 hs => exact List.ne_nil_of_mem (colon_mem hs)
  | zoned => exact List.append_ne_nil_of_right_ne_nil _ (List.cons_ne_nil _ _)
  | named hn => exact hn.ne_nil

/-- **The hosts that are read** are those of these texts. -/
theorem read_eq_ok_iff : read s = .ok host ↔ Spelled s host := by
  constructor
  · intro h
    unfold read at h
    split at h
    · cases h
    split at h
    next addr zone hcut =>
      obtain ⟨rfl, -⟩ := Text.cut_eq_some hcut
      split at h
      next ha =>
        split at h
        next hzone =>
          cases h
          exact .zoned (Ipv6.read?_eq_some_iff.1 ha) (isZone_iff.1 hzone)
        · cases h
      · cases h
    · split at h
      next ha =>
        cases h
        rw [Ipv4.read?_eq_some_iff.1 ha]
        exact .v4 _
      next ha =>
        cases h
        exact .v6 (Ipv6.read?_eq_some_iff.1 ha)
      · split at h
        next hname =>
          cases h
          exact .named (isName_iff.1 hname)
        · cases h
  · intro h
    have hne : s.isEmpty = false := by simpa using h.ne_nil
    rw [read, hne, if_neg Bool.false_ne_true]
    cases h with
    | v4 a =>
      have hpercent : '%' ∉ a.render.toList := Ipv4.not_mem_render (by decide) (by decide)
      simp only [Text.cut_eq_none hpercent, Ipv4.read?_render]
    | v6 hs =>
      have hv4 : Ipv4.read? s = none := Ipv4.read?_eq_none (colon_mem hs) (by decide) (by decide)
      simp only [Text.cut_eq_none (percent_not_mem hs), hv4, Ipv6.read?_eq_some_iff.2 hs]
    | zoned hs hzone =>
      simp only [Text.cut_append (percent_not_mem hs), Ipv6.read?_eq_some_iff.2 hs,
        isZone_iff.2 hzone, if_true]
    | named hname =>
      -- one character keeps a name from being an IPv4 address, a missing one from being IPv6
      obtain ⟨c, hc, hdot, hdigit⟩ := hname.exists_other
      have hpercent : '%' ∉ s := hname.not_mem (by decide) (by decide) (by decide)
      have hcolon : ':' ∉ s := hname.not_mem (by decide) (by decide) (by decide)
      have hv4 : Ipv4.read? s = none := Ipv4.read?_eq_none hc hdot hdigit
      have hv6 : Ipv6.read? s = none := Ipv6.read?_eq_none_of_colonless hcolon
      simp only [Text.cut_eq_none hpercent, hv4, hv6, isName_iff.2 hname, if_true]

/-! ## Hosts that were read -/

/-- The text of a host without brackets. -/
def bare : Host → List Char
  | v4 a => a.render.toList
  | v6 a => a.render.toList
  | zoned a zone => a.render.toList ++ '%' :: zone.toList
  | named n => n.toList

/-- What is known of a host that was read: a zone is one, and a name is one in lower case. -/
def Sound : Host → Prop
  | zoned _ zone => isZone zone.toList = true
  | named n => isName n.toList = true ∧ n.toList.map Char.toLower = n.toList
  | _ => True

theorem Spelled.sound (h : Spelled s host) : host.Sound := by
  cases h with
  | v4 a => exact trivial
  | v6 hs => exact trivial
  | zoned hs hzone =>
    rw [Sound, String.toList_ofList]
    exact isZone_iff.2 hzone
  | @named s hname =>
    rw [Sound, String.toList_ofList, isName_map_toLower, List.map_map]
    refine ⟨isName_iff.2 hname, List.map_congr_left fun c _ => ?_⟩
    exact Char.toLower_toLower_eq_toLower c

/-- The text without brackets is one of the host. -/
theorem Sound.spelled (hs : host.Sound) : Spelled host.bare host := by
  cases host with
  | v4 a => exact .v4 a
  | v6 a => exact .v6 a.render_spelled
  | zoned a zone =>
    have hspelled := Spelled.zoned a.render_spelled (isZone_iff.1 hs)
    rwa [String.ofList_toList] at hspelled
  | named n =>
    obtain ⟨hname, hlower⟩ := hs
    have hspelled := Spelled.named (isName_iff.1 hname)
    rwa [hlower, String.ofList_toList] at hspelled

/-- The text of a host has letters, digits and a few marks, but no brackets. -/
theorem Spelled.mem (h : Spelled s host) (hc : c ∈ s) :
    isLetterOrDigit c = true ∨ c ∈ ['.', ':', '%', '-', '_'] := by
  have hv6 {s : List Char} {gs : List UInt16} (hs : Ipv6.Spelled s gs) (hc : c ∈ s) :
      isLetterOrDigit c = true ∨ c ∈ ['.', ':', '%', '-', '_'] := by
    rcases hs.mem hc with rfl | rfl | hc
    · exact Or.inr (by decide)
    · exact Or.inr (by decide)
    · exact Or.inl hc
  cases h with
  | v4 a =>
    rcases Ipv4.mem_render hc with rfl | hc
    · exact Or.inr (by decide)
    · exact Or.inl (isLetterOrDigit_of_isDigit hc)
  | v6 hs => exact hv6 hs hc
  | zoned hs hzone =>
    rcases List.mem_append.1 hc with hc | hc
    · exact hv6 hs hc
    · rcases List.mem_cons.1 hc with rfl | hc
      · exact Or.inr (by decide)
      · have hmarks : ∀ m ∈ ['-', '_', '.'], m ∈ ['.', ':', '%', '-', '_'] := by simp
        exact (hzone.2 c hc).imp_right (hmarks c)
  | named hname =>
    rcases hname.mem hc with hc | rfl | rfl
    · exact Or.inl hc
    · exact Or.inr (by decide)
    · exact Or.inr (by decide)

theorem mem_bare (hs : host.Sound) (hc : c ∈ host.bare) :
    isLetterOrDigit c = true ∨ c ∈ ['.', ':', '%', '-', '_'] := hs.spelled.mem hc

/-- A host is shown by its text, which has no colon, or by its text in brackets. -/
theorem toList_render (hs : host.Sound) :
    host.render.toList = host.bare ∧ ':' ∉ host.bare ∨
      host.render.toList = '[' :: (host.bare ++ [']']) := by
  cases host with
  | v4 a => exact Or.inl ⟨rfl, Ipv4.not_mem_render (by decide) (by decide)⟩
  | v6 a => exact Or.inr (by simp [render, bare])
  | zoned a zone => exact Or.inr (by simp [render, bare])
  | named n => exact Or.inl ⟨rfl, (isName_iff.1 hs.1).not_mem (by decide) (by decide) (by decide)⟩

end Host

end NodeClock
