import NodeClock.Proofs.Authority

/-!
# Targets and their texts

* `Target.authority`: the authority of a target.
* `Target.Made`, `Made.sound`: how targets come about, and what this says of them.
* `Target.withPort_eq_ok_iff`, `withPath_eq_ok_iff`: what another port and another path change.
* `Sound.splits`: the authority of a target splits into its host and its port.
* `Target.make_authority`: **a target comes back from its authority and its path.**
* `Target.render_roundTrip`: so it does from its text, and different targets have different texts.
-/

namespace NodeClock

namespace Target

variable {t t' : Target} {port : UInt16}

/-! ## Texts -/

theorem toList_path (t : Target) :
    t.path.toList = '/' :: ['/'].intercalate (t.segments.map String.toList) :=
  toList_joined t.segments

/-- The authority of a target: its host and its port. -/
def authority (t : Target) : String := t.host.render ++ ":" ++ Decimal.render t.port.toNat

theorem toList_hostPort (host port : String) :
    (host ++ ":" ++ port).toList = host.toList ++ ':' :: port.toList := by
  rw [String.toList_append, String.toList_append, List.append_assoc]
  rfl

theorem toList_authority (t : Target) :
    t.authority.toList = t.host.render.toList ++ ':' :: Decimal.digits t.port.toNat := by
  rw [authority, toList_hostPort, Decimal.toList_render]

theorem render_eq (t : Target) : t.render = "coap://" ++ t.authority ++ t.path := by
  simp only [render, authority, String.append_assoc]

/-! ## Targets -/

/-- What is known of each target. -/
structure Sound (t : Target) : Prop where
  host : t.host.Sound
  port : t.port ≠ 0
  segments_ne : t.segments ≠ []
  segments : ∀ s ∈ t.segments, Segment s

/-- How targets come about: from an authority with a path or with the default one, and from a
target with another port or another path. -/
inductive Made : Target → Prop where
  | make {authority path : String} {t : Target} : Target.make authority path = .ok t → Made t
  | ofAuthority {authority : String} {t : Target} : Target.ofAuthority authority = .ok t → Made t
  | withPort {t t' : Target} {port : UInt16} : Made t → t.withPort port = .ok t' → Made t'
  | withPath {t t' : Target} {path : String} : Made t → t.withPath path = .ok t' → Made t'

theorem make_sound {authority path : String} (h : make authority path = .ok t) : t.Sound := by
  obtain ⟨host, port?, -, hhost, hport, hpath⟩ := make_eq_ok_iff.1 h
  exact ⟨hhost.sound, hport.ne_zero, hpath.ne_nil, hpath.segment⟩

theorem withPort_eq_ok_iff : t.withPort port = .ok t' ↔ port ≠ 0 ∧ t' = { t with port } := by
  unfold withPort
  split
  next hzero => exact iff_of_false nofun fun h => h.1 hzero
  next hport =>
    rw [Except.ok.injEq, eq_comm]
    exact (and_iff_right hport).symm

theorem withPath_eq_ok_iff {path : String} : t.withPath path = .ok t' ↔
    ∃ segments, readPath path = .ok segments ∧ t' = { t with segments } := by
  unfold withPath
  cases readPath path with
  | error e => exact iff_of_false nofun fun ⟨_, h, _⟩ => nomatch h
  | ok segments =>
    constructor
    · rintro ⟨⟩
      exact ⟨segments, rfl, rfl⟩
    · rintro ⟨_, ⟨⟩, rfl⟩
      rfl

theorem Sound.withPort (h : t.Sound) (hport : t.withPort port = .ok t') : t'.Sound := by
  obtain ⟨hne, rfl⟩ := withPort_eq_ok_iff.1 hport
  exact { h with port := hne }

theorem Sound.withPath {path : String} (h : t.Sound) (hpath : t.withPath path = .ok t') :
    t'.Sound := by
  obtain ⟨segments, hread, rfl⟩ := withPath_eq_ok_iff.1 hpath
  have hsegments := readPath_eq_ok_iff.1 hread
  exact ⟨h.host, h.port, hsegments.ne_nil, hsegments.segment⟩

theorem Made.sound (h : t.Made) : t.Sound := by
  induction h with
  | make h => exact make_sound h
  | ofAuthority h => exact make_sound h
  | withPort _ h ih => exact ih.withPort h
  | withPath _ h ih => exact ih.withPath h

/-- The authority of a target is made of letters, digits and marks. -/
theorem Sound.mem_authority (h : t.Sound) {c : Char} (hc : c ∈ t.authority.toList) :
    Host.isLetterOrDigit c = true ∨ c ∈ ['.', ':', '%', '-', '_', '[', ']'] := by
  have hhost : ∀ c ∈ t.host.render.toList,
      Host.isLetterOrDigit c = true ∨ c ∈ ['.', ':', '%', '-', '_', '[', ']'] := by
    intro c hc
    have hbare (hc : c ∈ t.host.bare) :
        Host.isLetterOrDigit c = true ∨ c ∈ ['.', ':', '%', '-', '_', '[', ']'] :=
      (Host.mem_bare h.host hc).imp_right fun hm => List.mem_append_left ['[', ']'] hm
    rcases Host.toList_render h.host with ⟨hr, -⟩ | hr
    · exact hbare (hr ▸ hc)
    · rw [hr, List.mem_cons, List.mem_append, List.mem_singleton] at hc
      rcases hc with rfl | hc | rfl
      · exact Or.inr (by decide)
      · exact hbare hc
      · exact Or.inr (by decide)
  rw [toList_authority, List.mem_append, List.mem_cons] at hc
  rcases hc with hc | rfl | hc
  · exact hhost c hc
  · exact Or.inr (by decide)
  · exact Or.inl (Host.isLetterOrDigit_of_isDigit (Decimal.isDigit_of_mem_digits hc))

/-- No letter, digit or such mark is blank. -/
theorem isBlank_eq_false {c : Char}
    (h : Host.isLetterOrDigit c = true ∨ c ∈ ['.', ':', '%', '-', '_', '[', ']']) :
    Text.isBlank c = false := by
  have hmarks : ∀ c ∈ ['.', ':', '%', '-', '_', '[', ']'], 0x25 ≤ c.toNat ∧ c.toNat ≤ 0x7A := by
    simp
  have hrange : 0x25 ≤ c.toNat ∧ c.toNat ≤ 0x7A := by
    rcases h with h | h
    · have hletter := Host.toNat_of_isLetterOrDigit h
      omega
    · exact hmarks c h
  simp only [Text.isBlank, Bool.or_eq_false_iff, Bool.and_eq_false_iff, decide_eq_false_iff_not,
    beq_eq_false_iff_ne]
  omega

/-- The authority of a target splits into its host and its port. -/
theorem Sound.splits (h : t.Sound) :
    Splits t.authority.toList t.host.bare (some (Decimal.digits t.port.toNat)) := by
  have hcolon : ':' ∉ Decimal.digits t.port.toNat := Decimal.not_mem_digits (by decide)
  rw [toList_authority]
  rcases Host.toList_render h.host with ⟨hr, hbare⟩ | hr
  · rw [hr]
    refine .port ?_
    rw [List.count_append, List.count_eq_zero_of_not_mem hbare, List.count_cons_self,
      List.count_eq_zero_of_not_mem hcolon]
  · have hbracket : ']' ∉ t.host.bare := by
      intro hmem
      rcases Host.mem_bare h.host hmem with h | h <;> exact absurd h (by decide)
    rw [hr, List.cons_append, List.append_assoc]
    exact .bracketedPort hbracket

theorem isBlank_eq_false_of_isDigit {c : Char} (h : c.isDigit = true) : Text.isBlank c = false :=
  isBlank_eq_false (Or.inl (Host.isLetterOrDigit_of_isDigit h))

/-- **A target comes back from its authority and its path.** -/
theorem make_authority (h : t.Sound) : make t.authority t.path = .ok t := by
  have htrim : Text.trim t.authority.toList = t.authority.toList :=
    Text.trim_eq_self fun c hc => isBlank_eq_false (h.mem_authority hc)
  have hsplits := h.splits
  rw [← htrim] at hsplits
  exact make_eq_ok_iff.2 ⟨_, _, hsplits, h.host.spelled, portText_digits h.port,
    ⟨h.segments_ne, h.segments, rfl⟩⟩

theorem Sound.slash_not_mem (h : t.Sound) : '/' ∉ t.authority.toList := by
  intro hmem
  rcases h.mem_authority hmem with h | h <;> exact absurd h (by decide)

/-- The text of a target is cut where its authority ends. -/
theorem Sound.cut_render (h : t.Sound) :
    Text.cut '/' (t.render.toList.drop "coap://".length) =
      some (t.authority.toList, ['/'].intercalate (t.segments.map String.toList)) := by
  have hdrop : t.render.toList.drop "coap://".length = t.authority.toList ++ t.path.toList := by
    rw [render_eq, String.toList_append, String.toList_append, List.append_assoc]
    exact List.drop_left
  rw [hdrop, toList_path, Text.cut_append h.slash_not_mem]

/-- **A target and its text.** However a target has come about, its text is `coap://`, its
authority, which has no slash, and its path; from these two it is made again, the kind of its host
and a zone included; and no other target has the same text. -/
theorem render_roundTrip (h : t.Made) :
    t.render = "coap://" ++ t.authority ++ t.path ∧ '/' ∉ t.authority.toList ∧
      make t.authority t.path = .ok t ∧ ∀ t' : Target, t'.Made → t.render = t'.render → t = t' := by
  refine ⟨render_eq t, h.sound.slash_not_mem, make_authority h.sound, ?_⟩
  intro t' h' heq
  -- the first slash tells where the authority ends and the path begins
  have hcut := h.sound.cut_render
  rw [heq, h'.sound.cut_render] at hcut
  obtain ⟨hauthority, hpath⟩ := Prod.mk.inj (Option.some.inj hcut)
  have hsame : t.path = t'.path := by
    rw [← String.toList_inj, toList_path, toList_path, hpath]
  have hmake := make_authority h.sound
  rw [← String.toList_inj.1 hauthority, hsame, make_authority h'.sound] at hmake
  exact (Except.ok.inj hmake).symm

/-- A link-local node, given in capitals and with a zero run that stands elsewhere, gets another
port and another path. -/
theorem render_roundTrip_zoned :
    ∃ t u v, make " [FE80:0:0:0:1::%lowpan0] " "/date" = .ok t ∧ t.withPort 61616 = .ok u ∧
      u.withPath "/rtc/Zeit" = .ok v ∧
      v.render = "coap://[fe80::1:0:0:0%lowpan0]:61616/rtc/Zeit" ∧
      make "[fe80::1:0:0:0%lowpan0]:61616" "/rtc/Zeit" = .ok v := by
  let a : Net.Ipv6 := ⟨[0xFE80, 0, 0, 0, 1, 0, 0, 0], rfl⟩
  let t : Target := ⟨.zoned a "lowpan0", 5683, ["date"]⟩
  let v : Target := ⟨.zoned a "lowpan0", 61616, ["rtc", "Zeit"]⟩
  have ht : make " [FE80:0:0:0:1::%lowpan0] " "/date" = .ok t := by cbv
  have hport : t.withPort 61616 = .ok { t with port := 61616 } := rfl
  have hpath : { t with port := 61616 }.withPath "/rtc/Zeit" = .ok v := by cbv
  have hv : Made v := .withPath (.withPort (.make ht) hport) hpath
  obtain ⟨hrender, -, hmake, -⟩ := render_roundTrip hv
  rw [show v.authority = "[fe80::1:0:0:0%lowpan0]:61616" by cbv,
    show v.path = "/rtc/Zeit" by cbv] at hrender hmake
  exact ⟨t, _, v, ht, hport, hpath, hrender, hmake⟩

end Target

end NodeClock
