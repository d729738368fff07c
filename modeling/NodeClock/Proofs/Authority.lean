import NodeClock.Target.Basic
import NodeClock.Proofs.Host

/-!
# The texts of targets

A target is given by an authority and a path. A colon separates the host from the port of an
authority, but an IPv6 address has colons of its own: only one in brackets has a port beside it.

* `Target.Segment`, `Target.readPath_eq_ok_iff`: **the paths that are read.**
* `Target.PortText`, `Target.readPort_eq_ok_iff`: the ports that are read.
* `Target.Splits`, `Target.splitAuthority_eq_ok_iff`: where the host and the port stand.
* `Target.make_eq_ok_iff`: what a target is made from.
* `Target.make_toLower`: the case of letters does not count, but in a zone.
* `Target.make_grammar`: **the grammar of targets.**
-/

namespace NodeClock

open Net

namespace Target

variable {t : Target} {segments : List String} {path : String} {s host : List Char}
  {port? : Option (List Char)} {port : UInt16}

/-! ## Paths -/

/-- A segment of a path: 1 to 255 bytes, no step to the same or a higher level, and none of the
marks that end a segment or a path. -/
structure Segment (s : String) : Prop where
  ne_empty : s ≠ ""
  size : s.utf8ByteSize ≤ 255
  not_relative : s ≠ "." ∧ s ≠ ".."
  marks : ∀ c ∈ ['/', '?', '#'], c ∉ s.toList

theorem segmentFault?_eq_none_iff {s : String} :
    segmentFault? s.toList = none ↔ s ≠ "" ∧ s.utf8ByteSize ≤ 255 ∧ s ≠ "." ∧ s ≠ ".." := by
  have hempty : s.toList.isEmpty = true ↔ s = "" := by
    rw [List.isEmpty_iff, String.toList_eq_nil_iff]
  have hrelative : s.toList = ['.'] ∨ s.toList = ['.', '.'] ↔ s = "." ∨ s = ".." :=
    or_congr (@String.toList_inj s ".") (@String.toList_inj s "..")
  unfold segmentFault?
  rw [String.ofList_toList, Utf8.length_encode]
  constructor
  · intro h
    split at h
    · cases h
    next hne =>
      split at h
      · cases h
      next hstep =>
        split at h
        · cases h
        next hsize =>
          obtain ⟨hdot, hdots⟩ := not_or.1 (mt hrelative.2 hstep)
          exact ⟨mt hempty.2 hne, Nat.le_of_not_lt hsize, hdot, hdots⟩
  · rintro ⟨hne, hsize, hdot, hdots⟩
    rw [if_neg (mt hempty.1 hne), if_neg (mt hrelative.1 (not_or.2 ⟨hdot, hdots⟩)), maxSegment,
      if_neg (Nat.not_lt.2 hsize)]

theorem segment_iff {s : String} :
    Segment s ↔ segmentFault? s.toList = none ∧ ∀ c ∈ ['/', '?', '#'], c ∉ s.toList := by
  rw [segmentFault?_eq_none_iff]
  constructor
  · rintro ⟨hne, hsize, ⟨hdot, hdots⟩, hmarks⟩
    exact ⟨⟨hne, hsize, hdot, hdots⟩, hmarks⟩
  · rintro ⟨⟨hne, hsize, hdot, hdots⟩, hmarks⟩
    exact ⟨hne, hsize, ⟨hdot, hdots⟩, hmarks⟩

/-- A path: a slash before each of its segments, of which there is one at least. -/
structure PathText (path : String) (segments : List String) : Prop where
  ne_nil : segments ≠ []
  segment : ∀ s ∈ segments, Segment s
  eq : path = "/" ++ "/".intercalate segments

theorem pathSegments_eq_ok (h : pathSegments s = .ok segments) :
    segments ≠ [] ∧ (∀ s ∈ segments, Segment s) ∧
      s = '/' :: ['/'].intercalate (segments.map String.toList) := by
  unfold pathSegments at h
  split at h
  next rest =>
    split at h
    · cases h
    next hmarks =>
      split at h
      · cases h
      · simp only at h
        split at h
        · cases h
        next hfaults =>
          cases h
          have hback : ((rest.splitOn '/').map String.ofList).map String.toList =
              rest.splitOn '/' := by
            rw [List.map_map]
            simp [Function.comp_def]
          refine ⟨by simp [List.splitOn_ne_nil], ?_, ?_⟩
          · rw [List.forall_mem_map]
            intro piece hpiece
            obtain ⟨hslash, hall⟩ := Text.mem_splitOn hpiece
            simp only [List.any_eq_true, Bool.or_eq_true, beq_iff_eq, not_exists, not_and,
              not_or] at hmarks
            rw [segment_iff, String.toList_ofList]
            refine ⟨List.findSome?_eq_none_iff.1 hfaults piece hpiece, ?_⟩
            simp only [List.forall_mem_cons]
            exact ⟨hslash, fun hq => (hmarks _ (hall _ hq)).1 rfl,
              fun hf => (hmarks _ (hall _ hf)).2 rfl, nofun⟩
          · rw [hback, List.intercalate_splitOn]
  · cases h

theorem pathSegments_intercalate (hne : segments ≠ []) (h : ∀ s ∈ segments, Segment s) :
    pathSegments ('/' :: ['/'].intercalate (segments.map String.toList)) = .ok segments := by
  have hsplit : (['/'].intercalate (segments.map String.toList)).splitOn '/' =
      segments.map String.toList := by
    have hjoined : ("/".intercalate segments).toList =
        ['/'].intercalate (segments.map String.toList) := String.toList_intercalate
    rw [← hjoined]
    exact Text.splitOn_join rfl (fun s hs => (h s hs).marks '/' (by decide)) hne
  have hmarks : (['/'].intercalate (segments.map String.toList)).any
      (fun c => c == '?' || c == '#') = false := by
    rw [List.any_eq_false]
    intro c hc
    rcases Text.mem_of_mem_intercalate hc with rfl | ⟨l, hl, hcl⟩
    · decide
    · obtain ⟨s, hs, rfl⟩ := List.mem_map.1 hl
      have hno := (h s hs).marks
      simp only [Bool.or_eq_true, beq_iff_eq]
      rintro (rfl | rfl)
      · exact hno '?' (by decide) hcl
      · exact hno '#' (by decide) hcl
  have hrest : ['/'].intercalate (segments.map String.toList) ≠ [] := by
    -- an empty text would be cut into one empty segment
    intro hnil
    rw [hnil, List.splitOn_nil] at hsplit
    obtain ⟨s, rest, rfl⟩ := List.exists_cons_of_ne_nil hne
    rw [List.map_cons] at hsplit
    exact (h s List.mem_cons_self).ne_empty
      (String.toList_eq_nil_iff.1 (List.cons.inj hsplit).1.symm)
  have hfaults : (segments.map String.toList).findSome? segmentFault? = none := by
    rw [List.findSome?_eq_none_iff, List.forall_mem_map]
    exact fun s hs => (segment_iff.1 (h s hs)).1
  have hback : (segments.map String.toList).map String.ofList = segments := by
    rw [List.map_map]
    simp [Function.comp_def]
  rw [pathSegments, hmarks, if_neg Bool.false_ne_true, if_neg (by simpa using hrest), hsplit]
  simp only [hfaults, hback]

theorem toList_joined (segments : List String) : ("/" ++ "/".intercalate segments).toList =
    '/' :: ['/'].intercalate (segments.map String.toList) := by
  rw [String.toList_append, String.toList_intercalate]
  rfl

/-- **The paths that are read.** -/
theorem readPath_eq_ok_iff : readPath path = .ok segments ↔ PathText path segments := by
  have hread : readPath path = .ok segments ↔ pathSegments path.toList = .ok segments := by
    unfold readPath
    split
    next hs => rw [hs, Except.ok.injEq, Except.ok.injEq]
    next hs => rw [hs]; exact iff_of_false nofun nofun
  rw [hread]
  constructor
  · intro h
    obtain ⟨hne, hsegments, hpath⟩ := pathSegments_eq_ok h
    exact ⟨hne, hsegments, String.toList_inj.1 (hpath.trans (toList_joined segments).symm)⟩
  · rintro ⟨hne, hsegments, rfl⟩
    rw [toList_joined]
    exact pathSegments_intercalate hne hsegments

theorem exists_invalidPath {e : TargetError} (h : readPath path = .error e) :
    ∃ reason, e = .invalidPath path reason := by
  unfold readPath at h
  split at h
  · cases h
  next reason _ =>
    cases h
    exact ⟨reason, rfl⟩

/-! ## Ports -/

/-- The text of a port: digits alone, of a value from 1 to 65535; without a text it is the default
port. -/
inductive PortText : Option (List Char) → UInt16 → Prop where
  | default : PortText none 5683
  | given {digits : List Char} {port : UInt16} : digits ≠ [] → (∀ c ∈ digits, c.isDigit = true) →
      Decimal.value digits = port.toNat → 1 ≤ port.toNat → PortText (some digits) port

theorem readPort_eq_ok_iff : readPort s = .ok port ↔ PortText (some s) port := by
  constructor
  · intro h
    unfold readPort at h
    split at h
    next n hn =>
      cases h
      obtain ⟨hne, hdigits, hvalue, hle⟩ := Decimal.read?_eq_some_iff.1 hn
      have hport : (UInt16.ofNat (n + 1)).toNat = n + 1 :=
        UInt16.toNat_ofNat_of_lt' (show n + 1 < 65536 by omega)
      exact .given hne hdigits (hvalue.trans hport.symm) (by omega)
    · cases h
  · intro h
    cases h with
    | given hne hdigits hvalue hpos =>
      have hlt := port.toNat_lt
      obtain ⟨n, hn⟩ : ∃ n, port.toNat = n + 1 := ⟨port.toNat - 1, by omega⟩
      have hread : Decimal.read? 65535 s = some (n + 1) :=
        Decimal.read?_eq_some_iff.2 ⟨hne, hdigits, hvalue.trans hn, by omega⟩
      rw [readPort, hread]
      show Except.ok (UInt16.ofNat (n + 1)) = _
      rw [← hn, UInt16.ofNat_toNat]

/-- No port is 0. -/
theorem PortText.ne_zero (h : PortText port? port) : port ≠ 0 := by
  cases h with
  | default => decide
  | given _ _ _ hpos =>
    rintro rfl
    exact absurd hpos (by decide)

/-- A port is one of its own digits. -/
theorem portText_digits (h : port ≠ 0) : PortText (some (Decimal.digits port.toNat)) port := by
  have hpos : port.toNat ≠ 0 := fun hz => h (UInt16.toNat_inj.1 hz)
  exact .given Nat.toDigits_ne_nil (fun _ hc => Decimal.isDigit_of_mem_digits hc)
    (Decimal.value_digits _) (Nat.one_le_iff_ne_zero.2 hpos)

/-! ## Authorities -/

/-- Where the host and the port stand in an authority. Brackets end at the first closing one; a
text without brackets has a port after its only colon, and none if there is no colon or several. -/
inductive Splits : List Char → List Char → Option (List Char) → Prop where
  | bracketed {host : List Char} : ']' ∉ host → Splits ('[' :: (host ++ [']'])) host none
  | bracketedPort {host port : List Char} : ']' ∉ host →
      Splits ('[' :: (host ++ ']' :: ':' :: port)) host (some port)
  | port {host port : List Char} : (host ++ ':' :: port).count ':' = 1 →
      Splits (host ++ ':' :: port) host (some port)
  | whole {host : List Char} : host.count ':' ≠ 1 → Splits host host none

theorem splits_of_splitAuthority (h : splitAuthority s = .ok (host, port?)) :
    Splits s host port? := by
  unfold splitAuthority at h
  split at h
  next rest =>
    split at h
    next host' hcut =>
      cases h
      obtain ⟨rfl, hnot⟩ := Text.cut_eq_some hcut
      exact .bracketed hnot
    next host' port' hcut =>
      cases h
      obtain ⟨rfl, hnot⟩ := Text.cut_eq_some hcut
      exact .bracketedPort hnot
    · cases h
  · split at h
    next host' port' hcount hcut =>
      cases h
      obtain ⟨rfl, -⟩ := Text.cut_eq_some hcut
      exact .port hcount
    next hnone =>
      cases h
      refine .whole fun hcount => ?_
      -- a colon that is counted is one to cut at
      cases hcut : Text.cut ':' s with
      | none =>
        rw [List.count_eq_zero_of_not_mem (Text.not_mem_of_cut_eq_none hcut)] at hcount
        cases hcount
      | some p => exact hnone p.1 p.2 hcount hcut

/-- A host is a part of its authority. -/
theorem Splits.mem {c : Char} (h : Splits s host port?) (hc : c ∈ host) : c ∈ s := by
  cases h with
  | bracketed | bracketedPort => exact List.mem_cons_of_mem _ (List.mem_append_left _ hc)
  | port => exact List.mem_append_left _ hc
  | whole => exact hc

/-- An authority without brackets. -/
theorem splitAuthority_of_plain (hb : s.head? ≠ some '[') : splitAuthority s =
    match s.count ':', Text.cut ':' s with
    | 1, some (host, port) => .ok (host, some port)
    | _, _ => .ok (s, none) := by
  unfold splitAuthority
  split
  · exact absurd rfl hb
  · rfl

/-- No host begins with a bracket, so that brackets are those of the authority. -/
theorem Splits.splitAuthority (h : Splits s host port?) (hb : host.head? ≠ some '[')
    (hne : host ≠ []) : splitAuthority s = .ok (host, port?) := by
  cases h with
  | bracketed hnot =>
    have hcut := Text.cut_append (b := []) hnot
    simp only [Target.splitAuthority, hcut]
  | @bracketedPort host port hnot =>
    have hcut := Text.cut_append (b := ':' :: port) hnot
    simp only [Target.splitAuthority, hcut]
  | @port host port hcount =>
    have hnot : ':' ∉ host := by
      rw [List.count_append, List.count_cons_self] at hcount
      exact List.count_eq_zero.1 (by omega)
    have hplain : (host ++ ':' :: port).head? ≠ some '[' := by
      rwa [List.head?_append_of_ne_nil host hne]
    have hcut := Text.cut_append (b := port) hnot
    rw [splitAuthority_of_plain hplain, hcount, hcut]
    rfl
  | whole hcount =>
    rw [splitAuthority_of_plain hb]
    split
    next hone _ => exact absurd hone hcount
    · rfl

/-! ## Targets -/

/-- A target is made if its parts are read. -/
theorem make_eq_ok_iff_parts {authority path : String} : make authority path = .ok t ↔
    ∃ host port?, splitAuthority (Text.trim authority.toList) = .ok (host, port?) ∧
      Host.read host = .ok t.host ∧ port?.elim (.ok Coap.defaultPort) readPort = .ok t.port ∧
      readPath path = .ok t.segments := by
  constructor
  · intro h
    unfold make at h
    split at h
    · cases h
    next host port? hsplit =>
      split at h
      · cases h
      next hhost =>
        split at h
        · cases h
        next hport =>
          split at h
          · cases h
          next hpath =>
            cases h
            exact ⟨host, port?, hsplit, hhost, hport, hpath⟩
  · rintro ⟨host, port?, hsplit, hhost, hport, hpath⟩
    unfold make
    simp only [hsplit, hhost, hport, hpath]

/-- **What a target is made from.** -/
theorem make_eq_ok_iff {authority path : String} : make authority path = .ok t ↔
    ∃ host port?, Splits (Text.trim authority.toList) host port? ∧ Host.Spelled host t.host ∧
      PortText port? t.port ∧ PathText path t.segments := by
  have hport : ∀ port? : Option (List Char),
      port?.elim (.ok Coap.defaultPort) readPort = .ok t.port ↔ PortText port? t.port := by
    intro port?
    cases port? with
    | none =>
      show Except.ok Coap.defaultPort = Except.ok t.port ↔ _
      constructor
      · intro h
        rw [← Except.ok.inj h]
        exact .default
      · intro h
        generalize t.port = port at h
        cases h
        rfl
    | some s => exact readPort_eq_ok_iff
  rw [make_eq_ok_iff_parts]
  simp only [Host.read_eq_ok_iff, hport, readPath_eq_ok_iff]
  constructor
  · rintro ⟨host, port?, hsplit, hparts⟩
    exact ⟨host, port?, splits_of_splitAuthority hsplit, hparts⟩
  · rintro ⟨host, port?, hsplits, hhost, hparts⟩
    have hbracket : host.head? ≠ some '[' := by
      intro hhead
      rcases hhost.mem (List.mem_of_mem_head? hhead) with h | h <;> exact absurd h (by decide)
    exact ⟨host, port?, hsplits.splitAuthority hbracket hhost.ne_nil, hhost, hparts⟩

end Target

/-! ## Letters of either case -/

theorem toLower_ofList (s : List Char) :
    (String.ofList s).toLower = String.ofList (s.map Char.toLower) := by
  rw [← String.toList_inj, String.toLower, String.toList_map, String.toList_ofList,
    String.toList_ofList]

/-- The error with the text that was given in lower case. -/
def TargetError.lowered : TargetError → TargetError
  | .emptyHost => .emptyHost
  | .invalidHost h => .invalidHost h.toLower
  | .invalidZone h => .invalidZone h.toLower
  | .invalidPort p => .invalidPort p.toLower
  | .invalidPath p reason => .invalidPath p reason

/-- The case of letters does not count, but in a zone. -/
theorem Host.read_toLower {s : List Char} (h : '%' ∉ s) :
    read (s.map Char.toLower) = (read s).mapError TargetError.lowered := by
  have hlower : (s.map Char.toLower).map Char.toLower = s.map Char.toLower := by
    rw [List.map_map]
    exact List.map_congr_left fun c _ => Char.toLower_toLower_eq_toLower c
  have hcut : Text.cut '%' s = none := Text.cut_eq_none h
  unfold read
  rw [List.isEmpty_map, Text.cut_map fun c => toLower_eq_iff (by decide), hcut, Option.map_none,
    Ipv4.read?_toLower, Ipv6.read?_toLower, isName_map_toLower, hlower]
  cases s.isEmpty with
  | true => rfl
  | false =>
    cases Ipv4.read? s with
    | some a => rfl
    | none =>
      cases Ipv6.read? s with
      | some a => rfl
      | none =>
        cases isName s with
        | true => rfl
        | false =>
          show Except.error _ = Except.error (TargetError.invalidHost (String.ofList s).toLower)
          rw [toLower_ofList]

namespace Target

variable {s : List Char}

theorem readPort_toLower (s : List Char) :
    readPort (s.map Char.toLower) = (readPort s).mapError TargetError.lowered := by
  unfold readPort
  rw [Decimal.read?_toLower]
  rcases Decimal.read? 65535 s with - | - | n
  · rw [← toLower_ofList]
    rfl
  · rw [← toLower_ofList]
    rfl
  · rfl

/-- The marks of an authority are no letters. -/
theorem splitAuthority_toLower (s : List Char) :
    splitAuthority (s.map Char.toLower) = ((splitAuthority s).map fun (host, port?) =>
      (host.map Char.toLower, port?.map (List.map Char.toLower))).mapError TargetError.lowered := by
  by_cases hb : s.head? = some '['
  · obtain ⟨rest, rfl⟩ : ∃ rest, s = '[' :: rest := ⟨s.tail, List.eq_cons_of_mem_head? hb⟩
    have hbracket : ('[' :: rest).map Char.toLower = '[' :: rest.map Char.toLower := rfl
    have herror : (String.ofList ('[' :: rest)).toLower =
        String.ofList ('[' :: rest.map Char.toLower) := toLower_ofList _
    rw [hbracket, splitAuthority, splitAuthority, Text.cut_map fun c => toLower_eq_iff (by decide),
      ← herror]
    rcases Text.cut ']' rest with - | ⟨host, - | ⟨c, port⟩⟩
    · rfl
    · rfl
    · by_cases hc : c = ':'
      · subst hc
        rfl
      · have hc' : c.toLower ≠ ':' := mt (toLower_eq_iff (by decide)).1 hc
        simp [hc, hc', Except.mapError, Except.map, TargetError.lowered]
  · have hb' : (s.map Char.toLower).head? ≠ some '[' := by
      rwa [List.head?_map, Ne, map_toLower_eq_iff (by decide)]
    have hcolon : ((· == ':') ∘ Char.toLower) = (· == ':') := by
      funext c
      rw [Function.comp_apply, Bool.eq_iff_iff, beq_iff_eq, beq_iff_eq, toLower_eq_iff (by decide)]
    have hcount : (s.map Char.toLower).count ':' = s.count ':' := by
      rw [List.count_eq_countP, List.countP_map, hcolon, List.count_eq_countP]
    rw [splitAuthority_of_plain hb, splitAuthority_of_plain hb', hcount,
      Text.cut_map fun c => toLower_eq_iff (by decide)]
    rcases s.count ':' with - | - | n <;> cases Text.cut ':' s <;> rfl

/-- **The case of letters does not count**, but in a zone. -/
theorem make_toLower {authority : String} (path : String) (h : '%' ∉ authority.toList) :
    make authority.toLower path = (make authority path).mapError TargetError.lowered := by
  have htrim : Text.trim authority.toLower.toList =
      (Text.trim authority.toList).map Char.toLower := by
    rw [String.toLower, String.toList_map, Text.trim_map isBlank_toLower]
  unfold make
  rw [htrim, splitAuthority_toLower]
  cases hsplit : splitAuthority (Text.trim authority.toList) with
  | error e => rfl
  | ok parts =>
    obtain ⟨host, port?⟩ := parts
    -- what is not in the authority is not in the host, of which alone the case may count
    have hhost : '%' ∉ host := fun hc =>
      h (Text.mem_of_mem_trim ((splits_of_splitAuthority hsplit).mem hc))
    have hport : (port?.map (List.map Char.toLower)).elim (.ok Coap.defaultPort) readPort =
        (port?.elim (.ok Coap.defaultPort) readPort).mapError TargetError.lowered := by
      cases port? with
      | none => rfl
      | some s => exact readPort_toLower s
    simp only [Except.map, Except.mapError, Host.read_toLower hhost, hport]
    generalize (port?.elim (.ok Coap.defaultPort) readPort : Except TargetError UInt16) = port
    rcases Host.read host with e | host'
    · rfl
    rcases port with e | port
    · rfl
    rcases hpath : readPath path with e | segments
    · obtain ⟨reason, rfl⟩ := exists_invalidPath hpath
      rfl
    · rfl

/-- **The grammar of targets.** An authority, blanks around it dropped, and a path make a target
just if the authority is a host alone or a host and a port, an IPv6 address with or without a zone
in brackets if it has a port, the port if any is a number of digits from 1 to 65535, and the path
is made of segments; the target has this host, a name in lower case, this port or the default one,
and these segments. Two authorities without a zone that differ in the case of letters only make the
same target, or fail in the same way but for the text that they report. -/
theorem make_grammar (authority path : String) :
    (∀ t : Target, make authority path = .ok t ↔
      ∃ host port?, Splits (Text.trim authority.toList) host port? ∧ Host.Spelled host t.host ∧
        PortText port? t.port ∧ PathText path t.segments) ∧
    ∀ other : String, '%' ∉ authority.toList → other.toLower = authority.toLower →
      (∀ t : Target, make other path = .ok t ↔ make authority path = .ok t) ∧
      (make other path).mapError TargetError.lowered =
        (make authority path).mapError TargetError.lowered := by
  refine ⟨fun t => make_eq_ok_iff, fun other hzone heq => ?_⟩
  have hother : '%' ∉ other.toList := by
    -- the mark of a zone is no letter
    intro hc
    have hlower := congrArg String.toList heq
    rw [String.toLower, String.toLower, String.toList_map, String.toList_map] at hlower
    have hmem : '%' ∈ authority.toList.map Char.toLower := hlower ▸ List.mem_map_of_mem hc
    obtain ⟨c, hc, hlow⟩ := List.mem_map.1 hmem
    exact hzone ((toLower_eq_iff (by decide)).1 hlow ▸ hc)
  have hsame : (make other path).mapError TargetError.lowered =
      (make authority path).mapError TargetError.lowered := by
    rw [← make_toLower path hother, ← make_toLower path hzone, heq]
  have hok : ∀ (r : Except TargetError Target) (t : Target),
      r = .ok t ↔ r.mapError TargetError.lowered = .ok t := by
    rintro (e | t') t
    · exact iff_of_false nofun nofun
    · exact Iff.rfl
  refine ⟨fun t => ?_, hsame⟩
  rw [hok, hsame, ← hok]

/-- A name with a final dot and a port with a zero in front, both of them kept out of the way of
each other by the only colon. -/
theorem make_grammar_letters :
    '%' ∉ " Node-7.Mesh.:05683".toList ∧
      " NODE-7.mesh.:05683".toLower = " Node-7.Mesh.:05683".toLower ∧
      make " Node-7.Mesh.:05683" "/date" = .ok ⟨.named "node-7.mesh.", 5683, ["date"]⟩ ∧
      make " NODE-7.mesh.:05683" "/date" = .ok ⟨.named "node-7.mesh.", 5683, ["date"]⟩ := by
  have hzone : '%' ∉ " Node-7.Mesh.:05683".toList := by decide
  have heq : " NODE-7.mesh.:05683".toLower = " Node-7.Mesh.:05683".toLower := by
    rw [← String.toList_inj, String.toLower, String.toLower, String.toList_map, String.toList_map]
    decide
  have htrim : Text.trim " Node-7.Mesh.:05683".toList =
      "Node-7.Mesh.".toList ++ ':' :: "05683".toList := by decide
  have hname : Host.Name "Node-7.Mesh.".toList := Host.isName_iff.1 (by cbv)
  have hsegments : ∀ s ∈ ["date"], Segment s := by
    rw [List.forall_mem_singleton, segment_iff]
    exact ⟨by cbv, by simp⟩
  have hport : PortText (some "05683".toList) 5683 := readPort_eq_ok_iff.1 (by cbv)
  obtain ⟨hgrammar, hletters⟩ := make_grammar " Node-7.Mesh.:05683" "/date"
  have hmake := (hgrammar ⟨.named "node-7.mesh.", 5683, ["date"]⟩).2
    ⟨"Node-7.Mesh.".toList, some "05683".toList, htrim ▸ .port (by decide), .named hname,
      hport, ⟨by decide, hsegments, by decide⟩⟩
  exact ⟨hzone, heq, hmake, ((hletters _ hzone heq).1 _).2 hmake⟩

end Target

end NodeClock
