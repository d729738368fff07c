import NodeClock.Proofs.Normalization
import NodeClock.Proofs.QueryText
import NodeClock.Proofs.Setting
import NodeClock.Proofs.Target

/-!
# Targets that are changed

A target may get another port or another path any number of times. What is known of it when it is
made stays true, and of the changes to a port, and of those to a path, the last one that succeeds
counts.

* `Target.Update`, `Target.updateAll`: changes of a target, one after another.
* `Civil.Arises.size_pair_le`: the query pairs of a time are short.
* `Target.Fit`, `Target.Sound.fit`: **what a target can be relied on for.**
* `Target.updateAll_eq`: **the last changes that succeed count.**
* `Target.withPath_make`, `withPort_make`: a target changed is the target made anew.
* `Target.update_invariant`: all of it, for every target and any changes.
-/

namespace NodeClock

open Coap

/-! ## Pairs are short -/

namespace Civil

variable {t : Civil} {f : Field}

theorem Arises.natAbs_get_lt (h : t.Arises) (f : Field) : (t.get f).natAbs < 10 ^ 20 := by
  by_cases hf : f = .year
  · subst hf
    have hyear := h.year_bounds
    show t.year.natAbs < 10 ^ 20
    simp only [maxNumber] at hyear
    omega
  · have hadmits := Field.admits_iff.1 (h.valid.admits_of_ne_year hf)
    have hrange : 0 ≤ f.range.1 ∧ f.range.2 ≤ 9999 := by cases f <;> decide
    omega

end Civil

theorem Decimal.utf8ByteSize_renderInt_le {i : Int} (h : i.natAbs < 10 ^ 20) :
    (renderInt i).utf8ByteSize ≤ 21 := by
  have hascii : ∀ c ∈ (renderInt i).toList, c.toNat < 128 := by
    intro c hc
    rcases mem_renderInt hc with rfl | hdigit
    · decide
    · have hletter := Host.toNat_of_isLetterOrDigit (Host.isLetterOrDigit_of_isDigit hdigit)
      omega
  have hlen : (digits i.natAbs).length ≤ 20 :=
    (Nat.length_toDigits_le_iff (by decide) (by decide)).2 h
  have hsize := Utf8.utf8ByteSize_ofList hascii
  rw [String.ofList_toList, toList_renderInt] at hsize
  rw [hsize]
  split
  · rw [List.length_cons]
    omega
  · omega

/-- **The query pairs of a time are short.** -/
theorem Civil.Arises.size_pair_le {t : Civil} (h : t.Arises) (f : Civil.Field) :
    (t.pair f).utf8ByteSize ≤ 255 := by
  have hnumber := Decimal.utf8ByteSize_renderInt_le (h.natAbs_get_lt f)
  have hkey : f.key.utf8ByteSize ≤ 2 := by cases f <;> decide
  have heq : "=".utf8ByteSize = 1 := by decide
  rw [Civil.pair, String.utf8ByteSize_append, String.utf8ByteSize_append, heq]
  omega

namespace Target

variable {t : Target} {name : String}

/-! ## Changes -/

/-- A change of a target. -/
inductive Update where
  | port (port : UInt16)
  | path (path : String)

namespace Update

/-- The target with the change. -/
def apply (t : Target) : Update → Except TargetError Target
  | .port p => t.withPort p
  | .path p => t.withPath p

/-- The port that a change sets, if it sets one and succeeds. -/
def port? : Update → Option UInt16
  | .port p => if p = 0 then none else some p
  | .path _ => none

/-- The segments that a change sets, if it sets them and succeeds. -/
def segments? : Update → Option (List String)
  | .port _ => none
  | .path p => (readPath p).toOption

end Update

/-- A change that fails leaves the target as it is. -/
def updated (t : Target) (u : Update) : Target :=
  match u.apply t with
  | .ok t' => t'
  | .error _ => t

/-- One change after another. -/
def updateAll (t : Target) (us : List Update) : Target := us.foldl updated t

/-- One change sets what it says, if it succeeds. -/
theorem updated_eq (t : Target) (u : Update) : t.updated u =
    { t with port := u.port?.getD t.port, segments := u.segments?.getD t.segments } := by
  cases u with
  | port p =>
    simp only [updated, Update.apply, Update.port?, withPort]
    by_cases hp : p = 0
    · simp only [if_pos hp]
      rfl
    · simp only [if_neg hp]
      rfl
  | path p =>
    simp only [updated, Update.apply, Update.segments?, withPath]
    cases readPath p <;> rfl

/-- **The last changes that succeed count**: the last port and the last path, in either order. -/
theorem updateAll_eq (t : Target) (us : List Update) : t.updateAll us =
    { t with port := (us.filterMap Update.port?).getLastD t.port
             segments := (us.filterMap Update.segments?).getLastD t.segments } := by
  have hlast : ∀ {α : Type} (f : Update → Option α) (u : Update) (us : List Update) (a : α),
      ((u :: us).filterMap f).getLastD a = (us.filterMap f).getLastD ((f u).getD a) := by
    intro α f u us a
    cases hu : f u with
    | none => rw [List.filterMap_cons_none hu, Option.getD_none]
    | some b => rw [List.filterMap_cons_some hu, List.getLastD_cons, Option.getD_some]
  induction us generalizing t with
  | nil => rfl
  | cons u us ih =>
    have hstep : t.updateAll (u :: us) = (t.updated u).updateAll us := rfl
    rw [hstep, ih, updated_eq, hlast, hlast]

theorem Sound.updated (h : t.Sound) (u : Update) : (t.updated u).Sound := by
  unfold Target.updated
  split
  next t' happly =>
    cases u with
    | port p => exact h.withPort happly
    | path p => exact h.withPath happly
  · exact h

/-- **What is known of a target stays true** whatever is changed. -/
theorem Sound.updateAll (h : t.Sound) (us : List Update) : (t.updateAll us).Sound := by
  induction us generalizing t with
  | nil => exact h
  | cons u us ih => exact ih (h.updated u)

/-! ## What a target can be relied on for -/

/-- The requests that are made from a target. -/
inductive Requests (t : Target) : Request → Prop where
  | read : Requests t t.readRequest
  | set {time : Civil} {method : SetMethod} {format : WireFormat} {r : Request} : time.Arises →
      t.setRequest time method format = .ok r → Requests t r

/-- What a target can be relied on for: it has a port and a path, a name that is sent is one in
lower case, no option of a request is too long, and the path is that of the target. -/
structure Fit (t : Target) : Prop where
  port : 1 ≤ t.port.toNat ∧ t.port.toNat ≤ 65535
  ne_nil : t.segments ≠ []
  segment : ∀ s ∈ t.segments, Segment s
  uriHost : ∀ name, t.uriHost? = some name →
    Host.Name name.toList ∧ name.toLower = name ∧ name.utf8ByteSize ≤ 254
  options : ∀ r, t.Requests r → ∀ kind id token, ∀ o ∈ (Frame.ofRequest kind id token r).options,
    o.value.length ≤ 255
  withPath : t.withPath t.path = .ok t

theorem Sound.uriHost (h : t.Sound) (hname : t.uriHost? = some name) :
    Host.Name name.toList ∧ name.toLower = name ∧ name.utf8ByteSize ≤ 254 := by
  have hsound := h.host
  rw [uriHost?_eq_some_iff.1 hname] at hsound
  obtain ⟨hisName, hlower⟩ := hsound
  have hspelled := Host.isName_iff.1 hisName
  have hsize := hspelled.size_le
  rw [String.ofList_toList] at hsize
  refine ⟨hspelled, ?_, hsize⟩
  rw [← String.toList_inj, String.toLower, String.toList_map, hlower]

/-- What the requests of a target have in common. -/
theorem Requests.spec {r : Request} (h : t.Requests r) :
    r.uriHost = t.uriHost? ∧ r.path = t.segments ∧ ∀ pair ∈ r.query, pair.utf8ByteSize ≤ 255 := by
  cases h with
  | read => exact ⟨rfl, rfl, nofun⟩
  | @set time method format r harises hset =>
    unfold setRequest at hset
    cases format with
    | query =>
      cases hset
      refine ⟨rfl, rfl, ?_⟩
      show ∀ pair ∈ Civil.Field.all.map time.pair, pair.utf8ByteSize ≤ 255
      rw [List.forall_mem_map]
      exact fun f _ => harises.size_pair_le f
    | epoch =>
      unfold Civil.render at hset
      cases hepoch : time.epoch with
      | error e =>
        rw [hepoch] at hset
        cases hset
      | ok n =>
        rw [hepoch] at hset
        cases hset
        exact ⟨rfl, rfl, nofun⟩

/-- **No option of a request is too long.** -/
theorem Sound.options (h : t.Sound) {r : Request} (hr : t.Requests r) (kind : Kind) (id : UInt16)
    (token : Bytes) : ∀ o ∈ (Frame.ofRequest kind id token r).options, o.value.length ≤ 255 := by
  obtain ⟨hhost, hpath, hquery⟩ := hr.spec
  have htext : ∀ (number : Nat) (s : String), s.utf8ByteSize ≤ 255 →
      (Opt.mk number (Utf8.encode s)).value.length ≤ 255 := by
    intro number s hs
    show (Utf8.encode s).length ≤ 255
    rwa [Utf8.length_encode]
  intro o ho
  simp only [Frame.options, Frame.ofRequest, List.mem_append, Option.mem_toList,
    Option.map_eq_some_iff, List.mem_map] at ho
  -- an option is the host, a segment, the content format or a pair
  rcases ho with ((⟨name, hname, rfl⟩ | ⟨s, hs, rfl⟩) | ⟨n, -, rfl⟩) | ⟨pair, hpair, rfl⟩
  · rw [hhost] at hname
    have hsize := (h.uriHost hname).2.2
    exact htext _ _ (by omega)
  · rw [hpath] at hs
    exact htext _ _ (h.segments s hs).size
  · have hsize := (Frame.uintBytes_spec n).1
    show (Frame.uintBytes n).length ≤ 255
    omega
  · exact htext _ _ (hquery pair hpair)

/-- **What a target can be relied on for.** -/
theorem Sound.fit (h : t.Sound) : t.Fit := by
  have hlt := t.port.toNat_lt
  have hpos : t.port.toNat ≠ 0 := fun hz => h.port (UInt16.toNat_inj.1 hz)
  have hpath : readPath t.path = .ok t.segments :=
    readPath_eq_ok_iff.2 ⟨h.segments_ne, h.segments, rfl⟩
  exact {
    port := ⟨by omega, by omega⟩
    ne_nil := h.segments_ne
    segment := h.segments
    uriHost := fun name hname => h.uriHost hname
    options := fun r hr => h.options hr
    withPath := withPath_eq_ok_iff.2 ⟨t.segments, hpath, rfl⟩ }

/-! ## A target changed and a target made anew -/

/-- Another path is a path from the start. -/
theorem withPath_make {authority path : String} (h : make authority path = .ok t)
    (other : String) : t.withPath other = make authority other := by
  obtain ⟨host, port?, hsplit, hhost, hport, -⟩ := make_eq_ok_iff_parts.1 h
  unfold make withPath
  simp only [hsplit, hhost, hport]

/-- A host before a colon and a port: a text without a colon, or any text in brackets. -/
def Fronts (s : List Char) : Prop :=
  ':' ∉ s ∨ ∃ blanks inner, (∀ c ∈ blanks, Text.isBlank c = true) ∧ ']' ∉ inner ∧
    s = blanks ++ '[' :: (inner ++ [']'])

/-- Digits, of which there may be none. -/
def Digits (s : List Char) : Prop := ∀ c ∈ s, c.isDigit = true

theorem Digits.not_mem {s : List Char} {m : Char} (h : Digits s) (hm : m.isDigit = false) :
    m ∉ s := by
  intro hmem
  rw [h m hmem] at hm
  cases hm

/-- What stands between brackets does not depend on the port. -/
theorem splitAuthority_front {front : List Char} (h : ':' ∉ front) :
    (∃ host, ∀ digits, Digits digits →
      splitAuthority (front ++ ':' :: digits) = .ok (host, some digits)) ∨
    ∀ digits, Digits digits → ∃ e, splitAuthority (front ++ ':' :: digits) = .error e := by
  by_cases hb : front.head? = some '['
  · obtain ⟨rest, rfl⟩ : ∃ rest, front = '[' :: rest := ⟨front.tail, List.eq_cons_of_mem_head? hb⟩
    -- the digits behind have no bracket, so that the first one is in front or nowhere
    cases hcut : Text.cut ']' rest with
    | none =>
      refine Or.inr fun digits hdigits => ?_
      have hnot : ']' ∉ rest ++ ':' :: digits := by
        simp [Text.not_mem_of_cut_eq_none hcut, hdigits.not_mem]
      simp only [List.cons_append, splitAuthority, Text.cut_eq_none hnot]
      exact ⟨_, rfl⟩
    | some parts =>
      obtain ⟨inner, after⟩ := parts
      obtain ⟨rfl, hinner⟩ := Text.cut_eq_some hcut
      have hcut' (digits : List Char) : Text.cut ']' (inner ++ ']' :: after ++ ':' :: digits) =
          some (inner, after ++ ':' :: digits) := by
        rw [List.append_assoc, List.cons_append]
        exact Text.cut_append hinner
      cases after with
      | nil =>
        refine Or.inl ⟨inner, fun digits _ => ?_⟩
        simp only [List.cons_append, splitAuthority, hcut', List.nil_append]
      | cons c after =>
        have hc : c ≠ ':' := by
          rintro rfl
          exact h (by simp)
        refine Or.inr fun digits _ => ?_
        rw [List.cons_append, splitAuthority, hcut']
        split
        next heq => cases heq
        next heq =>
          cases heq
          exact absurd rfl hc
        · exact ⟨_, rfl⟩
  · refine Or.inl ⟨front, fun digits hdigits => ?_⟩
    have hplain : (front ++ ':' :: digits).head? ≠ some '[' := by
      cases front with
      | nil => exact fun hcolon => absurd (Option.some.inj hcolon) (by decide)
      | cons c front => exact hb
    have hcount : (front ++ ':' :: digits).count ':' = 1 := by
      rw [List.count_append, List.count_eq_zero_of_not_mem h, List.count_cons_self,
        List.count_eq_zero_of_not_mem (hdigits.not_mem (by decide))]
    rw [splitAuthority_of_plain hplain, hcount, Text.cut_append h]
    rfl

/-- Blanks in front of a host are no part of it. -/
theorem trim_front (front : List Char) {digits : List Char} (hdigits : Digits digits) :
    Text.trim (front ++ ':' :: digits) = front.dropWhile Text.isBlank ++ ':' :: digits := by
  have hhead : ∀ c ∈ (front.dropWhile Text.isBlank ++ ':' :: digits).head?,
      Text.isBlank c = false := by
    intro c hc
    cases hrest : front.dropWhile Text.isBlank with
    | nil =>
      rw [hrest] at hc
      cases hc
      decide
    | cons d rest =>
      rw [hrest] at hc
      cases hc
      have hnot := List.head?_dropWhile_not Text.isBlank front
      rw [hrest] at hnot
      simpa using hnot
  have hlast : ∀ c ∈ (front.dropWhile Text.isBlank ++ ':' :: digits).getLast?,
      Text.isBlank c = false := by
    intro c hc
    rw [List.getLast?_append_of_ne_nil _ (List.cons_ne_nil _ _)] at hc
    rcases List.mem_cons.1 (List.mem_of_getLast? hc) with rfl | hc
    · decide
    · exact isBlank_eq_false_of_isDigit (hdigits c hc)
  have hblanks : ∀ c ∈ front.takeWhile Text.isBlank, Text.isBlank c = true :=
    List.all_eq_true.1 List.all_takeWhile
  have hnone : ∀ c ∈ ([] : List Char), Text.isBlank c = true := List.forall_mem_nil _
  have htrim := Text.trim_append hblanks hhead hlast hnone
  rwa [List.append_nil, ← List.append_assoc, List.takeWhile_append_dropWhile] at htrim

/-- **The host before a colon does not depend on the port**, if the port is a number. -/
theorem Fronts.splitAuthority {front : List Char} (h : Fronts front) :
    (∃ host, ∀ digits, Digits digits →
      splitAuthority (Text.trim (front ++ ':' :: digits)) = .ok (host, some digits)) ∨
    ∀ digits, Digits digits →
      ∃ e, splitAuthority (Text.trim (front ++ ':' :: digits)) = .error e := by
  rcases h with h | ⟨blanks, inner, hblanks, hinner, rfl⟩
  · have hcolon : ':' ∉ front.dropWhile Text.isBlank := fun hc =>
      h ((List.dropWhile_sublist _).subset hc)
    rcases splitAuthority_front hcolon with ⟨host, hok⟩ | herror
    · refine Or.inl ⟨host, fun digits hdigits => ?_⟩
      rw [trim_front front hdigits, hok digits hdigits]
    · refine Or.inr fun digits hdigits => ?_
      rw [trim_front front hdigits]
      exact herror digits hdigits
  · refine Or.inl ⟨inner, fun digits hdigits => ?_⟩
    have hfront : (blanks ++ '[' :: (inner ++ [']'])).dropWhile Text.isBlank =
        '[' :: (inner ++ [']']) := Text.dropWhile_isBlank_append hblanks (by simp; decide)
    have hcut := Text.cut_append (b := ':' :: digits) hinner
    rw [trim_front _ hdigits, hfront, List.cons_append, List.append_assoc, List.singleton_append]
    simp only [Target.splitAuthority, hcut]

/-- **Another port is a port from the start.** -/
theorem withPort_make {host digits path : String} (hhost : Fronts host.toList)
    (hdigits : Digits digits.toList) (h : make (host ++ ":" ++ digits) path = .ok t)
    (port : UInt16) :
    t.withPort port = make (host ++ ":" ++ Decimal.render port.toNat) path := by
  obtain ⟨inner, port?, hsplit, hread, -, hpath⟩ := make_eq_ok_iff_parts.1 h
  rw [toList_hostPort] at hsplit
  rcases hhost.splitAuthority with ⟨inner', hok⟩ | herror
  · rw [hok _ hdigits] at hsplit
    cases hsplit
    have hdigits' : Digits (Decimal.digits port.toNat) := fun c hc =>
      Decimal.isDigit_of_mem_digits hc
    unfold make
    rw [toList_hostPort, Decimal.toList_render, hok _ hdigits']
    simp only [hread, hpath, Option.elim]
    unfold withPort
    by_cases hzero : port = 0
    · subst hzero
      have hread : readPort (Decimal.digits 0) = .error (.invalidPort "0") := rfl
      rw [if_pos rfl]
      simp only [UInt16.toNat_zero, hread]
    · rw [if_neg hzero, readPort_eq_ok_iff.2 (portText_digits hzero)]
  · obtain ⟨e, he⟩ := herror _ hdigits
    rw [he] at hsplit
    cases hsplit

/-- **Targets that are changed.** Whatever changes a target goes through, those that fail leaving it
as it is, it has a port and a path of segments, a name that is sent is one in lower case of at most
254 bytes, no option of a request made from it has more than 255 bytes, and its path read back
gives the same target. The last port and the last path that could be set count, in either order.
With another path a target is the one made with this path, and with another port, after
`host:port`, the one made with this port. -/
theorem update_invariant (h : t.Made) (us : List Update) :
    (t.updateAll us).Fit ∧
    t.updateAll us = { t with port := (us.filterMap Update.port?).getLastD t.port
                              segments := (us.filterMap Update.segments?).getLastD t.segments } ∧
    (∀ authority path other : String, make authority path = .ok t →
      t.withPath other = make authority other) ∧
    ∀ (host digits path : String) (port : UInt16), Fronts host.toList → Digits digits.toList →
      make (host ++ ":" ++ digits) path = .ok t →
      t.withPort port = make (host ++ ":" ++ Decimal.render port.toNat) path :=
  ⟨(h.sound.updateAll us).fit, updateAll_eq t us, fun _ _ other hmake => withPath_make hmake other,
    fun _ _ _ port hhost hdigits hmake => withPort_make hhost hdigits hmake port⟩

/-- Two changes that fail, before and after two that succeed. -/
theorem update_invariant_failures :
    ∃ t, make "Node-7.Mesh.:0080" "/date" = .ok t ∧ t.Made ∧
      (t.updateAll [.port 0, .path "/rtc/Zeit", .port 61616, .path "/rtc//Zeit"]).Fit ∧
      t.updateAll [.port 0, .path "/rtc/Zeit", .port 61616, .path "/rtc//Zeit"] =
        ⟨.named "node-7.mesh.", 61616, ["rtc", "Zeit"]⟩ ∧
      t.withPath "rtc" = make "Node-7.Mesh.:0080" "rtc" ∧
      t.withPort 0 = make "Node-7.Mesh.:0" "/date" := by
  let t : Target := ⟨.named "node-7.mesh.", 80, ["date"]⟩
  have ht : make "Node-7.Mesh.:0080" "/date" = .ok t := by cbv
  obtain ⟨hfit, hlast, hpath, hport⟩ := update_invariant (.make ht)
    [.port 0, .path "/rtc/Zeit", .port 61616, .path "/rtc//Zeit"]
  have hfront : Fronts "Node-7.Mesh.".toList := Or.inl (by decide)
  have hdigits : Digits "0080".toList := List.all_eq_true.1 (by decide)
  have hzero := hport "Node-7.Mesh." "0080" "/date" 0 hfront hdigits (by cbv)
  have hshown : t.updateAll [.port 0, .path "/rtc/Zeit", .port 61616, .path "/rtc//Zeit"] =
      ⟨.named "node-7.mesh.", 61616, ["rtc", "Zeit"]⟩ := hlast.trans (by cbv)
  exact ⟨t, ht, .make ht, hfit, hshown, hpath _ _ _ ht, hzero⟩

end Target

end NodeClock
