import NodeClock.Coap.Packet
import NodeClock.Proofs.Options

/-!
# Packets come back

A datagram consists of four bytes of header, the token, options in their form, and nothing else or
the payload behind a mark. A packet is written in that layout, and it is read from that layout alone.

* `Packet.length_write_le`: the bytes written are never more than those counted.
* `Layout`: the layout of a datagram.
* `Packet.read_eq_ok_iff`: **a packet is read from the datagrams of its layout** and from no others.
* `Layout.unique`, `Layout.bytes_eq`: a datagram has one layout, and a layout one datagram.
* `Packet.layout_write`: the layout in which a packet is written.
* `Packet.read_write`: a packet comes back, but for a payload that is not written.
* `Layout.front`, `Packet.read_front`: **nothing tells where a payload ends.**
* `Packet.read_cut`: what is read of a datagram that was cut.
-/

namespace NodeClock.Coap

/-! ## Bytes that are written -/

namespace Packet

/-- The bytes of a packet, counted. -/
theorem length_write (p : Packet) :
    p.write.length = 4 + p.token.length + (writeOptions 0 p.options).length +
      if p.carriesPayload then 1 + p.payload.length else 0 := by
  unfold write
  by_cases h : p.carriesPayload = true
  · simp only [if_pos h, List.length_cons, List.length_append]
    omega
  · simp only [if_neg h, List.length_cons, List.length_append, List.length_nil]
    omega

/-- What is written is never longer than what is counted. -/
theorem length_write_le (p : Packet) : p.write.length ≤ p.size := by
  rw [length_write, size]
  by_cases h : p.carriesPayload = true
  · rw [if_pos h, if_pos h]; omega
  · rw [if_neg h, if_neg h]; omega

/-- All that is counted is written, unless the message is an empty one. -/
theorem length_write_eq {p : Packet} (hc : p.code ≠ 0) : p.write.length = p.size := by
  rw [length_write, size]
  by_cases h : p.carriesPayload = true
  · rw [if_pos h, if_pos h]; omega
  · have hp : p.payload = [] := by simpa [carriesPayload, hc] using h
    rw [if_neg h, if_neg h, hp, List.length_nil]

/-- The payload that the datagram of a packet brings along. -/
def written (p : Packet) : Bytes := if p.carriesPayload then p.payload else []

/-- The first byte holds the version, the kind and the length of the token. -/
theorem toNat_first (kind : Kind) {n : Nat} (hn : n ≤ 8) :
    (UInt8.ofNat (version * 64 + kind.bits * 16 + n)).toNat = 64 + kind.bits * 16 + n := by
  have hk : kind.bits < 4 := by cases kind <;> decide
  have hv : version = 1 := rfl
  rw [hv, Nat.one_mul]
  exact UInt8.toNat_ofNat_of_lt' (show _ < 256 by omega)

/-- A message id comes back from its two bytes. -/
theorem messageId_bytes (id : UInt16) :
    UInt16.ofNat ((UInt8.ofNat (id.toNat / 256)).toNat * 256 + (UInt8.ofNat id.toNat).toNat) =
      id := by
  have hlt := id.toNat_lt
  apply UInt16.toNat_inj.1
  simp only [UInt8.toNat_ofNat', UInt16.toNat_ofNat']
  omega

end Packet

/-! ## The layout of a datagram -/

/-- The datagram of a packet, in some version, with or without a payload mark. -/
inductive Layout (version : Nat) (p : Packet) (marked : Bool) : Bytes → Prop where
  | mk {first high low : UInt8} {opts : Bytes} :
      first.toNat / 64 = version → first.toNat / 16 % 4 = p.kind.bits →
      first.toNat % 16 = p.token.length → p.token.length ≤ 8 →
      high.toNat * 256 + low.toNat = p.messageId.toNat → Laid 0 opts p.options →
      (marked = false → p.payload = []) →
      Layout version p marked
        (first :: p.code :: high :: low :: (p.token ++ (opts ++ closing marked p.payload)))

theorem Kind.ofBits_eq_iff {n : Nat} {k : Kind} : ofBits n = k ↔ n % 4 = k.bits := by
  have hn : n % 4 = 0 ∨ n % 4 = 1 ∨ n % 4 = 2 ∨ n % 4 = 3 := by omega
  unfold ofBits
  rcases hn with hn | hn | hn | hn <;> rw [hn] <;> cases k <;> decide

/-- A message id in its two bytes. -/
theorem ofNat_bytes_eq_iff {high low : UInt8} {id : UInt16} :
    UInt16.ofNat (high.toNat * 256 + low.toNat) = id ↔
      high.toNat * 256 + low.toNat = id.toNat := by
  have hhigh := high.toNat_lt
  have hlow := low.toNat_lt
  have hlt : high.toNat * 256 + low.toNat < 65536 := by omega
  rw [← UInt16.toNat_inj, UInt16.toNat_ofNat', Nat.mod_eq_of_lt hlt]

section

variable {b b' : Bytes} {p p' : Packet} {version version' : Nat} {marked marked' : Bool}

namespace Packet

theorem read_of_layout (h : Layout version p marked b) : read b = .ok p := by
  obtain @⟨first, high, low, opts, -, hkind, htoken, hle, hid, hopts, hmarked⟩ := h
  have hlen : ¬ (p.token.length > 8 ∨
      p.token.length > (p.token ++ (opts ++ closing marked p.payload)).length) := by
    rw [List.length_append]
    omega
  rw [read, htoken, if_neg hlen, List.drop_left, List.take_left, hopts.readOptions_closing hmarked,
    Kind.ofBits_eq_iff.2 hkind, ofNat_bytes_eq_iff.2 hid]

/-- **A packet is read from the datagrams of its layout** and from no others. -/
theorem read_eq_ok_iff : read b = .ok p ↔ ∃ version marked, Layout version p marked b := by
  constructor
  · intro h
    match b, h with
    | first :: code :: high :: low :: rest, h =>
      simp only [read] at h
      by_cases ht : first.toNat % 16 > 8 ∨ first.toNat % 16 > rest.length
      · rw [if_pos ht] at h
        cases h
      · rw [if_neg ht] at h
        cases hr : readOptions 0 (rest.drop (first.toNat % 16)) with
        | error e => rw [hr] at h; cases h
        | ok r =>
          rw [hr] at h
          cases h
          obtain ⟨opts, marked, hopts, hrest, hmarked⟩ := readOptions_sound hr
          have htoken : (rest.take (first.toNat % 16)).length = first.toNat % 16 :=
            List.length_take_of_le (by omega)
          have hle : (rest.take (first.toNat % 16)).length ≤ 8 := by omega
          have hbytes : rest.take (first.toNat % 16) ++ (opts ++ closing marked r.2) = rest := by
            rw [← hrest, List.take_append_drop]
          refine ⟨first.toNat / 64, marked, ?_⟩
          conv => arg 4; rw [← hbytes]
          exact .mk rfl (Kind.ofBits_eq_iff.1 rfl) htoken.symm hle
            (ofNat_bytes_eq_iff.1 rfl) hopts hmarked
  · rintro ⟨version, marked, h⟩
    exact read_of_layout h

end Packet

namespace Layout

/-- The first two bits tell the version. -/
theorem version_eq (h : Layout version p marked b) :
    b.head?.map (fun first => first.toNat / 64) = some version := by
  obtain ⟨hversion⟩ := h
  exact congrArg some hversion

theorem length_closing (marked : Bool) (payload : Bytes) :
    (closing marked payload).length = if marked then payload.length + 1 else 0 := by
  cases marked <;> rfl

/-- The bytes of a datagram, counted. -/
theorem length_eq (h : Layout version p marked b) :
    b.length = 4 + p.token.length + (writeOptions 0 p.options).length +
      if marked then p.payload.length + 1 else 0 := by
  obtain ⟨-, -, -, -, -, hopts, -⟩ := h
  rw [(laid_iff.1 hopts).2]
  simp only [List.length_cons, List.length_append, length_closing]
  omega

/-- The options of a datagram are in order. -/
theorem ordered (h : Layout version p marked b) :
    p.options.Pairwise (·.number ≤ ·.number) := by
  obtain ⟨-, -, -, -, -, hopts, -⟩ := h
  exact (laid_iff.1 hopts).1.ordered

theorem length_token (h : Layout version p marked b) : p.token.length ≤ 8 := by
  obtain ⟨-, -, -, hle, -, -, -⟩ := h
  exact hle

theorem unmarked (h : Layout version p marked b) (hm : marked = false) :
    p.payload = [] := by
  obtain ⟨-, -, -, -, -, -, hmarked⟩ := h
  exact hmarked hm

/-- **A datagram has one layout.** -/
theorem unique (h : Layout version p marked b) (h' : Layout version' p' marked' b) :
    version = version' ∧ p = p' ∧ marked = marked' := by
  have hversion := h.version_eq.symm.trans h'.version_eq
  have hp : p = p' :=
    Except.ok.inj ((Packet.read_of_layout h).symm.trans (Packet.read_of_layout h'))
  have hlen := h.length_eq.symm.trans h'.length_eq
  rw [hp] at hlen
  refine ⟨Option.some.inj hversion, hp, ?_⟩
  -- a mark takes a byte, even with no payload behind it
  cases marked <;> cases marked' <;> simp at hlen ⊢

/-- **A layout has one datagram.** -/
theorem bytes_eq (h : Layout version p marked b) (h' : Layout version p marked b') :
    b = b' := by
  obtain @⟨first, high, low, opts, hversion, hkind, htoken, -, hid, hopts, -⟩ := h
  obtain @⟨first', high', low', opts', hversion', hkind', htoken', -, hid', hopts', -⟩ := h'
  have hlow := low.toNat_lt
  have hlow' := low'.toNat_lt
  have hfirst : first = first' := UInt8.toNat_inj.1 (by omega)
  have hhigh : high = high' := UInt8.toNat_inj.1 (by omega)
  have hlow : low = low' := UInt8.toNat_inj.1 (by omega)
  rw [hfirst, hhigh, hlow, (laid_iff.1 hopts).2, (laid_iff.1 hopts').2]

/-- Other options can stand in the place of those of a datagram. -/
theorem exists_options {os : List Opt} (h : Layout version p marked b)
    (hos : Writable 0 os) : ∃ b', Layout version { p with options := os } marked b' := by
  obtain ⟨hversion, hkind, htoken, hle, hid, -, hmarked⟩ := h
  exact ⟨_, .mk hversion hkind htoken hle hid (laid_iff.2 ⟨hos, rfl⟩) hmarked⟩

end Layout

namespace Packet

/-- A packet is written in the layout of version 1, with a mark if there is a payload behind it. -/
theorem layout_write (ht : p.token.length ≤ 8) (ho : Writable 0 p.options) :
    Layout 1 { p with payload := p.written } p.carriesPayload p.write := by
  have hfirst := toNat_first p.kind ht
  have hbits : p.kind.bits < 4 := by cases p.kind <;> decide
  have hid : (UInt8.ofNat (p.messageId.toNat / 256)).toNat * 256 +
      (UInt8.ofNat p.messageId.toNat).toNat = p.messageId.toNat :=
    ofNat_bytes_eq_iff.1 (messageId_bytes p.messageId)
  have hclosing : (if p.carriesPayload then payloadMark :: p.payload else []) =
      closing p.carriesPayload p.written := by
    unfold closing written
    cases p.carriesPayload <;> rfl
  have hmarked : p.carriesPayload = false → p.written = [] := by
    intro h
    rw [written, h]
    rfl
  rw [write, hclosing, List.append_assoc]
  refine .mk ?_ ?_ ?_ ht hid (laid_iff.2 ⟨ho, rfl⟩) hmarked
  · rw [hfirst]
    omega
  · rw [hfirst]
    simp only
    omega
  · rw [hfirst]
    simp only
    omega

/-- **A packet comes back**, but for a payload that is not written. -/
theorem read_write (ht : p.token.length ≤ 8) (ho : Writable 0 p.options) :
    read p.write = .ok { p with payload := p.written } :=
  read_of_layout (layout_write ht ho)

end Packet

end

/-! ## Datagrams that are cut -/

/-- **Nothing tells where a payload ends**: any other one may stand in its place, behind what stands
before it. -/
theorem Layout.front {version : Nat} {p : Packet} {b : Bytes} (h : Layout version p true b) :
    ∃ front, b = front ++ p.payload ∧
      ∀ payload, Layout version { p with payload } true (front ++ payload) := by
  obtain @⟨first, high, low, opts, hversion, hkind, htoken, hle, hid, hopts, -⟩ := h
  refine ⟨first :: p.code :: high :: low :: (p.token ++ (opts ++ [payloadMark])), ?_, ?_⟩
  · simp [closing]
  · intro payload
    have hbytes : first :: p.code :: high :: low :: (p.token ++ (opts ++ [payloadMark])) ++ payload =
        first :: p.code :: high :: low :: (p.token ++ (opts ++ closing true payload)) := by
      simp [closing]
    rw [hbytes]
    exact .mk hversion hkind htoken hle hid hopts nofun

namespace Packet

/-- A payload stands behind a mark. -/
theorem read_front {b : Bytes} {p : Packet} (h : read b = .ok p) (hp : p.payload ≠ []) :
    ∃ front, b = front ++ p.payload ∧
      ∀ payload, read (front ++ payload) = .ok { p with payload } := by
  obtain ⟨version, marked, hlayout⟩ := read_eq_ok_iff.1 h
  cases marked with
  | false => exact absurd (hlayout.unmarked rfl) hp
  | true =>
    obtain ⟨front, hb, hother⟩ := hlayout.front
    exact ⟨front, hb, fun payload => read_of_layout (hother payload)⟩

/-- What a packet read from bytes that were cut has in common with the whole one. -/
structure Cut (p whole : Packet) : Prop where
  kind : p.kind = whole.kind
  messageId : p.messageId = whole.messageId
  token : p.token = whole.token
  code : p.code = whole.code
  payload : p.payload <+: whole.payload

/-- **A datagram that was cut** is read with header and token as they are, and with the payload
cut, if it can be read at all. -/
theorem read_cut {bs tail : Bytes} {p whole : Packet} (h : read bs = .ok p)
    (hw : read (bs ++ tail) = .ok whole) : Cut p whole := by
  match bs, h, hw with
  | first :: code :: high :: low :: rest, h, hw =>
    simp only [read, List.cons_append] at h hw
    -- what is cut off lies behind the token, or else the shorter bytes are not read at all
    by_cases ht : first.toNat % 16 > 8 ∨ first.toNat % 16 > rest.length
    · rw [if_pos ht] at h
      cases h
    · have hle : first.toNat % 16 ≤ rest.length := by omega
      rw [if_neg ht] at h
      rw [if_neg (by rw [List.length_append]; omega), List.take_append_of_le_length hle,
        List.drop_append_of_le_length hle] at hw
      cases hr : readOptions 0 (rest.drop (first.toNat % 16)) with
      | error e => rw [hr] at h; cases h
      | ok r =>
        cases hr' : readOptions 0 (rest.drop (first.toNat % 16) ++ tail) with
        | error e => rw [hr'] at hw; cases hw
        | ok r' =>
          rw [hr] at h
          rw [hr'] at hw
          cases h
          cases hw
          exact ⟨rfl, rfl, rfl, rfl, readOptions_cut hr hr'⟩

end Packet

end NodeClock.Coap
