import NodeClock.Proofs.Frame
import Mathlib.Data.List.Induction
import Mathlib.Data.Nat.Digits.Defs

/-!
# What is read as a message

* `Frame.uintOf_eq`: the number that some bytes stand for.
* `Frame.keeps`: the options that a message tells of.
* `Frame.ofPacket_options`: a message does not depend on the others.
* `Frame.decode_layout` (every byte string): **what is read as a message, and as which.**
-/

namespace NodeClock.Coap

namespace Frame

variable {b b' : Bytes} {f : Frame} {p : Packet} {os : List Opt} {version : Nat} {marked : Bool}

/-- The number of some bytes, the last one being the lowest digit. -/
theorem uintOf_eq (bs : Bytes) :
    uintOf bs = UInt16.ofNat (Nat.ofDigits 256 (bs.reverse.map UInt8.toNat)) := by
  induction bs using List.reverseRecOn with
  | nil => rfl
  | append_singleton bs b ih =>
    have hstep : uintOf (bs ++ [b]) = uintOf bs * 256 + UInt16.ofNat b.toNat := by
      rw [uintOf, List.foldl_append]
      rfl
    rw [hstep, ih, List.reverse_append, List.reverse_singleton, List.singleton_append,
      List.map_cons, Nat.ofDigits_cons, UInt16.ofNat_add, UInt16.ofNat_mul, UInt16.add_comm,
      UInt16.mul_comm]
    rfl

/-- Whether a message keeps an option. -/
def keeps (o : Opt) : Bool :=
  o.number == uriHostNumber || o.number == uriPathNumber || o.number == contentFormatNumber ||
    o.number == uriQueryNumber

theorem values_filter_keeps {number : Nat} (h : ∀ v, keeps ⟨number, v⟩ = true) (os : List Opt) :
    values number (os.filter keeps) = values number os := by
  have hboth : ∀ o : Opt, (o.number == number && keeps o) = (o.number == number) := by
    rintro ⟨n, v⟩
    by_cases hn : n = number
    · rw [hn, h v, Bool.and_true]
    · rw [beq_false_of_ne hn, Bool.false_and]
  rw [values, List.filter_filter]
  simp only [hboth]
  rfl

/-- A message depends on the options that it keeps and on no others. -/
theorem ofPacket_options (code : Code) (h : os.filter keeps = p.options.filter keeps) :
    ofPacket code { p with options := os } = ofPacket code p := by
  have hvalues : ∀ number, (∀ v, keeps ⟨number, v⟩ = true) →
      values number os = values number p.options := by
    intro number hkeeps
    rw [← values_filter_keeps hkeeps os, h, values_filter_keeps hkeeps]
  simp only [ofPacket]
  rw [hvalues uriHostNumber fun _ => rfl, hvalues uriPathNumber fun _ => rfl,
    hvalues uriQueryNumber fun _ => rfl, hvalues contentFormatNumber fun _ => rfl]

/-- **What is read as a message.** A byte string is read as a message exactly if it is a datagram in
its layout, of any version, with the code of an empty message, of a request or of a response; of the
options the first host, all of the path, all of the query and the first content format are read, in
order. Other options may come and go without any change to what is read. -/
theorem decode_layout (b : Bytes) (f : Frame) :
    (decode b = .ok f ↔
      ∃ version marked os,
        Layout version ⟨f.kind, f.messageId, f.token, f.code.byte, os, f.payload⟩ marked b ∧
        f.code.Legible ∧
        f.uriHost = (values 3 os).head?.map Utf8.decodeLossy ∧
        f.uriPath = (values 11 os).map Utf8.decodeLossy ∧
        f.uriQuery = (values 15 os).map Utf8.decodeLossy ∧
        f.contentFormat = (values 12 os).head?.map fun v =>
          UInt16.ofNat (Nat.ofDigits 256 (v.reverse.map UInt8.toNat))) ∧
    ∀ version p marked os, Layout version p marked b → Writable 0 os →
      os.filter keeps = p.options.filter keeps →
        (∃ b', Layout version { p with options := os } marked b') ∧
        ∀ b', Layout version { p with options := os } marked b' → decode b' = decode b := by
  refine ⟨⟨?_, ?_⟩, ?_⟩
  · intro h
    obtain ⟨p, code, hp, hcode, rfl⟩ := decode_eq_ok_iff.1 h
    obtain ⟨version, marked, hlayout⟩ := Packet.read_eq_ok_iff.1 hp
    obtain ⟨hbyte, hlegible⟩ := Code.ofByte_eq_ok_iff.1 hcode
    obtain ⟨kind, id, token, c, os, payload⟩ := p
    simp only at hbyte
    subst hbyte
    refine ⟨version, marked, os, hlayout, hlegible, rfl, rfl, rfl, ?_⟩
    simp only [← uintOf_eq]
    rfl
  · rintro ⟨version, marked, os, hlayout, hlegible, hhost, hpath, hquery, hformat⟩
    refine decode_eq_ok_iff.2 ⟨_, f.code, Packet.read_of_layout hlayout,
      Code.ofByte_eq_ok_iff.2 ⟨rfl, hlegible⟩, ?_⟩
    simp only [← uintOf_eq] at hformat
    simp only [ofPacket, uriHostNumber, uriPathNumber, uriQueryNumber, contentFormatNumber]
    rw [← hhost, ← hpath, ← hquery, ← hformat]
  · intro version p marked os hlayout hos hkept
    refine ⟨hlayout.exists_options hos, ?_⟩
    intro b' hlayout'
    rw [decode, decode, Packet.read_of_layout hlayout', Packet.read_of_layout hlayout]
    simp only [ofPacket_options _ hkept]

/-- An option that is not kept, between two that are: without it the difference that comes next is
another one. -/
theorem decode_layout_maxAge :
    decode [0x41, 0x45, 0, 7, 9, 0xB1, 97, 0x31, 60, 0x11, 98, 0xFF, 49] =
      decode [0x41, 0x45, 0, 7, 9, 0xB1, 97, 0x41, 98, 0xFF, 49] := by
  let p : Packet := ⟨.confirmable, 7, [9], 0x45, [⟨11, [97]⟩, ⟨15, [98]⟩], [49]⟩
  let p' : Packet := { p with options := [⟨11, [97]⟩, ⟨14, [60]⟩, ⟨15, [98]⟩] }
  have ho : Writable 0 p.options := ⟨by decide, by decide, by decide, by decide⟩
  have ho' : Writable 0 p'.options := ⟨by decide, by decide, by decide, by decide⟩
  have hb : p.write = [0x41, 0x45, 0, 7, 9, 0xB1, 97, 0x41, 98, 0xFF, 49] := by decide
  have hb' : p'.write = [0x41, 0x45, 0, 7, 9, 0xB1, 97, 0x31, 60, 0x11, 98, 0xFF, 49] := by decide
  have hlayout : Layout 1 p true p.write := Packet.layout_write (p := p) (by decide) ho
  have hlayout' : Layout 1 p' true p'.write := Packet.layout_write (p := p') (by decide) ho'
  rw [← hb, ← hb']
  obtain ⟨-, hother⟩ := decode_layout p.write (Frame.empty .confirmable 7)
  exact (hother 1 p true p'.options hlayout ho' (by decide)).2 p'.write hlayout'

end Frame

end NodeClock.Coap
