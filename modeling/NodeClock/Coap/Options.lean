import NodeClock.Text.Utf8

/-!
# Options on the wire

A message carries its options in ascending order of their numbers. Each is written as the
difference to the number before it, the length of its value, and the value. Difference and
length take four bits each, with up to two more bytes for large ones.

* `Opt`: an option.
* `writeOptions`: options as bytes.
* `readOptions`: options from bytes, with the payload that follows them.
-/

namespace NodeClock.Coap

/-- What is wrong with the bytes of a message. -/
inductive WireFault where
  | header
  | tokenLength
  | optionDelta
  | optionLength
  deriving DecidableEq, Repr

def WireFault.name : WireFault → String
  | .header => "InvalidHeader"
  | .tokenLength => "InvalidTokenLength"
  | .optionDelta => "InvalidOptionDelta"
  | .optionLength => "InvalidOptionLength"

/-- An option: its number and its value. -/
structure Opt where
  number : Nat
  value : Bytes
  deriving DecidableEq, Repr

/-- The greatest option number, and the greatest difference and length. -/
def maxExtent : Nat := 65535

/-- The byte between the options and the payload. -/
def payloadMark : UInt8 := 0xFF

/-- The four bits for `n`. -/
def nibble (n : Nat) : Nat := if n < 13 then n else if n < 269 then 13 else 14

/-- The bytes that continue the four bits for `n`. -/
def extension (n : Nat) : Bytes :=
  if n < 13 then []
  else if n < 269 then [UInt8.ofNat (n - 13)]
  else [UInt8.ofNat ((n - 269) / 256), UInt8.ofNat (n - 269)]

/-- The number that four bits and the bytes after them stand for, and the bytes left. `beyond`
blames a number that is too large. -/
def readExtent (beyond : WireFault) (bits : Nat) (bs : Bytes) : Except WireFault (Nat × Bytes) :=
  if bits < 13 then .ok (bits, bs)
  else if bits = 13 then
    match bs with
    | a :: r => .ok (a.toNat + 13, r)
    | [] => .error .optionLength
  else if bits = 14 then
    match bs with
    | a :: b :: r =>
      let n := a.toNat * 256 + b.toNat + 269
      if n ≤ maxExtent then .ok (n, r) else .error beyond
    | _ => .error .optionLength
  else .error beyond

/-- One option after one numbered `before`. -/
def Opt.write (before : Nat) (o : Opt) : Bytes :=
  let delta := o.number - before
  let length := o.value.length
  UInt8.ofNat (nibble delta * 16 + nibble length) ::
    (extension delta ++ extension length ++ o.value)

/-- Options in ascending order, after one numbered `before`. -/
def writeOptions (before : Nat) : List Opt → Bytes
  | [] => []
  | o :: os => o.write before ++ writeOptions o.number os

/-- The option that begins with the byte `b`, and the bytes left. -/
def readOption (before : Nat) (b : UInt8) (bs : Bytes) : Except WireFault (Opt × Bytes) :=
  match readExtent .optionDelta (b.toNat / 16) bs with
  | .error e => .error e
  | .ok (delta, bs) =>
    match readExtent .optionLength (b.toNat % 16) bs with
    | .error e => .error e
    | .ok (length, bs) =>
      if before + delta > maxExtent then .error .optionDelta
      else if length > bs.length then .error .optionLength
      else .ok (⟨before + delta, bs.take length⟩, bs.drop length)

theorem readExtent_length {beyond : WireFault} {bits n : Nat} {bs r : Bytes}
    (h : readExtent beyond bits bs = .ok (n, r)) : r.length ≤ bs.length := by
  unfold readExtent at h
  grind

theorem readOption_length {before : Nat} {b : UInt8} {bs r : Bytes} {o : Opt}
    (h : readOption before b bs = .ok (o, r)) : r.length ≤ bs.length := by
  unfold readOption at h
  split at h
  · simp at h
  · rename_i h1
    split at h
    · simp at h
    · rename_i h2
      split at h
      · simp at h
      · split at h
        · simp at h
        · simp only [Except.ok.injEq, Prod.mk.injEq] at h
          have := readExtent_length h1
          have := readExtent_length h2
          rw [← h.2, List.length_drop]
          omega

/-- The options up to the end or the payload mark, and the payload. -/
def readOptions (before : Nat) : Bytes → Except WireFault (List Opt × Bytes)
  | [] => .ok ([], [])
  | b :: bs =>
    if b = payloadMark then .ok ([], bs)
    else
      match h : readOption before b bs with
      | .error e => .error e
      | .ok (o, rest) =>
        have := readOption_length h
        match readOptions o.number rest with
        | .error e => .error e
        | .ok (os, payload) => .ok (o :: os, payload)
termination_by bs => bs.length

end NodeClock.Coap
