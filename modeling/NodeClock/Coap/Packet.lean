import NodeClock.Coap.Options

/-!
# Datagrams

The layout of a CoAP datagram: a header of four bytes (version, kind, token length, code and
message id), the token, the options, and the payload behind a mark.

* `Kind`: confirmable, non-confirmable, acknowledgement, reset.
* `Packet`: the parts of a datagram, none of them interpreted.
* `Packet.write`, `Packet.read`: a packet and its bytes.
-/

namespace NodeClock.Coap

/-- The kind of a message. -/
inductive Kind where
  | confirmable | nonConfirmable | acknowledgement | reset
  deriving DecidableEq, Repr

namespace Kind

def bits : Kind → Nat
  | confirmable => 0
  | nonConfirmable => 1
  | acknowledgement => 2
  | reset => 3

def ofBits (n : Nat) : Kind :=
  match n % 4 with
  | 0 => confirmable
  | 1 => nonConfirmable
  | 2 => acknowledgement
  | _ => reset

theorem ofBits_bits (k : Kind) : ofBits k.bits = k := by cases k <;> rfl

end Kind

/-- A datagram taken apart. -/
structure Packet where
  kind : Kind
  messageId : UInt16
  token : Bytes
  code : UInt8
  options : List Opt
  payload : Bytes
  deriving DecidableEq, Repr

namespace Packet

/-- The version of the protocol. -/
def version : Nat := 1

/-- Bytes in the largest datagram that is written. -/
def maxSize : Nat := 1280

/-- A payload is written if there is one and the message is not an empty one. -/
def carriesPayload (p : Packet) : Bool := !p.payload.isEmpty && p.code != 0

/-- Bytes counted against the limit. A payload counts also when it is not written; its mark
does not. -/
def size (p : Packet) : Nat :=
  4 + p.token.length + (writeOptions 0 p.options).length + p.payload.length +
    if p.carriesPayload then 1 else 0

/-- The bytes of a packet whose token has at most 8 bytes. -/
def write (p : Packet) : Bytes :=
  let id := p.messageId.toNat
  UInt8.ofNat (version * 64 + p.kind.bits * 16 + p.token.length) :: p.code ::
    UInt8.ofNat (id / 256) :: UInt8.ofNat id ::
    (p.token ++ writeOptions 0 p.options ++
      if p.carriesPayload then payloadMark :: p.payload else [])

/-- The packet of a datagram, whatever its version. -/
def read : Bytes → Except WireFault Packet
  | first :: code :: high :: low :: rest =>
    let tokenLength := first.toNat % 16
    if tokenLength > 8 ∨ tokenLength > rest.length then .error .tokenLength
    else
      match readOptions 0 (rest.drop tokenLength) with
      | .error e => .error e
      | .ok (options, payload) =>
        .ok { kind := .ofBits (first.toNat / 16), code, options, payload
              messageId := UInt16.ofNat (high.toNat * 256 + low.toNat)
              token := rest.take tokenLength }
  | _ => .error .header

end Packet

end NodeClock.Coap
