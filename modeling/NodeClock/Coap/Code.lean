import NodeClock.Text.Decimal
import NodeClock.Text.Utf8

/-!
# Message codes

The code byte of a CoAP message: three bits of class and five of detail, written `c.dd`. Class 0
holds the empty message and the request methods, classes 2 to 5 the responses.

* `Method`, `ResponseCode`, `Code`: the codes by meaning.
* `Code.byte`, `Code.ofByte`: a code and its byte.
* `CodecError`: why a message cannot be written or read.
-/

namespace NodeClock.Coap

/-- A request method. -/
inductive Method where
  | get | post | put
  deriving DecidableEq, Repr

namespace Method

def name : Method → String
  | get => "GET"
  | post => "POST"
  | put => "PUT"

def byte : Method → UInt8
  | get => 1
  | post => 2
  | put => 3

end Method

/-- A response code of class `cls`, any class being allowed. -/
structure ResponseCode where
  cls : Fin 8
  detail : Fin 32
  deriving DecidableEq, Repr

namespace ResponseCode

/-- The code with these bits, higher bits being cut off. -/
def ofParts (cls detail : Nat) : ResponseCode := ⟨Fin.ofNat 8 cls, Fin.ofNat 32 detail⟩

def byte (c : ResponseCode) : UInt8 := UInt8.ofNat (c.cls.val * 32 + c.detail.val)

def ofByte (b : UInt8) : ResponseCode := ofParts (b.toNat / 32) b.toNat

/-- `2.04` for class 2 and detail 4. -/
def text (c : ResponseCode) : String :=
  Decimal.render c.cls.val ++ "." ++ Decimal.padded 2 c.detail.val

def isSuccess (c : ResponseCode) : Bool := c.cls == 2

def isClientError (c : ResponseCode) : Bool := c.cls == 4

def isServerError (c : ResponseCode) : Bool := c.cls == 5

/-- The registered name of a code. -/
def name? (c : ResponseCode) : Option String :=
  match c.cls.val, c.detail.val with
  | 2, 1 => some "Created"
  | 2, 2 => some "Deleted"
  | 2, 3 => some "Valid"
  | 2, 4 => some "Changed"
  | 2, 5 => some "Content"
  | 2, 31 => some "Continue"
  | 4, 0 => some "Bad Request"
  | 4, 1 => some "Unauthorized"
  | 4, 2 => some "Bad Option"
  | 4, 3 => some "Forbidden"
  | 4, 4 => some "Not Found"
  | 4, 5 => some "Method Not Allowed"
  | 4, 6 => some "Not Acceptable"
  | 4, 8 => some "Request Entity Incomplete"
  | 4, 12 => some "Precondition Failed"
  | 4, 13 => some "Request Entity Too Large"
  | 4, 15 => some "Unsupported Content-Format"
  | 5, 0 => some "Internal Server Error"
  | 5, 1 => some "Not Implemented"
  | 5, 2 => some "Bad Gateway"
  | 5, 3 => some "Service Unavailable"
  | 5, 4 => some "Gateway Timeout"
  | 5, 5 => some "Proxying Not Supported"
  | _, _ => none

/-- The code with its name, if it has one. -/
def title (c : ResponseCode) : String :=
  match c.name? with
  | some n => c.text ++ " " ++ n
  | none => c.text

theorem ofByte_byte (c : ResponseCode) : ofByte c.byte = c := by
  obtain ⟨⟨a, ha⟩, ⟨b, hb⟩⟩ := c
  have hn : a * 32 + b < 256 := by omega
  simp only [ofByte, byte, ofParts, UInt8.toNat_ofNat', Nat.mod_eq_of_lt hn, Fin.ofNat]
  congr 2 <;> omega

end ResponseCode

/-- The code of a message. -/
inductive Code where
  | empty
  | request (m : Method)
  | response (c : ResponseCode)
  deriving DecidableEq, Repr

/-- Why a message cannot be written or read. -/
inductive CodecError where
  | malformed (detail : String)
  | encode (detail : String)
  | unsupportedMethod (code : UInt8)
  | tokenTooLong (length : Nat)
  deriving DecidableEq, Repr

/-- Bytes in the longest token. -/
def maxToken : Nat := 8

def CodecError.message : CodecError → String
  | .malformed d => s!"malformed CoAP message: {d}"
  | .encode d => s!"failed to encode CoAP message: {d}"
  | .unsupportedMethod b =>
    s!"unsupported CoAP method code 0.{Decimal.padded 2 (b.toNat % 32)}"
  | .tokenTooLong n =>
    s!"CoAP token too long ({Decimal.render n} bytes, max {Decimal.render maxToken})"

namespace Code

def byte : Code → UInt8
  | empty => 0
  | request m => m.byte
  | response c => c.byte

/-- The code of a byte: classes 1, 6 and 7 are reserved, and class 0 knows three methods. -/
def ofByte (b : UInt8) : Except CodecError Code :=
  let cls := b.toNat / 32
  if b = 0 then .ok .empty
  else if b = 1 then .ok (.request .get)
  else if b = 2 then .ok (.request .post)
  else if b = 3 then .ok (.request .put)
  else if cls = 0 then .error (.unsupportedMethod b)
  else if 2 ≤ cls ∧ cls ≤ 5 then .ok (.response (.ofByte b))
  else .error (.malformed s!"reserved code class {Decimal.render cls}")

/-- `empty`, the name of a method, or `c.dd`. -/
def text : Code → String
  | empty => "empty"
  | request m => m.name
  | response c => c.text

end Code

end NodeClock.Coap
