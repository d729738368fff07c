import NodeClock.Coap.Code
import NodeClock.Coap.Packet

/-!
# Messages

A CoAP message as requests and responses see it: of all options only the host, the path, the
query and the content format are kept.

* `Request`, `Response`: what client and node say.
* `Frame`: a message, with `Frame.ofRequest`, `Frame.ofResponse` and `Frame.empty`.
* `Frame.encode`, `Frame.decode`: a message and its datagram.
-/

namespace NodeClock.Coap

/-- The UDP port of CoAP. -/
def defaultPort : UInt16 := 5683

/-- The content format of plain text in UTF-8. -/
def plainText : UInt16 := 0

/-- A request, before it gets a message id and a token. -/
structure Request where
  method : Method := .put
  uriHost : Option String := none
  path : List String := []
  query : List String := []
  contentFormat : Option UInt16 := none
  payload : Bytes := []
  deriving DecidableEq, Repr

/-- `/path/segments?query&pairs`, nothing being escaped. -/
def Request.uri (r : Request) : String :=
  let path := if r.path.isEmpty then "/" else String.join (r.path.map ("/" ++ ·))
  if r.query.isEmpty then path else path ++ "?" ++ "&".intercalate r.query

/-- A response that has been matched to its request. -/
structure Response where
  code : ResponseCode
  payload : Bytes := []
  deriving DecidableEq, Repr

/-- A message. -/
structure Frame where
  kind : Kind
  messageId : UInt16
  token : Bytes := []
  code : Code := .empty
  uriHost : Option String := none
  uriPath : List String := []
  uriQuery : List String := []
  contentFormat : Option UInt16 := none
  payload : Bytes := []
  deriving DecidableEq, Repr

namespace Frame

/-- A message with an id and nothing else: an acknowledgement or a reset. -/
def empty (kind : Kind) (messageId : UInt16) : Frame := { kind, messageId }

def ofRequest (kind : Kind) (messageId : UInt16) (token : Bytes) (r : Request) : Frame :=
  { kind, messageId, token, code := .request r.method, uriHost := r.uriHost, uriPath := r.path,
    uriQuery := r.query, contentFormat := r.contentFormat, payload := r.payload }

def ofResponse (kind : Kind) (messageId : UInt16) (token : Bytes) (r : Response) : Frame :=
  { kind, messageId, token, code := .response r.code, payload := r.payload }

def isEmpty (f : Frame) : Bool := f.code == .empty

/-- The request that the message carries, if it is one. -/
def request? (f : Frame) : Option Request :=
  match f.code with
  | .request method =>
    some { method, uriHost := f.uriHost, path := f.uriPath, query := f.uriQuery,
           contentFormat := f.contentFormat, payload := f.payload }
  | _ => none

/-- The response that the message carries, if it is one. -/
def response? (f : Frame) : Option Response :=
  match f.code with
  | .response code => some { code, payload := f.payload }
  | _ => none

/-- Numbers of the options that are kept. -/
def uriHostNumber : Nat := 3
def uriPathNumber : Nat := 11
def contentFormatNumber : Nat := 12
def uriQueryNumber : Nat := 15

/-- A number in as few bytes as it needs, the high byte first; zero needs none. -/
def uintBytes (n : UInt16) : Bytes :=
  if n = 0 then []
  else if n < 256 then [UInt8.ofNat n.toNat]
  else [UInt8.ofNat (n.toNat / 256), UInt8.ofNat n.toNat]

/-- The number of some bytes, the high byte first, modulo 2 ^ 16. -/
def uintOf (bs : Bytes) : UInt16 := bs.foldl (fun n b => n * 256 + UInt16.ofNat b.toNat) 0

/-- The options of a message in the order of their numbers. -/
def options (f : Frame) : List Opt :=
  (f.uriHost.map fun s => ⟨uriHostNumber, Utf8.encode s⟩).toList ++
    f.uriPath.map (fun s => ⟨uriPathNumber, Utf8.encode s⟩) ++
    (f.contentFormat.map fun n => ⟨contentFormatNumber, uintBytes n⟩).toList ++
    f.uriQuery.map (fun s => ⟨uriQueryNumber, Utf8.encode s⟩)

def packet (f : Frame) : Packet :=
  { kind := f.kind, messageId := f.messageId, token := f.token, code := f.code.byte,
    options := f.options, payload := f.payload }

/-- The values of the options with one number, in order. -/
def values (number : Nat) (os : List Opt) : List Bytes :=
  (os.filter (·.number == number)).map (·.value)

/-- The message of a packet with code `code`. Of a repeated host or content format the first
counts. -/
def ofPacket (code : Code) (p : Packet) : Frame :=
  { kind := p.kind, messageId := p.messageId, token := p.token, code
    uriHost := (values uriHostNumber p.options).head?.map Utf8.decodeLossy
    uriPath := (values uriPathNumber p.options).map Utf8.decodeLossy
    uriQuery := (values uriQueryNumber p.options).map Utf8.decodeLossy
    contentFormat := (values contentFormatNumber p.options).head?.map uintOf
    payload := p.payload }

/-- The datagram of a message. -/
def encode (f : Frame) : Except CodecError Bytes :=
  if f.token.length > maxToken then .error (.tokenTooLong f.token.length)
  else if f.packet.size > Packet.maxSize then .error (.encode "InvalidPacketLength")
  else .ok f.packet.write

/-- The message of a datagram. The code is judged after all else. -/
def decode (bs : Bytes) : Except CodecError Frame :=
  match Packet.read bs with
  | .error e => .error (.malformed e.name)
  | .ok p =>
    match Code.ofByte p.code with
    | .error e => .error e
    | .ok code => .ok (ofPacket code p)

end Frame

end NodeClock.Coap
