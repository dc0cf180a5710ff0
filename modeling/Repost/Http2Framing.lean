import Repost.Observability
import Repost.ResponseFactory

namespace Repost.H2
open GoText
set_option autoImplicit true

inductive SessionError where
  | responseProtocol
  | responseTooLarge
  | sessionClosed
  | streamReset (code : Nat)
  | goAway (lastStreamID code : Nat)
  | context (cause : ContextError)
  | eof
  | writeFrame (cause : Option ContextError)
  | readFrame
  | invalidSetting
  | joined (first second : SessionError)
  deriving DecidableEq

structure Response where
  status : Int := 0
  headers : List HeaderField := []
  body : Bytes := []
  compressedBytes : Int := 0
  decompressedBytes : Int := 0
  truncated : Bool := false
  deriving DecidableEq

inductive Frame where
  | headers (streamID : Nat) (fragment : Bytes) (endHeaders endStream : Bool)
  | continuation (streamID : Nat) (endHeaders : Bool) (fragment : Bytes)
  | data (streamID : Nat) (endStream : Bool) (payload : Bytes)
  | rstStream (streamID code : Nat)
  | windowUpdate (streamID increment : Nat)
  | settingsAck
  | pingAck (data : Bytes)
  deriving DecidableEq

/-- The continuation frames of a header block; with a frame size of zero none can be made. -/
def continuations (streamID maxFrameSize : Nat) : Nat → Bytes → List Frame
  | 0, _ => []
  | _ + 1, [] => []
  | fuel + 1, block =>
    .continuation streamID (block.drop maxFrameSize = []) (block.take maxFrameSize) ::
      continuations streamID maxFrameSize fuel (block.drop maxFrameSize)

def writeHeaderBlock (streamID : Nat) (block : Bytes) (endStream : Bool) (maxFrameSize : Nat) :
    List Frame :=
  let first := min block.length maxFrameSize
  .headers streamID (block.take first) (first = block.length) endStream ::
    continuations streamID maxFrameSize block.length (block.drop first)

/-- A header block as the framer hands it over: its pseudo fields come first. -/
structure MetaHeaders where
  streamID : Nat
  truncated : Bool := false
  pseudos : List HeaderField := []
  regular : List HeaderField := []
  streamEnded : Bool := false
  deriving DecidableEq

/-- Three bytes that `strconv.Atoi` reads as a number from 100 on are three digits. -/
def decodeStatus : List HeaderField → Option Int
  | [pseudo] =>
    if pseudo.name ≠ lit ":status" || pseudo.value.length ≠ 3 then none
    else
      match parseUint 10 63 pseudo.value with
      | some status => if status < 100 || status > 599 then none else some status
      | none => none
  | _ => none

def canonicalDecimal (value : Bytes) : Bool :=
  value = lit "0" || (value != [] && value.head? != some 0x30 && value.all isDigit)

def contentLengthField : Bytes := lit "content-length"

/-- The loop over the regular fields, from the bytes and the content length seen so far. -/
def decodeFields : Nat → Option Nat → List HeaderField → Except SessionError (Option Nat)
  | _, expected, [] => .ok expected
  | size, expected, field :: fields =>
    if field.name = [] || field.name.length > Limits.headerNameBytes ||
        field.value.length > Limits.headerValueBytes || !validUTF8 field.value ||
        !field.value.all fieldByte then .error .responseProtocol
    else
      let size := size + (field.name.length + 2 + field.value.length + 2)
      if size > Limits.headerBytes then .error .responseTooLarge
      else if field.name = contentLengthField then
        if expected.isSome || !canonicalDecimal field.value then .error .responseProtocol
        else
          match parseUint 10 63 field.value with
          | none => .error .responseProtocol
          | some length =>
            if length > Limits.bodyBytes then .error .responseTooLarge
            else decodeFields size (some length) fields
      else decodeFields size expected fields

def decodeResponseHeaders (frame : MetaHeaders) : Except SessionError (Response × Option Nat) :=
  if frame.truncated then .error .responseTooLarge
  else
    match decodeStatus frame.pseudos with
    | none => .error .responseProtocol
    | some status =>
      if frame.regular.length > Limits.headerFields then .error .responseTooLarge
      else
        match decodeFields 0 none frame.regular with
        | .error e => .error e
        | .ok expected => .ok ({ status := status, headers := frame.regular }, expected)

def asciiSpace (b : UInt8) : Bool := b == 0x20 || (0x09 ≤ b && b ≤ 0x0D)

def trimSpace (s : Bytes) : Bytes :=
  ((s.dropWhile asciiSpace).reverse.dropWhile asciiSpace).reverse

def bodyEncoding (headers : List HeaderField) : Option Encoding :=
  match headers.filter (fun h => h.name == lit "content-encoding") with
  | [] => some .identity
  | [field] =>
    if field.value.any (fun b => b > 0x7F) then none
    else if trimSpace field.value = [] then some .identity
    else encodingOf (trimSpace field.value)
  | _ => none

/-- The decoded body, bounded by one byte more than the limit. -/
def decodeBody (gunzip : GunzipLimited) (encoding : Encoding) (limit : Nat) (encoded : Bytes) :
    Option Bytes :=
  match encoding with
  | .identity => some encoded
  | .gzip =>
    match gunzip (limit + 1) encoded with
    | none => none
    | some g =>
      if !g.ok || (g.decoded.length ≤ limit && g.unread ≠ 0) then none else some g.decoded

def finalizeResponse (gunzip : GunzipLimited) (response : Response) :
    Except SessionError Response :=
  let encoded := response.body
  let success := 200 ≤ response.status && response.status < 300
  let limit := if success then Limits.bodyBytes else Limits.errorBodyBytes
  match bodyEncoding response.headers with
  | none => .error .responseProtocol
  | some encoding =>
    match decodeBody gunzip encoding limit encoded with
    | none => .error .responseProtocol
    | some decoded =>
      if decoded.length > encoded.length * Limits.expansionRatio then .error .responseTooLarge
      else if decoded.length > limit && success then .error .responseTooLarge
      else
        .ok { response with
          compressedBytes := encoded.length
          decompressedBytes := decoded.length
          truncated := decoded.length > limit
          body := decoded.take limit }

end Repost.H2
