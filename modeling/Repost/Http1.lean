import Repost.Response

namespace Repost.H1
open GoText
set_option autoImplicit true

/-- What the error handling asks of an error of the network: which sentinels and types it wraps. Of
a lookup error it asks for a timeout and for an unknown name, in that order. -/
structure GoError where
  deadlineExceeded : Bool := false
  canceled : Bool := false
  dns : Option (Bool × Bool) := none
  certificate : Option FailureReason := none
  tlsAlert : Bool := false
  refused : Bool := false
  reset : Bool := false
  brokenPipe : Bool := false
  eof : Bool := false
  unexpectedEOF : Bool := false
  closed : Bool := false
  closedPipe : Bool := false
  timeout : Bool := false
  deriving DecidableEq

inductive Err where
  | protocol | headerLimit | bodyTooLarge | expansionRatio | incompleteBody
  | io (cause : GoError)
  deriving DecidableEq

structure Request where
  target : Bytes
  authority : Bytes
  authorization : Bytes
  userAgent : Bytes
  idempotencyKey : Bytes
  traceparent : Bytes := []
  tracestate : Bytes := []
  body : Bytes
  deriving DecidableEq

structure Response where
  status : Int := 0
  headers : List HeaderField := []
  body : Bytes := []
  compressedBytes : Int := 0
  decompressedBytes : Int := 0
  truncated : Bool := false
  deriving DecidableEq

def maxTargetBytes : Nat := 2048

def validWireValue (value : Bytes) : Bool :=
  value.all (fun b => b != 0x0D && b != 0x0A && b != 0x00)

def validRequest (r : Request) : Bool :=
  r.target.length ≤ maxTargetBytes && r.target.head? == some 0x2F && r.authority != [] &&
    r.body.length ≤ Limits.bodyBytes && validWireValue r.target && validWireValue r.authority &&
    validWireValue r.authorization && r.authorization != [] && validWireValue r.userAgent &&
    r.userAgent != [] && validWireValue r.idempotencyKey && r.idempotencyKey != [] &&
    validWireValue r.traceparent && validWireValue r.tracestate &&
    (r.tracestate == [] || r.traceparent != [])

def crlf : Bytes := [0x0D, 0x0A]

def headerLine (name : String) (value : Bytes) : Bytes := lit name ++ lit ": " ++ value ++ crlf

def requestHead (r : Request) : Bytes :=
  lit "POST " ++ r.target ++ lit " HTTP/1.1" ++ crlf ++
    headerLine "host" r.authority ++
    headerLine "content-length" (lit (toString r.body.length)) ++
    headerLine "authorization" r.authorization ++
    headerLine "content-type" (lit "application/json") ++
    headerLine "accept-encoding" (lit "gzip") ++
    headerLine "user-agent" r.userAgent ++
    headerLine "idempotency-key" r.idempotencyKey ++
    (if r.traceparent = [] then []
      else headerLine "traceparent" r.traceparent ++
        (if r.tracestate = [] then [] else headerLine "tracestate" r.tracestate)) ++
    crlf

/-- What the calls of `Write` on a connection return; later ones accept everything. -/
abbrev Writes := List (Int × Option GoError)

/-- The outcome of writing: the error, whether a byte was accepted, and the writes not yet made. -/
structure Written where
  err : Option GoError := none
  accepted : Bool := false
  left : Writes := []
  deriving DecidableEq

def shortWrite : GoError := {}

def writeAll : Writes → Bytes → Written
  | writes, [] => { left := writes }
  | [], _ :: _ => { accepted := true }
  | (n, err) :: writes, b :: data =>
    if n < 0 || n > ((b :: data).length : Int) then { err := some shortWrite, left := writes }
    else
      match err with
      | some e => { err := some e, accepted := n > 0, left := writes }
      | none =>
        if n = 0 then { err := some shortWrite, left := writes }
        else { writeAll writes ((b :: data).drop n.toNat) with accepted := true }

/-- The error of writing a request and whether it was marked as committed. -/
def writeRequest (writes : Writes) (r : Request) : Option GoError × Bool :=
  if !validRequest r then (some {}, false)
  else
    match writeAll writes (requestHead r) with
    | { err := some e, .. } => (some e, false)
    | { err := none, left := writes, .. } =>
      match writeAll writes r.body with
      | { err := err, accepted := accepted, .. } => (err, accepted)

/-- The bytes up to and including the first line feed, and the rest. -/
def cutLine : Bytes → Option (Bytes × Bytes)
  | [] => none
  | b :: s =>
    if b == 0x0A then some ([b], s)
    else
      match cutLine s with
      | some (line, rest) => some (b :: line, rest)
      | none => none

/-- `readLine`: a line without its CRLF and the rest, from the bytes that are still to come and the
error that follows them. -/
def readLine (ending : GoError) (limit : Nat) (rest : Bytes) : Except Err (Bytes × Bytes) :=
  match cutLine rest with
  | some (line, rest) =>
    if line.length > limit + 2 then .error .headerLimit
    else if line.length < 2 || line.dropLast.getLast? != some 0x0D then .error .protocol
    else .ok (line.dropLast.dropLast, rest)
  | none => if rest.length > limit + 2 then .error .headerLimit else .error (.io ending)

def parseStatus (line : Bytes) : Option Int :=
  match line.drop 9 with
  | a :: b :: c :: after =>
    if line.take 9 = lit "HTTP/1.1 " && 0x31 ≤ a && a ≤ 0x35 && isDigit b && isDigit c &&
        (after = [] || after.head? = some 0x20) then
      some ((a.toNat - 0x30) * 100 + (b.toNat - 0x30) * 10 + (c.toNat - 0x30) : Nat)
    else none
  | _ => none

def parseHeader (line : Bytes) : Except Err HeaderField :=
  if line.head? = some 0x20 || line.head? = some 0x09 then .error .protocol
  else
    match cut 0x3A line with
    | (_, none) => .error .protocol
    | (name, some after) =>
      let value := trimOWS after
      if name = [] then .error .protocol
      else if name.length > Limits.headerNameBytes then .error .headerLimit
      else if !name.all tokenByte then .error .protocol
      else if value.length > Limits.headerValueBytes then .error .headerLimit
      else if !validUTF8 value || !value.all fieldByte then .error .protocol
      else .ok { name := name, value := value }

def valuesOf (headers : List HeaderField) (name : Bytes) : List Bytes :=
  (headers.filter (fun h => equalFold h.name name)).map (·.value)

/-- `none` when absent; a length beyond the limit is reported as one more than the limit. -/
def singleContentLength (headers : List HeaderField) : Except Err (Option Nat) :=
  match valuesOf headers (lit "content-length") with
  | [] => .ok none
  | [value] =>
    if !value.all isDigit then .error .protocol
    else
      match parseUint 10 63 value with
      | none => .error .protocol
      | some n => .ok (some (min n (Limits.bodyBytes + 1)))
  | _ => .error .protocol

def transferChunked (headers : List HeaderField) : Except Err Bool :=
  match valuesOf headers (lit "transfer-encoding") with
  | [] => .ok false
  | [value] => if equalFold value (lit "chunked") then .ok true else .error .protocol
  | _ => .error .protocol

def contentEncoding (headers : List HeaderField) : Except Err Encoding :=
  match valuesOf headers (lit "content-encoding") with
  | [] => .ok .identity
  | [value] =>
    match encodingOf value with
    | some encoding => .ok encoding
    | none => .error .protocol
  | _ => .error .protocol

/-- The header lines of one response head: the fields read so far, and the rest or an error. -/
def readHeaders (ending : GoError) : Nat → List HeaderField → Nat → Bytes →
    List HeaderField × Except Err Bytes
  | left, headers, size, rest =>
    match readLine ending (Limits.headerBytes + 2) rest with
    | .error e => (headers, .error e)
    | .ok ([], rest) => (headers, .ok rest)
    | .ok (line, rest) =>
      match left with
      | 0 => (headers, .error .headerLimit)
      | left + 1 =>
        match parseHeader line with
        | .error e => (headers, .error e)
        | .ok h =>
          let headers := headers ++ [h]
          let size := size + (h.name.length + 2 + h.value.length + 2)
          if size > Limits.headerBytes then (headers, .error .headerLimit)
          else readHeaders ending left headers size rest

structure Head where
  status : Int
  headers : List HeaderField
  length : Option Nat
  chunked : Bool
  encoding : Encoding
  rest : Bytes

def framing (headers : List HeaderField) : Except Err (Option Nat × Bool × Encoding) :=
  match singleContentLength headers, transferChunked headers, contentEncoding headers with
  | .error e, _, _ => .error e
  | .ok _, .error _, _ => .error .protocol
  | .ok length, .ok chunked, encoding =>
    if length.isSome && chunked then .error .protocol
    else
      match encoding with
      | .error e => .error e
      | .ok encoding => .ok (length, chunked, encoding)

def readHead (ending : GoError) (rest : Bytes) : Response × Except Err Head :=
  match readLine ending Limits.headerValueBytes rest with
  | .error e => ({}, .error e)
  | .ok (line, rest) =>
    match parseStatus line with
    | none => ({}, .error .protocol)
    | some status =>
      match readHeaders ending Limits.headerFields [] 0 rest with
      | (headers, .error e) => ({ status := status, headers := headers }, .error e)
      | (headers, .ok rest) =>
        ({ status := status, headers := headers },
          match framing headers with
          | .error e => .error e
          | .ok (length, chunked, encoding) =>
            .ok { status := status, headers := headers, length := length, chunked := chunked,
                  encoding := encoding, rest := rest })

def maxInformationalResponses : Nat := 8

/-- Skip informational heads, of which so many are still allowed. -/
def readFinalHead (ending : GoError) : Nat → Bytes → Response × Except Err Head
  | left, rest =>
    match readHead ending rest with
    | (response, .error e) => (response, .error e)
    | (response, .ok head) =>
      if head.status < 100 || head.status ≥ 200 then (response, .ok head)
      else
        match left with
        | 0 => (response, .error .protocol)
        | left + 1 =>
          if head.status = 101 || head.chunked || head.length.any (· != 0) then
            (response, .error .protocol)
          else readFinalHead ending left head.rest

/-- Exactly so many bytes; `none` when reading ends before. -/
def readFull (n : Nat) (rest : Bytes) : Bytes × Option Bytes :=
  if rest.length < n then (rest, none) else (rest.take n, some (rest.drop n))

def readChunked (ending : GoError) : Nat → Bytes → Bytes → Bytes × Except Err Bytes
  | 0, body, _ => (body, .error .protocol)
  | fuel + 1, body, rest =>
    match readLine ending 256 rest with
    | .error e => (body, .error e)
    | .ok (line, rest) =>
      match parseUint 16 63 (cut 0x3B line).1 with
      | none => (body, .error .protocol)
      | some 0 =>
        match readLine ending Limits.headerBytes rest with
        | .error e => (body, .error e)
        | .ok (trailer, rest) => (body, if trailer = [] then .ok rest else .error .protocol)
      | some size =>
        if body.length > Limits.bodyBytes then (body, .error .bodyTooLarge)
        else if size ≥ Limits.bodyBytes + 1 - body.length then
          match readFull (Limits.bodyBytes + 1 - body.length) rest with
          | (data, none) => (body ++ data, .error (.io ending))
          | (data, some _) => (body ++ data, .error .bodyTooLarge)
        else
          match readFull size rest with
          | (data, none) => (body ++ data, .error (.io ending))
          | (data, some rest) =>
            match readFull 2 rest with
            | (_, none) => (body ++ data, .error (.io ending))
            | (mark, some rest) =>
              if mark = crlf then readChunked ending fuel (body ++ data) rest
              else (body ++ data, .error .protocol)

/-- The pieces that a gzip reader delivers into buffers of 32 KiB, whether it ends well, and how
much of its input it leaves unread. -/
structure Gunzip where
  pieces : List Bytes
  ok : Bool
  unread : Nat
  pieces_le : ∀ p ∈ pieces, p.length ≤ 32768

/-- The standard library's gzip reader; `none` when the header is bad. -/
abbrev GzipReader := Bytes → Option Gunzip

/-- The read loop of `decodeGzip`: the buffer never reaches beyond the expansion limit. -/
def gunzipLoop (limit : Nat) (ending : Err ⊕ Unit) : List Bytes → Bytes → Bytes × Option Err
  | [], decoded =>
    match ending with
    | .inl e => (decoded, some e)
    | .inr _ => (decoded, none)
  | piece :: pieces, decoded =>
    let decoded := decoded ++ piece.take (limit + 1 - decoded.length)
    if decoded.length > limit then (decoded, some .expansionRatio)
    else if decoded.length > Limits.bodyBytes then (decoded, some .bodyTooLarge)
    else gunzipLoop limit ending pieces decoded

def decodeGzip (gzip : GzipReader) (compressed : Bytes) : Bytes × Option Err :=
  match gzip compressed with
  | none => ([], some .protocol)
  | some g =>
    gunzipLoop (compressed.length * Limits.expansionRatio)
      (if g.ok && g.unread = 0 then .inr () else .inl .protocol) g.pieces []

def readBody (ending : GoError) (head : Head) : Bytes × Option Err :=
  match head.length with
  | some length =>
    match readFull length head.rest with
    | (body, none) => (body, some (.io ending))
    | (body, some _) => (body, none)
  | none =>
    if head.chunked then
      match readChunked ending (head.rest.length + 1) [] head.rest with
      | (body, .error e) => (body, some e)
      | (body, .ok _) => (body, none)
    else ([], none)

def finishResponse (gzip : GzipReader) (head : Head) (response : Response) (compressed : Bytes) :
    Response × Option Err :=
  match (match head.encoding with
    | .gzip => decodeGzip gzip compressed
    | .identity => (compressed, none)) with
  | (decoded, some e) =>
    ({ response with
        decompressedBytes := decoded.length,
        truncated := e = .bodyTooLarge || e = .expansionRatio }, some e)
  | (decoded, none) =>
    let response : Response := { response with decompressedBytes := decoded.length }
    if response.status < 200 || response.status ≥ 300 then
      ({ response with truncated := decoded.length > Limits.errorBodyBytes }, none)
    else ({ response with body := decoded }, none)

def readFramedBody (gzip : GzipReader) (ending : GoError) (head : Head) (response : Response) :
    Response × Option Err :=
  if head.length.any (· > Limits.bodyBytes) then
    ({ response with compressedBytes := (head.length.getD 0 : Nat) }, some .bodyTooLarge)
  else if head.length.isNone && !head.chunked && head.status ≠ 204 && head.status ≠ 304 then
    (response, some .protocol)
  else
    match readBody ending head with
    | (compressed, some e) =>
      let response : Response := { response with
        compressedBytes := compressed.length,
        decompressedBytes := if head.encoding = .identity then compressed.length else 0 }
      if e = .bodyTooLarge || e = .protocol || e = .headerLimit then (response, some e)
      else ({ response with truncated := true }, some .incompleteBody)
    | (compressed, none) =>
      finishResponse gzip head { response with compressedBytes := compressed.length } compressed

/-- One response: what was filled in, whether its final head was reached, and the error. -/
structure Read where
  response : Response
  final : Option Head
  err : Option Err

def readResponse (gzip : GzipReader) (ending : GoError) (rest : Bytes) : Read :=
  match readFinalHead ending maxInformationalResponses rest with
  | (response, .error e) => { response := response, final := none, err := some e }
  | (response, .ok head) =>
    match readFramedBody gzip ending head response with
    | (response, err) => { response := response, final := some head, err := err }

end Repost.H1
