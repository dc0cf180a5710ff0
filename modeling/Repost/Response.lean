import Repost.Errors
import Repost.HttpDate

namespace Repost
open GoText
set_option autoImplicit true

namespace Limits

def bodyBytes : Nat := 1048576
def errorBodyBytes : Nat := 65536
def expansionRatio : Nat := 100
def headerFields : Nat := 100
def headerBytes : Nat := 65536
def headerNameBytes : Nat := 256
def headerValueBytes : Nat := 8192

end Limits

def maxPayloadBytes : Nat := Limits.bodyBytes

/-- A 64-bit signed result, wrapped around. -/
def int64 (x : Int) : Int := Int.bmod x (2 ^ 64)

/-- An instant in nanoseconds since 1970; the zero `time.Time` is `none`. -/
abbrev Time := Option Int

structure HeaderField where
  name : Bytes
  value : Bytes
  deriving DecidableEq

/-- The once-only close function of a response: its identity and whether it fails. -/
structure Closer where
  id : Nat
  fails : Bool
  deriving DecidableEq

/-- A bounded one-attempt response. A nil header list or body is `none`; the fields from
`protocolViolation` on are not exported to custom transports. -/
structure AttemptResponse where
  status : Int
  headers : Option (List HeaderField)
  body : Option Bytes
  compressedBytes : Int := 0
  decompressedBytes : Int := 0
  truncated : Bool := false
  headersReceivedAt : Time := none
  headersReceivedAtSet : Bool := false
  headerClockFailed : Bool := false
  protocolViolation : Bool := false
  limitViolation : Bool := false
  incomplete : Bool := false
  retryForbidden : Bool := false
  headerLimitViolation : Bool := false
  attemptFailureCode : Option ErrorCode := none
  attemptFailureReason : Option FailureReason := none
  normalized : Bool := false
  closer : Option Closer := none
  deriving DecidableEq

structure AttemptFailure where
  code : ErrorCode
  failureReason : Option FailureReason := none
  committed : Bool := false
  causeCategory : Option CauseCategory := none
  deriving DecidableEq

/-- Meant to hold exactly one of the two; the runtime checks. -/
structure AttemptOutcome where
  response : Option AttemptResponse := none
  failure : Option AttemptFailure := none
  deriving DecidableEq

def AttemptResponse.fields (r : AttemptResponse) : List HeaderField := r.headers.getD []

def AttemptResponse.bytes (r : AttemptResponse) : Bytes := r.body.getD []

def headerValues (headers : List HeaderField) (name : Bytes) : List Bytes :=
  (headers.filter (fun h => equalFold h.name name)).map (fun h => trimOWS h.value)

def headerCounts (headers : List HeaderField) : Nat × Nat :=
  (headers.length, (headers.map (fun h => h.name.length + 2 + h.value.length + 2)).sum)

def tokenByte (b : UInt8) : Bool :=
  isDigit b || isLetter b || (lit "!#$%&'*+-.^_`|~").contains b

def validResponseHeaderName (name : Bytes) : Bool :=
  name != [] && name.length ≤ Limits.headerNameBytes && name.all tokenByte

def fieldByte (b : UInt8) : Bool := b == 0x09 || (0x20 ≤ b && b != 0x7F)

def validResponseHeaderValue (value : Bytes) : Bool :=
  value.length ≤ Limits.headerValueBytes && validUTF8 value && value.all fieldByte

def responseHeadersExceedLimit (headers : List HeaderField) (fields size : Nat) : Bool :=
  fields > Limits.headerFields || size > Limits.headerBytes ||
    headers.any (fun h => h.name.length > Limits.headerNameBytes ||
      h.value.length > Limits.headerValueBytes)

def validateResponseHeaders (headers : List HeaderField) : Bool :=
  !responseHeadersExceedLimit headers (headerCounts headers).1 (headerCounts headers).2 &&
    headers.all (fun h => validResponseHeaderName h.name && validResponseHeaderValue h.value)

inductive Encoding where
  | identity | gzip
  deriving DecidableEq

def encodingOf (value : Bytes) : Option Encoding :=
  if lowersTo value (lit "identity") then some .identity
  else if lowersTo value (lit "gzip") then some .gzip
  else none

/-- `none` when the header list names no single supported encoding. -/
def responseContentEncoding (headers : List HeaderField) : Option Encoding :=
  match headerValues headers (lit "content-encoding") with
  | [] => some .identity
  | [value] => encodingOf value
  | _ => none

def int64Div (a b : Int) : Int := int64 (a.tdiv b)

def responseExceedsLimits (r : AttemptResponse) : Bool :=
  if r.bytes.length > maxPayloadBytes || r.compressedBytes > maxPayloadBytes ||
      r.decompressedBytes > maxPayloadBytes then true
  else if r.compressedBytes = 0 then r.decompressedBytes > 0
  else
    int64Div r.decompressedBytes r.compressedBytes > Limits.expansionRatio ||
      (int64Div r.decompressedBytes r.compressedBytes = Limits.expansionRatio &&
        r.decompressedBytes.tmod r.compressedBytes > 0)

def AttemptResponse.markResponseHeaderViolation (r : AttemptResponse) (fields size : Nat) :
    AttemptResponse :=
  if responseHeadersExceedLimit r.fields fields size then
    { r with limitViolation := true, retryForbidden := true, headerLimitViolation := true,
             body := some [] }
  else { r with protocolViolation := true, body := some [] }

def snapshotHeaders (r : AttemptResponse) : AttemptResponse :=
  match r.headers with
  | some headers =>
    if validateResponseHeaders headers then r
    else r.markResponseHeaderViolation (headerCounts headers).1 (headerCounts headers).2
  | none => r

def snapshotAttemptResponse (response : AttemptResponse) : AttemptResponse :=
  let snapshot := snapshotHeaders response
  if !snapshot.normalized && !snapshot.protocolViolation && !snapshot.limitViolation &&
      responseExceedsLimits snapshot then
    if responseContentEncoding snapshot.fields = some .gzip then
      { snapshot with protocolViolation := true }
    else { snapshot with limitViolation := true }
  else snapshot

def statusConflict : Int := 409
def statusProxyAuthRequired : Int := 407
def statusTooManyRequests : Int := 429

def responseStatusRetryable (status : Int) : Bool :=
  (status ≥ 200 && status < 300) || status = statusConflict || status = statusTooManyRequests ||
    (status ≥ 500 && status ≤ 599)

def retryAfterValue (headers : List HeaderField) : Option Bytes :=
  match headerValues headers (lit "retry-after") with
  | [] => none
  | value :: rest => if value = [] then none else if rest.all (· == value) then some value else none

/-- A Retry-After value that is a number of seconds, or one that needs the wall clock. -/
inductive RetryAfter where
  | delay (nanos : Int)
  | invalid
  | needsWall
  deriving DecidableEq

def parseRetryAfterDelta (value : Bytes) : RetryAfter :=
  if value ≠ [] ∧ value.all isDigit then
    match parseUint 10 63 value with
    | some seconds =>
      if seconds = 0 ∨ seconds > 9223372036 then .invalid else .delay (seconds * 1000000000)
    | none => .invalid
  else .needsWall

/-- `Time.Sub`, which saturates. -/
def durationBetween (later earlier : Int) : Int :=
  max (-(2 ^ 63)) (min (2 ^ 63 - 1) (later - earlier))

/-- The zero `time.Time` is 1 January of year 1. -/
def Time.nanos (t : Time) : Int := t.getD (-62135596800 * 1000000000)

def parseRetryAfterDate (value : Bytes) (wallNow : Time) : Option Int :=
  match HttpDate.parse value with
  | some seconds =>
    if seconds * 1000000000 > wallNow.nanos then
      some (durationBetween (seconds * 1000000000) wallNow.nanos)
    else none
  | none => none

def responseNeedsWallSnapshot (headers : List HeaderField) : Bool :=
  match retryAfterValue headers with
  | some value => parseRetryAfterDelta value = .needsWall && (HttpDate.parse value).isSome
  | none => false

def responseNeedsWallSnapshotForStatus (status : Int) (headers : List HeaderField) : Bool :=
  responseStatusRetryable status && responseNeedsWallSnapshot headers

/-- What the wall clock gave when the headers arrived: `set`, `failed` and the instant. -/
structure HeaderSnapshot where
  receivedAt : Time := none
  set : Bool := false
  failed : Bool := false
  deriving DecidableEq

/-- `snapshotResponseWallTime`; the reading is `none` when the request has no wall clock or the
clock panics. -/
def snapshotResponseWallTime (wall : Option Time) (status : Int) (headers : List HeaderField) :
    HeaderSnapshot :=
  if responseNeedsWallSnapshotForStatus status headers then
    match wall with
    | some receivedAt => { receivedAt := receivedAt, set := true }
    | none => { failed := true }
  else {}

def validAttemptResponseShape (r : AttemptResponse) : Bool :=
  let hasHeaderTime := r.headersReceivedAt.isSome
  let needsHeaderTime := responseNeedsWallSnapshotForStatus r.status r.fields
  !(r.status < 100 || r.status > 599 || r.headers.isNone || r.body.isNone ||
      r.compressedBytes < 0 || r.decompressedBytes < 0 ||
      (r.attemptFailureCode ≠ none && r.attemptFailureCode ≠ some .attemptTimeout)) &&
    !(r.headersReceivedAtSet != hasHeaderTime ||
      (r.headerClockFailed && (r.headersReceivedAtSet || hasHeaderTime)) ||
      ((r.headersReceivedAtSet || r.headerClockFailed) && !needsHeaderTime) ||
      (needsHeaderTime && !r.headersReceivedAtSet && !r.headerClockFailed))

def validAttemptFailure (f : AttemptFailure) : Bool :=
  match f.code with
  | .configuration => f.causeCategory = some .proxyCredentialProvider
  | .dns | .connect | .proxy | .tls | .io | .attemptTimeout | .cancelled => true
  | _ => false

def preCommitFailure : ErrorCode → Bool
  | .dns | .connect | .proxy | .tls => true
  | _ => false

def responseMayHaveBeenAccepted (status : Int) : Bool :=
  (status ≥ 200 && status < 300) || status = statusConflict || status ≥ 500

end Repost
