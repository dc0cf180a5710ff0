import Repost.Validation

namespace Repost
open GoText
set_option autoImplicit true

/-- What reading a gzip stream through a limited reader gives: the bytes, whether reading and
closing went well, and how much input is left. -/
structure LimitedGunzip (limit : Nat) where
  decoded : Bytes
  ok : Bool
  unread : Nat
  decoded_le : decoded.length ≤ limit

/-- The standard library's gzip reader behind a limit; `none` when the header is bad. -/
abbrev GunzipLimited := (limit : Nat) → Bytes → Option (LimitedGunzip limit)

/-- `none` is an error. -/
def decodeAttemptResponseBody (gunzip : GunzipLimited) (encoding : Encoding) (wireBody : Bytes) :
    Option Bytes :=
  match encoding with
  | .identity => some wireBody
  | .gzip =>
    match gunzip (maxPayloadBytes + 2) wireBody with
    | none => none
    | some g => if !g.ok || g.unread ≠ 0 then none else some g.decoded

def AttemptResponse.forbidRetryOutside2xx (r : AttemptResponse) : AttemptResponse :=
  { r with retryForbidden := r.status < 200 || r.status ≥ 300 }

/-- The part of `normalizeAttemptResponse` after the headers are known to be valid. -/
def normalizeBody (gunzip : GunzipLimited) (response : AttemptResponse) (wireBody : Bytes)
    (compressedLimit : Nat) : AttemptResponse :=
  match responseContentEncoding response.fields with
  | none => { response with protocolViolation := true }
  | some encoding =>
    let response : AttemptResponse := { response with compressedBytes := wireBody.length }
    if wireBody.length > compressedLimit then
      (match encoding with
        | .identity =>
          { response with decompressedBytes := response.compressedBytes, limitViolation := true }
        | .gzip => { response with protocolViolation := true }).forbidRetryOutside2xx
    else
      match decodeAttemptResponseBody gunzip encoding wireBody with
      | none => { response with protocolViolation := true }.forbidRetryOutside2xx
      | some decoded =>
        let response : AttemptResponse := { response with decompressedBytes := decoded.length }
        if decoded.length > maxPayloadBytes ||
            (wireBody.length > 0 && decoded.length > wireBody.length * Limits.expansionRatio) then
          { response with protocolViolation := true }.forbidRetryOutside2xx
        else if response.status < 200 || response.status ≥ 300 then
          { response with truncated := decoded.length > Limits.errorBodyBytes }
        else { response with body := some decoded }

/-- `none` is an error; a nil header list or body is `none`. -/
def normalizeAttemptResponse (gunzip : GunzipLimited) (status : Int)
    (headers : Option (List HeaderField)) (wireBody : Option Bytes) (compressedLimit : Nat)
    (closer : Option Closer) : Option AttemptResponse :=
  match headers, wireBody with
  | some headers, some wireBody =>
    if status < 100 || status > 599 then none
    else
      let response : AttemptResponse :=
        { status := status, headers := some headers, body := some [], normalized := true,
          closer := closer }
      if !validateResponseHeaders headers then
        some (response.markResponseHeaderViolation (headerCounts headers).1 (headerCounts headers).2)
      else some (normalizeBody gunzip response wireBody compressedLimit)
  | _, _ => none

def newAttemptResponse (gunzip : GunzipLimited) (wall : Option Time) (status : Int)
    (headers : Option (List HeaderField)) (wireBody : Option Bytes) (closer : Option Closer) :
    Option AttemptResponse :=
  match normalizeAttemptResponse gunzip status headers wireBody maxPayloadBytes closer with
  | none => none
  | some response =>
    let snapshot := snapshotResponseWallTime wall status response.fields
    some { response with
      headersReceivedAt := snapshot.receivedAt
      headersReceivedAtSet := snapshot.set
      headerClockFailed := snapshot.failed }

theorem markResponseHeaderViolation_flagged (r : AttemptResponse) (fields size : Nat) :
    (r.markResponseHeaderViolation fields size).limitViolation = true ∨
      (r.markResponseHeaderViolation fields size).protocolViolation = true := by
  unfold AttemptResponse.markResponseHeaderViolation
  split
  · exact .inl rfl
  · exact .inr rfl

end Repost
