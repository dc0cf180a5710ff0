import Repost.Response
import Repost.StrictJson

namespace Repost
open GoText
set_option autoImplicit true

structure SendResult where
  id : Bytes
  type : Bytes
  customerID : Bytes
  timestamp : Bytes
  deriving DecidableEq

/-- `^msg_[A-Za-z0-9_-]{1,124}$`. -/
def messageIDPattern (id : Bytes) : Bool :=
  let tail := id.drop 4
  id.take 4 = lit "msg_" && 1 ≤ tail.length && tail.length ≤ 124 &&
    tail.all (fun b => isDigit b || isLetter b || b == 0x5F || b == 0x2D)

def unwrapQuotes (s : Bytes) : Bytes :=
  if s.length ≥ 2 && s.head? = some 0x22 && s.getLast? = some 0x22 then s.tail.dropLast else s

def refusedByte (b : UInt8) : Bool := b != 0x09 && (b < 0x20 || b > 0x7E)

/-- Whether the first byte of a rune is refused; that of a longer rune is above 0x7E. -/
def refusedRune : Rune → Bool
  | .ascii b => refusedByte b
  | .wide _ | .invalid => true

def validJSONContentType (headers : List HeaderField) : Bool :=
  match headerValues headers (lit "content-type") with
  | [value] =>
    if (runes value).any refusedRune then false
    else
      match cut 0x3B (trimOWS value) with
      | (mediaType, parameter) =>
        if !equalFold (trimOWS mediaType) (lit "application/json") then false
        else
          match parameter with
          | none => true
          | some parameter =>
            if parameter.contains 0x3B then false
            else
              match cut 0x3D parameter with
              | (name, some charset) =>
                equalFold (trimOWS name) (lit "charset") &&
                  equalFold (unwrapQuotes (trimOWS charset)) (lit "utf-8")
              | (_, none) => false
  | _ => false

/-- A member of a decoded object that is present and a string. -/
def stringField (members : List (Bytes × StrictJson.Json)) (name : Bytes) : Option Bytes :=
  match StrictJson.lookup name members with
  | some (.string text) => some text
  | _ => none

def decodeSendResult (body : Bytes) : Except StrictJson.Failure SendResult :=
  match StrictJson.parse body with
  | .error e => .error e
  | .ok (.object members) =>
    match stringField members (lit "id"), stringField members (lit "type"),
        stringField members (lit "customerId"), stringField members (lit "timestamp") with
    | some id, some type, some customerID, some timestamp =>
      .ok { id := id, type := type, customerID := customerID, timestamp := timestamp }
    | _, _, _, _ => .error .protocol
  | .ok _ => .error .protocol

/-- The evidence of a response that is reported with its error. -/
def responseEvidence (r : AttemptResponse) : Evidence :=
  { httpStatus := r.status, compressedBytes := r.compressedBytes,
    decompressedBytes := r.decompressedBytes, truncated := r.truncated }

def statusVerdict (status : Int) : ErrorCode × DeliveryState × Option FailureReason :=
  if status ≥ 300 ∧ status < 400 then (.httpRejected, .rejected, none)
  else if status = statusProxyAuthRequired then (.proxy, .notSent, some .proxyAuthRequired)
  else if status = statusTooManyRequests then (.rateLimited, .rejected, none)
  else if status = statusConflict then (.httpRejected, .possiblySent, none)
  else if status ≥ 500 then (.serverFailure, .possiblySent, none)
  else (.httpRejected, .rejected, none)

def validateAttemptResponse (r : AttemptResponse) (sentType customerID timestamp : Bytes) :
    Except Error SendResult :=
  let base := responseEvidence r
  match r.attemptFailureCode with
  | some code =>
    .error { toEvidence := base, code := code, deliveryState := .possiblySent, retryable := true,
             failureReason := r.attemptFailureReason }
  | none =>
    let base := if r.headerLimitViolation then
        { base with responseHeaderFields := (headerCounts r.fields).1,
                    responseHeaderBytes := (headerCounts r.fields).2 }
      else base
    if r.status < 200 || r.status ≥ 300 then
      match statusVerdict r.status with
      | (code, state, reason) =>
        .error { toEvidence := base, code := code, deliveryState := state,
                 retryable := responseStatusRetryable r.status && !r.retryForbidden,
                 failureReason := reason }
    else
      let failure (code : ErrorCode) (retryable : Bool) : Except Error SendResult :=
        .error { toEvidence := base, code := code, deliveryState := .possiblySent,
                 retryable := retryable }
      if r.limitViolation || (!r.normalized && !r.protocolViolation && responseExceedsLimits r) then
        failure .responseTooLarge false
      else if r.protocolViolation then failure .responseProtocol false
      else if r.truncated && !r.incomplete then failure .responseTooLarge false
      else if !validJSONContentType r.fields || r.bytes = [] || !validUTF8 r.bytes then
        failure .responseProtocol (responseStatusRetryable r.status)
      else
        match decodeSendResult r.bytes with
        | .error .limit => failure .responseTooLarge false
        | .error .protocol => failure .responseProtocol (responseStatusRetryable r.status)
        | .ok result =>
          if !messageIDPattern result.id || result.type ≠ sentType ||
              result.customerID ≠ customerID || result.timestamp ≠ timestamp then
            failure .responseProtocol (responseStatusRetryable r.status)
          else .ok result

end Repost
