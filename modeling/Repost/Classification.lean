import Repost.Http1Wire
import Repost.RawTransport

namespace Repost
open GoText
set_option autoImplicit true

/-- The outcome of a response: an error's code, delivery state, retryability and status, or the
accepted result. -/
inductive Classified where
  | failed (code : ErrorCode) (state : DeliveryState) (retryable : Bool) (httpStatus : Int)
  | delivered (result : SendResult)
  deriving DecidableEq

/-- The event that was sent, as the response has to repeat it. -/
structure SentEvent where
  type : Bytes
  customerID : Bytes
  timestamp : Bytes
  deriving DecidableEq

def AttemptResponse.classified (event : SentEvent) (r : AttemptResponse) : Classified :=
  match validateAttemptResponse (snapshotAttemptResponse r) event.type event.customerID
      event.timestamp with
  | .error e => .failed e.code e.deliveryState e.retryable e.httpStatus
  | .ok result => .delivered result

def AttemptOutcome.classified (event : SentEvent) (o : AttemptOutcome) : Option Classified :=
  o.response.map (AttemptResponse.classified event)

def Objection.code : Objection → ErrorCode
  | .malformed => .responseProtocol
  | .tooLarge => .responseTooLarge

def byStatus (status : Int) (retryable : Bool) : Classified :=
  .failed (statusVerdict status).1 (statusVerdict status).2.1 retryable status

def refused (status : Int) (o : Objection) : Classified :=
  if outside2xx status then byStatus status false else .failed o.code .possiblySent false status

def readBack (event : SentEvent) (status : Int) (headers : List HeaderField) (body : Bytes) :
    Classified :=
  if !validJSONContentType headers || body = [] || !validUTF8 body then
    .failed .responseProtocol .possiblySent (responseStatusRetryable status) status
  else
    match decodeSendResult body with
    | .error .limit => .failed .responseTooLarge .possiblySent false status
    | .error .protocol =>
      .failed .responseProtocol .possiblySent (responseStatusRetryable status) status
    | .ok result =>
      if !messageIDPattern result.id || result.type ≠ event.type ||
          result.customerID ≠ event.customerID || result.timestamp ≠ event.timestamp then
        .failed .responseProtocol .possiblySent (responseStatusRetryable status) status
      else .delivered result

def served (event : SentEvent) (status : Int) (headers : List HeaderField) (body : Bytes) :
    Classified :=
  if outside2xx status then byStatus status (responseStatusRetryable status)
  else readBack event status headers body

def exceedsHeaderLimit (headers : List HeaderField) : Bool :=
  responseHeadersExceedLimit headers (headerCounts headers).1 (headerCounts headers).2

structure AttemptResponse.Snapshot (r s : AttemptResponse) : Prop where
  status : s.status = r.status
  headers : s.headers = r.headers
  failureCode : s.attemptFailureCode = r.attemptFailureCode
  limit : r.limitViolation = true → s.limitViolation = true
  protocol : r.protocolViolation = true → s.protocolViolation = true
  forbidden : s.retryForbidden = (r.retryForbidden || exceedsHeaderLimit r.fields)
  unlimited : r.protocolViolation = true → r.limitViolation = false →
    exceedsHeaderLimit r.fields = false → s.limitViolation = false

theorem exceedsHeaderLimit_of_valid (h : validateResponseHeaders headers = true) :
    exceedsHeaderLimit headers = false := by
  unfold validateResponseHeaders at h
  rw [Bool.and_eq_true, Bool.not_eq_true'] at h
  exact h.1

theorem snapshotHeaders_spec (r : AttemptResponse) : r.Snapshot (snapshotHeaders r) := by
  unfold snapshotHeaders
  split
  · rename_i headers hh
    have hf : r.fields = headers := by rw [AttemptResponse.fields, hh]; rfl
    split
    · rename_i hv
      refine ⟨rfl, rfl, rfl, id, id, ?_, fun _ hl _ => hl⟩
      rw [hf, exceedsHeaderLimit_of_valid hv, Bool.or_false]
    · unfold AttemptResponse.markResponseHeaderViolation
      split
      · rename_i he
        rw [hf] at he
        have he : exceedsHeaderLimit r.fields = true := by rw [hf]; exact he
        refine ⟨rfl, rfl, rfl, fun _ => rfl, id, ?_, fun _ _ hn => ?_⟩
        · rw [he, Bool.or_true]
        · rw [he] at hn
          cases hn
      · rename_i he
        refine ⟨rfl, rfl, rfl, id, fun _ => rfl, ?_, fun _ hl _ => hl⟩
        rw [hf] at he ⊢
        rw [exceedsHeaderLimit, Bool.eq_false_iff.2 he, Bool.or_false]
  · rename_i hh
    have hf : r.fields = [] := by rw [AttemptResponse.fields, hh]; rfl
    refine ⟨rfl, rfl, rfl, id, id, ?_, fun _ hl _ => hl⟩
    rw [hf]
    exact (Bool.or_false _).symm

theorem snapshotAttemptResponse_spec (r : AttemptResponse) :
    r.Snapshot (snapshotAttemptResponse r) := by
  have hs := snapshotHeaders_spec r
  unfold snapshotAttemptResponse
  dsimp only
  split
  · rename_i hc
    simp only [Bool.and_eq_true, Bool.not_eq_true'] at hc
    have hp := hc.1.1.2
    have hnot : ∀ {P : Prop}, r.protocolViolation = true → P := by
      intro P hr
      rw [hs.protocol hr] at hp
      cases hp
    split
    · exact ⟨hs.status, hs.headers, hs.failureCode, hs.limit, fun _ => rfl, hs.forbidden,
        fun hr => hnot hr⟩
    · exact ⟨hs.status, hs.headers, hs.failureCode, fun _ => rfl, hs.protocol, hs.forbidden,
        fun hr => hnot hr⟩
  · exact hs

namespace AttemptResponse
variable {r : AttemptResponse} (event : SentEvent)

theorem classified_outside (hf : r.attemptFailureCode = none)
    (ho : outside2xx r.status = true) :
    r.classified event = byStatus r.status (responseStatusRetryable r.status &&
      !(r.retryForbidden || exceedsHeaderLimit r.fields)) := by
  have hs := snapshotAttemptResponse_spec r
  have ho' : (r.status < 200 || r.status ≥ 300) = true := ho
  unfold classified validateAttemptResponse
  rw [hs.failureCode, hf]
  simp only [hs.status, ho', if_true, hs.forbidden]
  split <;> simp [byStatus, responseEvidence, hs.status]

theorem classified_limit (hf : r.attemptFailureCode = none)
    (ho : outside2xx r.status = false) (hl : r.limitViolation = true) :
    r.classified event = .failed .responseTooLarge .possiblySent false r.status := by
  have hs := snapshotAttemptResponse_spec r
  have ho' : (r.status < 200 || r.status ≥ 300) = false := ho
  unfold classified validateAttemptResponse
  rw [hs.failureCode, hf]
  simp only [hs.status, ho', hs.limit hl, Bool.true_or, if_true, Bool.false_eq_true, if_false]
  split <;> simp [responseEvidence, hs.status]

theorem classified_protocol (hf : r.attemptFailureCode = none)
    (ho : outside2xx r.status = false) (hp : r.protocolViolation = true)
    (hl : r.limitViolation = false) (he : exceedsHeaderLimit r.fields = false) :
    r.classified event = .failed .responseProtocol .possiblySent false r.status := by
  have hs := snapshotAttemptResponse_spec r
  have ho' : (r.status < 200 || r.status ≥ 300) = false := ho
  unfold classified validateAttemptResponse
  rw [hs.failureCode, hf]
  simp only [hs.status, ho', hs.unlimited hp hl he, hs.protocol hp, Bool.not_true, Bool.and_false,
    Bool.false_and, Bool.or_false, if_true, Bool.false_eq_true, if_false]
  split <;> simp [responseEvidence, hs.status]

theorem classified_refused (o : Objection) (hf : r.attemptFailureCode = none)
    (hr : outside2xx r.status = true → r.retryForbidden = true)
    (hl : o = .tooLarge → r.limitViolation = true)
    (hp : o = .malformed → r.protocolViolation = true ∧ r.limitViolation = false ∧
      exceedsHeaderLimit r.fields = false) :
    r.classified event = refused r.status o := by
  unfold refused
  cases ho : outside2xx r.status with
  | true =>
    rw [classified_outside event hf ho, hr ho]
    simp
  | false =>
    cases o with
    | tooLarge =>
      rw [classified_limit event hf ho (hl rfl)]
      rfl
    | malformed =>
      obtain ⟨hp, hl, he⟩ := hp rfl
      rw [classified_protocol event hf ho hp hl he]
      rfl

theorem snapshot_of_valid (hh : r.headers = some list)
    (hv : validateResponseHeaders list = true) (hx : responseExceedsLimits r = false) :
    snapshotAttemptResponse r = r := by
  have hs : snapshotHeaders r = r := by
    unfold snapshotHeaders
    rw [hh]
    exact if_pos hv
  unfold snapshotAttemptResponse
  simp only [hs, hx, Bool.and_false, Bool.false_eq_true, if_false]

structure Clean (r : AttemptResponse) (list : List HeaderField) : Prop where
  headers : r.headers = some list
  valid : validateResponseHeaders list = true
  within : responseExceedsLimits r = false
  limit : r.limitViolation = false
  protocol : r.protocolViolation = false
  allowed : r.retryForbidden = false
  headerLimit : r.headerLimitViolation = false
  failureCode : r.attemptFailureCode = none
  truncated : outside2xx r.status = false → r.truncated = false

theorem Clean.classified (h : r.Clean list) (event : SentEvent) :
    r.classified event = served event r.status list r.bytes := by
  have hfields : r.fields = list := by
    rw [fields, h.headers]
    rfl
  unfold served
  cases ho : outside2xx r.status with
  | true =>
    rw [classified_outside event h.failureCode ho, h.allowed, hfields,
      exceedsHeaderLimit_of_valid h.valid]
    simp
  | false =>
    have ho' : (r.status < 200 || r.status ≥ 300) = false := ho
    unfold AttemptResponse.classified validateAttemptResponse
    rw [snapshot_of_valid h.headers h.valid h.within, h.failureCode]
    simp only [ho', h.limit, h.protocol, h.within, h.truncated ho, hfields, h.headerLimit,
      Bool.and_false, Bool.or_false, Bool.false_and, Bool.false_eq_true, if_false]
    unfold readBack
    split_ifs
    · rfl
    · cases hd : decodeSendResult r.bytes with
      | error e => cases e <;> rfl
      | ok result =>
        dsimp only
        split_ifs <;> rfl

end AttemptResponse

end Repost
