import Repost.Http1Lane

namespace Repost
open GoText
set_option autoImplicit true

def bodyObjection (decoder : GzipDecoder) (encoding : Encoding) (body : Bytes) : Option Objection :=
  if body.length > Limits.bodyBytes then
    some (if encoding = .gzip then .malformed else .tooLarge)
  else if (decoder.decode encoding body).isNone then some .malformed
  else none

def tolerated (status : Int) : Classified :=
  if outside2xx status then byStatus status (responseStatusRetryable status)
  else .failed .responseProtocol .possiblySent false status

def WireResponse.factory (decoder : GzipDecoder) (event : SentEvent) (r : WireResponse) :
    Classified :=
  if exceedsHeaderLimit r.headers then refused r.status .tooLarge
  else if !validateResponseHeaders r.headers then tolerated r.status
  else
    match responseContentEncoding r.headers with
    | none => tolerated r.status
    | some encoding =>
      match bodyObjection decoder encoding r.body with
      | some o => refused r.status o
      | none => served event r.status r.headers (r.content decoder)

section
variable {body : Bytes}

theorem decodeAttemptResponseBody_some (hg : GzipDecoder.Reads decoder gzip gunzip)
    (hd : decoder.decode encoding body = some content) :
    decodeAttemptResponseBody gunzip encoding body = some content := by
  cases encoding with
  | identity => exact hd
  | gzip =>
    obtain ⟨stream, hs, hfits⟩ := Option.bind_eq_some_iff.1 hd
    split_ifs at hfits with hfit
    cases hfits
    have hread := hg.limited (maxPayloadBytes + 2) body
    rw [hs] at hread
    unfold decodeAttemptResponseBody
    dsimp only
    cases hgun : gunzip (maxPayloadBytes + 2) body with
    | none =>
      rw [hgun] at hread
      cases hread
    | some g =>
      rw [hgun] at hread
      cases hread with
      | some hupto =>
        obtain ⟨hsound, hunread, -, hmax⟩ := hfit
        have hlt : stream.content.length < maxPayloadBytes + 2 := by
          unfold maxPayloadBytes
          omega
        dsimp only
        rw [hupto.ok hlt, hupto.unread hlt, hsound, hunread, hupto.decoded,
          List.take_of_length_le (Nat.le_of_lt hlt)]
        rfl

/-- A body that does not decode is found out while reading, or by what was read. -/
theorem decodeAttemptResponseBody_none (hg : GzipDecoder.Reads decoder gzip gunzip)
    (hd : decoder.decode encoding body = none)
    (hbody : decodeAttemptResponseBody gunzip encoding body = some content) :
    (content.length > maxPayloadBytes ||
      (body.length > 0 && content.length > body.length * Limits.expansionRatio)) = true := by
  cases encoding with
  | identity => cases hd
  | gzip =>
    have hread := hg.limited (maxPayloadBytes + 2) body
    unfold decodeAttemptResponseBody at hbody
    dsimp only at hbody
    cases hgun : gunzip (maxPayloadBytes + 2) body with
    | none =>
      rw [hgun] at hbody
      cases hbody
    | some g =>
      rw [hgun] at hbody hread
      dsimp only at hbody
      split_ifs at hbody with hok
      cases hbody
      simp only [Bool.or_eq_true, Bool.not_eq_true', decide_eq_true_eq, not_or, Bool.not_eq_false,
        not_not] at hok
      cases hs : decoder body with
      | none =>
        rw [hs] at hread
        cases hread
      | some stream =>
        rw [hs] at hread
        cases hread with
        | some hupto =>
          have hpos : 0 < body.length := by
            cases body with
            | nil =>
              rw [hg.empty] at hs
              cases hs
            | cons _ _ => exact Nat.zero_lt_succ _
          have hnot : ¬stream.Fits body := by
            intro hfit
            have : decoder.decode .gzip body = some stream.content := by
              rw [GzipDecoder.decode, GzipDecoder.unpack, hs, Option.bind_some, if_pos hfit]
            rw [hd] at this
            cases this
          simp only [Bool.or_eq_true, Bool.and_eq_true, decide_eq_true_eq]
          rw [hupto.decoded, List.length_take]
          by_cases hlt : stream.content.length < maxPayloadBytes + 2
          · have hsound := (hupto.ok hlt).symm.trans hok.1
            have hunread := (hupto.unread hlt).symm.trans hok.2
            have hsize : ¬(stream.content.length ≤ body.length * Limits.expansionRatio ∧
                stream.content.length ≤ Limits.bodyBytes) := by
              intro h
              exact hnot ⟨hsound, hunread, h.1, h.2⟩
            unfold maxPayloadBytes at hlt ⊢
            omega
          · left
            omega

end

section
variable {response : AttemptResponse} {body : Bytes}

theorem normalizeBody_objection (hg : GzipDecoder.Reads decoder gzip gunzip)
    (he : responseContentEncoding response.fields = some encoding)
    (ho : bodyObjection decoder encoding body = some o) :
    ∃ length : Int, normalizeBody gunzip response body maxPayloadBytes =
      { response with
        compressedBytes := body.length
        decompressedBytes := length
        limitViolation := response.limitViolation || o == .tooLarge
        protocolViolation := response.protocolViolation || o == .malformed
        retryForbidden := outside2xx response.status } := by
  unfold normalizeBody
  rw [he]
  dsimp only
  unfold bodyObjection at ho
  by_cases hlong : body.length > Limits.bodyBytes
  · rw [if_pos hlong] at ho
    rw [if_pos (show body.length > maxPayloadBytes from hlong)]
    cases ho
    cases encoding with
    | identity =>
      exact ⟨body.length, by simp [AttemptResponse.forbidRetryOutside2xx, outside2xx]⟩
    | gzip =>
      exact ⟨response.decompressedBytes, by simp [AttemptResponse.forbidRetryOutside2xx, outside2xx]⟩
  · rw [if_neg hlong] at ho
    rw [if_neg (show ¬body.length > maxPayloadBytes from hlong)]
    split_ifs at ho with hd
    cases ho
    rw [Option.isNone_iff_eq_none] at hd
    cases hb : decodeAttemptResponseBody gunzip encoding body with
    | none =>
      exact ⟨response.decompressedBytes, by simp [AttemptResponse.forbidRetryOutside2xx, outside2xx]⟩
    | some decoded =>
      dsimp only
      rw [if_pos (decodeAttemptResponseBody_none hg hd hb)]
      exact ⟨decoded.length, by simp [AttemptResponse.forbidRetryOutside2xx, outside2xx]⟩

theorem normalizeBody_taken (hg : GzipDecoder.Reads decoder gzip gunzip)
    (he : responseContentEncoding response.fields = some encoding)
    (hl : body.length ≤ Limits.bodyBytes) (hd : decoder.decode encoding body = some content) :
    normalizeBody gunzip response body maxPayloadBytes =
      if outside2xx response.status then
        { response with
          compressedBytes := body.length
          decompressedBytes := content.length
          truncated := content.length > Limits.errorBodyBytes }
      else
        { response with
          compressedBytes := body.length
          decompressedBytes := content.length
          body := some content } := by
  obtain ⟨hmax, hratio⟩ := GzipDecoder.decode_bounds hd hl
  have hwithin : ¬(content.length > maxPayloadBytes ||
      (body.length > 0 && content.length > body.length * Limits.expansionRatio)) = true := by
    simp only [Bool.or_eq_true, Bool.and_eq_true, decide_eq_true_eq, not_or, not_and, not_lt,
      gt_iff_lt]
    exact ⟨hmax, fun _ => hratio⟩
  unfold normalizeBody
  rw [he]
  dsimp only
  rw [if_neg (show ¬body.length > maxPayloadBytes from Nat.not_lt.2 hl),
    decodeAttemptResponseBody_some hg hd]
  dsimp only
  rw [if_neg hwithin]
  rfl

end

section
variable {r : WireResponse} {snapshot : HeaderSnapshot}

def AttemptResponse.stamped (response : AttemptResponse) (snapshot : HeaderSnapshot) :
    AttemptResponse :=
  { response with
    headersReceivedAt := snapshot.receivedAt
    headersReceivedAtSet := snapshot.set
    headerClockFailed := snapshot.failed }

def WireResponse.empty (r : WireResponse) (closer : Option Closer) : AttemptResponse :=
  { status := r.status, headers := some r.headers, body := some [], normalized := true,
    closer := closer }

theorem newAttemptResponse_eq (gunzip : GunzipLimited) (wall : Option Time) (hr : r.Sized)
    (closer : Option Closer) :
    ∃ snapshot, newAttemptResponse gunzip wall r.status (some r.headers) (some r.body) closer =
      some ((if !validateResponseHeaders r.headers then
        (r.empty closer).markResponseHeaderViolation (headerCounts r.headers).1
          (headerCounts r.headers).2
      else normalizeBody gunzip (r.empty closer) r.body maxPayloadBytes).stamped snapshot) := by
  have hlo := hr.status_ge
  have hhi := hr.status_le
  have hst : ¬((r.status : Int) < 100 || (r.status : Int) > 599) = true := by
    simp only [Bool.or_eq_true, decide_eq_true_eq]
    omega
  unfold newAttemptResponse normalizeAttemptResponse
  dsimp only
  rw [if_neg hst]
  split_ifs <;> exact ⟨_, rfl⟩

theorem tolerated_classified {response : AttemptResponse} (event : SentEvent)
    (hf : response.attemptFailureCode = none) (hp : response.protocolViolation = true)
    (hl : response.limitViolation = false) (ha : response.retryForbidden = false)
    (he : exceedsHeaderLimit response.fields = false) :
    response.classified event = tolerated response.status := by
  unfold tolerated
  cases ho : outside2xx response.status with
  | true =>
    rw [AttemptResponse.classified_outside event hf ho, ha, he]
    simp
  | false => exact AttemptResponse.classified_protocol event hf ho hp hl he

theorem bodyObjection_none (ho : bodyObjection decoder encoding body = none) :
    body.length ≤ Limits.bodyBytes ∧ ∃ content, decoder.decode encoding body = some content := by
  unfold bodyObjection at ho
  split_ifs at ho with hlong hd
  rw [Option.isNone_iff_eq_none] at hd
  exact ⟨Nat.not_lt.1 hlong, Option.ne_none_iff_exists'.1 hd⟩

theorem taken_classified (event : SentEvent) (closer : Option Closer) (snapshot : HeaderSnapshot)
    (hv : validateResponseHeaders r.headers = true) (hl : r.body.length ≤ Limits.bodyBytes)
    (hd : GzipDecoder.decode decoder encoding r.body = some content) :
    ((if outside2xx (r.empty closer).status then
        { r.empty closer with
          compressedBytes := r.body.length
          decompressedBytes := content.length
          truncated := content.length > Limits.errorBodyBytes }
      else
        { r.empty closer with
          compressedBytes := r.body.length
          decompressedBytes := content.length
          body := some content }).stamped snapshot).classified event =
      served event r.status r.headers content := by
  obtain ⟨hmax, hratio⟩ := GzipDecoder.decode_bounds hd hl
  cases ho : outside2xx r.status with
  | true =>
    rw [if_pos (show outside2xx (r.empty closer).status = true from ho)]
    refine (AttemptResponse.Clean.classified ⟨rfl, hv, responseExceedsLimits_within
      (Nat.zero_le _) rfl rfl hl hmax hratio, rfl, rfl, rfl, rfl, rfl, ?_⟩ event).trans ?_
    · intro hin
      have hin' : outside2xx r.status = false := hin
      rw [ho] at hin'
      cases hin'
    · show served event r.status r.headers [] = _
      unfold served
      rw [ho]
      rfl
  | false =>
    rw [if_neg (show ¬outside2xx (r.empty closer).status = true from Bool.eq_false_iff.1 ho)]
    refine (AttemptResponse.Clean.classified ⟨rfl, hv, ?_, rfl, rfl, rfl, rfl, rfl,
      fun _ => rfl⟩ event).trans rfl
    exact responseExceedsLimits_within hmax rfl rfl hl hmax hratio

/-- What the caller is told about a response that `NewAttemptResponse` built. -/
theorem newAttemptResponse_classified (event : SentEvent) (wall : Option Time)
    (closer : Option Closer) (hg : GzipDecoder.Reads decoder gzip gunzip) (hr : r.Sized) :
    (newAttemptResponse gunzip wall r.status (some r.headers) (some r.body) closer).map
        (AttemptResponse.classified event) = some (r.factory decoder event) := by
  obtain ⟨snapshot, hnew⟩ := newAttemptResponse_eq gunzip wall hr closer
  rw [hnew, Option.map_some, Option.some.injEq]
  unfold WireResponse.factory
  cases hx : exceedsHeaderLimit r.headers with
  | true =>
    have hv : validateResponseHeaders r.headers = false := by
      rw [← Bool.not_eq_true]
      intro hv
      rw [exceedsHeaderLimit_of_valid hv] at hx
      cases hx
    have hx' : responseHeadersExceedLimit (r.empty closer).fields (headerCounts r.headers).1
      (headerCounts r.headers).2 = true := hx
    rw [hv, if_pos Bool.not_false, if_pos rfl, AttemptResponse.markResponseHeaderViolation,
      if_pos hx']
    exact AttemptResponse.classified_refused event .tooLarge rfl (fun _ => rfl) (fun _ => rfl) nofun
  | false =>
    rw [if_neg Bool.false_ne_true]
    cases hv : validateResponseHeaders r.headers with
    | false =>
      have hx' : ¬responseHeadersExceedLimit (r.empty closer).fields (headerCounts r.headers).1
          (headerCounts r.headers).2 = true := Bool.eq_false_iff.1 hx
      rw [if_pos Bool.not_false, if_pos Bool.not_false,
        AttemptResponse.markResponseHeaderViolation, if_neg hx']
      exact tolerated_classified event rfl rfl rfl rfl hx
    | true =>
      rw [if_neg (by decide), if_neg (by decide)]
      cases he : responseContentEncoding r.headers with
      | none =>
        have hbody : normalizeBody gunzip (r.empty closer) r.body maxPayloadBytes =
            { r.empty closer with protocolViolation := true } := by
          unfold normalizeBody
          rw [show responseContentEncoding (r.empty closer).fields = none from he]
        rw [hbody]
        exact tolerated_classified event rfl rfl rfl rfl hx
      | some encoding =>
        dsimp only
        cases ho : bodyObjection decoder encoding r.body with
        | some o =>
          obtain ⟨length, hbody⟩ := normalizeBody_objection
            (show GzipDecoder.Reads decoder gzip gunzip from hg)
            (show responseContentEncoding (r.empty closer).fields = some encoding from he) ho
          rw [hbody]
          refine AttemptResponse.classified_refused event o rfl ?_ ?_ ?_
          · intro ho
            simpa only [AttemptResponse.stamped, WireResponse.empty] using ho
          · rintro rfl
            rfl
          · rintro rfl
            exact ⟨rfl, rfl, hx⟩
        | none =>
          obtain ⟨hl, content, hd⟩ := bodyObjection_none ho
          have hcontent : r.content decoder = content := by
            rw [WireResponse.content, he, Option.bind_some, hd, Option.getD_some]
          rw [hcontent, normalizeBody_taken hg
            (show responseContentEncoding (r.empty closer).fields = some encoding from he) hl hd]
          exact taken_classified event closer snapshot hv hl hd

theorem WireResponse.h1Objection_body (hv : validateResponseHeaders r.headers = true)
    (hr : r.Sized) (ht : r.transferCoded = false)
    (he : responseContentEncoding r.headers = some encoding) :
    r.h1Objection decoder = bodyObjection decoder encoding r.body := by
  unfold WireResponse.h1Objection bodyObjection
  rw [(scanFields_none_iff hr.fields).2 hv, ht, he]
  rfl

/-- When the factory and the HTTP/1.1 lane agree. Outside 2xx they differ in whether a malformed
response may be retried, inside 2xx in whether a list of fields that is both malformed and over a
limit is told to be malformed or too large. -/
structure WireResponse.FactoryAgrees (r : WireResponse) : Prop where
  outside : outside2xx r.status = true → responseStatusRetryable r.status = true →
    exceedsHeaderLimit r.headers = true ∨
      (validateResponseHeaders r.headers = true ∧ responseContentEncoding r.headers ≠ none)
  inside : outside2xx r.status = false → exceedsHeaderLimit r.headers = true →
    (scanFields Limits.headerFields 0 r.headers).2 = some .tooLarge

theorem refused_eq_tolerated_iff :
    refused status .malformed = tolerated status ↔
      (outside2xx status = true → responseStatusRetryable status = false) := by
  unfold refused tolerated
  cases outside2xx status with
  | true =>
    simp only [if_true, forall_const, byStatus, Classified.failed.injEq, true_and, and_true]
    exact eq_comm
  | false => simp [Objection.code]

theorem refused_eq_tooLarge_iff :
    refused status o = refused status .tooLarge ↔ (outside2xx status = true ∨ o = .tooLarge) := by
  unfold refused
  cases outside2xx status with
  | true => simp
  | false => cases o <;> simp [Objection.code]

theorem WireResponse.factoryAgrees_malformed (r : WireResponse)
    (hx : exceedsHeaderLimit r.headers = false)
    (he : validateResponseHeaders r.headers = true → responseContentEncoding r.headers = none) :
    r.FactoryAgrees ↔ (outside2xx r.status = true → responseStatusRetryable r.status = false) := by
  have hnot : ¬(validateResponseHeaders r.headers = true ∧
      responseContentEncoding r.headers ≠ none) := fun h => h.2 (he h.1)
  constructor
  · intro h ho
    rw [← Bool.not_eq_true]
    intro hretry
    rcases h.outside ho hretry with hx' | hbad
    · rw [hx] at hx'
      cases hx'
    · exact hnot hbad
  · intro h
    refine ⟨fun ho hretry => ?_, fun _ hx' => ?_⟩
    · rw [h ho] at hretry
      cases hretry
    · rw [hx] at hx'
      cases hx'

theorem WireResponse.factoryAgrees_encoded (r : WireResponse)
    (hv : validateResponseHeaders r.headers = true)
    (he : responseContentEncoding r.headers ≠ none) : r.FactoryAgrees := by
  refine ⟨fun _ _ => .inr ⟨hv, he⟩, fun _ hx => ?_⟩
  rw [exceedsHeaderLimit_of_valid hv] at hx
  cases hx

theorem WireResponse.factoryAgrees_limit (r : WireResponse)
    (hx : exceedsHeaderLimit r.headers = true)
    (ho : (scanFields Limits.headerFields 0 r.headers).2 = some o) :
    r.FactoryAgrees ↔ (outside2xx r.status = true ∨ o = .tooLarge) := by
  constructor
  · intro h
    cases hout : outside2xx r.status with
    | true => exact .inl rfl
    | false =>
      have htoo := h.inside hout hx
      rw [ho] at htoo
      exact .inr (Option.some.inj htoo)
  · intro h
    refine ⟨fun _ _ => .inl hx, fun hin _ => ?_⟩
    rcases h with hout | rfl
    · rw [hin] at hout
      cases hout
    · exact ho

theorem WireResponse.h1Objection_unencoded (hv : validateResponseHeaders r.headers = true)
    (hr : r.Sized) (ht : r.transferCoded = false)
    (he : responseContentEncoding r.headers = none) :
    r.h1Objection decoder = some .malformed := by
  unfold WireResponse.h1Objection
  rw [(scanFields_none_iff hr.fields).2 hv, ht, he]
  rfl

theorem scanFields_invalid (hr : r.Sized) (hv : validateResponseHeaders r.headers = false) :
    ∃ o, (scanFields Limits.headerFields 0 r.headers).2 = some o := by
  refine Option.ne_none_iff_exists'.1 fun hn => ?_
  rw [(scanFields_none_iff hr.fields).1 hn] at hv
  cases hv

/-- A response that a custom transport builds and one that the HTTP/1.1 lane reads are told alike
exactly when `FactoryAgrees`. -/
theorem factory_agrees_iff (event : SentEvent) (ending : H1.GoError) (wall wall' : Option Time)
    (ctx : ContextView) (closer : Option Closer) (hg : GzipDecoder.Reads decoder gzip gunzip)
    (hr : r.Sized) (ht : r.transferCoded = false) :
    (h1Lane gzip ending wall ctx r).classified event =
        (newAttemptResponse gunzip wall' r.status (some r.headers) (some r.body) closer).map
          (AttemptResponse.classified event) ↔
      r.FactoryAgrees := by
  rw [newAttemptResponse_classified event wall' closer hg hr,
    h1Lane_classified event ending wall ctx hr hg.pieces, Option.some.injEq]
  unfold WireResponse.factory
  cases hv : validateResponseHeaders r.headers with
  | true =>
    have hx := exceedsHeaderLimit_of_valid hv
    rw [hx, if_neg Bool.false_ne_true, if_neg (by decide)]
    cases he : responseContentEncoding r.headers with
    | none =>
      rw [WireResponse.h1Objection_unencoded hv hr ht he]
      exact refused_eq_tolerated_iff.trans (r.factoryAgrees_malformed hx fun _ => he).symm
    | some encoding =>
      rw [WireResponse.h1Objection_body hv hr ht he]
      have hagrees := r.factoryAgrees_encoded hv (by rw [he]; exact Option.some_ne_none encoding)
      refine iff_of_true ?_ hagrees
      cases hb : bodyObjection decoder encoding r.body with
      | none => simp only [hb]
      | some o => simp only [hb]
  | false =>
    obtain ⟨o, ho⟩ := scanFields_invalid hr hv
    have hobjection : r.h1Objection decoder = some o := by
      unfold WireResponse.h1Objection
      rw [ho]
    rw [hobjection]
    cases hx : exceedsHeaderLimit r.headers with
    | true =>
      rw [if_pos rfl]
      exact refused_eq_tooLarge_iff.trans (r.factoryAgrees_limit hx ho).symm
    | false =>
      rw [if_neg Bool.false_ne_true, if_pos Bool.not_false]
      have hmalformed : o = .malformed := by
        cases o with
        | malformed => rfl
        | tooLarge =>
          rw [exceedsHeaderLimit_of_tooLarge hr.fields ho] at hx
          cases hx
      rw [hmalformed]
      refine refused_eq_tolerated_iff.trans (r.factoryAgrees_malformed hx ?_).symm
      intro hv'
      rw [hv] at hv'
      cases hv'

end

def unavailable (extra : List HeaderField) : WireResponse :=
  { status := 503, headers := ⟨lit "content-length", lit "0"⟩ :: extra, body := [] }

theorem unavailable_sized (hr : ∀ h ∈ extra, h.Representable)
    (hn : ∀ h ∈ extra, (h.name.map asciiLower == lit "content-length") = false) :
    (unavailable extra).Sized := by
  have hnone : (extra.filter fun h => h.name.map asciiLower == lit "content-length") = [] := by
    rw [List.filter_eq_nil_iff]
    intro h hm
    rw [hn h hm]
    exact Bool.false_ne_true
  refine ⟨show 200 ≤ 503 by decide, show 503 ≤ 599 by decide, ?_, lit "0", ?_,
    show parseUint 10 63 (lit "0") = some 0 by decide +kernel⟩
  · intro h hm
    rcases List.mem_cons.1 hm with rfl | hm
    · exact ⟨by decide +kernel, by decide +kernel, by decide +kernel, by decide +kernel⟩
    · exact hr h hm
  · unfold unavailable
    rw [List.filter_cons_of_pos (by decide +kernel), hnone]
    rfl

theorem factory_agrees_on_unavailable :
    (h1Lane (fun _ => none) {} none {} (unavailable [])).classified ⟨[], [], []⟩ =
      (newAttemptResponse (fun _ _ => none) none 503 (some (unavailable []).headers) (some [])
        none).map (AttemptResponse.classified ⟨[], [], []⟩) :=
  (factory_agrees_iff ⟨[], [], []⟩ {} none none {} none .nothing
    (unavailable_sized (List.forall_mem_nil _) (List.forall_mem_nil _)) (by decide +kernel)).2
    ((unavailable []).factoryAgrees_encoded (by decide +kernel) (by decide +kernel))

/-- A control character in a field: the HTTP/1.1 lane forbids the retry of the 503, the factory
does not. -/
theorem factory_differs_on_control_character :
    (unavailable [⟨lit "x", [0x01]⟩]).Sized ∧
      (h1Lane (fun _ => none) {} none {} (unavailable [⟨lit "x", [0x01]⟩])).classified
          ⟨[], [], []⟩ = some (.failed .serverFailure .possiblySent false 503) ∧
      (newAttemptResponse (fun _ _ => none) none 503
          (some (unavailable [⟨lit "x", [0x01]⟩]).headers) (some []) none).map
          (AttemptResponse.classified ⟨[], [], []⟩) =
        some (.failed .serverFailure .possiblySent true 503) := by
  refine ⟨unavailable_sized ?_ ?_, by decide +kernel, by decide +kernel⟩
  · intro h hm
    obtain rfl := List.mem_singleton.1 hm
    exact ⟨by decide +kernel, by decide +kernel, by decide +kernel, by decide +kernel⟩
  · intro h hm
    obtain rfl := List.mem_singleton.1 hm
    decide +kernel

end Repost
