import Repost.Gzip
import Repost.Http1Fields

namespace Repost
open GoText
set_option autoImplicit true

namespace WireResponse

/-- A field that announces a transfer coding, which a response with a length must not have. -/
def transferCoded (r : WireResponse) : Bool :=
  r.headers.any fun h => h.name.map asciiLower == lit "transfer-encoding"

def h1Objection (decoder : GzipDecoder) (r : WireResponse) : Option Objection :=
  match (scanFields Limits.headerFields 0 r.headers).2 with
  | some o => some o
  | none =>
    if r.transferCoded then some .malformed
    else
      match responseContentEncoding r.headers with
      | none => some .malformed
      | some encoding =>
        if r.body.length > Limits.bodyBytes then
          some (if encoding = .gzip then .malformed else .tooLarge)
        else if (decoder.decode encoding r.body).isNone then some .malformed
        else none

def content (decoder : GzipDecoder) (r : WireResponse) : Bytes :=
  ((responseContentEncoding r.headers).bind fun encoding =>
    decoder.decode encoding r.body).getD []

end WireResponse

theorem tokenByte_ascii : ∀ b : UInt8, tokenByte b = true → b < 0x80 := by
  decide +kernel

theorem equalFold_name (h : validResponseHeaderName name = true) (t : Bytes) :
    equalFold name t = (name.map asciiLower == t.map asciiLower) := by
  simp only [validResponseHeaderName, Bool.and_eq_true, List.all_eq_true] at h
  exact equalFold_ascii (fun b hb => tokenByte_ascii b (h.2 b hb)) t

section
variable {headers : List HeaderField}

theorem valuesOf_valid (hv : ∀ h ∈ headers, validResponseHeaderName h.name = true) (name : Bytes)
    (hn : name.map asciiLower = name) :
    H1.valuesOf headers name =
      (headers.filter fun h => h.name.map asciiLower == name).map (·.value) := by
  unfold H1.valuesOf
  congr 1
  refine List.filter_congr fun h hm => ?_
  rw [equalFold_name (hv h hm), hn]

theorem headerValues_eq (hr : ∀ h ∈ headers, h.Representable) (name : Bytes) :
    headerValues headers name = H1.valuesOf headers name := by
  unfold headerValues H1.valuesOf
  refine List.map_congr_left fun h hm => ?_
  exact (hr h (List.mem_filter.1 hm).1).trimmed

theorem contentEncoding_eq (hr : ∀ h ∈ headers, h.Representable) :
    H1.contentEncoding headers =
      match responseContentEncoding headers with
      | none => .error .protocol
      | some encoding => .ok encoding := by
  unfold H1.contentEncoding responseContentEncoding
  rw [headerValues_eq hr]
  cases H1.valuesOf headers (lit "content-encoding") with
  | nil => rfl
  | cons value values =>
    cases values with
    | nil =>
      dsimp only
      cases encodingOf value <;> rfl
    | cons _ _ => rfl

end

namespace WireResponse
variable {r : WireResponse}

theorem Sized.singleContentLength (hr : r.Sized)
    (hv : ∀ h ∈ r.headers, validResponseHeaderName h.name = true) :
    H1.singleContentLength r.headers = .ok (some (min r.body.length (Limits.bodyBytes + 1))) := by
  obtain ⟨value, hvalue, hparse⟩ := hr.length
  have hdigits : value.all isDigit = true := by
    unfold parseUint at hparse
    split at hparse
    · cases hparse
    · split at hparse
      · exact digits_isDigit ‹_›
      · cases hparse
  unfold H1.singleContentLength
  rw [valuesOf_valid hv _ (by decide), hvalue]
  simp only [hdigits, hparse, Bool.not_true, Bool.false_eq_true, if_false]

theorem transferChunked_eq (hv : ∀ h ∈ r.headers, validResponseHeaderName h.name = true) :
    (r.transferCoded = false ∧ H1.transferChunked r.headers = .ok false) ∨
      (r.transferCoded = true ∧
        (H1.transferChunked r.headers = .ok true ∨
          H1.transferChunked r.headers = .error .protocol)) := by
  have hcoded : r.transferCoded = false ↔ H1.valuesOf r.headers (lit "transfer-encoding") = [] := by
    rw [valuesOf_valid hv _ (by decide), List.map_eq_nil_iff, List.filter_eq_nil_iff,
      transferCoded, List.any_eq_false]
  unfold H1.transferChunked
  cases hvalues : H1.valuesOf r.headers (lit "transfer-encoding") with
  | nil => exact .inl ⟨hcoded.2 hvalues, rfl⟩
  | cons value values =>
    have ht : r.transferCoded = true := by
      by_contra hn
      rw [hcoded.1 (Bool.eq_false_iff.2 hn)] at hvalues
      cases hvalues
    refine .inr ⟨ht, ?_⟩
    cases values with
    | nil =>
      dsimp only
      split
      · exact .inl rfl
      · exact .inr rfl
    | cons _ _ => exact .inr rfl

theorem Sized.framing (hr : r.Sized)
    (hv : ∀ h ∈ r.headers, validResponseHeaderName h.name = true) :
    H1.framing r.headers =
      if r.transferCoded then .error .protocol
      else
        match responseContentEncoding r.headers with
        | none => .error .protocol
        | some encoding =>
          .ok (some (min r.body.length (Limits.bodyBytes + 1)), false, encoding) := by
  unfold H1.framing
  rw [hr.singleContentLength hv, contentEncoding_eq hr.fields]
  rcases transferChunked_eq hv with ⟨ht, hc⟩ | ⟨ht, hc | hc⟩
  · rw [ht, hc]
    cases responseContentEncoding r.headers <;> rfl
  · rw [ht, hc]
    rfl
  · rw [ht, hc]
    rfl

end WireResponse

/-- The second half of an exchange, over what the server sent. -/
def receiveH1 (gzip : H1.GzipReader) (ending : H1.GoError) (wall : Option Time) (wire : Bytes) :
    RawExchange :=
  let read := H1.readResponse gzip ending wire
  { response := read.response
    headerSnapshot :=
      match read.final with
      | some head => snapshotResponseWallTime wall head.status head.headers
      | none => {}
    responseBytes := wire.length
    requestWrote := true
    committed := true
    err := read.err }

def h1Lane (gzip : H1.GzipReader) (ending : H1.GoError) (wall : Option Time) (ctx : ContextView)
    (r : WireResponse) : AttemptOutcome :=
  mapH1Exchange ctx (receiveH1 gzip ending wall r.h1)

namespace H1
variable {r : WireResponse}

theorem readResponse_objection (hr : r.Sized) (gzip : GzipReader) (ending : GoError)
    (ho : (scanFields Limits.headerFields 0 r.headers).2 = some o) :
    readResponse gzip ending r.h1 =
      { response :=
          { status := r.status, headers := (scanFields Limits.headerFields 0 r.headers).1 }
        final := none
        err := some o.err } := by
  unfold readResponse
  rw [readFinalHead_h1 hr, readHead_h1 hr, ho]

def sentHead (r : WireResponse) (encoding : Encoding) : Head where
  status := r.status
  headers := r.headers
  length := some (min r.body.length (Limits.bodyBytes + 1))
  chunked := false
  encoding := encoding
  rest := r.body

theorem readResponse_unframed (hr : r.Sized) (gzip : GzipReader) (ending : GoError)
    (ho : (scanFields Limits.headerFields 0 r.headers).2 = none)
    (hf : framing r.headers = .error .protocol) :
    readResponse gzip ending r.h1 =
      { response := { status := r.status, headers := r.headers }
        final := none
        err := some .protocol } := by
  unfold readResponse
  rw [readFinalHead_h1 hr, readHead_h1 hr, ho, scanFields_none ho, hf]

theorem readResponse_framed (hr : r.Sized) (gzip : GzipReader) (ending : GoError)
    (ho : (scanFields Limits.headerFields 0 r.headers).2 = none)
    (hf : framing r.headers = .ok (some (min r.body.length (Limits.bodyBytes + 1)), false, encoding)) :
    readResponse gzip ending r.h1 =
      { response :=
          (readFramedBody gzip ending (sentHead r encoding) (sentHead r encoding).response).1
        final := some (sentHead r encoding)
        err :=
          (readFramedBody gzip ending (sentHead r encoding) (sentHead r encoding).response).2 } := by
  unfold readResponse
  rw [readFinalHead_h1 hr, readHead_h1 hr, ho, scanFields_none ho, hf]
  rfl

theorem readFramedBody_long (gzip : GzipReader) (ending : GoError) (encoding : Encoding)
    (hl : r.body.length > Limits.bodyBytes) :
    readFramedBody gzip ending (sentHead r encoding) (sentHead r encoding).response =
      ({ (sentHead r encoding).response with compressedBytes := (Limits.bodyBytes + 1 : Nat) },
        some .bodyTooLarge) := by
  have hmin : min r.body.length (Limits.bodyBytes + 1) = Limits.bodyBytes + 1 := by omega
  unfold readFramedBody sentHead
  rw [hmin]
  rfl

theorem readFramedBody_whole (gzip : GzipReader) (ending : GoError) (encoding : Encoding)
    (hl : r.body.length ≤ Limits.bodyBytes) :
    readFramedBody gzip ending (sentHead r encoding) (sentHead r encoding).response =
      finishResponse gzip (sentHead r encoding)
        { (sentHead r encoding).response with compressedBytes := r.body.length } r.body := by
  have hmin : min r.body.length (Limits.bodyBytes + 1) = r.body.length := by omega
  have hbody : readBody ending (sentHead r encoding) = (r.body, none) := by
    simp only [readBody, sentHead, hmin, readFull, lt_irrefl, if_false, List.take_length]
  unfold readFramedBody
  rw [hbody]
  simp only [sentHead, hmin, Option.any_some, Option.isNone_some, Bool.false_and, Bool.false_eq_true,
    if_false]
  rw [if_neg (by simpa using hl)]

end H1

theorem int64_small (n : Nat) (h : n ≤ Limits.bodyBytes) : int64 n = n := by
  unfold int64
  unfold Limits.bodyBytes at h
  rw [Int.bmod_eq_of_le] <;> omega

theorem responseExceedsLimits_within {r : AttemptResponse} {c d : Nat}
    (hb : r.bytes.length ≤ maxPayloadBytes) (hc : r.compressedBytes = c)
    (hd : r.decompressedBytes = d) (hcle : c ≤ maxPayloadBytes) (hdle : d ≤ maxPayloadBytes)
    (hratio : d ≤ c * Limits.expansionRatio) : responseExceedsLimits r = false := by
  have hq : d / c ≤ Limits.expansionRatio := Nat.div_le_of_le_mul hratio
  have hdiv : int64Div d c = ((d / c : Nat) : Int) := by
    unfold int64Div
    rw [← Int.ofNat_tdiv]
    exact int64_small _ (le_trans hq (by decide))
  have hmod := Nat.div_add_mod d c
  unfold responseExceedsLimits
  rw [hc, hd, if_neg (by simp only [Bool.or_eq_true, decide_eq_true_eq]; omega)]
  split
  · have hz : c = 0 := by omega
    rw [hz, Nat.zero_mul] at hratio
    simp only [decide_eq_false_iff_not]
    omega
  · rw [hdiv, ← Int.ofNat_tmod]
    simp only [Bool.or_eq_false_iff, Bool.and_eq_false_imp, decide_eq_true_eq,
      decide_eq_false_iff_not]
    refine ⟨by omega, fun he => ?_⟩
    have he : d / c = Limits.expansionRatio := by exact_mod_cast he
    rw [he] at hmod
    omega

section
variable {r : WireResponse}

theorem wireStatus_final (hr : r.Sized) :
    unparsable r.status = false ∧ wireStatus r.status = r.status := by
  have hlo := hr.status_ge
  have hhi := hr.status_le
  have hu : unparsable r.status = false := by
    simp only [unparsable, Bool.or_eq_false_iff, decide_eq_false_iff_not]
    omega
  refine ⟨hu, ?_⟩
  rw [wireStatus, hu]
  rfl

theorem h1ErrorResponse_status {exchange : RawExchange} (hr : r.Sized)
    (hs : exchange.response.status = r.status) : (h1ErrorResponse exchange).status = r.status := by
  rw [← (wireStatus_final hr).2, ← hs]
  rfl

variable (event : SentEvent) (ctx : ContextView)

theorem mapH1Exchange_refused {exchange : RawExchange}
    (hr : r.Sized) (hs : exchange.response.status = r.status) (o : Objection)
    (he : exchange.err = some o.err)
    (hl : o = .malformed → exceedsHeaderLimit exchange.response.headers = false) :
    (mapH1Exchange ctx exchange).classified event = some (refused r.status o) := by
  have hst := h1ErrorResponse_status hr hs
  unfold mapH1Exchange AttemptOutcome.classified
  rw [he, ← hst]
  cases o with
  | tooLarge =>
    refine congrArg some (AttemptResponse.classified_refused event .tooLarge rfl ?_ ?_ ?_)
    · exact fun _ => rfl
    · exact fun _ => rfl
    · exact nofun
  | malformed =>
    refine congrArg some (AttemptResponse.classified_refused event .malformed rfl ?_ ?_ ?_)
    · intro ho
      rw [hs, ← hst]
      exact ho
    · exact nofun
    · exact fun _ => ⟨rfl, rfl, hl rfl⟩

theorem mapH1Exchange_bodyTooLarge {exchange : RawExchange}
    (hr : r.Sized) (hs : exchange.response.status = r.status)
    (hh : exchange.response.headers = r.headers) (hv : exceedsHeaderLimit r.headers = false)
    (he : exchange.err = some .bodyTooLarge) :
    (mapH1Exchange ctx exchange).classified event =
      some (refused r.status
        (if responseContentEncoding r.headers = some .gzip then .malformed else .tooLarge)) := by
  have hst := h1ErrorResponse_status hr hs
  have hfields : (h1ErrorResponse exchange).fields = r.headers := hh
  unfold mapH1Exchange AttemptOutcome.classified markBodyLimitViolation
  rw [he, hfields]
  dsimp only [Option.map_some]
  split_ifs
  · rw [← hst]
    refine congrArg some (AttemptResponse.classified_refused event .malformed rfl ?_ ?_ ?_)
    · intro ho
      rw [hs, ← hst]
      exact ho
    · exact nofun
    · refine fun _ => ⟨rfl, rfl, ?_⟩
      rw [← hv, ← hh]
      rfl
  · rw [← hst]
    refine congrArg some (AttemptResponse.classified_refused event .tooLarge rfl ?_ ?_ ?_)
    · intro ho
      rw [hs, ← hst]
      exact ho
    · exact fun _ => rfl
    · exact nofun

theorem mapH1Exchange_undecodable {exchange : RawExchange}
    (hr : r.Sized) (hs : exchange.response.status = r.status)
    (hh : exchange.response.headers = r.headers) (hv : exceedsHeaderLimit r.headers = false)
    (hg : responseContentEncoding r.headers = some .gzip) (he : exchange.err = some e)
    (hu : e.Undecodable) :
    (mapH1Exchange ctx exchange).classified event = some (refused r.status .malformed) := by
  rcases hu with rfl | rfl | rfl
  · exact mapH1Exchange_refused event ctx hr hs .malformed he fun _ => by rw [hh, hv]
  · have hprotocol : mapH1Exchange ctx exchange =
        mapH1Exchange ctx { exchange with err := some .protocol } := by
      unfold mapH1Exchange
      rw [he]
      rfl
    have hlimit : exceedsHeaderLimit exchange.response.headers = false := by rw [hh, hv]
    rw [hprotocol]
    exact @mapH1Exchange_refused r event ctx { exchange with err := some .protocol } hr hs
      .malformed rfl fun _ => hlimit
  · rw [mapH1Exchange_bodyTooLarge event ctx hr hs hh hv he, if_pos hg]

def H1.readWhole (r : WireResponse) (content : Bytes) : H1.Response where
  status := r.status
  headers := r.headers
  body := if outside2xx r.status then [] else content
  compressedBytes := r.body.length
  decompressedBytes := content.length
  truncated := outside2xx r.status && content.length > Limits.errorBodyBytes

def H1.readEncoded (r : WireResponse) : H1.Response :=
  { status := r.status, headers := r.headers, compressedBytes := r.body.length }

theorem finishResponse_encoded (gzip : H1.GzipReader)
    (hd : (encoding = .identity ∧ content = r.body) ∨
      (encoding = .gzip ∧ H1.decodeGzip gzip r.body = (content, none))) :
    H1.finishResponse gzip (H1.sentHead r encoding) (H1.readEncoded r) r.body =
      (H1.readWhole r content, none) := by
  unfold H1.finishResponse H1.readWhole
  rcases hd with ⟨rfl, rfl⟩ | ⟨rfl, hd⟩
  · cases hout : outside2xx r.status with
    | true => exact if_pos hout
    | false => exact if_neg (Bool.eq_false_iff.1 hout)
  · dsimp only [H1.sentHead]
    rw [hd]
    cases hout : outside2xx r.status with
    | true => exact if_pos hout
    | false => exact if_neg (Bool.eq_false_iff.1 hout)

theorem finishResponse_decode
    (hp : ∀ input, Option.Rel GzipStream.InPieces (decoder input) (gzip input))
    (encoding : Encoding) :
    (∃ content, GzipDecoder.decode decoder encoding r.body = some content ∧
        H1.finishResponse gzip (H1.sentHead r encoding) (H1.readEncoded r) r.body =
          (H1.readWhole r content, none)) ∨
      (GzipDecoder.decode decoder encoding r.body = none ∧ encoding = .gzip ∧
        ∃ (response : H1.Response) (e : H1.Err), e.Undecodable ∧ response.status = r.status ∧
          response.headers = r.headers ∧
          H1.finishResponse gzip (H1.sentHead r encoding) (H1.readEncoded r) r.body =
            (response, some e)) := by
  cases encoding with
  | identity => exact .inl ⟨r.body, rfl, finishResponse_encoded gzip (.inl ⟨rfl, rfl⟩)⟩
  | gzip =>
    rcases hd : H1.decodeGzip gzip r.body with ⟨decoded, err⟩
    cases err with
    | none =>
      exact .inl ⟨decoded, (H1.decodeGzip_none_iff (hp r.body)).1 hd,
        finishResponse_encoded gzip (.inr ⟨rfl, hd⟩)⟩
    | some e =>
      refine .inr ⟨?_, rfl, { H1.readEncoded r with
        decompressedBytes := decoded.length
        truncated := e = .bodyTooLarge || e = .expansionRatio }, e, H1.decodeGzip_error hd, rfl,
        rfl, ?_⟩
      · by_contra hn
        obtain ⟨content, hc⟩ := Option.ne_none_iff_exists'.1 hn
        rw [(H1.decodeGzip_none_iff (hp r.body)).2 hc] at hd
        cases hd
      · unfold H1.finishResponse
        dsimp only [H1.sentHead]
        rw [hd]

theorem GzipDecoder.decode_bounds (h : GzipDecoder.decode decoder encoding input = some content)
    (hl : input.length ≤ Limits.bodyBytes) :
    content.length ≤ Limits.bodyBytes ∧ content.length ≤ input.length * Limits.expansionRatio := by
  cases encoding with
  | identity =>
    cases h
    exact ⟨hl, Nat.le_mul_of_pos_right _ (by decide)⟩
  | gzip =>
    obtain ⟨s, hs, hf⟩ := Option.bind_eq_some_iff.1 h
    split at hf
    · rename_i hfits
      cases hf
      exact ⟨hfits.2.2.2, hfits.2.2.1⟩
    · cases hf

theorem h1Response_served (event : SentEvent) (snapshot : HeaderSnapshot) (hr : r.Sized)
    (hv : validateResponseHeaders r.headers = true) (hl : r.body.length ≤ Limits.bodyBytes)
    (hc : GzipDecoder.decode decoder encoding r.body = some content) :
    (h1Response (H1.readWhole r content) snapshot).classified event =
      served event r.status r.headers content := by
  obtain ⟨hu, hw⟩ := wireStatus_final hr
  obtain ⟨hmax, hratio⟩ := GzipDecoder.decode_bounds hc hl
  have hst : (h1Response (H1.readWhole r content) snapshot).status = r.status := hw
  have hbytes : (h1Response (H1.readWhole r content) snapshot).bytes =
      if outside2xx r.status then [] else content := by
    have hbody : (h1Response (H1.readWhole r content) snapshot).bytes =
        if unparsable r.status then [] else (H1.readWhole r content).body := rfl
    rw [hbody, hu, if_neg Bool.false_ne_true]
    unfold H1.readWhole
    dsimp only
  have hle : (h1Response (H1.readWhole r content) snapshot).bytes.length ≤ maxPayloadBytes := by
    rw [hbytes]
    split
    · exact Nat.zero_le _
    · exact hmax
  have hclean : (h1Response (H1.readWhole r content) snapshot).Clean r.headers := by
    refine ⟨rfl, hv, responseExceedsLimits_within hle rfl rfl hl hmax hratio, rfl, rfl, rfl, rfl,
      rfl, ?_⟩
    intro ho
    rw [hst] at ho
    unfold h1Response H1.readWhole
    dsimp only
    rw [ho, Bool.false_and]
  rw [hclean.classified, hst, hbytes]
  unfold served
  split_ifs <;> rfl

/-- The HTTP/1.1 lane refuses what it has an objection to, with the response's own status, and
judges the rest by status and content. -/
theorem h1Lane_classified (event : SentEvent) (ending : H1.GoError) (wall : Option Time)
    (ctx : ContextView) (hr : r.Sized)
    (hp : ∀ input, Option.Rel GzipStream.InPieces (decoder input) (gzip input)) :
    (h1Lane gzip ending wall ctx r).classified event =
      some (match r.h1Objection decoder with
        | some o => refused r.status o
        | none => served event r.status r.headers (r.content decoder)) := by
  unfold h1Lane receiveH1 WireResponse.h1Objection
  cases ho : (scanFields Limits.headerFields 0 r.headers).2 with
  | some o =>
    have hread := H1.readResponse_objection hr gzip ending ho
    refine mapH1Exchange_refused event ctx hr (by rw [hread]) o (by rw [hread]) ?_
    rintro rfl
    have ht := scanFields_taken (Nat.zero_le Limits.headerBytes) (by rw [ho]; exact nofun)
    rw [hread]
    exact exceedsHeaderLimit_of_valid (ht.valid hr.fields)
  | none =>
    have hv := (scanFields_none_iff hr.fields).1 ho
    have hlimit := exceedsHeaderLimit_of_valid hv
    have hnames : ∀ h ∈ r.headers, validResponseHeaderName h.name = true := by
      intro h hm
      unfold validateResponseHeaders at hv
      rw [Bool.and_eq_true, List.all_eq_true] at hv
      exact (Bool.and_eq_true_iff.1 (hv.2 h hm)).1
    have hf := hr.framing hnames
    cases ht : r.transferCoded with
    | true =>
      rw [ht, if_pos rfl] at hf
      have hread := H1.readResponse_unframed hr gzip ending ho hf
      refine mapH1Exchange_refused event ctx hr (by rw [hread]) .malformed (by rw [hread]; rfl) ?_
      intro _
      rw [hread, hlimit]
    | false =>
      rw [ht] at hf
      cases he : responseContentEncoding r.headers with
      | none =>
        rw [he] at hf
        have hread := H1.readResponse_unframed hr gzip ending ho hf
        refine mapH1Exchange_refused event ctx hr (by rw [hread]) .malformed (by rw [hread]; rfl) ?_
        intro _
        rw [hread, hlimit]
      | some encoding =>
        rw [he] at hf
        have hread := H1.readResponse_framed hr gzip ending ho hf
        dsimp only [Bool.false_eq_true]
        rw [if_neg (by decide)]
        by_cases hl : r.body.length > Limits.bodyBytes
        · rw [H1.readFramedBody_long gzip ending encoding hl] at hread
          rw [if_pos hl]
          refine (mapH1Exchange_bodyTooLarge event ctx hr (by rw [hread]; rfl) (by rw [hread]; rfl)
            hlimit (by rw [hread])).trans ?_
          simp only [he, Option.some.injEq]
        · rw [H1.readFramedBody_whole gzip ending encoding (by omega)] at hread
          rw [if_neg hl]
          rw [show { (H1.sentHead r encoding).response with compressedBytes := r.body.length } =
            H1.readEncoded r from rfl] at hread
          rcases finishResponse_decode hp encoding with
            ⟨content, hc, hfin⟩ | ⟨hc, rfl, response, e, hu, hs, hh, hfin⟩
          · rw [hfin] at hread
            have hcontent : r.content decoder = content := by
              rw [WireResponse.content, he, Option.bind_some, hc, Option.getD_some]
            rw [hread, hc, hcontent]
            exact congrArg some (h1Response_served event _ hr hv (by omega) hc)
          · rw [hfin] at hread
            rw [hc]
            exact mapH1Exchange_undecodable event ctx hr (by rw [hread, hs]) (by rw [hread, hh])
              hlimit he (by rw [hread]) hu

end

end Repost
