import Repost.Http2Lane

namespace Repost
open GoText
set_option autoImplicit true

namespace WireResponse
variable {r : WireResponse}

/-- The content is a JSON text that breaks a limit of the scanner. -/
def overJsonLimits (decoder : GzipDecoder) (r : WireResponse) : Bool :=
  validJSONContentType r.headers && r.content decoder != [] && validUTF8 (r.content decoder) &&
    decodeSendResult (r.content decoder) = .error .limit

/-- When the lanes agree: neither has an objection; or only the HTTP/1.1 lane has one, and the status
is not retried anyway; or the status is the very one that the HTTP/2 lane makes up, and the other
lane arrives at the same verdict. -/
def LanesAgree (decoder : GzipDecoder) (gunzip : GunzipLimited) (r : WireResponse) : Prop :=
  match r.h1Objection decoder, r.h2Objection gunzip with
  | none, none => True
  | some _, none => responseStatusRetryable r.status = false
  | some o, some o' => r.status = 202 ∧ o = o'
  | none, some o => r.status = 202 ∧ o = .tooLarge ∧ r.overJsonLimits decoder = true

end WireResponse

section
variable {status : Int}

theorem retryable_of_2xx (ho : outside2xx status = false) : responseStatusRetryable status = true := by
  unfold outside2xx at ho
  simp only [Bool.or_eq_false_iff, decide_eq_false_iff_not] at ho
  simp only [responseStatusRetryable, Bool.or_eq_true, Bool.and_eq_true, decide_eq_true_eq]
  omega

theorem refused_202 (o : Objection) :
    refused 202 o = .failed o.code .possiblySent false 202 := rfl

theorem Objection.code_inj : Objection.code o = Objection.code o' ↔ o = o' := by
  cases o <;> cases o' <;> simp [Objection.code]

theorem refused_eq_refused_iff (o o' : Objection) :
    refused status o = refused 202 o' ↔ status = 202 ∧ o = o' := by
  rw [refused_202]
  unfold refused
  cases ho : outside2xx status with
  | true =>
    have hne : status ≠ 202 := by
      rintro rfl
      cases ho
    simp [byStatus, hne]
  | false => simp [Objection.code_inj, and_comm]

theorem byStatus_inj : byStatus status a = byStatus status b ↔ a = b := by
  simp [byStatus]

theorem refused_malformed_eq_served_iff (event : SentEvent) (headers : List HeaderField)
    (body : Bytes) :
    refused status .malformed = served event status headers body ↔
      responseStatusRetryable status = false := by
  unfold refused served
  cases ho : outside2xx status with
  | true =>
    rw [if_pos rfl, if_pos rfl, byStatus_inj]
    exact eq_comm
  | false =>
    have hretry := retryable_of_2xx ho
    simp only [Bool.false_eq_true, if_false, hretry, reduceCtorEq, iff_false]
    unfold readBack
    split_ifs
    · simp [hretry]
    · cases decodeSendResult body with
      | error e => cases e <;> simp [hretry, Objection.code]
      | ok result =>
        dsimp only
        split_ifs <;> simp [hretry]

/-- A response without objection is only told like a refused one when its content is too large. -/
theorem served_eq_refused_iff (event : SentEvent) (headers : List HeaderField) (body : Bytes)
    (o : Objection) :
    served event status headers body = refused 202 o ↔
      status = 202 ∧ o = .tooLarge ∧
        (validJSONContentType headers && body != [] && validUTF8 body &&
          decodeSendResult body = .error .limit) = true := by
  rw [refused_202]
  unfold served
  cases ho : outside2xx status with
  | true =>
    have hne : status ≠ 202 := by
      rintro rfl
      cases ho
    simp [byStatus, hne]
  | false =>
    have hretry := retryable_of_2xx ho
    simp only [Bool.false_eq_true, if_false]
    unfold readBack
    split_ifs with hbad
    · constructor
      · intro h
        simp [hretry] at h
      · rintro ⟨-, -, h⟩
        simp only [Bool.and_eq_true, bne_iff_ne, ne_eq] at h
        simp [h.1.1.1, h.1.1.2, h.1.2] at hbad
    · have hgood : (validJSONContentType headers && body != [] && validUTF8 body) = true := by
        simp only [Bool.or_eq_true, Bool.not_eq_true', decide_eq_true_eq, not_or,
          Bool.not_eq_false] at hbad
        simp only [Bool.and_eq_true, bne_iff_ne]
        exact hbad
      rw [hgood, Bool.true_and]
      cases decodeSendResult body with
      | error e => cases e <;> cases o <;> simp [hretry, Objection.code]
      | ok result =>
        dsimp only
        split_ifs <;> simp [hretry]

end

namespace WireResponse
variable {r : WireResponse}

theorem asciiSpace_fieldByte : ∀ b : UInt8, fieldByte b = true →
    H2.asciiSpace b = (b == 0x20 || b == 0x09) := by
  decide +kernel

theorem dropWhile_congr {s : Bytes} {p q : UInt8 → Bool} (h : ∀ b ∈ s, p b = q b) :
    s.dropWhile p = s.dropWhile q := by
  induction s with
  | nil => rfl
  | cons b s ih =>
    rw [List.dropWhile_cons, List.dropWhile_cons, h b List.mem_cons_self,
      ih fun x hx => h x (List.mem_cons_of_mem _ hx)]

theorem trimSpace_eq (h : value.all fieldByte = true) : H2.trimSpace value = trimOWS value := by
  rw [List.all_eq_true] at h
  unfold H2.trimSpace trimOWS
  dsimp only
  have hfront : value.dropWhile H2.asciiSpace =
      value.dropWhile fun b => b == 0x20 || b == 0x09 :=
    dropWhile_congr fun b hb => asciiSpace_fieldByte b (h b hb)
  rw [hfront]
  congr 1
  refine dropWhile_congr fun b hb => asciiSpace_fieldByte b (h b ?_)
  exact (List.dropWhile_sublist _).subset (List.mem_reverse.1 hb)

theorem Expressible.encoding_unique (hr : r.Expressible)
    (he : responseContentEncoding r.headers = some encoding)
    (hb : H2.bodyEncoding r.headers = some encoding') : encoding' = encoding := by
  have hfilter : (r.headers.filter fun h => equalFold h.name (lit "content-encoding")) =
      r.headers.filter fun h => h.name == lit "content-encoding" := by
    refine List.filter_congr fun h hm => ?_
    have hascii : ∀ b ∈ h.name, b < 0x80 :=
      fun b hb => tokenByte_ascii b ((hr.names h hm).2 b hb).1
    rw [equalFold_ascii hascii, hr.lower hm]
    rfl
  unfold responseContentEncoding headerValues at he
  unfold H2.bodyEncoding at hb
  rw [hfilter] at he
  cases hf : r.headers.filter fun h => h.name == lit "content-encoding" with
  | nil =>
    rw [hf] at he hb
    cases he
    cases hb
    rfl
  | cons field fields =>
    rw [hf] at he hb
    cases fields with
    | nil =>
      have hm : field ∈ r.headers := by
        have : field ∈ r.headers.filter fun h => h.name == lit "content-encoding" := by
          rw [hf]
          exact List.mem_cons_self
        exact (List.mem_filter.1 this).1
      simp only [List.map_cons, List.map_nil, (hr.fields field hm).trimmed] at he
      simp only [trimSpace_eq (hr.values field hm), (hr.fields field hm).trimmed] at hb
      split_ifs at hb with hhigh hempty
      · rw [hempty] at he
        cases he
      · rw [he] at hb
        cases hb
        rfl
    | cons _ _ => cases he

theorem h2Objection_none (h : r.h2Objection gunzip = none) :
    r.h2HeadObjection = none ∧ r.h2BodyObjection gunzip = none := by
  unfold h2Objection at h
  cases hh : r.h2HeadObjection with
  | some o =>
    rw [hh] at h
    cases h
  | none =>
    rw [hh] at h
    exact ⟨rfl, h⟩

theorem h1Objection_eq (hscan : (scanFields Limits.headerFields 0 r.headers).2 = none)
    (ht : r.transferCoded = false) (he : responseContentEncoding r.headers = some encoding)
    (hl : r.body.length ≤ Limits.bodyBytes) :
    r.h1Objection decoder =
      if (decoder.decode encoding r.body).isNone then some .malformed else none := by
  unfold h1Objection
  rw [hscan, ht, he]
  dsimp only
  rw [if_neg Bool.false_ne_true, if_neg (Nat.not_lt.2 hl)]

theorem h1Objection_none (h : r.h1Objection decoder = none) :
    ∃ encoding, responseContentEncoding r.headers = some encoding ∧
      decoder.decode encoding r.body = some (r.content decoder) := by
  have hwhole := h
  unfold h1Objection at h
  cases hscan : (scanFields Limits.headerFields 0 r.headers).2 with
  | some o =>
    rw [hscan] at h
    cases h
  | none =>
    rw [hscan] at h
    cases ht : r.transferCoded with
    | true =>
      rw [ht] at h
      cases h
    | false =>
      rw [ht] at h
      cases he : responseContentEncoding r.headers with
      | none =>
        rw [he] at h
        cases h
      | some encoding =>
        rw [he] at h
        have hl : r.body.length ≤ Limits.bodyBytes := by
          by_contra hlong
          dsimp only at h
          rw [if_neg Bool.false_ne_true, if_pos (Nat.not_le.1 hlong)] at h
          cases h
        rw [h1Objection_eq hscan ht he hl] at hwhole
        cases hd : decoder.decode encoding r.body with
        | none =>
          rw [hd] at hwhole
          cases hwhole
        | some bytes =>
          refine ⟨encoding, rfl, ?_⟩
          rw [content, he, Option.bind_some, hd, Option.getD_some]

theorem Expressible.h1_malformed (hr : r.Expressible) (h1 : r.h1Objection decoder = some o)
    (h2 : r.h2HeadObjection = none) : o = .malformed := by
  obtain ⟨hv, hl⟩ := hr.accepted h2
  have hscan := (scanFields_none_iff hr.fields).2 hv
  cases ht : r.transferCoded with
  | true =>
    unfold h1Objection at h1
    rw [hscan, ht] at h1
    cases h1
    rfl
  | false =>
    cases he : responseContentEncoding r.headers with
    | none =>
      unfold h1Objection at h1
      rw [hscan, ht, he] at h1
      cases h1
      rfl
    | some encoding =>
      rw [h1Objection_eq hscan ht he hl] at h1
      split_ifs at h1
      cases h1
      rfl

theorem Expressible.content_eq (hr : r.Expressible) (hg : decoder.Reads gzip gunzip)
    (h1 : r.h1Objection decoder = none) (h2 : r.h2Objection gunzip = none)
    (ho : outside2xx r.status = false) : r.h2Content gunzip = r.content decoder := by
  obtain ⟨hhead, hbody⟩ := h2Objection_none h2
  obtain ⟨encoding, he, hdecode⟩ := h1Objection_none h1
  have hbody' := hbody
  unfold h2BodyObjection at hbody'
  have hlimit : r.h2Limit = Limits.bodyBytes := by
    rw [h2Limit, ho]
    rfl
  unfold h2Content
  cases hencoding : H2.bodyEncoding r.headers with
  | none =>
    rw [hencoding] at hbody'
    cases hbody'
  | some encoding' =>
    obtain rfl := hr.encoding_unique he hencoding
    cases encoding' with
    | identity =>
      rw [GzipDecoder.decode, Option.some.injEq] at hdecode
      exact hdecode
    | gzip =>
      obtain ⟨stream, hs, hfits⟩ := Option.bind_eq_some_iff.1 hdecode
      split_ifs at hfits with hfit
      rw [Option.some.injEq] at hfits
      have hread := hg.limited (r.h2Limit + 1) r.body
      rw [hs] at hread
      cases hgun : gunzip (r.h2Limit + 1) r.body with
      | none =>
        rw [hgun] at hread
        cases hread
      | some g =>
        rw [hgun] at hread
        cases hread with
        | some hupto =>
          dsimp only [Option.map_some, Option.getD_some]
          rw [hupto.decoded, ← hfits]
          refine List.take_of_length_le ?_
          have := hfit.2.2.2
          omega

end WireResponse

section
variable {r : WireResponse} {s : H2.Shared} {st : H2.Stream} {id : Nat}

/-- The lanes tell the caller the same about a response exactly when `LanesAgree`, however the
response is cut into frames. -/
theorem lanes_agree_iff (hg : GzipDecoder.Reads decoder gzip gunzip) (hr : r.Expressible)
    (hf : s.Fresh id st) (hframe : r.Framed frame) (hid : frame.streamID = id)
    (hend : frame.streamEnded = chunks.isEmpty) (hc : (chunks.map Prod.fst).flatten = r.body)
    (event : SentEvent) (ending : H1.GoError) (wall wall' : Option Time) (ctx ctx' : ContextView)
    (network : H1.GoError) (committed : Bool) :
    ∃ st', (s.receiveAll gunzip (.headers frame :: H2.dataFrames id chunks)).Done id st' ∧
      ((h1Lane gzip ending wall ctx r).classified event =
          (h2Lane wall' ctx' network committed st').classified event ↔
        r.LanesAgree decoder gunzip) := by
  obtain ⟨st', hdone, hresult⟩ := deliver_response hf hr hframe hid hend hc
  refine ⟨st', hdone, ?_⟩
  rw [h1Lane_classified event ending wall ctx hr.toSized hg.pieces,
    h2Lane_classified event gunzip wall' ctx' network committed hr hresult, Option.some.injEq]
  have hcast : ((r.status : Nat) : Int) = 202 ↔ r.status = 202 := by omega
  unfold WireResponse.LanesAgree
  cases h1 : r.h1Objection decoder with
  | some o =>
    cases h2 : r.h2Objection gunzip with
    | some o' =>
      exact (refused_eq_refused_iff o o').trans (and_congr_left' hcast)
    | none =>
      obtain rfl := hr.h1_malformed h1 (WireResponse.h2Objection_none h2).1
      exact refused_malformed_eq_served_iff event r.headers (r.h2Content gunzip)
  | none =>
    cases h2 : r.h2Objection gunzip with
    | some o =>
      refine (served_eq_refused_iff event r.headers (r.content decoder) o).trans ?_
      rw [hcast]
      rfl
    | none =>
      refine iff_true_intro ?_
      unfold served
      cases ho : outside2xx r.status with
      | true => rfl
      | false => rw [hr.content_eq hg h1 h2 ho]

end

def oneStream : H2.Shared :=
  { streams := [1], objects := [{ id := 1, sendWindow := H2.defaultWindowSize }], nextStreamID := 3 }

theorem oneStream_fresh :
    oneStream.Fresh 1 { id := 1, sendWindow := H2.defaultWindowSize } :=
  ⟨⟨rfl, List.mem_singleton_self 1, rfl⟩, rfl, rfl⟩

def wholeBlock (r : WireResponse) : H2.MetaHeaders :=
  { streamID := 1, pseudos := [H2.statusField r.status], regular := r.headers }

theorem wholeBlock_framed {r : WireResponse} (h : r.listSize ≤ H2.maxHPACKListSize) :
    r.Framed (wholeBlock r) :=
  ⟨by simpa [wholeBlock] using h, fun _ => rfl, fun _ => rfl⟩

/-- A server that is unavailable and says so in a body that is not the gzip stream it announces. -/
def garbledUnavailable : WireResponse :=
  { status := 503
    headers := [⟨lit "content-length", lit "1"⟩, ⟨lit "content-encoding", lit "gzip"⟩]
    body := lit "x" }

theorem garbledUnavailable_expressible : garbledUnavailable.Expressible := by
  refine ⟨⟨by decide, by decide, ?_, ⟨lit "1", by decide +kernel⟩⟩, by decide +kernel,
    by decide +kernel⟩
  intro h hm
  have hm' := List.mem_cons.1 hm
  rw [List.mem_singleton] at hm'
  obtain rfl | rfl := hm'
  · exact ⟨by decide +kernel, by decide +kernel, by decide +kernel, by decide +kernel⟩
  · exact ⟨by decide +kernel, by decide +kernel, by decide +kernel, by decide +kernel⟩

/-- The HTTP/1.1 lane reports the 503, the HTTP/2 lane a protocol error under status 202. -/
theorem lanes_differ_on_garbled_unavailable :
    garbledUnavailable.Expressible ∧ garbledUnavailable.Framed (wholeBlock garbledUnavailable) ∧
      (h1Lane (fun _ => none) {} none {} garbledUnavailable).classified ⟨[], [], []⟩ =
        some (.failed .serverFailure .possiblySent false 503) ∧
      ((oneStream.receiveAll (fun _ _ => none)
          (.headers (wholeBlock garbledUnavailable) :: H2.dataFrames 1 [(lit "x", 0)])).object 1).map
          (fun st => (h2Lane none {} {} true st).classified ⟨[], [], []⟩) =
        some (some (.failed .responseProtocol .possiblySent false 202)) :=
  ⟨garbledUnavailable_expressible, wholeBlock_framed (by decide +kernel), by decide +kernel,
    by decide +kernel⟩

def plainUnavailable : WireResponse :=
  { status := 503, headers := [⟨lit "content-length", lit "1"⟩], body := lit "x" }

theorem plainUnavailable_expressible : plainUnavailable.Expressible := by
  refine ⟨⟨by decide, by decide, ?_, ⟨lit "1", by decide +kernel⟩⟩, by decide +kernel,
    by decide +kernel⟩
  intro h hm
  obtain rfl := List.mem_singleton.1 hm
  exact ⟨by decide +kernel, by decide +kernel, by decide +kernel, by decide +kernel⟩

theorem lanes_agree_on_plainUnavailable :
    ∃ st', (oneStream.receiveAll (fun _ _ => none)
        (.headers (wholeBlock plainUnavailable) :: H2.dataFrames 1 [(lit "x", 0)])).Done 1 st' ∧
      (h1Lane (fun _ => none) {} none {} plainUnavailable).classified ⟨[], [], []⟩ =
        (h2Lane none {} {} true st').classified ⟨[], [], []⟩ := by
  obtain ⟨st', hdone, hiff⟩ := lanes_agree_iff .nothing plainUnavailable_expressible
    oneStream_fresh (wholeBlock_framed (by decide +kernel)) rfl rfl
    (show ([(lit "x", 0)].map Prod.fst).flatten = _ from rfl) ⟨[], [], []⟩ {} none none {} {} {} true
  have h1 : plainUnavailable.h1Objection (fun _ => none) = none := by decide +kernel
  have h2 : plainUnavailable.h2Objection (fun _ _ => none) = none := by decide +kernel
  refine ⟨st', hdone, hiff.2 ?_⟩
  unfold WireResponse.LanesAgree
  rw [h1, h2]
  trivial

end Repost
