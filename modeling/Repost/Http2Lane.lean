import Repost.Http2Delivery

namespace Repost
open GoText
set_option autoImplicit true

namespace H2

/-- What the HTTP/2 lane has against the header fields of a response whose body has a given length,
from the bytes that came before. -/
def fieldsObjection (length : Nat) : Nat → List HeaderField → Option Objection
  | _, [] => none
  | size, h :: hs =>
    if h.name.length > Limits.headerNameBytes || h.value.length > Limits.headerValueBytes ||
        !validUTF8 h.value then some .malformed
    else if size + h.size > Limits.headerBytes then some .tooLarge
    else if h.name = contentLengthField && !canonicalDecimal h.value then some .malformed
    else if h.name = contentLengthField && length > Limits.bodyBytes then some .tooLarge
    else fieldsObjection length (size + h.size) hs

end H2

def Objection.sessionError : Objection → H2.SessionError
  | .malformed => .responseProtocol
  | .tooLarge => .responseTooLarge

namespace WireResponse

/-- The size of the header list, with its status, as HPACK counts it. -/
def listSize (r : WireResponse) : Nat :=
  H2.hpackSize (H2.statusField r.status) + (r.headers.map H2.hpackSize).sum

/-- A frame that the framer may hand over for the header block of a response. -/
structure Framed (r : WireResponse) (frame : H2.MetaHeaders) : Prop where
  truncated : frame.truncated = decide (r.listSize > H2.maxHPACKListSize)
  pseudos : frame.truncated = false → frame.pseudos = [H2.statusField r.status]
  regular : frame.truncated = false → frame.regular = r.headers

/-- The decoded body of a response is cut off at this length. -/
def h2Limit (r : WireResponse) : Nat :=
  if outside2xx r.status then Limits.errorBodyBytes else Limits.bodyBytes

def h2HeadObjection (r : WireResponse) : Option Objection :=
  if r.listSize > H2.maxHPACKListSize || r.headers.length > Limits.headerFields then some .tooLarge
  else H2.fieldsObjection r.body.length 0 r.headers

/-- What the HTTP/2 lane has against a gzip body, of which it reads no more than one byte over its
limit. -/
def h2GzipObjection (gunzip : GunzipLimited) (r : WireResponse) : Option Objection :=
  match gunzip (r.h2Limit + 1) r.body with
  | none => some .malformed
  | some g =>
    if !g.ok || (g.decoded.length ≤ r.h2Limit && g.unread ≠ 0) then some .malformed
    else if g.decoded.length > r.body.length * Limits.expansionRatio then some .tooLarge
    else if g.decoded.length > r.h2Limit && !outside2xx r.status then some .tooLarge
    else none

def h2BodyObjection (gunzip : GunzipLimited) (r : WireResponse) : Option Objection :=
  match H2.bodyEncoding r.headers with
  | none => some .malformed
  | some .identity => none
  | some .gzip => r.h2GzipObjection gunzip

def h2Objection (gunzip : GunzipLimited) (r : WireResponse) : Option Objection :=
  match r.h2HeadObjection with
  | some o => some o
  | none => r.h2BodyObjection gunzip

def h2Content (gunzip : GunzipLimited) (r : WireResponse) : Bytes :=
  match H2.bodyEncoding r.headers with
  | some .gzip => ((gunzip (r.h2Limit + 1) r.body).map (·.decoded)).getD []
  | _ => r.body

/-- A response whose fields can be expressed in both protocols. -/
structure Expressible (r : WireResponse) : Prop extends r.Sized where
  names : ∀ h ∈ r.headers, h.name ≠ [] ∧ ∀ b ∈ h.name, tokenByte b = true ∧ asciiLower b = b
  values : ∀ h ∈ r.headers, h.value.all fieldByte = true

end WireResponse

namespace H2

theorem digits_statusDigits (hlo : 200 ≤ status) (hhi : status ≤ 599) :
    parseUint 10 63 (statusDigits status) = some status := by
  have hd : ∀ n < 10, digitValue (digitByte n) = some n := by decide
  have h1 := hd (status / 100) (by omega)
  have h2 := hd (status / 10 % 10) (by omega)
  have h3 := hd (status % 10) (by omega)
  have hdigits : digits 10 0 (statusDigits status) = some status := by
    simp only [statusDigits, digits, h1, h2, h3]
    rw [if_pos (by omega), if_pos (by omega), if_pos (by omega)]
    congr 1
    omega
  unfold parseUint
  rw [if_neg (by intro h; cases h), hdigits]
  dsimp only
  rw [if_pos (by omega)]

theorem decodeStatus_statusField (hlo : 200 ≤ status) (hhi : status ≤ 599) :
    decodeStatus [statusField status] = some (status : Int) := by
  unfold decodeStatus statusField
  dsimp only
  rw [if_neg (by simp [statusDigits]), digits_statusDigits hlo hhi]
  dsimp only
  rw [if_neg (by simp only [Bool.or_eq_true, decide_eq_true_eq]; omega)]

/-- The loop over the fields finds what there is to object to, and otherwise the length. -/
theorem decodeFields_spec (length size : Nat) (expected : Option Nat) (fields : List HeaderField)
    (hn : ∀ h ∈ fields, h.name ≠ [] ∧ h.value.all fieldByte = true)
    (hl : ∀ h ∈ fields, h.name = contentLengthField → parseUint 10 63 h.value = some length)
    (hone : expected.isSome = true → ∀ h ∈ fields, h.name ≠ contentLengthField)
    (hcount : (fields.filter fun h => h.name = contentLengthField).length ≤ 1) :
    decodeFields size expected fields =
      match fieldsObjection length size fields with
      | some o => .error o.sessionError
      | none => .ok (if fields.any (fun h => h.name = contentLengthField) then some length
          else expected) := by
  induction fields generalizing size expected with
  | nil => rfl
  | cons h fields ih =>
    obtain ⟨hname, hbytes⟩ := hn h List.mem_cons_self
    have hn' := fun x hx => hn x (List.mem_cons_of_mem h hx)
    have hl' := fun x hx => hl x (List.mem_cons_of_mem h hx)
    have hcond : (h.name = [] || h.name.length > Limits.headerNameBytes ||
        h.value.length > Limits.headerValueBytes || !validUTF8 h.value ||
        !h.value.all fieldByte) =
          (h.name.length > Limits.headerNameBytes ||
            h.value.length > Limits.headerValueBytes || !validUTF8 h.value) := by
      simp only [hname, hbytes, decide_false, Bool.false_or, Bool.not_true, Bool.or_false]
    unfold decodeFields fieldsObjection
    rw [hcond]
    dsimp only
    rw [show size + (h.name.length + 2 + h.value.length + 2) = size + h.size from rfl]
    by_cases hbad : (h.name.length > Limits.headerNameBytes ||
        h.value.length > Limits.headerValueBytes || !validUTF8 h.value) = true
    · rw [if_pos hbad, if_pos hbad]
      rfl
    rw [if_neg hbad, if_neg hbad]
    by_cases hsize : size + h.size > Limits.headerBytes
    · rw [if_pos hsize, if_pos hsize]
      rfl
    rw [if_neg hsize, if_neg hsize]
    by_cases hcl : h.name = contentLengthField
    · have hexpected : expected = none := by
        by_contra hsome
        exact hone (Option.isSome_iff_ne_none.2 hsome) h List.mem_cons_self hcl
      have hrest : ∀ x ∈ fields, x.name ≠ contentLengthField := by
        intro x hx hxl
        rw [List.filter_cons_of_pos (by simpa using hcl), List.length_cons] at hcount
        have hmem : x ∈ fields.filter fun h => h.name = contentLengthField :=
          List.mem_filter.2 ⟨hx, by simpa using hxl⟩
        have := List.length_pos_of_mem hmem
        omega
      have hany : fields.any (fun h => h.name = contentLengthField) = false := by
        rw [List.any_eq_false]
        intro x hx
        simpa using hrest x hx
      rw [if_pos hcl, hexpected, hl h List.mem_cons_self hcl]
      cases hcanon : canonicalDecimal h.value with
      | false => simp [hcl, Objection.sessionError]
      | true =>
        by_cases hlong : length > Limits.bodyBytes
        · simp [hcl, hlong, Objection.sessionError]
        · have hih := ih (size + h.size) (some length) hn' hl' (fun _ => hrest)
            (by rw [List.filter_eq_nil_iff.2 fun x hx => by simpa using hrest x hx]; exact Nat.zero_le _)
          simp [hcl, hlong, hih, hany]
    · have hcount' : (fields.filter fun h => h.name = contentLengthField).length ≤ 1 := by
        rwa [List.filter_cons_of_neg (by simpa using hcl)] at hcount
      have hih := ih (size + h.size) expected hn' hl'
        (fun he x hx => hone he x (List.mem_cons_of_mem h hx)) hcount'
      simp [hcl, hih]

structure Passed (length size : Nat) (fields : List HeaderField) : Prop where
  bytes : size + (fields.map HeaderField.size).sum ≤ Limits.headerBytes
  names : ∀ h ∈ fields, h.name.length ≤ Limits.headerNameBytes
  values : ∀ h ∈ fields, h.value.length ≤ Limits.headerValueBytes ∧ validUTF8 h.value = true
  length : ∀ h ∈ fields, h.name = contentLengthField → length ≤ Limits.bodyBytes

theorem fieldsObjection_none (hsize : size ≤ Limits.headerBytes)
    (h : fieldsObjection length size fields = none) : Passed length size fields := by
  induction fields generalizing size with
  | nil =>
    refine ⟨by simpa using hsize, ?_, ?_, ?_⟩
    all_goals exact fun _ hm => (nomatch hm)
  | cons f fields ih =>
    unfold fieldsObjection at h
    split_ifs at h with hbad hbytes hcanon hlong
    simp only [Bool.or_eq_true, decide_eq_true_eq, Bool.not_eq_true', not_or,
      Bool.not_eq_false] at hbad
    obtain ⟨hb, hn, hv, hl⟩ := ih (by omega) h
    refine ⟨?_, ?_, ?_, ?_⟩
    · rw [List.map_cons, List.sum_cons]
      omega
    · intro x hx
      rcases List.mem_cons.1 hx with rfl | hx
      · omega
      · exact hn x hx
    · intro x hx
      rcases List.mem_cons.1 hx with rfl | hx
      · exact ⟨by omega, hbad.2⟩
      · exact hv x hx
    · intro x hx hxl
      rcases List.mem_cons.1 hx with rfl | hx
      · simp only [hxl, decide_true, Bool.true_and, decide_eq_true_eq] at hlong
        omega
      · exact hl x hx hxl

end H2

namespace WireResponse
variable {r : WireResponse}

theorem Expressible.lower (hr : r.Expressible) (hm : h ∈ r.headers) :
    h.name.map asciiLower = h.name := by
  conv_rhs => rw [← List.map_id h.name]
  exact List.map_congr_left fun b hb => ((hr.names h hm).2 b hb).2

theorem Expressible.contentLength (hr : r.Expressible) :
    ∃ value, ((r.headers.filter fun h => h.name = H2.contentLengthField).map (·.value)) = [value] ∧
      parseUint 10 63 value = some r.body.length := by
  obtain ⟨value, hvalue, hparse⟩ := hr.length
  refine ⟨value, ?_, hparse⟩
  rw [← hvalue]
  congr 1
  refine List.filter_congr fun h hm => ?_
  rw [hr.lower hm]
  exact (Bool.beq_eq_decide_eq ..).symm

theorem Expressible.decodeResponseHeaders (hr : r.Expressible) (hframe : r.Framed frame) :
    H2.decodeResponseHeaders frame =
      match r.h2HeadObjection with
      | some o => .error o.sessionError
      | none => .ok ({ status := r.status, headers := r.headers }, some r.body.length) := by
  obtain ⟨value, hvalue, hparse⟩ := hr.contentLength
  have hfield : ∀ h ∈ r.headers, h.name ≠ [] ∧ h.value.all fieldByte = true :=
    fun h hm => ⟨(hr.names h hm).1, hr.values h hm⟩
  have hlength : ∀ h ∈ r.headers, h.name = H2.contentLengthField →
      parseUint 10 63 h.value = some r.body.length := by
    intro h hm hn
    have hmem : h.value ∈ (r.headers.filter fun h => h.name = H2.contentLengthField).map (·.value) :=
      List.mem_map_of_mem (List.mem_filter.2 ⟨hm, by simpa using hn⟩)
    rw [hvalue, List.mem_singleton] at hmem
    rw [hmem, hparse]
  have hone : (r.headers.filter fun h => h.name = H2.contentLengthField).length ≤ 1 := by
    rw [← List.length_map (·.value), hvalue]
    exact le_refl 1
  have hany : r.headers.any (fun h => h.name = H2.contentLengthField) = true := by
    by_contra hnone
    rw [Bool.not_eq_true, List.any_eq_false] at hnone
    rw [List.filter_eq_nil_iff.2 hnone] at hvalue
    cases hvalue
  have hfields := H2.decodeFields_spec r.body.length 0 none r.headers hfield hlength nofun hone
  rw [hany, if_pos rfl] at hfields
  unfold h2HeadObjection H2.decodeResponseHeaders
  have htruncated := hframe.truncated
  by_cases hlist : r.listSize > H2.maxHPACKListSize
  · rw [htruncated, if_pos (by simpa using hlist),
      if_pos (by simp only [Bool.or_eq_true, decide_eq_true_eq]; exact .inl hlist)]
    rfl
  · have hwhole : frame.truncated = false := by simpa [htruncated] using hlist
    rw [hwhole, if_neg Bool.false_ne_true, hframe.regular hwhole, hframe.pseudos hwhole,
      H2.decodeStatus_statusField hr.status_ge hr.status_le]
    dsimp only
    by_cases hcount : r.headers.length > Limits.headerFields
    · rw [if_pos hcount,
        if_pos (by simp only [Bool.or_eq_true, decide_eq_true_eq]; exact .inr hcount)]
      rfl
    · rw [if_neg hcount,
        if_neg (by simp only [Bool.or_eq_true, decide_eq_true_eq]; exact not_or.2 ⟨hlist, hcount⟩),
        hfields]
      cases H2.fieldsObjection r.body.length 0 r.headers <;> rfl

theorem Expressible.accepted (hr : r.Expressible) (ho : r.h2HeadObjection = none) :
    validateResponseHeaders r.headers = true ∧ r.body.length ≤ Limits.bodyBytes := by
  unfold h2HeadObjection at ho
  split_ifs at ho with hlimits
  simp only [Bool.or_eq_true, decide_eq_true_eq, not_or] at hlimits
  have hp := H2.fieldsObjection_none (Nat.zero_le _) ho
  obtain ⟨value, hvalue, -⟩ := hr.contentLength
  have hexists : ∃ h ∈ r.headers, h.name = H2.contentLengthField := by
    by_contra hnone
    push Not at hnone
    rw [List.filter_eq_nil_iff.2 fun h hm => by simpa using hnone h hm] at hvalue
    cases hvalue
  obtain ⟨h, hm, hn⟩ := hexists
  refine ⟨?_, hp.length h hm hn⟩
  have hlimit : exceedsHeaderLimit r.headers = false := by
    refine exceedsHeaderLimit_eq_false_iff.2 ⟨by omega, by simpa using hp.bytes, ?_⟩
    exact fun x hx => ⟨hp.names x hx, (hp.values x hx).1⟩
  unfold exceedsHeaderLimit at hlimit
  unfold validateResponseHeaders
  rw [hlimit, Bool.not_false, Bool.true_and, List.all_eq_true]
  intro x hx
  obtain ⟨hne, hbytes⟩ := hr.names x hx
  simp only [validResponseHeaderName, validResponseHeaderValue, Bool.and_eq_true, bne_iff_ne,
    decide_eq_true_eq, List.all_eq_true]
  exact ⟨⟨⟨hne, hp.names x hx⟩, fun b hb => (hbytes b hb).1⟩, (hp.values x hx),
    List.all_eq_true.1 (hr.values x hx)⟩

def h2Whole (gunzip : GunzipLimited) (r : WireResponse) : H2.Response where
  status := r.status
  headers := r.headers
  body := (r.h2Content gunzip).take r.h2Limit
  compressedBytes := r.body.length
  decompressedBytes := (r.h2Content gunzip).length
  truncated := (r.h2Content gunzip).length > r.h2Limit

theorem h2Limit_le (r : WireResponse) : r.h2Limit ≤ Limits.bodyBytes := by
  unfold h2Limit
  split <;> decide

theorem success_eq (status : Int) : (200 ≤ status && status < 300) = !outside2xx status := by
  rw [Bool.eq_iff_iff]
  simp only [outside2xx, Bool.and_eq_true, decide_eq_true_eq, Bool.not_eq_true',
    Bool.or_eq_false_iff, decide_eq_false_iff_not]
  omega

theorem limit_eq (r : WireResponse) :
    (if !outside2xx r.status then Limits.bodyBytes else Limits.errorBodyBytes) = r.h2Limit := by
  unfold h2Limit
  cases outside2xx r.status <;> rfl

variable (gunzip : GunzipLimited)

theorem finalizeResponse_spec (hl : r.body.length ≤ Limits.bodyBytes) :
    H2.finalizeResponse gunzip { status := r.status, headers := r.headers, body := r.body } =
      match r.h2BodyObjection gunzip with
      | some o => .error o.sessionError
      | none => .ok (r.h2Whole gunzip) := by
  unfold H2.finalizeResponse h2BodyObjection h2Whole h2Content
  dsimp only
  rw [success_eq, limit_eq]
  cases hencoding : H2.bodyEncoding r.headers with
  | none => rfl
  | some encoding =>
    cases encoding with
    | identity =>
      have hratio : ¬r.body.length > r.body.length * Limits.expansionRatio :=
        Nat.not_lt.2 (Nat.le_mul_of_pos_right _ (by decide))
      have hlimit : ¬(r.body.length > r.h2Limit && !outside2xx r.status) = true := by
        unfold h2Limit
        cases outside2xx r.status with
        | true => simp
        | false => simpa using hl
      dsimp only [H2.decodeBody]
      rw [if_neg hratio, if_neg hlimit]
    | gzip =>
      unfold h2GzipObjection
      dsimp only [H2.decodeBody]
      cases gunzip (r.h2Limit + 1) r.body with
      | none => rfl
      | some g =>
        dsimp only [Option.map_some, Option.getD_some]
        by_cases hok : (!g.ok || (g.decoded.length ≤ r.h2Limit && g.unread ≠ 0)) = true
        · rw [if_pos hok, if_pos hok]
          rfl
        · rw [if_neg hok, if_neg hok]
          dsimp only
          split_ifs <;> rfl

theorem h2Content_bounds (hl : r.body.length ≤ Limits.bodyBytes)
    (hb : r.h2BodyObjection gunzip = none) :
    (r.h2Content gunzip).length ≤ r.body.length * Limits.expansionRatio ∧
      (r.h2Content gunzip).length ≤ Limits.bodyBytes ∧
      (outside2xx r.status = false → (r.h2Content gunzip).length ≤ r.h2Limit) := by
  have hlimit : r.h2Limit + 1 ≤ Limits.bodyBytes + 1 := Nat.succ_le_succ r.h2Limit_le
  unfold h2BodyObjection at hb
  unfold h2Content
  cases hencoding : H2.bodyEncoding r.headers with
  | none =>
    rw [hencoding] at hb
    cases hb
  | some encoding =>
    cases encoding with
    | identity =>
      refine ⟨Nat.le_mul_of_pos_right _ (by decide), hl, fun ho => ?_⟩
      unfold h2Limit
      rw [ho]
      exact hl
    | gzip =>
      rw [hencoding] at hb
      dsimp only at hb ⊢
      unfold h2GzipObjection at hb
      cases hg : gunzip (r.h2Limit + 1) r.body with
      | none =>
        rw [hg] at hb
        cases hb
      | some g =>
        rw [hg] at hb
        dsimp only [Option.map_some, Option.getD_some] at hb ⊢
        split_ifs at hb with h1 h2 h3
        have hdecoded := g.decoded_le
        simp only [Bool.and_eq_true, decide_eq_true_eq, Bool.not_eq_true', not_and] at h3
        refine ⟨by omega, ?_, fun ho => ?_⟩
        · cases ho : outside2xx r.status with
          | true =>
            have herror : r.h2Limit = Limits.errorBodyBytes := by
              rw [h2Limit, ho, if_pos rfl]
            have hsmall : Limits.errorBodyBytes + 1 ≤ Limits.bodyBytes := by decide
            omega
          | false =>
            by_contra hlong
            exact h3 (by omega) ho
        · by_contra hlong
          exact h3 (by omega) ho

theorem h2Response_served (event : SentEvent) (snapshot : HeaderSnapshot) (gunzip : GunzipLimited)
    (hr : r.Expressible) (hh : r.h2HeadObjection = none)
    (hb : r.h2BodyObjection gunzip = none) :
    (h2Response (r.h2Whole gunzip) snapshot).classified event =
      served event r.status r.headers (r.h2Content gunzip) := by
  obtain ⟨hv, hl⟩ := hr.accepted hh
  obtain ⟨hu, hw⟩ := wireStatus_final hr.toSized
  have hcontent : (r.h2Content gunzip).length ≤ r.body.length * Limits.expansionRatio ∧
      (r.h2Content gunzip).length ≤ Limits.bodyBytes ∧
      (outside2xx r.status = false → (r.h2Content gunzip).length ≤ r.h2Limit) :=
    h2Content_bounds gunzip hl hb
  have hst : (h2Response (r.h2Whole gunzip) snapshot).status = r.status := hw
  have hbytes : (h2Response (r.h2Whole gunzip) snapshot).bytes =
      (r.h2Content gunzip).take r.h2Limit := by
    have hbody : (h2Response (r.h2Whole gunzip) snapshot).bytes =
        if unparsable r.status then [] else (r.h2Whole gunzip).body := rfl
    rw [hbody, hu, if_neg Bool.false_ne_true]
    unfold h2Whole
    dsimp only
  have hle : (h2Response (r.h2Whole gunzip) snapshot).bytes.length ≤ maxPayloadBytes := by
    rw [hbytes, List.length_take]
    exact le_trans (min_le_left ..) r.h2Limit_le
  have hclean : (h2Response (r.h2Whole gunzip) snapshot).Clean r.headers := by
    refine ⟨rfl, hv, responseExceedsLimits_within hle rfl rfl hl hcontent.2.1 hcontent.1, rfl, rfl,
      rfl, rfl, rfl, ?_⟩
    intro ho
    rw [hst] at ho
    have := hcontent.2.2 ho
    have ht : (h2Response (r.h2Whole gunzip) snapshot).truncated =
        decide ((r.h2Content gunzip).length > r.h2Limit) := rfl
    rw [ht, decide_eq_false_iff_not]
    omega
  rw [hclean.classified, hst, hbytes]
  unfold served
  cases ho : outside2xx r.status with
  | true => simp only [if_true]
  | false => rw [List.take_of_length_le (hcontent.2.2 ho)]

end WireResponse

def h2Lane (wall : Option Time) (ctx : ContextView) (network : H1.GoError) (committed : Bool)
    (st : H2.Stream) : AttemptOutcome :=
  mapH2Exchange ctx network committed st.response st.err (.ofObserved wall st.observed)

section
variable {r : WireResponse} {s : H2.Shared} {st : H2.Stream} {id : Nat}

/-- However a response is cut into frames, its stream ends with what the lane makes of it. -/
theorem deliver_response (hf : s.Fresh id st) (hr : r.Expressible) (hframe : r.Framed frame)
    (hid : frame.streamID = id) (hend : frame.streamEnded = chunks.isEmpty)
    (hc : (chunks.map Prod.fst).flatten = r.body) :
    ∃ st', (s.receiveAll gunzip (.headers frame :: H2.dataFrames id chunks)).Done id st' ∧
      (st'.response, st'.err) =
        match r.h2Objection gunzip with
        | some o => ({}, some o.sessionError)
        | none => (r.h2Whole gunzip, none) := by
  have hdecode := hr.decodeResponseHeaders hframe
  have hreceive : s.receiveAll gunzip (.headers frame :: H2.dataFrames id chunks) =
      (s.receive gunzip (.headers frame)).receiveAll gunzip (H2.dataFrames id chunks) := rfl
  unfold WireResponse.h2Objection
  rw [hreceive]
  cases hh : r.h2HeadObjection with
  | some o =>
    rw [hh] at hdecode
    have hdone := hf.refuse gunzip hid hdecode
    rw [hdone.receiveAll]
    exact ⟨_, hdone, rfl⟩
  | none =>
    rw [hh] at hdecode
    obtain ⟨-, hl⟩ := hr.accepted hh
    have hfinal : H2.finalized gunzip { status := r.status, headers := r.headers, body := r.body } =
        match r.h2BodyObjection gunzip with
        | some o => ({}, some o.sessionError)
        | none => (r.h2Whole gunzip, none) := by
      unfold H2.finalized
      rw [WireResponse.finalizeResponse_spec gunzip hl]
      cases r.h2BodyObjection gunzip <;> rfl
    have hs : (200 : Int) ≤ r.status := by exact_mod_cast hr.status_ge
    cases chunks with
    | nil =>
      have hbody : r.body = [] := hc.symm
      rw [hbody] at hdecode hfinal
      have hdone := hf.answerAll gunzip hid hdecode hs hend
      refine ⟨_, hdone, ?_⟩
      rw [← hfinal]
    | cons chunk chunks =>
      have hfilling := hf.answer gunzip hid hdecode hs hend
      obtain ⟨st', hdone, hresult, -⟩ := hfilling.all gunzip (chunk :: chunks)
        (List.cons_ne_nil _ _) (by rw [hc]; rfl) hl
      refine ⟨st', hdone, ?_⟩
      rw [hresult, ← hfinal, hc]
      rfl

/-- The HTTP/2 lane refuses what it has an objection to, but forgets the response's status, and
judges the rest by status and content. -/
theorem h2Lane_classified (event : SentEvent) (gunzip : GunzipLimited) (wall : Option Time)
    (ctx : ContextView) (network : H1.GoError) (committed : Bool) (hr : r.Expressible)
    (hst : (st.response, st.err) =
      match r.h2Objection gunzip with
      | some o => ({}, some o.sessionError)
      | none => (r.h2Whole gunzip, none)) :
    (h2Lane wall ctx network committed st).classified event =
      some (match r.h2Objection gunzip with
        | some o => refused 202 o
        | none => served event r.status r.headers (r.h2Content gunzip)) := by
  rw [Prod.mk.injEq] at hst
  obtain ⟨hresponse, herr⟩ := hst
  unfold h2Lane
  rw [hresponse, herr]
  cases ho : r.h2Objection gunzip with
  | some o =>
    cases o with
    | tooLarge =>
      refine congrArg some (AttemptResponse.classified_refused event .tooLarge rfl ?_ ?_ ?_)
      · exact fun _ => rfl
      · exact fun _ => rfl
      · exact nofun
    | malformed =>
      refine congrArg some (AttemptResponse.classified_refused event .malformed rfl ?_ ?_ ?_)
      · exact fun _ => rfl
      · exact nofun
      · exact fun _ => ⟨rfl, rfl, rfl⟩
  | none =>
    have hboth : r.h2HeadObjection = none ∧ r.h2BodyObjection gunzip = none := by
      unfold WireResponse.h2Objection at ho
      cases hh : r.h2HeadObjection with
      | some o =>
        rw [hh] at ho
        cases ho
      | none =>
        rw [hh] at ho
        exact ⟨rfl, ho⟩
    exact congrArg some (WireResponse.h2Response_served event _ gunzip hr hboth.1 hboth.2)

end

end Repost
