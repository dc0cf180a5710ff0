import Repost.Folding
import Repost.Http1
import Repost.Http2Framing

namespace Repost
open GoText
set_option autoImplicit true

/-- There is one value, and it is the text up to blanks around it and ASCII case. -/
def Spells (trim : Bytes → Bytes) (values : List Bytes) (text : Bytes) : Prop :=
  ∃ value, values = [value] ∧ Folds text (trim value)

/-- What a reading of the content-encoding values may depend on. -/
structure EncodingByAscii (trim : Bytes → Bytes) (values : List Bytes)
    (reading : Option Encoding) : Prop where
  gzip : reading = some .gzip → Spells trim values (lit "gzip")
  identity : reading = some .identity →
    values = [] ∨ Spells trim values [] ∨ Spells trim values (lit "identity")
  rejected : ∀ value ∈ values, ¬Ascii value → reading = none

namespace H2

def encodingValues (headers : List HeaderField) : List Bytes :=
  (headers.filter (fun h => h.name == lit "content-encoding")).map (·.value)

end H2

/-- Every reader of a header list recognizes encodings in ASCII only. -/
structure AsciiOnly (headers : List HeaderField) : Prop where
  http1 : EncodingByAscii trimOWS (H1.valuesOf headers (lit "content-encoding"))
    (H1.contentEncoding headers).toOption
  factory : EncodingByAscii trimOWS (H1.valuesOf headers (lit "content-encoding"))
    (responseContentEncoding headers)
  http2 : EncodingByAscii H2.trimSpace (H2.encodingValues headers) (H2.bodyEncoding headers)
  finalized : ∀ gunzip response, response.headers = headers →
    (∃ value ∈ H2.encodingValues headers, ¬Ascii value) →
      H2.finalizeResponse gunzip response = .error .responseProtocol
  chunked : H1.transferChunked headers = .ok true →
    Spells id (H1.valuesOf headers (lit "transfer-encoding")) (lit "chunked")
  chunkedRejected : ∀ value ∈ H1.valuesOf headers (lit "transfer-encoding"), ¬Ascii value →
    H1.transferChunked headers = .error .protocol

/-- The only content-encoding value has a dotted capital I for an i of gzip or identity, or the
only transfer-encoding value has a Kelvin sign for the k of chunked. -/
def Confusable (headers : List HeaderField) : Prop :=
  (∃ value, H1.valuesOf headers (lit "content-encoding") = [value] ∧ ¬Ascii value ∧
    (Folds (lit "gzip") (dottedAsI (trimOWS value)) ∨
      Folds (lit "identity") (dottedAsI (trimOWS value)))) ∨
  ∃ value, H1.valuesOf headers (lit "transfer-encoding") = [value] ∧ ¬Ascii value ∧
    Folds (lit "chunked") (kelvinAsK value)

theorem codings_lower : Lower (lit "gzip") ∧ Lower (lit "identity") ∧ Lower (lit "chunked") := by
  decide +kernel

theorem codings_trimmed : Trimmed (lit "gzip") ∧ Trimmed (lit "identity") := by
  refine ⟨⟨?_, ?_⟩, ⟨?_, ?_⟩⟩ <;> decide +kernel

theorem encodingOf_gzip (h : encodingOf value = some .gzip) :
    Folds (lit "gzip") (dottedAsI value) := by
  unfold encodingOf at h
  split_ifs at h with hi hg
  · cases h
  · exact (lowersTo_dotted codings_lower.1 (by decide)).1 hg

theorem encodingOf_identity (h : encodingOf value = some .identity) :
    Folds (lit "identity") (dottedAsI value) := by
  unfold encodingOf at h
  split_ifs at h with hi hg
  · exact (lowersTo_dotted codings_lower.2.1 (by decide)).1 hi
  · cases h

theorem encodingOf_some (h : Folds (lit "gzip") (dottedAsI value) ∨
    Folds (lit "identity") (dottedAsI value)) : encodingOf value ≠ none := by
  unfold encodingOf
  rw [← lowersTo_dotted codings_lower.1 (by decide),
    ← lowersTo_dotted codings_lower.2.1 (by decide)] at h
  split_ifs with hi hg
  · nofun
  · nofun
  · exact absurd h (not_or.2 ⟨hg, hi⟩)

theorem EncodingByAscii.single {values : List Bytes} (hv : values = [value])
    (hr : reading = encodingOf seen)
    (ha : Folds (lit "gzip") (dottedAsI seen) ∨ Folds (lit "identity") (dottedAsI seen) →
      Ascii value ∧ Ascii seen ∧ seen = trim value) : EncodingByAscii trim values reading := by
  subst hr hv
  constructor
  · intro h
    have hf := encodingOf_gzip h
    obtain ⟨-, hs, htrim⟩ := ha (.inl hf)
    rw [hs.dotted, htrim] at hf
    exact ⟨value, rfl, hf⟩
  · intro h
    have hf := encodingOf_identity h
    obtain ⟨-, hs, htrim⟩ := ha (.inr hf)
    rw [hs.dotted, htrim] at hf
    exact .inr (.inr ⟨value, rfl, hf⟩)
  · intro v hm hwide
    cases List.mem_singleton.1 hm
    match h : encodingOf seen with
    | none => rfl
    | some .gzip => exact absurd (ha (.inl (encodingOf_gzip h))).1 hwide
    | some .identity => exact absurd (ha (.inr (encodingOf_identity h))).1 hwide

theorem EncodingByAscii.absent : EncodingByAscii trim [] (some .identity) := by
  constructor
  · nofun
  · exact fun _ => .inl rfl
  · exact fun _ hm => absurd hm List.not_mem_nil

theorem EncodingByAscii.refused (values : List Bytes) : EncodingByAscii trim values none := by
  constructor
  · nofun
  · nofun
  · exact fun _ _ _ => rfl

theorem contentEncoding_ascii (h : ¬Confusable headers) :
    EncodingByAscii trimOWS (H1.valuesOf headers (lit "content-encoding"))
      (H1.contentEncoding headers).toOption := by
  rcases hv : H1.valuesOf headers (lit "content-encoding") with _ | ⟨value, _ | ⟨second, others⟩⟩
  · unfold H1.contentEncoding
    rw [hv]
    exact .absent
  · have hr : (H1.contentEncoding headers).toOption = encodingOf value := by
      unfold H1.contentEncoding
      rw [hv]
      dsimp only
      cases encodingOf value <;> rfl
    refine .single rfl hr fun hf => ?_
    have htrim : Trimmed value := by
      rcases hf with hf | hf
      · exact dottedAsI_trimmed (hf.trimmed codings_trimmed.1)
      · exact dottedAsI_trimmed (hf.trimmed codings_trimmed.2)
    have ha : Ascii value := by
      by_contra hwide
      rw [← htrim.trimOWS] at hf
      exact h (.inl ⟨value, hv, hwide, hf⟩)
    exact ⟨ha, ha, htrim.trimOWS.symm⟩
  · unfold H1.contentEncoding
    rw [hv]
    exact .refused _

theorem headerValues_valuesOf (headers : List HeaderField) (name : Bytes) :
    headerValues headers name = (H1.valuesOf headers name).map trimOWS := by
  unfold headerValues H1.valuesOf
  rw [List.map_map]
  rfl

theorem responseContentEncoding_ascii (h : ¬Confusable headers) :
    EncodingByAscii trimOWS (H1.valuesOf headers (lit "content-encoding"))
      (responseContentEncoding headers) := by
  unfold responseContentEncoding
  rw [headerValues_valuesOf]
  match hv : H1.valuesOf headers (lit "content-encoding") with
  | [] => exact .absent
  | [value] =>
    refine .single rfl rfl fun hf => ?_
    have ha : Ascii value := by
      by_contra hwide
      exact h (.inl ⟨value, hv, hwide, hf⟩)
    exact ⟨ha, ha.trimOWS, rfl⟩
  | first :: second :: others => exact .refused _

namespace H2

theorem trimSpace_sub (s : Bytes) : ∀ b ∈ trimSpace s, b ∈ s := by
  intro b hb
  have hm := (List.dropWhile_sublist _).subset (List.mem_reverse.1 hb)
  exact (List.dropWhile_sublist _).subset (List.mem_reverse.1 hm)

theorem any_wide (s : Bytes) : s.any (fun b => b > 0x7F) = true ↔ ¬Ascii s := by
  have hb : ∀ b : UInt8, b > 0x7F ↔ ¬b < 0x80 := by
    intro b
    rw [UInt8.not_lt]
    exact ⟨fun h => h, fun h => h⟩
  simp [Ascii, hb]

theorem bodyEncoding_ascii (headers : List HeaderField) :
    EncodingByAscii trimSpace (encodingValues headers) (bodyEncoding headers) := by
  unfold bodyEncoding encodingValues
  generalize headers.filter (fun h => h.name == lit "content-encoding") = fields
  match fields with
  | [] => exact .absent
  | [field] =>
    dsimp only
    split
    · exact .refused _
    · rename_i hwide
      rw [any_wide, not_not] at hwide
      split
      · rename_i hempty
        constructor
        · nofun
        · exact fun _ => .inr (.inl ⟨field.value, rfl, by rw [hempty]; rfl⟩)
        · intro v hm hn
          cases List.mem_singleton.1 hm
          exact absurd hwide hn
      · refine .single rfl rfl fun _ => ⟨hwide, ?_, rfl⟩
        exact fun b hb => hwide b (trimSpace_sub _ b hb)
  | first :: second :: others => exact .refused _

end H2

theorem transferChunked_single (h : H1.valuesOf headers (lit "transfer-encoding") = [value]) :
    H1.transferChunked headers =
      if Folds (lit "chunked") (kelvinAsK value) then .ok true else .error .protocol := by
  unfold H1.transferChunked
  rw [h]
  dsimp only
  rw [if_congr (equalFold_kelvin codings_lower.2.2 (by decide)) rfl rfl]

theorem transferChunked_ascii (h : ¬Confusable headers) :
    (H1.transferChunked headers = .ok true →
      Spells id (H1.valuesOf headers (lit "transfer-encoding")) (lit "chunked")) ∧
    ∀ value ∈ H1.valuesOf headers (lit "transfer-encoding"), ¬Ascii value →
      H1.transferChunked headers = .error .protocol := by
  rcases hv : H1.valuesOf headers (lit "transfer-encoding") with _ | ⟨value, _ | ⟨second, others⟩⟩
  · unfold H1.transferChunked
    rw [hv]
    exact ⟨fun h => (by cases h), fun _ hm => absurd hm List.not_mem_nil⟩
  · rw [transferChunked_single hv]
    have ha : Folds (lit "chunked") (kelvinAsK value) → Ascii value := by
      intro hf
      by_contra hwide
      exact h (.inr ⟨value, hv, hwide, hf⟩)
    constructor
    · intro hok
      by_cases hf : Folds (lit "chunked") (kelvinAsK value)
      · have hsame := (kelvinAsK_cases value).resolve_right fun hk => hk.1 (ha hf)
        rw [hsame] at hf
        exact ⟨value, rfl, hf⟩
      · rw [if_neg hf] at hok
        cases hok
    · intro v hm hwide
      cases List.mem_singleton.1 hm
      rw [if_neg fun hf => hwide (ha hf)]
  · unfold H1.transferChunked
    rw [hv]
    exact ⟨fun h => (by cases h), fun _ _ _ => rfl⟩

theorem finalizeResponse_wide (hh : response.headers = headers)
    (h : ∃ value ∈ H2.encodingValues headers, ¬Ascii value) :
    H2.finalizeResponse gunzip response = .error .responseProtocol := by
  obtain ⟨value, hm, hwide⟩ := h
  have hnone := (H2.bodyEncoding_ascii headers).rejected value hm hwide
  unfold H2.finalizeResponse
  rw [hh, hnone]

/-- Encodings are recognized in ASCII only, exactly when no value is confusable. -/
theorem ascii_only_iff (headers : List HeaderField) : AsciiOnly headers ↔ ¬Confusable headers := by
  constructor
  · rintro h (⟨value, hv, hwide, hf⟩ | ⟨value, hv, hwide, hf⟩)
    · have hnone := h.factory.rejected value (hv ▸ List.mem_singleton_self value) hwide
      unfold responseContentEncoding at hnone
      rw [headerValues_valuesOf, hv] at hnone
      exact encodingOf_some hf hnone
    · have herr := h.chunkedRejected value (hv ▸ List.mem_singleton_self value) hwide
      rw [transferChunked_single hv, if_pos hf] at herr
      cases herr
  · intro h
    exact { http1 := contentEncoding_ascii h
            factory := responseContentEncoding_ascii h
            http2 := H2.bodyEncoding_ascii headers
            finalized := fun _ _ hh => finalizeResponse_wide hh
            chunked := (transferChunked_ascii h).1
            chunkedRejected := (transferChunked_ascii h).2 }

/-- A response whose content-encoding is gzip with a dotted capital I and whose transfer-encoding
is chunked with a Kelvin sign. -/
def disguised : List HeaderField :=
  [{ name := lit "Content-Encoding", value := lit "gz\u0130p" },
   { name := lit "Transfer-Encoding", value := lit "chun\u212Aed" }]

/-- Both disguises are taken for the real thing, by the HTTP/1.1 reader and by the factory. -/
theorem disguised_accepted :
    (∀ h ∈ disguised, validUTF8 h.value = true ∧ ¬Ascii h.value) ∧
      H1.contentEncoding disguised = .ok .gzip ∧
      responseContentEncoding disguised = some .gzip ∧
      H1.transferChunked disguised = .ok true ∧
      ¬AsciiOnly disguised := by
  refine ⟨by decide +kernel, by decide +kernel, by decide +kernel, by decide +kernel, ?_⟩
  intro h
  have hgzip := h.http1.rejected (lit "gz\u0130p") (by decide +kernel) (by decide +kernel)
  exact absurd hgzip (by decide +kernel)

end Repost
