import Repost.Http1Reading

namespace Repost.H1
open GoText
set_option autoImplicit true

theorem cutLine_eq (h : cutLine wire = some (line, rest)) :
    ∃ text, line = text ++ [0x0A] ∧ wire = text ++ [0x0A] ++ rest ∧ 0x0A ∉ text := by
  induction wire generalizing line rest with
  | nil => cases h
  | cons b s ih =>
    unfold cutLine at h
    split at h
    · rename_i hb
      rw [beq_iff_eq] at hb
      cases h
      exact ⟨[], by rw [hb]; rfl, by rw [hb]; rfl, List.not_mem_nil⟩
    · rename_i hb
      split at h
      · rename_i line' rest' hs
        cases h
        obtain ⟨text, rfl, rfl, hn⟩ := ih hs
        refine ⟨b :: text, rfl, rfl, ?_⟩
        rw [List.mem_cons, not_or]
        exact ⟨fun he => hb (by rw [← he]; rfl), hn⟩
      · cases h

theorem readLine_eq (h : readLine ending limit wire = .ok (line, rest)) :
    wire = line ++ crlf ++ rest ∧ 0x0A ∉ line ∧ line.length ≤ limit := by
  unfold readLine at h
  split at h
  · rename_i line' rest' hc
    obtain ⟨text, rfl, rfl, hn⟩ := cutLine_eq hc
    split at h
    · cases h
    · rename_i hlen
      split at h
      · cases h
      · rename_i hcr
        cases h
        simp only [List.dropLast_concat, Bool.or_eq_true, not_or, bne_iff_ne, ne_eq,
          not_not] at hcr
        obtain ⟨init, rfl⟩ := List.getLast?_eq_some_iff.1 hcr.2
        simp only [List.dropLast_concat, List.length_append, List.length_cons,
          List.length_nil] at hlen ⊢
        refine ⟨by simp [crlf], fun hm => hn (List.mem_append_left _ hm), by omega⟩
  · split at h <;> cases h

theorem readFull_eq (h : readFull n wire = (data, some rest)) :
    wire = data ++ rest ∧ data.length = n := by
  unfold readFull at h
  split at h
  · cases h
  · cases h
    exact ⟨(List.take_append_drop n wire).symm, List.length_take_of_le (by omega)⟩

/-- `Chunked wire body rest`: the wire starts with a chunked body, up to its terminal chunk and the
empty trailer after it. -/
inductive Chunked : Bytes → Bytes → Bytes → Prop where
  | last (hl : 0x0A ∉ line) (hs : parseUint 16 63 (cut 0x3B line).1 = some 0) :
      Chunked (line ++ crlf ++ (crlf ++ rest)) [] rest
  | chunk (hl : 0x0A ∉ line) (hs : parseUint 16 63 (cut 0x3B line).1 = some data.length)
      (hd : data ≠ []) (h : Chunked wire body rest) :
      Chunked (line ++ crlf ++ (data ++ (crlf ++ wire))) (data ++ body) rest

theorem readChunked_eq (h : readChunked ending fuel before wire = (body, .ok rest))
    (hb : before.length ≤ Limits.bodyBytes) :
    ∃ data, body = before ++ data ∧ Chunked wire data rest ∧ body.length ≤ Limits.bodyBytes := by
  induction fuel generalizing before wire with
  | zero => cases h
  | succ fuel ih =>
    unfold readChunked at h
    split at h
    · cases h
    · rename_i line wire' hline
      obtain ⟨rfl, hl, -⟩ := readLine_eq hline
      split at h
      · cases h
      · rename_i hs
        split at h
        · cases h
        · rename_i trailer wire'' ht
          obtain ⟨rfl, -, -⟩ := readLine_eq ht
          simp only [Prod.mk.injEq] at h
          obtain ⟨rfl, h⟩ := h
          split at h
          · rename_i hn
            cases h
            subst hn
            exact ⟨[], (List.append_nil _).symm, .last hl hs, hb⟩
          · cases h
      · rename_i size hzero hs
        split at h
        · cases h
        · split at h
          · split at h <;> cases h
          · rename_i hsize
            split at h
            · cases h
            · rename_i data wire₁ hdata
              obtain ⟨rfl, hlen⟩ := readFull_eq hdata
              split at h
              · cases h
              · rename_i mark wire₂ hmark
                obtain ⟨rfl, -⟩ := readFull_eq hmark
                split at h
                · rename_i hm
                  subst hm
                  have hfit : (before ++ data).length ≤ Limits.bodyBytes := by
                    rw [List.length_append]
                    omega
                  obtain ⟨tail, rfl, hw, hle⟩ := ih h hfit
                  refine ⟨data ++ tail, List.append_assoc .., .chunk hl ?_ ?_ hw, hle⟩
                  · rw [hs, hlen]
                  · rintro rfl
                    exact hzero hlen.symm
                · cases h

/-- The body that a head announces stands on the wire completely. -/
inductive Head.Complete (head : Head) (body : Bytes) : Prop where
  | sized (rest : Bytes) (hl : singleContentLength head.headers = .ok (some body.length))
      (hw : head.rest = body ++ rest) : Complete head body
  | chunked (rest : Bytes) (ht : transferChunked head.headers = .ok true)
      (hw : Chunked head.rest body rest) : Complete head body

structure Head.Declared (head : Head) : Prop where
  length : singleContentLength head.headers = .ok head.length
  chunked : transferChunked head.headers = .ok head.chunked
  encoding : contentEncoding head.headers = .ok head.encoding

theorem framing_eq (h : framing headers = .ok (length, chunked, encoding)) :
    singleContentLength headers = .ok length ∧ transferChunked headers = .ok chunked ∧
      contentEncoding headers = .ok encoding := by
  unfold framing at h
  split at h
  · cases h
  · cases h
  · rename_i hl ht
    split at h
    · cases h
    · split at h
      · cases h
      · rename_i he
        cases h
        exact ⟨hl, ht, he⟩

theorem readHead_declared (h : readHead ending wire = (response, .ok head)) : head.Declared := by
  unfold readHead at h
  split at h
  · cases h
  · split at h
    · cases h
    · split at h
      · cases h
      · simp only [Prod.mk.injEq] at h
        obtain ⟨-, h⟩ := h
        split at h
        · cases h
        · rename_i hf
          cases h
          obtain ⟨hl, ht, he⟩ := framing_eq hf
          exact ⟨hl, ht, he⟩

theorem readFinalHead_declared (h : readFinalHead ending left wire = (response, .ok head)) :
    head.Declared := by
  obtain ⟨last, _, _, hread, heq | ⟨heq, -⟩⟩ := readFinalHead_last ending left wire
  · cases heq.symm.trans h
  · cases heq.symm.trans h
    exact readHead_declared hread

/-- A body that is read to its end without an error is complete or was never announced. -/
theorem readBody_complete (hd : head.Declared) (hl : head.length.any (· > Limits.bodyBytes) = false)
    (h : readBody ending head = (body, none)) :
    (head.Complete body ∨ body = []) ∧ body.length ≤ Limits.bodyBytes := by
  unfold readBody at h
  split at h
  · rename_i n hn
    split at h
    · cases h
    · rename_i hr
      cases h
      obtain ⟨hw, hlen⟩ := readFull_eq hr
      rw [hn, Option.any_some, decide_eq_false_iff_not] at hl
      refine ⟨.inl (.sized _ ?_ hw), by omega⟩
      rw [hd.length, hn, hlen]
  · split at h
    · rename_i hc
      split at h
      · cases h
      · rename_i hr
        cases h
        obtain ⟨data, rfl, hw, hle⟩ := readChunked_eq hr (Nat.zero_le _)
        refine ⟨.inl (.chunked _ ?_ hw), hle⟩
        rw [hd.chunked, hc]
    · cases h
      exact ⟨.inr rfl, Nat.zero_le _⟩

theorem gunzipLoop_eq (h : gunzipLoop limit ending pieces before = (decoded, none))
    (hb : before.length ≤ limit) (hm : before.length ≤ Limits.bodyBytes) :
    decoded = before ++ pieces.flatten ∧ ending = .inr () ∧ decoded.length ≤ limit ∧
      decoded.length ≤ Limits.bodyBytes := by
  induction pieces generalizing before with
  | nil =>
    unfold gunzipLoop at h
    split at h
    · cases h
    · cases h
      exact ⟨(List.append_nil _).symm, rfl, hb, hm⟩
  | cons piece pieces ih =>
    unfold gunzipLoop at h
    dsimp only at h
    split at h
    · cases h
    · rename_i hlim
      split at h
      · cases h
      · rename_i hmax
        obtain ⟨rfl, he, hl, hx⟩ := ih h (by omega) (by omega)
        have hwhole : piece.take (limit + 1 - before.length) = piece := by
          simp only [List.length_append, List.length_take] at hlim
          exact List.take_of_length_le (by omega)
        rw [hwhole] at hl hx ⊢
        exact ⟨by rw [List.flatten_cons, List.append_assoc], he, hl, hx⟩

/-- The body of a response is the decoding of its wire body, by its declared encoding. -/
inductive Decodes (gzip : GzipReader) : Encoding → Bytes → Bytes → Prop where
  | identity : Decodes gzip .identity body body
  | gzip (g : Gunzip) (hg : gzip body = some g) (hok : g.ok = true) (hu : g.unread = 0) :
      Decodes gzip .gzip body g.pieces.flatten

theorem decodeGzip_eq (h : decodeGzip gzip body = (decoded, none)) :
    Decodes gzip .gzip body decoded ∧ decoded.length ≤ body.length * Limits.expansionRatio ∧
      decoded.length ≤ Limits.bodyBytes := by
  unfold decodeGzip at h
  split at h
  · cases h
  · rename_i g hg
    obtain ⟨hd, he, hl, hm⟩ := gunzipLoop_eq h (Nat.zero_le _) (Nat.zero_le _)
    split at he
    · rename_i hok
      simp only [Bool.and_eq_true, decide_eq_true_eq] at hok
      rw [List.nil_append] at hd
      subst hd
      exact ⟨.gzip g hg hok.1 hok.2, hl, hm⟩
    · cases he

/-- A complete reading: the body of the final head stood on the wire in full and was decoded
within the limits. -/
structure Head.Delivers (gzip : GzipReader) (head : Head) (response : Response) (wire : Bytes) :
    Prop where
  status : response.status = head.status
  headers : response.headers = head.headers
  encoding : contentEncoding head.headers = .ok head.encoding
  complete : head.Complete wire
  decodes : Decodes gzip head.encoding wire response.body
  compressed : response.compressedBytes = wire.length
  decompressed : response.decompressedBytes = response.body.length
  wire_le : wire.length ≤ Limits.bodyBytes
  body_le : response.body.length ≤ Limits.bodyBytes
  ratio : response.body.length ≤ wire.length * Limits.expansionRatio
  untruncated : response.truncated = false

theorem finishResponse_ok (h : finishResponse gzip head response wire = (out, none))
    (hw : wire.length ≤ Limits.bodyBytes) (hb : out.body ≠ []) (hr : response.body = []) :
    out = { response with decompressedBytes := out.body.length, body := out.body } ∧
      Decodes gzip head.encoding wire out.body ∧
      out.body.length ≤ wire.length * Limits.expansionRatio ∧
      out.body.length ≤ Limits.bodyBytes := by
  unfold finishResponse at h
  split at h
  · cases h
  · rename_i decoded hd
    dsimp only at h
    split at h
    · cases h
      exact absurd hr hb
    · cases h
      refine ⟨rfl, ?_⟩
      cases he : head.encoding with
      | identity =>
        rw [he] at hd
        cases hd
        exact ⟨.identity, Nat.le_mul_of_pos_right _ (by decide), hw⟩
      | gzip =>
        rw [he] at hd
        exact decodeGzip_eq hd

theorem readFramedBody_ok (hd : head.Declared)
    (h : readFramedBody gzip ending head head.response = (response, none))
    (hb : response.body ≠ []) : ∃ wire, head.Delivers gzip response wire := by
  unfold readFramedBody at h
  split at h
  · cases h
  · rename_i hl
    split at h
    · cases h
    · split at h
      · dsimp only at h
        split at h <;> cases h
      · rename_i wire hw
        obtain ⟨hc, hle⟩ := readBody_complete hd (Bool.eq_false_iff.2 hl) hw
        obtain ⟨ho, hdec, hratio, hmax⟩ := finishResponse_ok h hle hb rfl
        have hc : head.Complete wire := by
          refine hc.resolve_right fun hn => ?_
          rw [hn, List.length_nil, Nat.zero_mul, Nat.le_zero, List.length_eq_zero_iff] at hratio
          exact hb hratio
        refine ⟨wire, ?_⟩
        constructor
        · rw [ho]
          rfl
        · rw [ho]
          rfl
        · exact hd.encoding
        · exact hc
        · exact hdec
        · rw [ho]
        · rw [ho]
        · exact hle
        · exact hmax
        · exact hratio
        · rw [ho]
          rfl

theorem readResponse_ok (h : (readResponse gzip ending incoming).err = none)
    (hb : (readResponse gzip ending incoming).response.body ≠ []) :
    ∃ head wire, (readResponse gzip ending incoming).final = some head ∧
      head.Delivers gzip (readResponse gzip ending incoming).response wire := by
  unfold readResponse at h hb ⊢
  rcases readFinalHead_cases ending maxInformationalResponses incoming with
    ⟨response, e, hf, -⟩ | ⟨head, hf, -⟩
  · rw [hf] at h
    cases h
  · have hd := readFinalHead_declared hf
    rw [hf] at h hb ⊢
    dsimp only at h hb ⊢
    rcases hr : readFramedBody gzip ending head head.response with ⟨response, err⟩
    rw [hr] at h hb
    obtain rfl : err = none := h
    obtain ⟨wire, hw⟩ := readFramedBody_ok hd hr hb
    exact ⟨head, wire, rfl, hw⟩

theorem readHead_body (ending : GoError) (wire : Bytes) : (readHead ending wire).1.body = [] := by
  unfold readHead
  repeat' split
  all_goals rfl

theorem readFinalHead_body (ending : GoError) (left : Nat) (wire : Bytes) :
    (readFinalHead ending left wire).1.body = [] := by
  obtain ⟨last, response, result, hread, hlast⟩ := readFinalHead_last ending left wire
  have hb := readHead_body ending last
  rw [hread] at hb
  rcases hlast with heq | ⟨heq, -⟩ <;> rw [heq] <;> exact hb

theorem readFramedBody_error_body (h : readFramedBody gzip ending head response = (out, some e))
    (hb : response.body = []) : out.body = [] := by
  unfold readFramedBody at h
  split at h
  · cases h
    exact hb
  · split at h
    · cases h
      exact hb
    · split at h
      · dsimp only at h
        split at h <;> cases h <;> exact hb
      · unfold finishResponse at h
        split at h
        · cases h
          exact hb
        · dsimp only at h
          split at h <;> cases h

theorem readResponse_error_body (h : (readResponse gzip ending incoming).err ≠ none) :
    (readResponse gzip ending incoming).response.body = [] := by
  unfold readResponse at h ⊢
  rcases readFinalHead_cases ending maxInformationalResponses incoming with
    ⟨response, e, hf, -⟩ | ⟨head, hf, -⟩
  · have hb := readFinalHead_body ending maxInformationalResponses incoming
    rw [hf] at hb ⊢
    exact hb
  · rw [hf] at h ⊢
    dsimp only at h ⊢
    rcases hr : readFramedBody gzip ending head head.response with ⟨response, _ | e⟩
    · rw [hr] at h
      exact absurd rfl h
    · exact readFramedBody_error_body hr rfl

end Repost.H1
