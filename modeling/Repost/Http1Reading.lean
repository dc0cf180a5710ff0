import Repost.Http1

namespace Repost.H1
open GoText
set_option autoImplicit true

theorem parseStatus_range (h : parseStatus line = some status) : 100 ≤ status ∧ status ≤ 599 := by
  unfold parseStatus at h
  split at h
  · rename_i a b c after _
    split at h
    · rename_i hc
      simp only [Bool.and_eq_true, decide_eq_true_eq, isDigit] at hc
      cases h
      have ha := hc.1.1.1.1.2
      have ha' := hc.1.1.1.2
      have hb := hc.1.1.2
      have hc' := hc.1.2
      simp only [UInt8.le_iff_toNat_le, UInt8.reduceToNat] at ha ha' hb hc'
      omega
    · cases h
  · cases h

def Head.response (head : Head) : Response := { status := head.status, headers := head.headers }

theorem readHead_ok (h : readHead ending rest = (response, .ok head)) :
    response = head.response ∧ 100 ≤ head.status ∧ head.status ≤ 599 := by
  unfold readHead at h
  split at h
  · cases h
  · split at h
    · cases h
    · rename_i status hs
      have hrange := parseStatus_range hs
      split at h
      · cases h
      · simp only [Prod.mk.injEq] at h
        obtain ⟨rfl, h⟩ := h
        split at h
        · cases h
        · cases h
          exact ⟨rfl, hrange⟩

def Err.Early (ending : GoError) (e : Err) : Prop :=
  e = .protocol ∨ e = .headerLimit ∨ e = .io ending

theorem readLine_error (h : readLine ending limit rest = .error e) : e.Early ending := by
  unfold readLine at h
  repeat' split at h
  all_goals cases h
  all_goals simp [Err.Early]

theorem parseHeader_error (h : parseHeader line = .error e) : e.Early ending := by
  unfold parseHeader at h
  dsimp only at h
  repeat' split at h
  all_goals cases h
  all_goals simp [Err.Early]

theorem readHeaders_error (h : readHeaders ending left headers size rest = (headers', .error e)) :
    e.Early ending := by
  induction left generalizing headers size rest with
  | zero =>
    unfold readHeaders at h
    split at h
    · cases h
      exact readLine_error ‹_›
    · cases h
    · cases h
      exact .inr (.inl rfl)
  | succ left ih =>
    unfold readHeaders at h
    split at h
    · cases h
      exact readLine_error ‹_›
    · cases h
    · dsimp only at h
      split at h
      · cases h
        exact parseHeader_error ‹_›
      · split at h
        · cases h
          exact .inr (.inl rfl)
        · exact ih h

theorem framing_error (h : framing headers = .error e) : e = .protocol := by
  unfold framing at h
  split at h
  · cases h
    rename_i hl
    unfold singleContentLength at hl
    repeat' split at hl
    all_goals cases hl
    all_goals rfl
  · cases h
    rfl
  · split at h
    · cases h
      rfl
    · split at h
      · cases h
        rename_i he
        unfold contentEncoding at he
        repeat' split at he
        all_goals cases he
        all_goals rfl
      · cases h

theorem readHead_error (h : readHead ending rest = (response, .error e)) : e.Early ending := by
  unfold readHead at h
  split at h
  · cases h
    exact readLine_error ‹_›
  · split at h
    · cases h
      exact .inl rfl
    · split at h
      · cases h
        exact readHeaders_error ‹_›
      · simp only [Prod.mk.injEq] at h
        obtain ⟨-, h⟩ := h
        split at h
        · cases h
          exact .inl (framing_error ‹_›)
        · cases h

/-- The last head that was read decides: it is bad, one too many, or the final one. -/
theorem readFinalHead_last (ending : GoError) (left : Nat) (rest : Bytes) :
    ∃ wire response result, readHead ending wire = (response, result) ∧
      (readFinalHead ending left rest = (response, .error .protocol) ∨
        readFinalHead ending left rest = (response, result) ∧
          ∀ head, result = .ok head → head.status < 100 ∨ head.status ≥ 200) := by
  induction left generalizing rest with
  | zero =>
    unfold readFinalHead
    split
    · exact ⟨rest, _, _, ‹_›, .inr ⟨rfl, nofun⟩⟩
    · refine ⟨rest, _, _, ‹_›, ?_⟩
      split
      · rename_i hs
        simp only [Bool.or_eq_true, decide_eq_true_eq] at hs
        exact .inr ⟨rfl, fun head hh => Except.ok.inj hh ▸ hs⟩
      · exact .inl rfl
  | succ left ih =>
    unfold readFinalHead
    split
    · exact ⟨rest, _, _, ‹_›, .inr ⟨rfl, nofun⟩⟩
    · rename_i head hread
      dsimp only
      split
      · rename_i hs
        simp only [Bool.or_eq_true, decide_eq_true_eq] at hs
        exact ⟨rest, _, _, hread, .inr ⟨rfl, fun head hh => Except.ok.inj hh ▸ hs⟩⟩
      · split
        · exact ⟨rest, _, _, hread, .inl rfl⟩
        · exact ih head.rest

/-- Before the final head a response ends only early; the final head is a final status. -/
theorem readFinalHead_cases (ending : GoError) (left : Nat) (rest : Bytes) :
    (∃ response e, readFinalHead ending left rest = (response, .error e) ∧ e.Early ending) ∨
      ∃ head, readFinalHead ending left rest = (head.response, .ok head) ∧
        200 ≤ head.status ∧ head.status ≤ 599 := by
  obtain ⟨wire, response, result, hread, heq | ⟨heq, hfinal⟩⟩ := readFinalHead_last ending left rest
  · exact .inl ⟨response, _, heq, .inl rfl⟩
  · cases result with
    | error e => exact .inl ⟨response, e, heq, readHead_error hread⟩
    | ok head =>
      obtain ⟨rfl, hlo, hhi⟩ := readHead_ok hread
      have hs := hfinal head rfl
      exact .inr ⟨head, heq, by omega, hhi⟩

theorem finishResponse_status :
    (finishResponse gzip head response compressed).1.status = response.status := by
  unfold finishResponse
  split
  · rfl
  · dsimp only
    split <;> rfl

theorem readFramedBody_status :
    (readFramedBody gzip ending head response).1.status = response.status := by
  unfold readFramedBody
  split
  · rfl
  · split
    · rfl
    · split
      · dsimp only
        split <;> rfl
      · exact finishResponse_status

theorem readResponse_cases (gzip : GzipReader) (ending : GoError) (rest : Bytes) :
    ((readResponse gzip ending rest).final = none ∧
      ∃ e, (readResponse gzip ending rest).err = some e ∧ e.Early ending) ∨
    ∃ head, (readResponse gzip ending rest).final = some head ∧
      (readResponse gzip ending rest).response.status = head.status ∧
      200 ≤ head.status ∧ head.status ≤ 599 := by
  unfold readResponse
  rcases readFinalHead_cases ending maxInformationalResponses rest with
    ⟨response, e, h, he⟩ | ⟨head, h, hlo, hhi⟩
  · rw [h]
    exact .inl ⟨rfl, e, rfl, he⟩
  · rw [h]
    refine .inr ⟨head, rfl, ?_, hlo, hhi⟩
    exact readFramedBody_status

end Repost.H1
