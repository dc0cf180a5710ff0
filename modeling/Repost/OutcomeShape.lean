import Repost.Http1Reading
import Repost.Http2Exchange
import Repost.SessionAnswers

namespace Repost
open GoText Runs
set_option autoImplicit true

namespace HeaderSnapshot

/-- A snapshot agrees with whether one is needed. -/
def fits (snapshot : HeaderSnapshot) (needed : Bool) : Bool :=
  !(snapshot.set != snapshot.receivedAt.isSome ||
    (snapshot.failed && (snapshot.set || snapshot.receivedAt.isSome)) ||
    ((snapshot.set || snapshot.failed) && !needed) ||
    (needed && !snapshot.set && !snapshot.failed))

theorem fits_none (needed : Bool) : ({} : HeaderSnapshot).fits needed = !needed := by
  cases needed <;> rfl

theorem taken_cases (hw : wall ≠ some none)
    (hn : responseNeedsWallSnapshotForStatus status headers = true) :
    (∃ t, snapshotResponseWallTime wall status headers = { receivedAt := some t, set := true }) ∨
      snapshotResponseWallTime wall status headers = { failed := true } := by
  unfold snapshotResponseWallTime
  rw [if_pos hn]
  cases wall with
  | none => exact .inr rfl
  | some t =>
    cases t with
    | none => exact absurd rfl hw
    | some t => exact .inl ⟨t, rfl⟩

theorem not_taken (wall : Option Time)
    (hn : responseNeedsWallSnapshotForStatus status headers = false) :
    snapshotResponseWallTime wall status headers = {} := by
  unfold snapshotResponseWallTime
  rw [hn]
  rfl

theorem fits_taken (hw : wall ≠ some none) (status : Int) (headers : List HeaderField) :
    (snapshotResponseWallTime wall status headers).fits
      (responseNeedsWallSnapshotForStatus status headers) = true := by
  cases hn : responseNeedsWallSnapshotForStatus status headers with
  | false =>
    rw [not_taken wall hn]
    rfl
  | true =>
    rcases taken_cases hw hn with ⟨t, ht⟩ | hf
    · rw [ht]
      rfl
    · rw [hf]
      rfl

theorem fits_unneeded (hw : wall ≠ some none) (status : Int) (headers : List HeaderField) :
    (snapshotResponseWallTime wall status headers).fits false =
      !responseNeedsWallSnapshotForStatus status headers := by
  cases hn : responseNeedsWallSnapshotForStatus status headers with
  | false =>
    rw [not_taken wall hn]
    rfl
  | true =>
    rcases taken_cases hw hn with ⟨t, ht⟩ | hf
    · rw [ht]
      rfl
    · rw [hf]
      rfl

theorem ofObserved_some (wall : Option Time) (status : Int) (headers : List HeaderField) :
    ofObserved wall (some (status, headers)) = snapshotResponseWallTime wall status headers := by
  unfold ofObserved capture
  dsimp only
  cases hn : responseNeedsWallSnapshotForStatus status headers with
  | false =>
    rw [not_taken wall hn]
    rfl
  | true =>
    unfold snapshotResponseWallTime
    rw [if_pos hn]
    cases wall <;> rfl

end HeaderSnapshot

section
variable {r : AttemptResponse}

theorem snapshotHeaders_shape (hb : r.body.isSome = true) :
    validAttemptResponseShape (snapshotHeaders r) = validAttemptResponseShape r ∧
      (snapshotHeaders r).body.isSome = true := by
  obtain ⟨body, hbody⟩ := Option.isSome_iff_exists.1 hb
  unfold snapshotHeaders
  split
  · split
    · exact ⟨rfl, hb⟩
    · unfold AttemptResponse.markResponseHeaderViolation
      split
      · refine ⟨?_, rfl⟩
        unfold validAttemptResponseShape
        simp only [AttemptResponse.fields, hbody, Option.isNone_some]
      · refine ⟨?_, rfl⟩
        unfold validAttemptResponseShape
        simp only [AttemptResponse.fields, hbody, Option.isNone_some]
  · exact ⟨rfl, hb⟩

theorem snapshotAttemptResponse_shape (hb : r.body.isSome = true) :
    validAttemptResponseShape (snapshotAttemptResponse r) = validAttemptResponseShape r := by
  have hs := (snapshotHeaders_shape hb).1
  unfold snapshotAttemptResponse
  dsimp only
  split
  · split
    · exact hs
    · exact hs
  · exact hs

structure AttemptResponse.Carries (r : AttemptResponse) (status : Int) (headers : List HeaderField)
    (snapshot : HeaderSnapshot) : Prop where
  status : r.status = status
  headers : r.headers = some headers
  body : r.body.isSome = true
  compressed : 0 ≤ r.compressedBytes
  decompressed : 0 ≤ r.decompressedBytes
  failureCode : r.attemptFailureCode = none ∨ r.attemptFailureCode = some .attemptTimeout
  receivedAt : r.headersReceivedAt = snapshot.receivedAt
  set : r.headersReceivedAtSet = snapshot.set
  failed : r.headerClockFailed = snapshot.failed

theorem carries_shape (h : r.Carries status headers snapshot) (hlo : 100 ≤ status)
    (hhi : status ≤ 599) :
    validAttemptResponseShape (snapshotAttemptResponse r) =
      snapshot.fits (responseNeedsWallSnapshotForStatus status headers) := by
  obtain ⟨body, hbody⟩ := Option.isSome_iff_exists.1 h.body
  rw [snapshotAttemptResponse_shape h.body]
  have hfields : r.fields = headers := by
    rw [AttemptResponse.fields, h.headers]
    rfl
  have hform : (r.status < 100 || r.status > 599 || r.headers.isNone || r.body.isNone ||
      r.compressedBytes < 0 || r.decompressedBytes < 0 ||
      (r.attemptFailureCode ≠ none && r.attemptFailureCode ≠ some .attemptTimeout)) = false := by
    have hc := h.compressed
    have hd := h.decompressed
    simp only [h.status, h.headers, hbody, Option.isNone_some, Bool.or_eq_false_iff,
      decide_eq_false_iff_not]
    refine ⟨⟨⟨⟨⟨⟨by omega, by omega⟩, trivial⟩, trivial⟩, by omega⟩, by omega⟩, ?_⟩
    rcases h.failureCode with hf | hf
    · rw [hf]
      rfl
    · rw [hf]
      rfl
  unfold validAttemptResponseShape
  dsimp only
  rw [hform, hfields, h.status, h.receivedAt, h.set, h.failed]
  rfl

end

namespace H1

structure Response.HeadOnly (r : Response) : Prop where
  status : (r.status = 0 ∧ r.headers = []) ∨ (100 ≤ r.status ∧ r.status ≤ 599)
  compressed : r.compressedBytes = 0
  decompressed : r.decompressedBytes = 0

theorem readHead_headOnly (ending : GoError) (rest : Bytes) :
    (readHead ending rest).1.HeadOnly := by
  have hempty : ({} : Response).HeadOnly := ⟨.inl ⟨rfl, rfl⟩, rfl, rfl⟩
  unfold readHead
  split
  · exact hempty
  · split
    · exact hempty
    · rename_i hs
      split
      · exact ⟨.inr (parseStatus_range hs), rfl, rfl⟩
      · exact ⟨.inr (parseStatus_range hs), rfl, rfl⟩

theorem readFinalHead_headOnly (ending : GoError) (left : Nat) (rest : Bytes) :
    (readFinalHead ending left rest).1.HeadOnly := by
  induction left generalizing rest with
  | zero =>
    have hread := readHead_headOnly ending rest
    unfold readFinalHead
    split
    · rename_i h
      rw [h] at hread
      exact hread
    · rename_i h
      rw [h] at hread
      split
      · exact hread
      · exact hread
  | succ left ih =>
    have hread := readHead_headOnly ending rest
    unfold readFinalHead
    split
    · rename_i h
      rw [h] at hread
      exact hread
    · rename_i h
      rw [h] at hread
      split
      · exact hread
      · dsimp only
        split
        · exact hread
        · exact ih _

structure Response.Extends (r r' : Response) : Prop where
  status : r'.status = r.status
  headers : r'.headers = r.headers
  compressed : 0 ≤ r.compressedBytes → 0 ≤ r'.compressedBytes
  decompressed : 0 ≤ r.decompressedBytes → 0 ≤ r'.decompressedBytes

theorem finishResponse_extends (gzip : GzipReader) (head : Head) (response : Response)
    (compressed : Bytes) :
    response.Extends (finishResponse gzip head response compressed).1 := by
  unfold finishResponse
  split
  · exact ⟨rfl, rfl, id, fun _ => Int.natCast_nonneg _⟩
  · dsimp only
    split
    · exact ⟨rfl, rfl, id, fun _ => Int.natCast_nonneg _⟩
    · exact ⟨rfl, rfl, id, fun _ => Int.natCast_nonneg _⟩

theorem readFramedBody_extends (gzip : GzipReader) (ending : GoError) (head : Head)
    (response : Response) :
    response.Extends (readFramedBody gzip ending head response).1 := by
  unfold readFramedBody
  split
  · exact ⟨rfl, rfl, fun _ => Int.natCast_nonneg _, id⟩
  · split
    · exact ⟨rfl, rfl, id, id⟩
    · split
      · have hd : ∀ compressed : Bytes,
            0 ≤ (if head.encoding = .identity then (compressed.length : Int) else 0) := by
          intro compressed
          split
          · exact Int.natCast_nonneg _
          · exact le_refl _
        dsimp only
        split
        · exact ⟨rfl, rfl, fun _ => Int.natCast_nonneg _, fun _ => hd _⟩
        · exact ⟨rfl, rfl, fun _ => Int.natCast_nonneg _, fun _ => hd _⟩
      · have he := finishResponse_extends gzip head
          { response with compressedBytes := (List.length ‹Bytes› : Int) } ‹Bytes›
        exact ⟨he.status, he.headers, fun _ => he.compressed (Int.natCast_nonneg _),
          he.decompressed⟩

/-- Reading ended before the head was complete, although the status may be retried and the fields
read so far agree on a date in Retry-After. -/
def Read.Undated (read : Read) : Prop :=
  read.final = none ∧
    responseNeedsWallSnapshotForStatus read.response.status read.response.headers = true

instance (read : Read) : Decidable read.Undated := by
  unfold Read.Undated
  exact inferInstanceAs (Decidable (read.final = none ∧ _))

theorem readResponse_shape (gzip : GzipReader) (ending : GoError) (rest : Bytes) :
    ((readResponse gzip ending rest).final = none ∧
      (readResponse gzip ending rest).response.HeadOnly) ∨
    ∃ head, (readResponse gzip ending rest).final = some head ∧ 200 ≤ head.status ∧
      head.status ≤ 599 ∧ head.response.Extends (readResponse gzip ending rest).response := by
  have honly := readFinalHead_headOnly ending maxInformationalResponses rest
  unfold readResponse
  rcases readFinalHead_cases ending maxInformationalResponses rest with
    ⟨response, e, h, he⟩ | ⟨head, h, hlo, hhi⟩
  · rw [h] at honly ⊢
    exact .inl ⟨rfl, honly⟩
  · rw [h]
    exact .inr ⟨head, rfl, hlo, hhi, readFramedBody_extends ..⟩

end H1

section
variable {r : AttemptResponse} {x : RawExchange} {wall : Option Time}

theorem h1Response_carries (response : H1.Response) (snapshot : HeaderSnapshot)
    (hc : 0 ≤ response.compressedBytes) (hd : 0 ≤ response.decompressedBytes) :
    (h1Response response snapshot).Carries (wireStatus response.status) response.headers snapshot :=
  ⟨rfl, rfl, rfl, hc, hd, .inl rfl, rfl, rfl, rfl⟩

theorem AttemptResponse.Carries.limited (h : r.Carries code list snapshot) (forbidden : Bool) :
    ({ markBodyLimitViolation r with retryForbidden := forbidden } : AttemptResponse).Carries code
      list snapshot := by
  unfold markBodyLimitViolation
  split
  · exact ⟨h.status, h.headers, h.body, h.compressed, h.decompressed, h.failureCode, h.receivedAt,
      h.set, h.failed⟩
  · exact ⟨h.status, h.headers, h.body, h.compressed, h.decompressed, h.failureCode, h.receivedAt,
      h.set, h.failed⟩

theorem mapH1Exchange_carries (hc : 0 ≤ x.response.compressedBytes)
    (hd : 0 ≤ x.response.decompressedBytes) (h : (mapH1Exchange ctx x).response = some r) :
    r.Carries (wireStatus x.response.status) x.response.headers x.headerSnapshot := by
  have hwhole := h1Response_carries x.response x.headerSnapshot hc hd
  have herror : (h1ErrorResponse x).Carries (wireStatus x.response.status) x.response.headers
      x.headerSnapshot := ⟨rfl, rfl, rfl, hc, hd, .inl rfl, rfl, rfl, rfl⟩
  unfold mapH1Exchange at h
  cases he : x.err with
  | none =>
    rw [he] at h
    cases h
    exact hwhole
  | some e =>
    rw [he] at h
    cases e with
    | bodyTooLarge =>
      cases h
      exact herror.limited _
    | expansionRatio | protocol | headerLimit | incompleteBody =>
      cases h
      exact ⟨rfl, rfl, rfl, hc, hd, .inl rfl, rfl, rfl, rfl⟩
    | io e =>
      dsimp only at h
      split at h
      · rename_i htime
        simp only [Bool.and_eq_true, decide_eq_true_eq] at htime
        cases h
        exact ⟨rfl, rfl, rfl, hc, hd, .inr (congrArg some htime.1.1), rfl, rfl, rfl⟩
      · cases h

theorem mapH1Exchange_unread (ctx : ContextView) (committed : Bool) (e : H1.GoError) :
    (mapH1Exchange ctx { committed := committed, err := some (.io e) }).response = none := by
  unfold mapH1Exchange
  dsimp only
  rw [if_neg]
  · rfl
  · simp

theorem responseNeedsWallSnapshotForStatus_nil (status : Int) :
    responseNeedsWallSnapshotForStatus status [] = false := by
  unfold responseNeedsWallSnapshotForStatus
  exact Bool.and_false _

theorem wireStatus_range (status : Int) : 100 ≤ wireStatus status ∧ wireStatus status ≤ 599 := by
  unfold wireStatus unparsable
  split
  · decide
  · rename_i h
    simp only [Bool.or_eq_true, decide_eq_true_eq, not_or] at h
    omega

theorem H1.Response.HeadOnly.needs {response : H1.Response} (h : response.HeadOnly) :
    responseNeedsWallSnapshotForStatus (wireStatus response.status) response.headers =
      responseNeedsWallSnapshotForStatus response.status response.headers := by
  rcases h.status with ⟨-, hnil⟩ | ⟨hlo, hhi⟩
  · rw [hnil, responseNeedsWallSnapshotForStatus_nil, responseNeedsWallSnapshotForStatus_nil]
  · rw [wireStatus_of_range hlo hhi]

/-- Over HTTP/1.1 an outcome is well shaped unless the head that was cut short has a date. -/
theorem h1_shape_iff (hw : wall ≠ some none)
    (h : (mapH1Exchange ctx
      { exchangeH1 gzip connection wire wall with committed := committed }).response = some r) :
    validAttemptResponseShape (snapshotAttemptResponse r) = true ↔
      ¬(H1.readResponse gzip connection.ending
        (connection.buffered ++ connection.incoming)).Undated := by
  have hshape := H1.readResponse_shape gzip connection.ending
    (connection.buffered ++ connection.incoming)
  unfold exchangeH1 at h
  split at h
  · rw [mapH1Exchange_unread] at h
    cases h
  · split at h
    · rw [mapH1Exchange_unread] at h
      cases h
    · generalize H1.readResponse gzip connection.ending
        (connection.buffered ++ connection.incoming) = read at h hshape ⊢
      have hrange := wireStatus_range read.response.status
      rcases hshape with ⟨hnone, hhead⟩ | ⟨head, hsome, hlo, hhi, hx⟩
      · have hr := mapH1Exchange_carries (by rw [hhead.compressed]) (by rw [hhead.decompressed]) h
        dsimp only at hr
        rw [hnone] at hr
        rw [carries_shape hr hrange.1 hrange.2, HeaderSnapshot.fits_none, Bool.not_eq_true',
          hhead.needs]
        unfold H1.Read.Undated
        rw [hnone, ← Bool.not_eq_true]
        exact not_congr (and_iff_right rfl).symm
      · have hr := mapH1Exchange_carries (hx.compressed (le_refl 0)) (hx.decompressed (le_refl 0)) h
        have hstatus : wireStatus read.response.status = head.status := by
          rw [hx.status]
          exact wireStatus_of_range (le_trans (by decide) hlo) hhi
        dsimp only at hr
        rw [hsome] at hr
        rw [carries_shape hr hrange.1 hrange.2, hstatus, hx.headers]
        refine iff_of_true (HeaderSnapshot.fits_taken hw head.status head.headers) ?_
        rintro ⟨hnone, -⟩
        rw [hsome] at hnone
        cases hnone

end

section
variable {r : AttemptResponse} {wall : Option Time}

theorem h2Response_carries (response : H2.Response) (snapshot : HeaderSnapshot)
    (hc : 0 ≤ response.compressedBytes) (hd : 0 ≤ response.decompressedBytes) :
    (h2Response response snapshot).Carries (wireStatus response.status) response.headers snapshot :=
  ⟨rfl, rfl, rfl, hc, hd, .inl rfl, rfl, rfl, rfl⟩

theorem mapH2Exchange_carries
    (h : (mapH2Exchange ctx network committed {} (some e) snapshot).response = some r) :
    r.Carries 202 [] snapshot := by
  have hempty := h2Response_carries {} snapshot (le_refl 0) (le_refl 0)
  unfold mapH2Exchange at h
  dsimp only at h
  split at h
  · cases h
    exact hempty.limited _
  · split at h
    · cases h
      exact ⟨rfl, rfl, rfl, le_refl 0, le_refl 0, .inl rfl, rfl, rfl, rfl⟩
    · split at h
      · cases h
      · split at h
        · cases h
        · split at h
          · rename_i htime
            simp at htime
          · cases h

def H2.Session.observed (s : H2.Session) (c : H2.Call) : Option (Int × List HeaderField) :=
  (s.shared.object c.stream).bind (·.observed)

/-- The request ended in an error after it had been shown headers with a date and a status that may
be retried. -/
def H2.Session.Outdated (s : H2.Session) (c : H2.Call)
    (result : Except H2.SessionError H2.Response) : Prop :=
  (∃ e, result = .error e) ∧ ∃ status headers, s.observed c = some (status, headers) ∧
    responseNeedsWallSnapshotForStatus status headers = true

/-- Over HTTP/2 an outcome is well shaped unless an error discards headers with a date. -/
theorem h2_shape_iff {s : H2.Session} {c : H2.Call} {i : Nat} (hw : wall ≠ some none)
    (hs : (H2.session gunzip).Reachable System.Any s) (hi : s.calls[i]? = some c)
    (hp : c.point = .returned result)
    (h : (mapH2Result ctx network committed result
      (.ofObserved wall (s.observed c))).response = some r) :
    validAttemptResponseShape (snapshotAttemptResponse r) = true ↔ ¬s.Outdated c result := by
  unfold H2.Session.Outdated
  cases result with
  | error e =>
    have hr := mapH2Exchange_carries h
    rw [carries_shape hr (by decide) (by decide), responseNeedsWallSnapshotForStatus_nil]
    cases ho : s.observed c with
    | none =>
      refine iff_of_true rfl ?_
      rintro ⟨-, status, headers, hnone, -⟩
      cases hnone
    | some shown =>
      obtain ⟨status, headers⟩ := shown
      rw [HeaderSnapshot.ofObserved_some, HeaderSnapshot.fits_unneeded hw, Bool.not_eq_true',
        ← Bool.not_eq_true]
      refine not_congr ⟨fun hn => ⟨⟨e, rfl⟩, status, headers, rfl, hn⟩, ?_⟩
      rintro ⟨-, status', headers', heq, hn⟩
      cases heq
      exact hn
  | ok response =>
    obtain ⟨hproper, st, ho, hv⟩ := H2.returned_observed hs hi hp
    have hobserved : s.observed c = some (response.status, response.headers) := by
      unfold H2.Session.observed
      rw [ho]
      exact hv
    rw [hobserved, HeaderSnapshot.ofObserved_some] at h
    cases h
    have hr := h2Response_carries response
      (snapshotResponseWallTime wall response.status response.headers) hproper.compressed
      hproper.decompressed
    have hrange := wireStatus_range response.status
    rw [carries_shape hr hrange.1 hrange.2,
      wireStatus_of_range (le_trans (by decide) hproper.status_ge) hproper.status_le]
    refine iff_of_true (HeaderSnapshot.fits_taken hw response.status response.headers) ?_
    rintro ⟨⟨e, he⟩, -⟩
    cases he

end

/-- Every outcome of the built-in transport, over either protocol, is well shaped exactly when no
date is read from a head that is cut short and none is discarded after an error. -/
theorem outcomes_well_shaped_iff (wall : Option Time) (hw : wall ≠ some none) :
    (∀ gzip connection wire ctx committed r,
      (mapH1Exchange ctx
        { exchangeH1 gzip connection wire wall with committed := committed }).response = some r →
      (validAttemptResponseShape (snapshotAttemptResponse r) = true ↔
        ¬(H1.readResponse gzip connection.ending
          (connection.buffered ++ connection.incoming)).Undated)) ∧
    ∀ gunzip (s : H2.Session) (i : Nat) (c : H2.Call) result ctx network committed r,
      (H2.session gunzip).Reachable System.Any s → s.calls[i]? = some c →
      c.point = .returned result →
      (mapH2Result ctx network committed result
        (.ofObserved wall (s.observed c))).response = some r →
      (validAttemptResponseShape (snapshotAttemptResponse r) = true ↔ ¬s.Outdated c result) :=
  ⟨fun _ _ _ _ _ _ h => h1_shape_iff hw h,
    fun _ _ _ _ _ _ _ _ _ hs hi hp h => h2_shape_iff hw hs hi hp h⟩

namespace Sample

def retryLine : Bytes := lit "retry-after: Wed, 21 Oct 2015 07:28:00 GMT\r\n"

/-- A server that is unavailable until a date, and what it says next. -/
def dated (next : Bytes) : RawH1Connection where
  incoming := lit "HTTP/1.1 503 Service Unavailable\r\n" ++ retryLine ++ next

def wireRequest : H1.Request where
  target := lit "/"
  authority := lit "h"
  authorization := lit "a"
  userAgent := lit "u"
  idempotencyKey := lit "k"
  body := []

def datedHeaders (ended : Bool) : H2.Incoming :=
  .headers
    { streamID := 1
      pseudos := [⟨lit ":status", lit "503"⟩]
      regular := [⟨lit "retry-after", lit "Wed, 21 Oct 2015 07:28:00 GMT"⟩]
      streamEnded := ended }

def requesting : List H2.Act :=
  [.start [104] [], .call 0 .go, .call 0 .go, .call 0 .go, .writer .go, .writer .go, .writer .go,
    .writer .go, .call 0 .go]

def datedTwice : List H2.Act :=
  requesting ++ [.receive (datedHeaders false), .reader .go, .reader .go,
    .receive (datedHeaders false), .reader .go, .reader .go, .call 0 .go]

def datedOnce : List H2.Act :=
  requesting ++ [.receive (datedHeaders true), .reader .go, .reader .go, .reader .go, .call 0 .go]

end Sample

/-- A header line without a colon after the date, and a second header block after it. -/
theorem dated_outcomes_misshapen :
    (∃ r, (mapH1Exchange {} (exchangeH1 (fun _ => none) (Sample.dated (lit "bad\r\n\r\n"))
        Sample.wireRequest (some (some 0)))).response = some r ∧
      validAttemptResponseShape (snapshotAttemptResponse r) = false) ∧
    ∃ s c result r, (H2.session H2.Sample.noGunzip).Reachable System.Any s ∧
      s.calls[0]? = some c ∧ c.point = .returned result ∧
      (mapH2Result {} {} true result
        (.ofObserved (some (some 0)) (s.observed c))).response = some r ∧
      validAttemptResponseShape (snapshotAttemptResponse r) = false := by
  constructor
  · refine ⟨_, rfl, ?_⟩
    decide +kernel
  · have hreach : ∀ s, (H2.session H2.Sample.noGunzip).exec System.Any {} Sample.datedTwice =
        some s → (H2.session H2.Sample.noGunzip).Reachable System.Any s :=
      fun _ h => System.exec_reachable ⟨[], rfl⟩ h
    refine ⟨_, _, _, _, hreach _ rfl, rfl, rfl, rfl, ?_⟩
    decide +kernel

theorem dated_outcomes_well_shaped :
    (∃ r, (mapH1Exchange {} (exchangeH1 (fun _ => none)
        (Sample.dated (lit "content-length: 0\r\n\r\n")) Sample.wireRequest
        (some (some 0)))).response = some r ∧
      validAttemptResponseShape (snapshotAttemptResponse r) = true) ∧
    ∃ s c result r, (H2.session H2.Sample.noGunzip).Reachable System.Any s ∧
      s.calls[0]? = some c ∧ c.point = .returned result ∧
      (mapH2Result {} {} true result
        (.ofObserved (some (some 0)) (s.observed c))).response = some r ∧
      validAttemptResponseShape (snapshotAttemptResponse r) = true := by
  obtain ⟨h1, h2⟩ := outcomes_well_shaped_iff (some (some 0)) nofun
  constructor
  · refine ⟨_, rfl, (h1 (fun _ => none) (Sample.dated (lit "content-length: 0\r\n\r\n"))
      Sample.wireRequest {} true _ rfl).2 ?_⟩
    decide +kernel
  · have hreach : ∀ s, (H2.session H2.Sample.noGunzip).exec System.Any {} Sample.datedOnce =
        some s → (H2.session H2.Sample.noGunzip).Reachable System.Any s :=
      fun _ h => System.exec_reachable ⟨[], rfl⟩ h
    refine ⟨_, _, _, _, hreach _ rfl, rfl, rfl, rfl,
      (h2 H2.Sample.noGunzip _ 0 _ _ {} {} true _ (hreach _ rfl) rfl rfl rfl).2 ?_⟩
    rintro ⟨⟨e, he⟩, -⟩
    cases he

end Repost
