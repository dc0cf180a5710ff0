import Repost.DeliveryWalk

namespace Repost
open GoText Traced
set_option autoImplicit true

theorem responseMayHaveBeenAccepted_iff :
    responseMayHaveBeenAccepted status = true ↔
      (200 ≤ status ∧ status < 300) ∨ status = 409 ∨ 500 ≤ status := by
  simp only [responseMayHaveBeenAccepted, Bool.or_eq_true, Bool.and_eq_true, decide_eq_true_eq,
    or_assoc]
  rfl

theorem statusVerdict_cases (hn : ¬ (200 ≤ status ∧ status < 300)) :
    (responseMayHaveBeenAccepted status = true ∧ (statusVerdict status).1 ≠ .proxy ∧
      (statusVerdict status).2.1 = .possiblySent) ∨
    (responseMayHaveBeenAccepted status = false ∧ status = 407 ∧ (statusVerdict status).1 = .proxy ∧
      (statusVerdict status).2.1 = .notSent) ∨
    (responseMayHaveBeenAccepted status = false ∧ status ≠ 407 ∧
      (statusVerdict status).2.1 = .rejected) := by
  have h407 : statusProxyAuthRequired = 407 := rfl
  have h409 : statusConflict = 409 := rfl
  have h429 : statusTooManyRequests = 429 := rfl
  simp only [← Bool.not_eq_true, responseMayHaveBeenAccepted_iff, statusVerdict]
  repeat' split
  all_goals
    first
    | exact .inl ⟨by omega, by decide, rfl⟩
    | exact .inr (.inl ⟨by omega, by omega, rfl, rfl⟩)
    | exact .inr (.inr ⟨by omega, by omega, rfl⟩)

theorem responseState_eq (committedBefore : Bool) (r : AttemptResponse) :
    responseState committedBefore r =
      if r.attemptFailureCode.isSome || responseMayHaveBeenAccepted r.status || committedBefore then
        .possiblySent
      else if r.status = 407 then .notSent else .rejected := by
  unfold responseState
  by_cases h2 : 200 ≤ r.status ∧ r.status < 300
  · have ha : responseMayHaveBeenAccepted r.status = true := by
      simp [responseMayHaveBeenAccepted, h2]
    simp [h2, ha]
  · have hd : (decide (200 ≤ r.status) && decide (r.status < 300)) = false := by
      simpa using h2
    rw [hd, Bool.or_false]
    rcases statusVerdict_cases h2 with ⟨ha, hc, hs⟩ | ⟨ha, h7, hc, hs⟩ | ⟨ha, h7, hs⟩
    · cases committedBefore <;> simp [ha, hs]
    · rw [if_pos h7]
      cases committedBefore <;> simp [ha, hc, hs]
    · cases committedBefore <;> simp [ha, h7, hs]

theorem responseState_open
    (h : committedBefore = true ∨ responseMayHaveBeenAccepted r.status = true) :
    (responseState committedBefore r).Open := by
  rw [responseState_eq, if_pos]
  · exact .inl rfl
  · rcases h with h | h <;> simp [h]

theorem deliveryForCommit_eq_true (h : c = true) : (deliveryForCommit c).Open := by
  rw [h]
  exact deliveryForCommit_open

theorem ownState_open (h : committedBefore = true ∨ s.raises = true) :
    (ownState committedBefore s).Open := by
  cases hm : s.malformed with
  | true =>
    rw [ownState_malformed hm]
    exact .inl rfl
  | false =>
    rcases wellFormed_cases hm with ⟨r, hr, hf, -⟩ | ⟨f, hr, hf, -⟩
    · rw [ownState_response hm hr]
      refine responseState_open (h.imp_right fun h => ?_)
      simpa [Settled.raises, attemptCommitted, hr, hf] using h
    · rw [ownState_failure hm hr hf]
      refine deliveryForCommit_eq_true ?_
      rcases h with h | h <;> simp [h]

theorem Reported.open (h : Reported S d) (hf : floor S = true) : d.Open := by
  cases h with
  | commit hc => exact deliveryForCommit_eq_true hf
  | abort hc =>
    rw [hf]
    exact deliveryForAbort_open
  | own hc =>
    rw [floor_append, floor_singleton, Bool.or_eq_true] at hf
    exact ownState_open hf

theorem Reported.malformed (h : Reported S d) (hs : s ∈ S) (hm : s.malformed = true) :
    d = .possiblySent := by
  have absurd_clean : ∀ {T : List Settled}, s ∈ T → Clean T → d = .possiblySent := by
    intro T hT hc
    rw [hc s hT] at hm
    cases hm
  cases h with
  | commit hc | abort hc => exact absurd_clean hs hc
  | own hc =>
    rcases List.mem_append.1 hs with hs | hs
    · exact absurd_clean hs hc
    · rw [← List.mem_singleton.1 hs]
      exact ownState_malformed hm

/-- An attempt that raises the floor: it ended in time with a well-shaped success, conflict or
server failure, or as a failure after commitment that does not itself deny it. -/
def Settled.Raising (s : Settled) : Prop :=
  (s.completed = true ∧ ∃ r ∈ s.effective.response, validAttemptResponseShape r = true ∧
    ((200 ≤ r.status ∧ r.status < 300) ∨ r.status = 409 ∨ 500 ≤ r.status)) ∨
  ∃ f ∈ s.effective.failure, ¬ (f.code = .dns ∨ f.code = .connect ∨ f.code = .proxy ∨ f.code = .tls) ∧
    (s.tracker = true ∨ (s.completed = true ∧ f.committed = true))

instance (s : Settled) : Decidable s.Raising := inferInstanceAs (Decidable (_ ∨ _))

theorem preCommitFailure_iff :
    preCommitFailure code = true ↔ code = .dns ∨ code = .connect ∨ code = .proxy ∨ code = .tls := by
  cases code <;> decide

variable {s : Settled}

theorem Settled.Raising.raises (h : s.Raising) :
    s.raises = true ∨ s.malformed = true := by
  cases hm : s.malformed with
  | true => exact .inr rfl
  | false =>
    left
    rcases wellFormed_cases hm with ⟨r, hr, hf, -⟩ | ⟨f, hr, hf, -⟩
    · rcases h with ⟨-, r', hr', -, hst⟩ | ⟨f, hf', -⟩
      · obtain rfl : r = r' := Option.some.inj (hr.symm.trans hr')
        have ha := responseMayHaveBeenAccepted_iff.2 hst
        simp [Settled.raises, attemptCommitted, hr, hf, ha]
      · rw [Option.mem_def, hf] at hf'
        cases hf'
    · rcases h with ⟨-, r', hr', -⟩ | ⟨f', hf', hcode, hcom⟩
      · rw [Option.mem_def, hr] at hr'
        cases hr'
      · obtain rfl : f = f' := Option.some.inj (hf.symm.trans hf')
        have hp : preCommitFailure f.code = false :=
          Bool.eq_false_iff.2 fun h => hcode (preCommitFailure_iff.1 h)
        simp only [Settled.raises, attemptCommitted, hr, hf, Option.any_some, hp]
        rcases hcom with h | ⟨-, h⟩ <;> simp [h]

/-- The delivery floor never drops: once an attempt raised it, no error of the operation says that
the request was not sent or was rejected. -/
theorem Operation.delivery_floor_never_drops (o : Operation Schema Data Payload) (w : World)
    (hs : ∃ s ∈ o.settled w, s.Raising) (he : o.error w = some e) : e.deliveryState.Open := by
  obtain ⟨s, hs, hr⟩ := hs
  have hrep := o.reported w he
  rcases hr.raises with h | h
  · exact hrep.open (floor_of_mem hs h)
  · exact .inl (hrep.malformed hs h)

namespace Sample

def codec : Codec Unit Unit Unit where
  validateSchemaDescriptor _ := true
  descriptorFormatVersion _ := 2
  webhooks _ _ := some fun _ => some { type := lit "order.created", model := lit "Order" }
  serializeOperation _ _ _ _ _ := .data ()
  marshalEnvelope _ _ _ _ := some (lit "{}")

def operation : Operation Unit Unit Unit where
  codec := codec
  cfg := { endpoint := lit "https://api.repost.sh", apiKey := lit "rp_key", maxAttempts := 2 }
  permit := { startedNanos := 0, exclusiveDeadline := 120000000000 }
  schema := ()
  group := lit "orders"
  member := lit "created"
  input := { customerID := lit "cus_1", data := (), idempotencyKey := lit "key-1" }

/-- A calm world around a transport that answers the first attempt and the later ones. -/
def world (first later : TransportCall) : World where
  operationID := lit "op_1"
  clock _ := some 1
  generateNow _ := some (lit "2026-01-01T00:00:00Z")
  retryEntropy _ _ := some 0
  sleep _ _ := true
  transport request := if request.attemptNumber = 1 then first else later

def response (status : Int) : TransportCall :=
  { outcome := { response := some { status := status, headers := some [], body := some [] } } }

def acceptance : AttemptResponse where
  status := 202
  headers := some [{ name := lit "content-type", value := lit "application/json" }]
  body := some (lit "\x7b\"id\":\"msg_1\",\"type\":\"order.created\",\"customerId\":\"cus_1\"," ++
    lit "\"timestamp\":\"2026-01-01T00:00:00Z\"\x7d")

def accepts : TransportCall where
  outcome := { response := some acceptance }

def failure (code : ErrorCode) (committed : Bool) : TransportCall :=
  { outcome := { failure := some { code := code, committed := committed } } }

end Sample

theorem Sample.conflict_then_dns :
    ∃ e, Sample.operation.error (Sample.world (Sample.response 409) (Sample.failure .dns false)) =
      some e ∧ e.code = .dns ∧ e.deliveryState.Open := by
  obtain ⟨e, he, hc⟩ : ∃ e ∈ Sample.operation.error
      (Sample.world (Sample.response 409) (Sample.failure .dns false)), e.code = .dns := by
    decide +kernel
  exact ⟨e, he, hc, Sample.operation.delivery_floor_never_drops _ (by decide +kernel) he⟩

/-- After an attempt.end that says possibly sent, no attempt.end, operation.end or returned error
says not sent or rejected. -/
def MonotoneReports (h : List Event) (error : Option Error) : Prop :=
  ∀ g e t, h = g ++ .observer e :: t → e.kind = .attemptEnd →
    e.deliveryState = some .possiblySent →
      (∀ e' ∈ t, e'.endReport ≠ some .notSent ∧ e'.endReport ≠ some .rejected) ∧
      ∀ err, error = some err → err.deliveryState ≠ .notSent ∧ err.deliveryState ≠ .rejected

/-- The outcomes that are reported as possibly sent but do not raise the floor: a committed failure
with a code that denies commitment, and a marked response whose status is not ambiguous. -/
def AttemptOutcome.Discrepant (o : AttemptOutcome) : Prop :=
  (∃ f ∈ o.failure, f.committed = true ∧
    (f.code = .dns ∨ f.code = .connect ∨ f.code = .proxy ∨ f.code = .tls)) ∨
  ∃ r ∈ o.response, r.attemptFailureCode ≠ none ∧
    ¬ ((200 ≤ r.status ∧ r.status < 300) ∨ r.status = 409 ∨ 500 ≤ r.status)

instance (o : AttemptOutcome) : Decidable o.Discrepant := inferInstanceAs (Decidable (_ ∨ _))

theorem DeliveryState.Open.not_denied {d : DeliveryState} (h : d.Open) :
    d ≠ .notSent ∧ d ≠ .rejected := by
  rcases h with rfl | rfl <;> decide

/-- An attempt whose own state is possibly sent raised the floor, unless it is malformed or its
outcome is discrepant. -/
theorem ownState_possiblySent (h : ownState false s = .possiblySent) (hr : s.raises = false) :
    s.malformed = true ∨ s.effective.Discrepant := by
  cases hm : s.malformed with
  | true => exact .inl rfl
  | false =>
    right
    rcases wellFormed_cases hm with ⟨r, hres, hf, -⟩ | ⟨f, hres, hf, -⟩
    · have ha : responseMayHaveBeenAccepted r.status = false := by
        simpa [Settled.raises, attemptCommitted, hres, hf] using hr
      refine .inr ⟨r, hres, ?_, fun hst => ?_⟩
      · intro hn
        rw [ownState_response hm hres, responseState_eq, ha, hn] at h
        revert h
        simp only [Option.isSome_none, Bool.or_self, Bool.false_eq_true, if_false]
        split
        · intro h
          cases h
        · intro h
          cases h
      · rw [responseMayHaveBeenAccepted_iff.2 hst] at ha
        cases ha
    · rw [ownState_failure hm hres hf, hr] at h
      have hcom : f.committed = true := by
        cases hc : f.committed with
        | true => rfl
        | false =>
          rw [hc] at h
          cases h
      refine .inl ⟨f, hf, hcom, preCommitFailure_iff.1 ?_⟩
      simpa [Settled.raises, attemptCommitted, hres, hf, hcom] using hr

theorem Reported.not_denied_after (h : Reported S .possiblySent) (hd : Reported (S ++ T) d)
    (hc : ∀ s ∈ S, ¬ s.effective.Discrepant) : d ≠ .notSent ∧ d ≠ .rejected := by
  cases hf : floor S with
  | true =>
    have hft : floor (S ++ T) = true := by rw [floor_append, hf, Bool.true_or]
    exact (hd.open hft).not_denied
  | false =>
    generalize hp : DeliveryState.possiblySent = p at h
    cases h with
    | commit | abort =>
      rw [hf] at hp
      cases hp
    | own =>
      rename_i S s _
      rw [floor_append, floor_singleton, Bool.or_eq_false_iff] at hf
      rw [hf.1] at hp
      have hs : s ∈ S ++ [s] := by simp
      rcases ownState_possiblySent hp.symm hf.2 with hm | hdis
      · rw [hd.malformed (List.mem_append_left T hs) hm]
        decide
      · exact absurd hdis (hc s hs)

theorem snapshotHeaders_status : (snapshotHeaders r).status = r.status := by
  unfold snapshotHeaders AttemptResponse.markResponseHeaderViolation
  repeat' split
  all_goals rfl

theorem snapshotHeaders_attemptFailureCode :
    (snapshotHeaders r).attemptFailureCode = r.attemptFailureCode := by
  unfold snapshotHeaders AttemptResponse.markResponseHeaderViolation
  repeat' split
  all_goals rfl

theorem snapshotAttemptResponse_status : (snapshotAttemptResponse r).status = r.status := by
  rw [← snapshotHeaders_status (r := r)]
  unfold snapshotAttemptResponse
  dsimp only
  repeat' split
  all_goals rfl

theorem snapshotAttemptResponse_attemptFailureCode :
    (snapshotAttemptResponse r).attemptFailureCode = r.attemptFailureCode := by
  rw [← snapshotHeaders_attemptFailureCode (r := r)]
  unfold snapshotAttemptResponse
  dsimp only
  repeat' split
  all_goals rfl

theorem Settled.From.discrepant (hs : s.From w) (h : s.effective.Discrepant) :
    s.completed = true ∧ s.handed.Discrepant := by
  cases hc : s.completed with
  | false =>
    obtain ⟨c, he, -⟩ := hs.late hc
    rw [he] at h
    rcases h with ⟨f, ⟨⟩, -, hcode⟩ | ⟨r, ⟨⟩, -⟩
    simp at hcode
  | true =>
    refine ⟨rfl, ?_⟩
    rw [(hs.inTime hc).2] at h
    rcases h with h | ⟨r, hr, hcode, hst⟩
    · exact .inl h
    · obtain ⟨r', hr', rfl⟩ := Option.map_eq_some_iff.1 hr
      rw [snapshotAttemptResponse_attemptFailureCode] at hcode
      rw [snapshotAttemptResponse_status] at hst
      exact .inr ⟨r', hr', hcode, hst⟩

/-- Reported delivery states are monotone in every run whose transport hands back no discrepant
outcome in time. -/
theorem Operation.delivery_reports_monotone (o : Operation Schema Data Payload) (w : World)
    (hd : ∀ s ∈ o.settled w, s.completed = true → ¬ s.handed.Discrepant) :
    MonotoneReports (o.log w) (o.error w) := by
  intro g e t hlog hkind hstate
  have hT := o.trail w
  have hrep : Reported (settledOf g) .possiblySent := by
    have hend : (Event.observer e).endReport = some .possiblySent := by
      simp only [Event.endReport, hkind, true_or, if_true, hstate]
    rcases hT.reports g _ t _ hlog hend with h | h
    · cases h
    · exact h
  have hset : o.settled w = settledOf g ++ settledOf (.observer e :: t) := by
    rw [← settledOf_append, ← hlog]
    rfl
  have hclean : ∀ s ∈ settledOf g, ¬ s.effective.Discrepant := by
    intro s hs hdis
    have hmem : s ∈ o.settled w := by
      rw [hset]
      exact List.mem_append_left _ hs
    obtain ⟨hc, hh⟩ := (hT.source s hmem).discrepant hdis
    exact hd s hmem hc hh
  have later : ∀ e' ∈ t, ∀ d, e'.endReport = some d → d ≠ .notSent ∧ d ≠ .rejected := by
    intro e' he' d hr
    obtain ⟨t₁, t₂, rfl⟩ := List.append_of_mem he'
    have hsplit : o.log w = (g ++ .observer e :: t₁) ++ e' :: t₂ := by
      rw [hlog]
      simp
    rcases hT.reports _ e' t₂ d hsplit hr with rfl | h
    · decide
    · rw [settledOf_append] at h
      exact hrep.not_denied_after h hclean
  refine ⟨fun e' he' => ⟨fun h => (later e' he' _ h).1 rfl, fun h => (later e' he' _ h).2 rfl⟩, ?_⟩
  intro err herr
  have h := o.reported w herr
  rw [hset] at h
  exact hrep.not_denied_after h hclean

theorem Sample.conflict_then_dns_monotone :
    MonotoneReports
      (Sample.operation.log (Sample.world (Sample.response 409) (Sample.failure .dns false)))
      (Sample.operation.error (Sample.world (Sample.response 409) (Sample.failure .dns false))) :=
  Sample.operation.delivery_reports_monotone _ (by decide +kernel)

/-- A refused connection after commitment is reported as possibly sent, and then a failed lookup
in the second attempt ends the operation as not sent. -/
theorem Sample.committed_connect_then_dns :
    ¬ MonotoneReports
      (Sample.operation.log (Sample.world (Sample.failure .connect true) (Sample.failure .dns false)))
      (Sample.operation.error
        (Sample.world (Sample.failure .connect true) (Sample.failure .dns false))) := by
  intro h
  have hmem : Event.observer
      { kind := .attemptEnd, timestamp := 1, attemptNumber := 1, outcome := some .retryableFailure,
        errorCode := some .connect, deliveryState := some .possiblySent } ∈
      Sample.operation.log
        (Sample.world (Sample.failure .connect true) (Sample.failure .dns false)) := by
    decide +kernel
  obtain ⟨e, he, hd⟩ : ∃ e ∈ Sample.operation.error
      (Sample.world (Sample.failure .connect true) (Sample.failure .dns false)),
      e.deliveryState = .notSent := by
    decide +kernel
  obtain ⟨g, t, hlog⟩ := List.append_of_mem hmem
  exact ((h g _ t hlog rfl rfl).2 e he).1 hd

/-- The outcome shows that the server may have acted on the request. -/
def AttemptOutcome.Evident (o : AttemptOutcome) : Prop :=
  (∃ r ∈ o.response, (200 ≤ r.status ∧ r.status < 300) ∨ r.status = 409 ∨ 500 ≤ r.status) ∨
  ∃ f ∈ o.failure, f.committed = true ∧
    ¬ (f.code = .dns ∨ f.code = .connect ∨ f.code = .proxy ∨ f.code = .tls)

instance (o : AttemptOutcome) : Decidable o.Evident := inferInstanceAs (Decidable (_ ∨ _))

/-- If some attempt hands back evidence after its deadline, the operation's error is open. -/
def LateEvidenceKept (S : List Settled) (error : Option Error) : Prop :=
  ∀ s ∈ S, s.completed = false → s.handed.Evident → ∀ e, error = some e → e.deliveryState.Open

theorem Settled.From.returned (hs : s.From w) (h : s.handed.Evident) :
    s.callEnd = .returned := by
  have hnone : ¬ ({} : AttemptOutcome).Evident := by decide
  rw [hs.handed] at h
  cases hc : s.callEnd with
  | returned => rfl
  | uncalled | abandoned =>
    rw [hc] at h
    exact absurd h hnone

theorem Settled.From.marked (hs : s.From w)
    (hm : s.callEnd.markedAt (w.transport s.request) = some 0) : s.tracker = true := by
  obtain ⟨look, ht⟩ := hs.tracker
  rw [ht, hm]
  simp [reached]

theorem Settled.From.late_raises (hs : s.From w) (hc : s.completed = false)
    (ht : s.tracker = true) : s.raises = true := by
  obtain ⟨c, he, -⟩ := hs.late hc
  rw [Settled.raises, he, timeout_raises, ht, Bool.true_or]

/-- Evidence in a late outcome is kept in every run in which each transport call that hands it back
has marked its commit tracker by then. -/
theorem Operation.late_evidence_kept (o : Operation Schema Data Payload) (w : World)
    (hm : ∀ s ∈ o.settled w, s.completed = false → s.handed.Evident →
      (w.transport s.request).markedAt = some 0) :
    LateEvidenceKept (o.settled w) (o.error w) := by
  intro s hs hc hev e he
  have hfrom := (o.trail w).source s hs
  have htr : s.tracker = true := hfrom.marked (by
    rw [hfrom.returned hev]
    exact hm s hs hc hev)
  exact (o.reported w he).open (floor_of_mem hs (hfrom.late_raises hc htr))

/-- A success that arrives after the attempt deadline, with and without the tracker marked. -/
def Sample.lateSuccess (markedAt : Option Nat) : TransportCall :=
  { Sample.response 202 with overruns := true, markedAt := markedAt }

theorem Sample.late_success_marked :
    LateEvidenceKept
      (Sample.operation.settled (Sample.world (Sample.lateSuccess (some 0)) (Sample.failure .dns false)))
      (Sample.operation.error
        (Sample.world (Sample.lateSuccess (some 0)) (Sample.failure .dns false))) :=
  Sample.operation.late_evidence_kept _ (by decide +kernel)

theorem Sample.late_success_unmarked :
    ¬ LateEvidenceKept
      (Sample.operation.settled (Sample.world (Sample.lateSuccess none) (Sample.failure .dns false)))
      (Sample.operation.error
        (Sample.world (Sample.lateSuccess none) (Sample.failure .dns false))) := by
  intro h
  obtain ⟨s, hs, hc, hev⟩ : ∃ s ∈ Sample.operation.settled
      (Sample.world (Sample.lateSuccess none) (Sample.failure .dns false)),
      s.completed = false ∧ s.handed.Evident := by
    decide +kernel
  obtain ⟨e, he, hd⟩ : ∃ e ∈ Sample.operation.error
      (Sample.world (Sample.lateSuccess none) (Sample.failure .dns false)),
      e.deliveryState = .notSent := by
    decide +kernel
  have ho := h s hs hc hev e he
  rw [hd] at ho
  exact absurd ho (by decide)

end Repost
