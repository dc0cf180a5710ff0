import Repost.OperationReplay

namespace Repost
open GoText Traced
set_option autoImplicit true

def Closer.quiet (c : Closer) : Closer := { c with fails := false }

def AttemptResponse.quiet (r : AttemptResponse) : AttemptResponse :=
  { r with closer := r.closer.map Closer.quiet }

def AttemptOutcome.quiet (o : AttemptOutcome) : AttemptOutcome :=
  { o with response := o.response.map AttemptResponse.quiet }

def TransportCall.quiet (call : TransportCall) : TransportCall :=
  { call with outcome := call.outcome.quiet }

/-- The same world with a transport none of whose responses fails to close. -/
def World.quiet (w : World) : World :=
  { w with transport := fun q => (w.transport q).quiet }

def Attempted.quiet (a : Attempted) : Attempted := { a with outcome := a.outcome.quiet }

def Settled.quiet (s : Settled) : Settled :=
  { s with handed := s.handed.quiet, effective := s.effective.quiet }

def Event.quiet : Event → Option Event
  | .settled s => some (.settled s.quiet)
  | .responseCloseFailure => none
  | e => some e

def quietView : View World OpState Event where
  tick := fun _ => 0
  seen := fun s _ => s
  erase := Event.quiet
  peer w w₀ := w₀ = w.quiet
  agrees := fun _ _ _ _ => True

abbrev Hushes (w : World) (g : α → β) (m : Op α) (m₀ : Op β) : Prop := Replays quietView w g m m₀

theorem Hushes.run (h : Hushes w g m m₀) (hrun : m w s = (r, s', t)) :
    m₀ w.quiet s = (r.map g, s', t.filterMap Event.quiet) := by
  obtain ⟨l, hl, hreplay⟩ := h hrun
  have hnil : l = [] := by
    cases l with
    | nil => rfl
    | cons i l => exact absurd (hl.within i List.mem_cons_self).2 (Nat.not_lt_zero i)
  subst hnil
  exact hreplay w.quiet 0 rfl trivial

theorem Hushes.of_eq {m : Op α} {m₀ : Op β}
    (h : ∀ s r s' t, m w s = (r, s', t) → m₀ w.quiet s = (r.map g, s', t.filterMap Event.quiet)) :
    Hushes w g m m₀ := by
  intro s r s' t hrun
  refine ⟨[], .nil (le_refl _), fun w₀ j hp _ => ?_⟩
  obtain rfl : w₀ = w.quiet := hp
  exact h s r s' t hrun

section Responses
variable {r : AttemptResponse}

theorem markResponseHeaderViolation_quiet :
    r.quiet.markResponseHeaderViolation fields size =
      (r.markResponseHeaderViolation fields size).quiet := by
  show (if responseHeadersExceedLimit r.fields fields size then _ else _) =
    (if responseHeadersExceedLimit r.fields fields size then _ else _ : AttemptResponse).quiet
  split <;> rfl

theorem snapshotHeaders_quiet : snapshotHeaders r.quiet = (snapshotHeaders r).quiet := by
  unfold snapshotHeaders
  rw [show r.quiet.headers = r.headers from rfl]
  cases r.headers with
  | none => rfl
  | some headers =>
    dsimp only
    split
    · rfl
    · exact markResponseHeaderViolation_quiet

theorem snapshotAttemptResponse_quiet :
    snapshotAttemptResponse r.quiet = (snapshotAttemptResponse r).quiet := by
  unfold snapshotAttemptResponse
  rw [snapshotHeaders_quiet]
  generalize snapshotHeaders r = snapshot
  show (if !snapshot.normalized && !snapshot.protocolViolation && !snapshot.limitViolation &&
      responseExceedsLimits snapshot then
    if responseContentEncoding snapshot.fields = some .gzip then _ else _ else _) = _
  dsimp only
  split
  · split <;> rfl
  · rfl

theorem validateAttemptResponse_quiet :
    validateAttemptResponse r.quiet eventType customerID timestamp =
      validateAttemptResponse r eventType customerID timestamp := rfl

theorem malformedOutcome_quiet (o : AttemptOutcome) :
    malformedOutcome o.quiet = malformedOutcome o := by
  rcases o with ⟨_ | r, f⟩ <;> rfl

theorem attemptCommitted_quiet (o : AttemptOutcome) :
    attemptCommitted o.quiet tracker = attemptCommitted o tracker := by
  rcases o with ⟨_ | r, f⟩ <;> rfl

theorem attempted_quiet : attempted callEnd completed call.quiet =
    (attempted callEnd completed call).quiet := by
  cases callEnd <;> rfl

end Responses

section Hushes
variable {w : World}

theorem hushes_look {f f₀ : World → Nat → α} (hf : ∀ i, f₀ w.quiet i = f w i) :
    Hushes w id (observe f) (observe f₀) := by
  refine .of_eq fun s r s' t h => ?_
  cases h
  show ((.ok (f₀ w.quiet s.tick), { s with tick := s.tick + 1 }, []) :
    Except Stop α × OpState × List Event) = _
  rw [hf]
  rfl

theorem quiet_sameAnswers (w : World) (i : Nat) : SameAnswers w i w.quiet i :=
  ⟨rfl, rfl, rfl, rfl, rfl, rfl, rfl, rfl, rfl, rfl, rfl⟩

theorem quiet_mirrors : Mirrors quietView w where
  look := fun hf => hushes_look fun i => hf w.quiet i i (quiet_sameAnswers w i)
  identity := by
    intro α f
    refine .ask fun w₀ _ _ hp => ?_
    obtain rfl : w₀ = w.quiet := hp
    rfl
  event := by
    intro e _ _ hh
    cases e <;> first | rfl | cases hh

theorem callMonotonicClock_hushes : Hushes w id callMonotonicClock callMonotonicClock :=
  .andThen (hushes_look fun _ => rfl) fun _ => .andThen (.emit rfl) fun _ => .pure

theorem modify_hushes {f : OpState → OpState} :
    Hushes w id (Prog.modify f : Op Unit) (Prog.modify f) :=
  .modify (fun _ => rfl) fun _ _ => rfl

theorem get_hushes {k : OpState → Op α} {k₀ : OpState → Op β} {g : α → β}
    (hk : ∀ s, Hushes w g (k s) (k₀ s)) : Hushes w g (Prog.get >>= k) (Prog.get >>= k₀) := by
  refine .of_eq fun s r s' t h => ?_
  exact (hk s).run (get_run h)

theorem sample_hushes : Hushes w id sample sample :=
  .andThen callMonotonicClock_hushes fun _ => .andThen modify_hushes fun _ => get_hushes fun _ => .pure

theorem emitAt_hushes : Hushes w id (emitAt cfg e timestamp) (emitAt cfg e timestamp) :=
  .ite (.emit rfl) .pure

theorem emit_hushes : Hushes w id (emit cfg e) (emit cfg e) :=
  .ite (.andThen sample_hushes fun _ => emitAt_hushes) .pure

theorem callTelemetry_hushes : Hushes w id (callTelemetry hook) (callTelemetry hook) := by
  refine .andThen (hushes_look fun _ => rfl) fun _ => .ite .pure ?_
  exact .andThen (.emit rfl) fun _ => .pure

theorem startObservability_hushes :
    Hushes w id (startObservability cfg permit) (startObservability cfg permit) := by
  refine .andThen modify_hushes fun _ => .andThen emit_hushes fun _ => .ite ?_ .pure
  refine .andThen callTelemetry_hushes fun _ => .ite ?_ .pure
  refine .andThen (.emit rfl) fun _ => .andThen modify_hushes fun _ => ?_
  exact .andThen callTelemetry_hushes fun _ => modify_hushes

theorem attemptHeaders_hushes : Hushes w id (attemptHeaders k) (attemptHeaders k) := by
  refine .andThen callTelemetry_hushes fun _ => .ite ?_ .pure
  refine .andThen (.emit rfl) fun _ => .andThen modify_hushes fun _ => ?_
  apply Replays.andThen (hushes_look fun _ => rfl)
  intro pairs
  cases pairs with
  | none => exact .andThen (.emit rfl) fun _ => .pure
  | some pairs => exact .pure

theorem startAttempt_hushes : Hushes w id (startAttempt cfg k) (startAttempt cfg k) := by
  refine get_hushes fun _ => .ite .pure ?_
  refine .andThen modify_hushes fun _ => .andThen sample_hushes fun _ => ?_
  refine .andThen modify_hushes fun _ => .andThen emit_hushes fun _ => ?_
  exact get_hushes fun _ => .ite attemptHeaders_hushes .pure

theorem observedOutcome_hushes : Hushes w id (observedOutcome err) (observedOutcome err) :=
  .ite (.andThen (hushes_look fun _ => rfl) fun _ => .pure) .pure

theorem endSpan_hushes (he : e.quiet = some e) :
    Hushes w id (endSpan held e hook) (endSpan held e hook) := by
  refine .ite (.andThen (.emit he) fun _ => ?_) .pure
  exact .andThen callTelemetry_hushes fun _ => .pure

theorem endAttempt_hushes :
    Hushes w id (endAttempt cfg err retryable) (endAttempt cfg err retryable) := by
  refine get_hushes fun _ => .ite .pure ?_
  refine .andThen sample_hushes fun _ => .andThen observedOutcome_hushes fun _ => ?_
  refine .andThen modify_hushes fun _ => .andThen emit_hushes fun _ => ?_
  exact .andThen (endSpan_hushes rfl) fun _ => modify_hushes

theorem finish_hushes : Hushes w id (finish cfg err) (finish cfg err) := by
  refine get_hushes fun _ => .ite .pure ?_
  refine .andThen modify_hushes fun _ => .andThen endAttempt_hushes fun _ => ?_
  refine .andThen observedOutcome_hushes fun _ => .andThen (.ite emit_hushes .pure) fun _ => ?_
  refine .andThen sample_hushes fun _ => get_hushes fun _ => ?_
  exact .andThen (endSpan_hushes rfl) fun _ => emitAt_hushes

theorem quiet_reports : SeesReports quietView w cfg cfg.telemetry where
  endAttempt := fun _ _ => endAttempt_hushes
  reportRetry := fun _ _ => get_hushes fun _ => .ite .pure emit_hushes

theorem failAttempt_hushes : Hushes w id
    (do
      endAttempt cfg err retryable
      fail e : Op α)
    (do
      endAttempt cfg err retryable
      fail e) :=
  quiet_reports.failAttempt

variable (response : Option AttemptResponse)

/-- A failure to close is counted and has no other effect. -/
theorem closeResponse_hushes : Hushes w id (closeResponse response)
    (closeResponse (response.map AttemptResponse.quiet)) := by
  have hquiet : (response.map AttemptResponse.quiet).bind (·.closer) =
      (response.bind (·.closer)).map Closer.quiet := by
    cases response <;> rfl
  unfold closeResponse
  rw [hquiet]
  cases response.bind (·.closer) with
  | none => exact .pure
  | some closer =>
    refine .andThen (g := id) (get_hushes fun _ => .ite .pure ?_) fun _ => ?_
    · exact .andThen modify_hushes fun _ => .emit rfl
    · refine Hushes.of_eq fun s r s' t h => ?_
      cases hf : closer.fails with
      | false | true =>
        rw [hf] at h
        cases h
        rfl

theorem retryOrFail_hushes : Hushes w id
    (retryOrFail cfg permit e response attempt committed)
    (retryOrFail cfg permit e (response.map AttemptResponse.quiet) attempt committed) := by
  refine quiet_reports.retryOrFail quiet_mirrors ?_ ?_
  · rw [Option.isSome_map]
  · cases response <;> rfl

theorem handleResponse_hushes : Hushes w id
    (handleResponse cfg permit p attempt before committed r)
    (handleResponse cfg permit p attempt before committed r.quiet) := by
  refine .andThen quiet_mirrors.operationID fun _ => ?_
  refine .andThen (closeResponse_hushes (some r)) fun _ => ?_
  rw [validateAttemptResponse_quiet]
  cases validateAttemptResponse r p.eventType p.customerID p.timestamp with
  | error e => exact retryOrFail_hushes (some r)
  | ok result =>
    apply Replays.andThen quiet_mirrors.deadlineTerminal
    intro terminal
    cases terminal with
    | some e => exact failAttempt_hushes
    | none => exact .andThen endAttempt_hushes fun _ => .pure

theorem rejectMalformed_hushes : Hushes w id
    (rejectMalformed cfg p attempt response)
    (rejectMalformed cfg p attempt (response.map AttemptResponse.quiet)) :=
  .andThen quiet_mirrors.operationID fun _ =>
    .andThen (closeResponse_hushes _) fun _ => failAttempt_hushes

theorem classify_hushes : Hushes w id
    (classify cfg permit p attempt before committed outcome)
    (classify cfg permit p attempt before committed outcome.quiet) := by
  unfold classify
  rw [malformedOutcome_quiet]
  refine .ite (rejectMalformed_hushes _) ?_
  rcases outcome with ⟨_ | r, _ | f⟩
  · exact rejectMalformed_hushes none
  · exact .andThen quiet_mirrors.operationID fun _ => retryOrFail_hushes none
  · exact handleResponse_hushes
  · exact handleResponse_hushes

theorem boundedAttemptCall_hushes :
    Hushes w Attempted.quiet (boundedAttemptCall request) (boundedAttemptCall request) := by
  have hcall : Hushes w TransportCall.quiet (Prog.ask fun w _ => w.transport request)
      (Prog.ask fun w _ => w.transport request) := by
    refine .of_eq fun s r s' t h => ?_
    cases h
    rfl
  have hend : ∀ callEnd completed call, Hushes w Attempted.quiet
      (pure (attempted callEnd completed call)) (pure (attempted callEnd completed call.quiet)) := by
    intro callEnd completed call
    rw [attempted_quiet]
    exact .pure
  refine .andThen hcall fun call => .andThen quiet_mirrors.deadlineDone fun _ => ?_
  refine .ite (hend ..) ?_
  refine .andThen (.emit rfl) fun _ => .andThen (.emit rfl) fun _ => ?_
  refine .andThen quiet_mirrors.deadlineDone fun _ => .ite (hend ..) ?_
  exact .andThen (.emit rfl) fun _ => hend ..

theorem lateOutcome_hushes : Hushes w AttemptOutcome.quiet
    (lateOutcome cfg permit p request committed a)
    (lateOutcome cfg permit p request committed a.quiet) := by
  refine .andThen (closeResponse_hushes _) fun _ => ?_
  apply Replays.andThen quiet_mirrors.preAttemptTerminal
  intro terminal
  cases terminal with
  | none => exact .pure
  | some e =>
    refine .andThen (.emit rfl) fun _ => .andThen endAttempt_hushes fun _ => ?_
    exact .stop

theorem attemptOutcome_hushes : Hushes w AttemptOutcome.quiet
    (attemptOutcome cfg permit p request committed a)
    (attemptOutcome cfg permit p request committed a.quiet) := by
  refine .ite ?_ lateOutcome_hushes
  have hsame : ∀ o : AttemptOutcome,
      ({ o.quiet with response := o.quiet.response.map snapshotAttemptResponse } : AttemptOutcome) =
        AttemptOutcome.quiet { o with response := o.response.map snapshotAttemptResponse } := by
    rintro ⟨_ | r, f⟩
    · rfl
    · show AttemptOutcome.mk (some (snapshotAttemptResponse r.quiet)) f = _
      rw [snapshotAttemptResponse_quiet]
      rfl
  rw [show a.quiet.outcome = a.outcome.quiet from rfl, hsame]
  exact .pure

theorem settle_hushes : Hushes w Settled.quiet (settle cfg permit p request committed)
    (settle cfg permit p request committed) := by
  refine .andThen boundedAttemptCall_hushes fun a => .andThen attemptOutcome_hushes fun outcome => ?_
  refine .andThen (g := id) ?_ fun _ => .andThen (.emit rfl) fun _ => .pure
  unfold countHeaderLimit
  rcases outcome with ⟨_ | r, f⟩
  · exact .ite (.emit rfl) .pure
  · exact .ite (.emit rfl) .pure

theorem attemptOnce_hushes : Hushes w id (attemptOnce cfg permit p k committed)
    (attemptOnce cfg permit p k committed) := by
  refine .andThen quiet_mirrors.operationID fun _ => .andThen quiet_mirrors.checkTerminal fun _ => ?_
  refine .andThen callMonotonicClock_hushes fun reading => ?_
  refine .andThen quiet_mirrors.checkTerminal fun _ => ?_
  cases reading with
  | none => exact .stop
  | some now =>
    refine .andThen startAttempt_hushes fun _ => .andThen settle_hushes fun s => ?_
    show Hushes w id _ (classify cfg permit p k committed
      (committed || attemptCommitted s.effective.quiet s.tracker) s.effective.quiet)
    rw [attemptCommitted_quiet]
    exact classify_hushes

theorem attemptLoop_hushes : Hushes w id (attemptLoop cfg permit p left k committed)
    (attemptLoop cfg permit p left k committed) := by
  induction left generalizing k committed with
  | zero => exact .stop
  | succ left ih =>
    apply Replays.andThen attemptOnce_hushes
    intro verdict
    cases verdict with
    | accepted result => exact .pure
    | retry committed => exact ih

theorem sendAdmitted_hushes {codec : Codec Schema Data Payload} : Hushes w id
    (sendAdmitted codec cfg permit schema group member input)
    (sendAdmitted codec cfg permit schema group member input) := by
  have hcodec : SeesCodec quietView codec codec w :=
    ⟨⟨rfl, rfl, rfl, rfl⟩, fun _ _ _ _ => hushes_look fun _ => rfl⟩
  refine .andThen quiet_mirrors.checkTerminal fun _ =>
    .andThen startObservability_hushes fun _ => .defer ?_ fun result => ?_
  · exact .andThen (quiet_mirrors.prepare (b := cfg.telemetry) hcodec) fun _ => attemptLoop_hushes
  · have hsame : result.map id = result := by
      cases result <;> rfl
    rw [hsame]
    exact finish_hushes

end Hushes

end Repost
