import Repost.AttemptRuns

namespace Repost
open GoText Traced
set_option autoImplicit true

/-- An event handed to the observer, if there is one, behind the clock sample of its timestamp. -/
def announced (cfg : RuntimeConfig) (e : ObserverEvent) (reading : Option Int) (timestamp : Int) :
    List Event :=
  if cfg.observer then [.clock reading, .observer { e with timestamp := timestamp }] else []

def Flaky (t : List Event) : Prop := t = [] ∨ t = [.telemetryFailure]

theorem reports_field {s u : OpState} (h : s.reports = u.reports) (f : OpState → α)
    (hf : ∀ s : OpState, f s.reports = f s := by exact fun _ => rfl) : f s = f u := by
  rw [← hf s, h, hf]

theorem sample_run (h : sample w s = (r, s', t)) :
    ∃ reading a, r = .ok a ∧ s.lastTimestamp ≤ a ∧ t = [.clock reading] ∧
      s'.reports = ({ s with lastTimestamp := a } : OpState).reports := by
  obtain ⟨t', hk, rfl⟩ := clock_bind h
  have hk := modify_run hk
  have hk := get_run hk
  cases hk
  refine ⟨w.clock s.tick, _, rfl, ?_, rfl, ?_⟩
  · cases w.clock s.tick with
    | none => exact le_refl _
    | some now =>
      dsimp only
      split
      · rename_i hlt
        exact le_of_lt hlt
      · exact le_refl _
  · cases w.clock s.tick with
    | none => rfl
    | some now =>
      dsimp only
      split <;> rfl

theorem sample_bind {k : Int → Op β} (h : (sample >>= k) w s = (r, s', t)) :
    ∃ reading a s₁ t', s.lastTimestamp ≤ a ∧ t = .clock reading :: t' ∧
      s₁.reports = ({ s with lastTimestamp := a } : OpState).reports ∧
      k a w s₁ = (r, s', t') := by
  rcases bind_run h with ⟨x, hx, -⟩ | ⟨a, s₁, t₁, t₂, hs, hk, rfl⟩
  · obtain ⟨_, _, hr, -⟩ := sample_run hx
    cases hr
  · obtain ⟨reading, b, hr, hle, rfl, hrep⟩ := sample_run hs
    cases hr
    exact ⟨reading, a, s₁, t₂, hle, rfl, hrep, hk⟩

theorem announce_run (h : emit cfg e w s = (r, s', t)) :
    ∃ reading a, r = .ok () ∧ s.lastTimestamp ≤ a ∧ t = announced cfg e reading a ∧
      s'.reports = ({ s with lastTimestamp := a } : OpState).reports := by
  unfold emit at h
  cases hobserver : cfg.observer with
  | true =>
    rw [if_pos hobserver] at h
    obtain ⟨reading, a, s₁, t', hle, rfl, hrep, hk⟩ := sample_bind h
    rw [emitAt, if_pos hobserver] at hk
    cases hk
    refine ⟨reading, a, rfl, hle, ?_, hrep⟩
    rw [announced, if_pos hobserver]
  | false =>
    rw [if_neg (by rw [hobserver]; nofun)] at h
    cases h
    refine ⟨none, s.lastTimestamp, rfl, le_refl _, ?_, rfl⟩
    rw [announced, if_neg (by rw [hobserver]; nofun)]

theorem announce_bind {k : Unit → Op β} (h : (emit cfg e >>= k) w s = (r, s', t)) :
    ∃ reading a s₁ t', s.lastTimestamp ≤ a ∧ t = announced cfg e reading a ++ t' ∧
      s₁.reports = ({ s with lastTimestamp := a } : OpState).reports ∧
      k () w s₁ = (r, s', t') := by
  rcases bind_run h with ⟨x, hx, -⟩ | ⟨_, s₁, t₁, t₂, he, hk, rfl⟩
  · obtain ⟨_, _, hr, -⟩ := announce_run hx
    cases hr
  · obtain ⟨reading, a, -, hle, rfl, hrep⟩ := announce_run he
    exact ⟨reading, a, s₁, t₂, hle, rfl, hrep, hk⟩

theorem callTelemetry_bind {k : Bool → Op β} (h : (callTelemetry hook >>= k) w s = (r, s', t)) :
    ∃ ok s₁ t', t = (if ok then [] else [.telemetryFailure]) ++ t' ∧ s₁.reports = s.reports ∧
      k ok w s₁ = (r, s', t') := by
  rcases bind_run h with ⟨x, hx, -⟩ | ⟨ok, s₁, t₁, t₂, hc, hk, rfl⟩
  · unfold callTelemetry at hx
    have hx := observe_bind hx
    split at hx
    · cases hx
    · obtain ⟨_, hx, -⟩ := emit_run hx
      cases hx
  · unfold callTelemetry at hc
    have hc := observe_bind hc
    split at hc
    · cases hc
      refine ⟨true, _, t₂, rfl, ?_, hk⟩
      rfl
    · obtain ⟨t₃, hpure, rfl⟩ := emit_run hc
      cases hpure
      refine ⟨false, _, t₂, rfl, ?_, hk⟩
      rfl

theorem flaky_ite (ok : Bool) : Flaky (if ok then [] else [.telemetryFailure]) := by
  cases ok with
  | true => exact .inl rfl
  | false => exact .inr rfl

def spanEnded (held : Bool) (e : Event) (u : List Event) : List Event := if held then e :: u else []

theorem endSpan_run (h : endSpan present e hook w s = (r, s', t)) :
    r = .ok () ∧ s'.reports = s.reports ∧ ∃ u, Flaky u ∧ t = spanEnded present e u := by
  unfold endSpan at h
  cases present with
  | true =>
    obtain ⟨t', hk, rfl⟩ := emit_run h
    obtain ⟨ok, s₁, t₁, rfl, hrep, hlast⟩ := callTelemetry_bind hk
    cases hlast
    refine ⟨rfl, hrep, _, flaky_ite ok, ?_⟩
    rw [List.append_nil]
    rfl
  | false =>
    cases h
    exact ⟨rfl, rfl, [], .inl rfl, rfl⟩

/-- What an attempt's telemetry logs when it is asked for its handle and its headers. -/
inductive SpanOpened (k : Nat) : Bool → List Event → Prop where
  | absent : SpanOpened k false []
  | refused : SpanOpened k false [.telemetryFailure]
  | held (hu : Flaky u) : SpanOpened k true (.attemptSpan k :: u)

theorem attemptHeaders_run (ha : s.attemptTelemetry = false)
    (h : attemptHeaders k w s = (r, s', t)) :
    ∃ headers held, r = .ok headers ∧ SpanOpened k held t ∧
      s'.reports = ({ s with attemptTelemetry := held } : OpState).reports := by
  obtain ⟨ok, s₁, t₁, rfl, hrep, hk⟩ := callTelemetry_bind h
  have hset : ∀ held : Bool, ({ s₁ with attemptTelemetry := held } : OpState).reports =
      ({ s with attemptTelemetry := held } : OpState).reports := fun held =>
    congrArg (fun u : OpState => { u with attemptTelemetry := held }) hrep
  cases ok with
  | false =>
    cases hk
    refine ⟨[], false, rfl, .refused, hrep.trans ?_⟩
    rw [← ha]
  | true =>
    obtain ⟨t₂, hspan, rfl⟩ := emit_run hk
    have hspan := modify_run hspan
    have hspan := observe_bind hspan
    cases hpairs : w.telemetry.propagationHeaders s₁.tick with
    | some pairs =>
      simp only [hpairs] at hspan
      cases hspan
      exact ⟨_, true, rfl, .held (.inl rfl), hset true⟩
    | none =>
      simp only [hpairs] at hspan
      obtain ⟨t₃, hlast, rfl⟩ := emit_run hspan
      cases hlast
      exact ⟨_, true, rfl, .held (.inr rfl), hset true⟩

theorem startAttempt_run (hf : s.finished = false) (ha : s.attemptTelemetry = false)
    (h : startAttempt cfg k w s = (r, s', t)) :
    ∃ headers reading a reading' b spans held, r = .ok headers ∧ s.lastTimestamp ≤ a ∧ a ≤ b ∧
      t = .clock reading ::
        (announced cfg { kind := .attemptStart, attemptNumber := k } reading' b ++ spans) ∧
      SpanOpened k held spans ∧ (held = true → s.telemetry = true) ∧
      s'.reports = ({ s with
        attemptNumber := k, attemptStartedAt := a, lastTimestamp := b,
        attemptTelemetry := held } : OpState).reports := by
  unfold startAttempt at h
  have h := get_run h
  rw [if_neg (by rw [hf]; nofun)] at h
  have h := modify_run h
  obtain ⟨reading, a, s₁, t₁, hle, rfl, hrep, hk⟩ := sample_bind h
  have hk := modify_run hk
  obtain ⟨reading', b, s₂, t₂, hle', rfl, hrep', hlast⟩ := announce_bind hk
  have hlast := get_run hlast
  have hle' : a ≤ b := by
    have hl : s₁.lastTimestamp = a := reports_field hrep OpState.lastTimestamp
    exact le_of_eq_of_le hl.symm hle'
  have hstate : s₂.reports = ({ s with
      attemptNumber := k, attemptStartedAt := a, lastTimestamp := b } : OpState).reports :=
    hrep'.trans (congrArg (fun u : OpState =>
      { u with attemptStartedAt := a, lastTimestamp := b }) hrep)
  have htel : s₂.telemetry = s.telemetry := reports_field hstate OpState.telemetry
  have hheld : s₂.attemptTelemetry = false :=
    (reports_field hstate OpState.attemptTelemetry).trans ha
  cases hparent : s₂.telemetry with
  | true =>
    rw [if_pos hparent] at hlast
    obtain ⟨headers, held, hr, hspan, hrep''⟩ := attemptHeaders_run hheld hlast
    refine ⟨headers, reading, a, reading', b, t₂, held, hr, hle, hle', rfl, hspan, ?_, ?_⟩
    · intro _
      rw [← htel, hparent]
    · exact hrep''.trans (congrArg (fun u : OpState => { u with attemptTelemetry := held }) hstate)
  | false =>
    rw [if_neg (by rw [hparent]; nofun)] at hlast
    cases hlast
    refine ⟨[], reading, a, reading', b, [], false, rfl, hle, hle', rfl, .absent, nofun, ?_⟩
    refine hstate.trans ?_
    rw [← ha]

def AttemptSummary.event (summary : AttemptSummary) : ObserverEvent :=
  { kind := .attemptEnd, attemptNumber := summary.attemptNumber, duration := summary.duration,
    outcome := some summary.outcome, errorCode := summary.errorCode,
    deliveryState := some summary.deliveryState, httpStatusClass := summary.httpStatusClass }

theorem observedOutcome_bind {k : ObserverOutcome → Op β}
    (h : (observedOutcome err >>= k) w s = (r, s', t)) :
    ∃ outcome s₁, s₁.reports = s.reports ∧ (err = none → outcome = .accepted) ∧
      k outcome w s₁ = (r, s', t) := by
  obtain ⟨outcome, s₁, t₁, t₂, ho, hk, rfl⟩ :=
    (observedOutcome_spec (D := fun _ => True)).bind_run h
  unfold observedOutcome at ho
  split at ho
  · rename_i hcancelled
    have ho := observe_bind ho
    cases ho
    refine ⟨_, _, ?_, ?_, hk⟩
    · rfl
    · rintro rfl
      cases hcancelled
  · cases ho
    refine ⟨_, _, ?_, ?_, hk⟩
    · rfl
    · rintro rfl
      rfl

theorem endAttempt_run (hk : s.attemptNumber ≠ 0)
    (h : endAttempt cfg err retryable w s = (r, s', t)) :
    ∃ reading a reading' b summary u, r = .ok () ∧ s.lastTimestamp ≤ a ∧ a ≤ b ∧
      summary.attemptNumber = s.attemptNumber ∧
      summary.duration = nonnegativeDuration (a - s.attemptStartedAt) ∧ Flaky u ∧
      t = .clock reading :: (announced cfg summary.event reading' b ++
        spanEnded s.attemptTelemetry (.attemptSpanEnd s.attemptNumber) u) ∧
      s'.reports = ({ s with
        lastTimestamp := b, attemptNumber := 0, attemptTelemetry := false,
        summaries := if s.summaries.length < 10 then s.summaries ++ [summary]
          else s.summaries } : OpState).reports := by
  unfold endAttempt at h
  have h := get_run h
  rw [if_neg hk] at h
  obtain ⟨reading, a, s₁, t₁, hle, rfl, hrep, hrest⟩ := sample_bind h
  obtain ⟨outcome, s₂, hrep₂, -, hrest⟩ := observedOutcome_bind hrest
  have hrest := modify_run hrest
  obtain ⟨reading', b, s₃, t₂, hle', rfl, hrep₃, hspan⟩ := announce_bind hrest
  rcases bind_run hspan with ⟨x, hx, -⟩ | ⟨_, s₄, t₃, t₄, hend, hlast, rfl⟩
  · obtain ⟨hr, -⟩ := endSpan_run hx
    cases hr
  obtain ⟨-, hrep₄, u, hu, rfl⟩ := endSpan_run hend
  cases hlast
  have hsame := hrep₂.trans hrep
  have hsummaries : s₂.summaries = s.summaries :=
    reports_field hsame OpState.summaries
  let summary : AttemptSummary :=
    { attemptNumber := s.attemptNumber
      outcome := if retryable then .retryableFailure else outcome
      errorCode := err.map (·.code)
      deliveryState := reportedState err
      httpStatusClass := reportedClass err
      duration := nonnegativeDuration (a - s.attemptStartedAt) }
  refine ⟨reading, a, reading', b, summary, u, rfl, hle, ?_, rfl, rfl, hu, ?_, ?_⟩
  · have hl : s₂.lastTimestamp = a := reports_field hsame OpState.lastTimestamp
    split at hle'
    · exact le_of_eq_of_le hl.symm hle'
    · exact le_of_eq_of_le hl.symm hle'
  · rw [List.append_nil]
    rfl
  · have hlast := congrArg
      (fun u : OpState => { u with attemptTelemetry := false, attemptNumber := 0 })
      (hrep₄.trans hrep₃)
    rw [hsummaries] at hlast
    split at hlast
    · rename_i hroom
      rw [if_pos hroom]
      exact hlast.trans (congrArg (fun u : OpState =>
        { u with lastTimestamp := b, attemptTelemetry := false, attemptNumber := 0,
                 summaries := s.summaries ++ [summary] }) hsame)
    · rename_i hroom
      rw [if_neg hroom]
      exact hlast.trans (congrArg (fun u : OpState =>
        { u with lastTimestamp := b, attemptTelemetry := false, attemptNumber := 0 }) hsame)

def retryDelayEvent (delay : Int) (last : Error) : ObserverEvent :=
  { kind := .retryDelay, attemptNumber := last.attemptCount, outcome := some .retryableFailure,
    errorCode := some last.code, deliveryState := some last.deliveryState,
    httpStatusClass := httpStatusClass last.httpStatus, retryDelay := delay }

theorem reportRetry_run (hf : s.finished = false)
    (h : reportRetry cfg delay last w s = (r, s', t)) :
    ∃ reading a, s.lastTimestamp ≤ a ∧
      t = announced cfg (retryDelayEvent delay last) reading a ∧
      s'.reports = ({ s with lastTimestamp := a } : OpState).reports := by
  unfold reportRetry at h
  have h := get_run h
  rw [if_neg (by rw [hf]; nofun)] at h
  obtain ⟨reading, a, -, hle, ht, hrep⟩ := announce_run h
  exact ⟨reading, a, hle, ht, hrep⟩

inductive OperationOpened : Bool → List Event → Prop where
  | absent : OperationOpened false []
  | refused : OperationOpened false [.telemetryFailure]
  | held (hu : Flaky u) : OperationOpened true (.operationSpan :: u)

theorem startObservability_run (htel : s.telemetry = false)
    (h : startObservability cfg permit w s = (r, s', t)) :
    ∃ reading a spans held, r = .ok () ∧ permit.startedNanos ≤ a ∧
      t = announced cfg { kind := .operationStart } reading a ++ spans ∧
      OperationOpened held spans ∧
      s'.reports = ({ s with
        startedAt := permit.startedNanos, lastTimestamp := a, telemetry := held } :
          OpState).reports := by
  unfold startObservability at h
  have h := modify_run h
  obtain ⟨reading, a, s₁, t₁, hle, rfl, hrep, hk⟩ := announce_bind h
  have hset : ∀ held : Bool, ({ s₁ with telemetry := held } : OpState).reports = ({ s with
      startedAt := permit.startedNanos, lastTimestamp := a, telemetry := held } :
        OpState).reports := fun held =>
    congrArg (fun u : OpState => { u with telemetry := held }) hrep
  have hnone : s₁.reports = ({ s with
      startedAt := permit.startedNanos, lastTimestamp := a, telemetry := false } :
        OpState).reports := by
    refine hrep.trans ?_
    rw [← htel]
  split at hk
  · obtain ⟨ok, s₂, t₂, rfl, hrep₂, hspan⟩ := callTelemetry_bind hk
    cases ok with
    | false =>
      cases hspan
      exact ⟨reading, a, _, false, rfl, hle, rfl, .refused, hrep₂.trans hnone⟩
    | true =>
      obtain ⟨t₃, hmodify, rfl⟩ := emit_run hspan
      have hmodify := modify_run hmodify
      obtain ⟨ok, s₃, t₄, rfl, hrep₃, hlast⟩ := callTelemetry_bind hmodify
      cases hlast
      have hvalues : ({ s₃ with transportValues := ok } : OpState).reports =
          ({ s with startedAt := permit.startedNanos, lastTimestamp := a, telemetry := true } :
            OpState).reports :=
        hrep₃.trans ((congrArg (fun u : OpState => { u with telemetry := true }) hrep₂).trans
          (hset true))
      refine ⟨reading, a, _, true, rfl, hle, rfl, .held ?_, hvalues⟩
      rw [List.append_nil]
      exact flaky_ite ok
  · cases hk
    exact ⟨reading, a, [], false, rfl, hle, rfl, .absent, hnone⟩

def cancelEvent (outcome : ObserverOutcome) (err : Option Error) : ObserverEvent :=
  { kind := .operationCancel, outcome := some outcome, errorCode := err.map (·.code),
    deliveryState := some (reportedState err), httpStatusClass := reportedClass err }

def endEvent (startedAt endedAt : Int) (summaries : List AttemptSummary)
    (outcome : ObserverOutcome) (err : Option Error) : ObserverEvent :=
  { kind := .operationEnd, duration := nonnegativeDuration (endedAt - startedAt),
    outcome := some outcome, errorCode := err.map (·.code),
    deliveryState := some (reportedState err), httpStatusClass := reportedClass err,
    operationStartedAt := startedAt, operationEndedAt := endedAt, attemptSummaries := summaries }

/-- The end of an operation all of whose attempts are reported: the cancellation if that is the
outcome, one clock sample, the end of the handle that the operation holds, and the last event. -/
theorem finish_run (hf : s.finished = false) (hn : s.attemptNumber = 0)
    (h : finish cfg err w s = (r, s', t)) :
    ∃ outcome cancel a reading b u, s.lastTimestamp ≤ a ∧ a ≤ b ∧ Flaky u ∧
      (outcome = .cancelled → ∃ reading', cancel =
        announced cfg (cancelEvent outcome err) reading' a) ∧
      (outcome ≠ .cancelled → cancel = []) ∧ (err = none → outcome = .accepted) ∧
      t = cancel ++ .clock reading :: (spanEnded s.telemetry .operationSpanEnd u ++
        (if cfg.observer then
          [.observer { endEvent s.startedAt b s.summaries outcome err with timestamp := b }]
        else [])) := by
  unfold finish at h
  have h := get_run h
  rw [if_neg (by rw [hf]; nofun)] at h
  have h := modify_run h
  obtain ⟨_, s₁, t₁, t₂, hend, hk, rfl⟩ :=
    (endAttempt_spec (D := fun _ => True) trivial).bind_run h
  unfold endAttempt at hend
  have hend := get_run hend
  rw [if_pos hn] at hend
  cases hend
  obtain ⟨outcome, s₂, hrep₂, hnone, hrest⟩ := observedOutcome_bind hk
  -- The cancellation is reported for one outcome only.
  obtain ⟨cancel, a, s₃, t₃, hle, hcancel, hother, rfl, hrep₃, hsample⟩ :
      ∃ cancel a s₃ t₃, s.lastTimestamp ≤ a ∧
        (outcome = .cancelled → ∃ reading, cancel =
          announced cfg (cancelEvent outcome err) reading a) ∧
        (outcome ≠ .cancelled → cancel = []) ∧ t₂ = cancel ++ t₃ ∧
        s₃.reports = ({ s with finished := true, lastTimestamp := a } : OpState).reports ∧
        (do
          let endedAt ← sample
          let s ← Prog.get
          endSpan s.telemetry .operationSpanEnd Telemetry.endOperation
          emitAt cfg (endEvent s.startedAt endedAt s.summaries outcome err) endedAt : Op Unit)
            w s₃ = (r, s', t₃) := by
    obtain ⟨_, s₃, t₃, t₄, hreport, hsample, rfl⟩ :=
      (reportCancel_spec (D := fun _ => True)).bind_run hrest
    unfold reportCancel at hreport
    split at hreport
    · rename_i hc
      obtain ⟨reading, a, -, hle, ht, hrep₃⟩ := announce_run hreport
      have hl : s₂.lastTimestamp = s.lastTimestamp :=
        reports_field hrep₂ OpState.lastTimestamp
      refine ⟨t₃, a, s₃, t₄, le_of_eq_of_le hl.symm hle, fun _ => ⟨reading, ht⟩,
        fun hne => absurd hc hne, rfl, ?_, hsample⟩
      exact hrep₃.trans (congrArg (fun u : OpState => { u with lastTimestamp := a }) hrep₂)
    · rename_i hc
      cases hreport
      exact ⟨[], s.lastTimestamp, s₂, t₄, le_refl _, fun h => absurd h hc, fun _ => rfl, rfl,
        hrep₂, hsample⟩
  obtain ⟨reading, b, s₄, t₄, hle', rfl, hrep₄, hlast⟩ := sample_bind hsample
  have hlast := get_run hlast
  rcases bind_run hlast with ⟨x, hx, -⟩ | ⟨_, s₅, t₅, t₆, hspan, hemit, rfl⟩
  · obtain ⟨hr, -⟩ := endSpan_run hx
    cases hr
  obtain ⟨-, -, u, hu, rfl⟩ := endSpan_run hspan
  have hsame : s₄.reports = ({ s with finished := true, lastTimestamp := b } : OpState).reports :=
    hrep₄.trans (congrArg (fun u : OpState => { u with lastTimestamp := b }) hrep₃)
  have htel : s₄.telemetry = s.telemetry := reports_field hsame OpState.telemetry
  have hstarted : s₄.startedAt = s.startedAt := reports_field hsame OpState.startedAt
  have hsummaries : s₄.summaries = s.summaries :=
    reports_field hsame OpState.summaries
  have hl : s₃.lastTimestamp = a := reports_field hrep₃ OpState.lastTimestamp
  refine ⟨outcome, cancel, a, reading, b, u, hle, le_of_eq_of_le hl.symm hle', hu, hcancel,
    hother, hnone, ?_⟩
  rw [htel, List.nil_append]
  congr 3
  rw [hstarted, hsummaries] at hemit
  unfold emitAt at hemit
  split at hemit
  · rename_i hobserver
    cases hemit
    rw [if_pos hobserver]
  · rename_i hobserver
    cases hemit
    rw [if_neg hobserver]

end Repost
