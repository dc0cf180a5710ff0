import Repost.OperationFrames
import Repost.OperationReplay
import Repost.RawTransport

namespace Repost
open GoText Traced
set_option autoImplicit true

/-- The request without its propagation headers, which stand behind the five of every request. -/
def AttemptRequest.untraced (q : AttemptRequest) : AttemptRequest :=
  { q with headers := q.headers.take 5 }

def Settled.untraced (s : Settled) : Settled := { s with request := s.request.untraced }

def Event.untraced : Event → Option Event
  | .send q => some (.send q.untraced)
  | .settled s => some (.settled s.untraced)
  | .telemetryFailure | .operationSpan | .operationSpanEnd | .attemptSpan _ | .attemptSpanEnd _ =>
    none
  | e => some e

def OpState.untraced (s : OpState) (tick : Nat) : OpState :=
  { s with tick := tick, telemetry := false, attemptTelemetry := false, transportValues := false }

def RuntimeConfig.untraced (cfg : RuntimeConfig) : RuntimeConfig := { cfg with telemetry := false }

/-- What the wire checks ask of the propagation headers of a request. -/
def acceptablePropagation (fields : List HeaderField) : Bool :=
  fields.all (fun h => H1.validWireValue h.value) &&
    match fields with
    | [traceparent, tracestate] => tracestate.value == [] || traceparent.value != []
    | _ => true

/-- Propagation headers as an attempt adds them, fit for the wire. -/
def Propagation (fields : List HeaderField) : Prop :=
  ∃ pairs, fields = authorizedPropagationHeaders pairs ∧ acceptablePropagation fields = true

def AttemptRequest.Propagates (q : AttemptRequest) : Prop :=
  ∃ base fields, q.headers = base ++ fields ∧ base.length = 5 ∧ Propagation fields

/-- The view without telemetry. Serialization depends on the instant as well, through the default
generators, so there are two codecs. -/
def untracedView (codec codec₀ : Codec Schema Data Payload) : View World OpState Event where
  tick := OpState.tick
  seen := OpState.untraced
  erase := Event.untraced
  peer w w₀ := w₀.operationID = w.operationID ∧
    ∀ q : AttemptRequest, q.Propagates → w₀.transport q.untraced = w.transport q
  agrees w i w₀ j := SameAnswers w i w₀ j ∧
    ∀ schema model data timestamp, codec₀.serializeOperation schema model data timestamp j =
      codec.serializeOperation schema model data timestamp i

abbrev Shows (codec codec₀ : Codec Schema Data Payload) (w : World) (m m₀ : Op α) : Prop :=
  Replays (untracedView codec codec₀) w id m m₀

section Shows
variable {codec codec₀ : Codec Schema Data Payload} {w : World}

theorem observe_shows {f f₀ : World → Nat → α}
    (hf : ∀ i w₀ j, (untracedView codec codec₀).agrees w i w₀ j → f₀ w₀ j = f w i) :
    Shows codec codec₀ w (observe f) (observe f₀) := by
  intro s r s' t h
  cases h
  refine ⟨[s.tick], .one _, fun w₀ j _ ha => ?_⟩
  have hvalue : f₀ w₀ j = f w s.tick := hf _ _ _ ha.1
  show ((.ok (f₀ w₀ j), s.untraced (j + 1), []) : Except Stop α × OpState × List Event) = _
  rw [hvalue]
  rfl

theorem untraced_mirrors : Mirrors (untracedView codec codec₀) w where
  look := fun hf => observe_shows fun i w₀ j ha => hf w₀ i j ha.1
  identity := by
    intro α f
    refine .ask fun w₀ _ _ hp => ?_
    rw [hp.1]
  event := by
    intro e hr hs hh
    cases e <;> first | rfl | exact absurd rfl hr | exact absurd rfl hs | cases hh

theorem untraced_codec (hc : SameCodec codec codec₀) :
    SeesCodec (untracedView codec codec₀) codec codec₀ w :=
  ⟨hc, fun _ _ _ _ => observe_shows fun _ _ _ ha => ha.2 _ _ _ _⟩

theorem sample_shows : Shows codec codec₀ w sample sample := by
  refine .andThen untraced_mirrors.callMonotonicClock fun reading => .andThen (.modify ?_ ?_) fun _ =>
    .get (fun _ => .pure) fun _ _ => rfl
  · intro s
    cases reading with
    | none => rfl
    | some now =>
      dsimp only
      split <;> rfl
  · intro s j
    cases reading with
    | none => rfl
    | some now =>
      show (if now > s.lastTimestamp then { s.untraced j with lastTimestamp := now }
        else s.untraced j) = (if now > s.lastTimestamp then _ else _ : OpState).untraced j
      split <;> rfl

theorem emitAt_shows :
    Shows codec codec₀ w (emitAt cfg e timestamp) (emitAt cfg.untraced e timestamp) :=
  .ite (.emit rfl) .pure

theorem emit_shows : Shows codec codec₀ w (emit cfg e) (emit cfg.untraced e) :=
  .ite (.andThen sample_shows fun _ => emitAt_shows) .pure

theorem observe_hidden {f : World → Nat → α} :
    Replays (untracedView codec codec₀) w (fun _ => ()) (observe f) (pure ()) := by
  refine .hidden fun s r s' t h => ?_
  cases h
  exact ⟨_, rfl, rfl, Nat.le_succ _, fun _ => rfl, fun e he => by cases he⟩

theorem emit_hidden (he : e.untraced = none) : Replays (untracedView codec codec₀) w (fun _ => ())
    (Prog.emit e : Op Unit) (pure ()) := by
  refine .hidden fun s r s' t h => ?_
  cases h
  refine ⟨(), rfl, rfl, le_refl _, fun _ => rfl, fun e' he' => ?_⟩
  rw [List.mem_singleton.1 he']
  exact he

theorem callTelemetry_hidden : Replays (untracedView codec codec₀) w (fun _ => ())
    (callTelemetry hook) (pure ()) := by
  refine .skip observe_hidden fun ok => ?_
  cases ok with
  | true => exact .pure
  | false => exact .skip (emit_hidden rfl) fun _ => .pure

theorem modify_hidden {f : OpState → OpState} (hf : ∀ s, (f s).tick = s.tick)
    (hseen : ∀ s j, (f s).untraced j = s.untraced j) :
    Replays (untracedView codec codec₀) w (fun _ => ()) (Prog.modify f : Op Unit) (pure ()) := by
  refine .hidden fun s r s' t h => ?_
  cases h
  exact ⟨(), rfl, rfl, (hf s).ge, hseen s, fun e he => by cases he⟩

theorem startObservability_shows : Shows codec codec₀ w (startObservability cfg permit)
    (startObservability cfg.untraced permit) := by
  refine .andThen (.modify (fun _ => rfl) fun _ _ => rfl) fun _ => .andThen emit_shows fun _ => ?_
  -- Without telemetry the rest is nothing.
  show Replays _ w id _ (pure ())
  by_cases hc : (cfg.telemetry && permit.telemetryContext) = true
  · rw [if_pos hc]
    refine .skip callTelemetry_hidden fun started => ?_
    cases started with
    | false => exact .pure
    | true =>
      refine .skip (emit_hidden rfl) fun _ => .skip (modify_hidden (fun _ => rfl) fun _ _ => rfl)
        fun _ => .skip callTelemetry_hidden fun _ => modify_hidden (fun _ => rfl) fun _ _ => rfl
  · rw [if_neg hc]
    exact .pure

theorem observedOutcome_shows :
    Shows codec codec₀ w (observedOutcome err) (observedOutcome err) :=
  .ite (.andThen (observe_shows fun _ _ _ ha => ha.1.closed) fun _ => .pure) .pure

theorem endSpan_shows (he : e.untraced = none) :
    Shows codec codec₀ w (endSpan held e hook) (endSpan false e hook) := by
  show Shows codec codec₀ w _ (pure ())
  unfold endSpan
  by_cases hc : held = true
  · rw [if_pos hc]
    exact .skip (emit_hidden he) fun _ => .skip callTelemetry_hidden fun _ => .pure
  · rw [if_neg hc]
    exact .pure

def unpropagated (_ : List HeaderField) : List HeaderField := []

theorem attemptHeaders_hidden : Replays (untracedView codec codec₀) w unpropagated
    (attemptHeaders k) (pure []) := by
  refine .skip callTelemetry_hidden fun started => ?_
  cases started with
  | false => exact .pure
  | true =>
    refine .skip (emit_hidden rfl) fun _ => .skip (modify_hidden (fun _ => rfl) fun _ _ => rfl)
      fun _ => .skip observe_hidden fun pairs => ?_
    cases pairs with
    | some pairs => exact .pure
    | none => exact .skip (emit_hidden rfl) fun _ => .pure

theorem startAttempt_shows : Replays (untracedView codec codec₀) w unpropagated
    (startAttempt cfg k) (startAttempt cfg.untraced k) := by
  refine .get (fun s => .ite .pure ?_) fun _ _ => rfl
  refine .andThen (.modify (fun _ => rfl) fun _ _ => rfl) fun _ => .andThen sample_shows fun _ => ?_
  refine .andThen (.modify (fun _ => rfl) fun _ _ => rfl) fun _ => .andThen emit_shows fun _ => ?_
  refine .get (fun s => ?_) fun _ _ => rfl
  show Replays _ w _ _ (pure [])
  by_cases hc : s.telemetry = true
  · rw [if_pos hc]
    exact attemptHeaders_hidden
  · rw [if_neg hc]
    exact .pure

theorem endAttempt_shows : Shows codec codec₀ w (endAttempt cfg err retryable)
    (endAttempt cfg.untraced err retryable) := by
  refine .get (fun s => .ite .pure ?_) fun _ _ => rfl
  refine .andThen sample_shows fun endedAt => .andThen observedOutcome_shows fun outcome => ?_
  refine .andThen (.modify ?_ ?_) fun _ => .andThen emit_shows fun _ => ?_
  · intro s
    split <;> rfl
  · intro s j
    show (if s.summaries.length < 10 then _ else _ : OpState) =
      (if s.summaries.length < 10 then _ else _ : OpState).untraced j
    split <;> rfl
  · exact .andThen (endSpan_shows rfl) fun _ => .modify (fun _ => rfl) fun _ _ => rfl

theorem reportRetry_shows :
    Shows codec codec₀ w (reportRetry cfg delay e) (reportRetry cfg.untraced delay e) :=
  .get (fun _ => .ite .pure emit_shows) fun _ _ => rfl

theorem reportCancel_shows :
    Shows codec codec₀ w (reportCancel cfg outcome err) (reportCancel cfg.untraced outcome err) :=
  .ite emit_shows .pure

theorem finish_shows : Shows codec codec₀ w (finish cfg err) (finish cfg.untraced err) := by
  refine .get (fun s => .ite .pure ?_) fun _ _ => rfl
  refine .andThen (.modify (fun _ => rfl) fun _ _ => rfl) fun _ => .andThen endAttempt_shows
    fun _ => ?_
  refine .andThen observedOutcome_shows fun _ => .andThen reportCancel_shows fun _ => ?_
  refine .andThen sample_shows fun _ => .get (fun s => ?_) fun _ _ => rfl
  exact .andThen (endSpan_shows rfl) fun _ => emitAt_shows

theorem Closer.run_shows {closer : Closer} : Shows codec codec₀ w closer.run closer.run := by
  refine .get (fun s => .ite .pure ?_) fun _ _ => rfl
  exact .andThen (.modify (fun _ => rfl) fun _ _ => rfl) fun _ => .emit rfl

theorem closeResponse_shows :
    Shows codec codec₀ w (closeResponse response) (closeResponse response) := by
  unfold closeResponse
  cases response.bind (·.closer) with
  | none => exact .pure
  | some closer => exact .andThen Closer.run_shows fun _ => .ite (.emit rfl) .pure

theorem untraced_reports : SeesReports (untracedView codec codec₀) w cfg false where
  endAttempt := fun _ _ => endAttempt_shows
  reportRetry := fun _ _ => reportRetry_shows

theorem failAttempt_shows : Shows codec codec₀ w
    (do
      endAttempt cfg err retryable
      fail e : Op α)
    (do
      endAttempt cfg.untraced err retryable
      fail e) :=
  untraced_reports.failAttempt

theorem retryOrFail_shows : Shows codec codec₀ w
    (retryOrFail cfg permit e response attempt committed)
    (retryOrFail cfg.untraced permit e response attempt committed) :=
  untraced_reports.retryOrFail untraced_mirrors rfl rfl

theorem handleResponse_shows : Shows codec codec₀ w
    (handleResponse cfg permit p attempt before committed r)
    (handleResponse cfg.untraced permit p attempt before committed r) := by
  refine .andThen untraced_mirrors.operationID fun _ => .andThen closeResponse_shows fun _ => ?_
  cases validateAttemptResponse r p.eventType p.customerID p.timestamp with
  | error e => exact retryOrFail_shows
  | ok result =>
    apply Replays.andThen untraced_mirrors.deadlineTerminal
    intro terminal
    cases terminal with
    | some e => exact failAttempt_shows
    | none => exact .andThen endAttempt_shows fun _ => .pure

theorem rejectMalformed_shows : Shows codec codec₀ w (rejectMalformed cfg p attempt response)
    (rejectMalformed cfg.untraced p attempt response) :=
  .andThen untraced_mirrors.operationID fun _ => .andThen closeResponse_shows fun _ => failAttempt_shows

theorem classify_shows : Shows codec codec₀ w
    (classify cfg permit p attempt before committed outcome)
    (classify cfg.untraced permit p attempt before committed outcome) := by
  refine .ite rejectMalformed_shows ?_
  rcases outcome with ⟨_ | r, _ | f⟩
  · exact rejectMalformed_shows
  · exact .andThen untraced_mirrors.operationID fun _ => retryOrFail_shows
  · exact handleResponse_shows
  · exact handleResponse_shows

theorem boundedAttemptCall_shows (hq : request.Propagates) : Shows codec codec₀ w
    (boundedAttemptCall request) (boundedAttemptCall request.untraced) := by
  have hcall : Shows codec codec₀ w (Prog.ask fun w _ => w.transport request)
      (Prog.ask fun w _ => w.transport request.untraced) := by
    intro s r s' t h
    cases h
    refine ⟨[], .nil (le_refl _), fun w₀ j hp _ => ?_⟩
    simp only [Prog.ask, hp.2 request hq]
    rfl
  refine .andThen hcall fun call => .andThen untraced_mirrors.deadlineDone fun _ => .ite .pure ?_
  refine .andThen (.emit rfl) fun _ => .andThen (.emit rfl) fun _ => ?_
  refine .andThen untraced_mirrors.deadlineDone fun _ => .ite .pure ?_
  exact .andThen (.emit rfl) fun _ => .pure

theorem lateOutcome_shows : Shows codec codec₀ w
    (lateOutcome cfg permit p request committed a)
    (lateOutcome cfg.untraced permit p request.untraced committed a) := by
  refine .andThen closeResponse_shows fun _ => ?_
  apply Replays.andThen untraced_mirrors.preAttemptTerminal
  intro terminal
  cases terminal with
  | none => exact .pure
  | some e => exact .andThen (.emit rfl) fun _ => failAttempt_shows

theorem settle_shows (hq : request.Propagates) :
    Replays (untracedView codec codec₀) w Settled.untraced
      (settle cfg permit p request committed)
      (settle cfg.untraced permit p request.untraced committed) := by
  refine .andThen (boundedAttemptCall_shows hq) fun a => ?_
  refine .andThen (.ite .pure lateOutcome_shows) fun outcome => ?_
  refine .andThen (.ite (.emit rfl) .pure) fun _ => ?_
  exact .andThen (.emit rfl) fun _ => .pure

/-- Whatever pairs the telemetry returns, what is made of them is fit for the wire. -/
def World.PropagatesCleanly (w : World) : Prop :=
  ∀ i pairs, w.telemetry.propagationHeaders i = some pairs →
    acceptablePropagation (authorizedPropagationHeaders pairs) = true

theorem propagation_nil : Propagation [] := ⟨[], rfl, rfl⟩

theorem startAttempt_propagates (hw : w.PropagatesCleanly) :
    Returns w Propagation (startAttempt cfg k) := by
  refine .bind fun s => .ite (.pure propagation_nil) ?_
  refine .bind fun _ => .bind fun _ => .bind fun _ => .bind fun _ => .bind fun s => ?_
  refine .ite ?_ (.pure propagation_nil)
  refine .bind fun started => .ite ?_ (.pure propagation_nil)
  refine .bind fun _ => .bind fun _ => ?_
  intro s headers s' t h
  rcases bind_run h with ⟨x, hx, -⟩ | ⟨pairs, s₁, t₁, t₂, hpairs, hrest, -⟩
  · cases hx
  rw [observe_run] at hpairs
  cases pairs with
  | none =>
    obtain ⟨_, hlast, -⟩ := emit_run hrest
    cases hlast
    exact propagation_nil
  | some pairs =>
    cases hrest
    have hanswer : w.telemetry.propagationHeaders s.tick = some pairs :=
      (Except.ok.inj (Prod.mk.inj hpairs).1)
    exact ⟨pairs, rfl, hw _ pairs hanswer⟩

theorem attemptRequest_untraced (hp : p.headers.length = 5) :
    (attemptRequest cfg permit p operationID k now fields).untraced =
      attemptRequest cfg.untraced permit p operationID k now [] := by
  unfold attemptRequest AttemptRequest.untraced
  dsimp only
  rw [List.take_append_of_le_length hp.ge, List.take_of_length_le hp.le, List.append_nil]
  rfl

theorem attemptOnce_shows (hw : w.PropagatesCleanly) (hp : p.headers.length = 5) :
    Shows codec codec₀ w (attemptOnce cfg permit p k committed)
      (attemptOnce cfg.untraced permit p k committed) := by
  refine .andThen untraced_mirrors.operationID fun operationID => .andThen untraced_mirrors.checkTerminal fun _ => ?_
  refine .andThen untraced_mirrors.callMonotonicClock fun reading => .andThen untraced_mirrors.checkTerminal fun _ => ?_
  cases reading with
  | none => exact .stop
  | some now =>
    refine .bind startAttempt_shows (startAttempt_propagates hw) fun fields hfields => ?_
    have hq : (attemptRequest cfg permit p operationID k now fields).Propagates :=
      ⟨p.headers, fields, rfl, hp, hfields⟩
    have hsettle : Replays (untracedView codec codec₀) w Settled.untraced
        (settle cfg permit p (attemptRequest cfg permit p operationID k now fields) committed)
        (settle cfg.untraced permit p
          (attemptRequest cfg permit p operationID k now fields).untraced committed) :=
      settle_shows hq
    rw [attemptRequest_untraced hp] at hsettle
    exact .andThen hsettle fun _ => classify_shows

theorem attemptLoop_shows (hw : w.PropagatesCleanly) (hp : p.headers.length = 5) :
    Shows codec codec₀ w (attemptLoop cfg permit p left k committed)
      (attemptLoop cfg.untraced permit p left k committed) := by
  induction left generalizing k committed with
  | zero => exact .stop
  | succ left ih =>
    apply Replays.andThen (attemptOnce_shows hw hp)
    intro verdict
    cases verdict with
    | accepted result => exact .pure
    | retry committed => exact ih

theorem prepare_fiveHeaders : Returns w (fun p => p.headers.length = 5)
    (prepare codec cfg permit schema group member input) := by
  unfold prepare
  cases lookupEvent codec schema group member with
  | error code =>
    refine .bind fun e => ?_
    intro s p s' t h
    cases h
  | ok event =>
    refine .bind fun _ => .bind fun _ => .bind fun _ => .bind fun generated => ?_
    cases generated with
    | none =>
      refine .bind fun e => ?_
      intro s p s' t h
      cases h
    | some timestamp =>
      exact .bind fun _ => .bind fun _ => .bind fun _ => .bind fun _ => .pure rfl

theorem sendAdmitted_shows (hc : SameCodec codec codec₀) (hw : w.PropagatesCleanly) :
    Shows codec codec₀ w (sendAdmitted codec cfg permit schema group member input)
      (sendAdmitted codec₀ cfg.untraced permit schema group member input) := by
  refine .andThen untraced_mirrors.checkTerminal fun _ => .andThen startObservability_shows fun _ => ?_
  refine .defer ?_ fun result => ?_
  · exact .bind (untraced_mirrors.prepare (untraced_codec hc)) prepare_fiveHeaders fun p hp => attemptLoop_shows hw hp
  · have hsame : result.map id = result := by
      cases result <;> rfl
    rw [hsame]
    exact finish_shows

def Event.Propagating (e : Event) : Prop := ∀ q, e = .send q → q.Propagates

theorem propagating_loose (w : World) :
    Loose w (· ≠ .send) (Only Event.Propagating) := by
  refine Only.loose w (fun _ => nofun) fun e hk q he => ?_
  rw [he] at hk
  exact absurd rfl hk

theorem settle_propagating (hq : request.Propagates) :
    Within w (Only Event.Propagating) (settle cfg permit p request committed) := by
  have hρ := propagating_loose w
  have hc := hρ.toComposes
  have hsend : Within w (Only Event.Propagating) (Prog.emit (.send request) : Op Unit) := by
    refine .emit fun s e he q heq => ?_
    rw [List.mem_singleton.1 he] at heq
    cases heq
    exact hq
  refine .bind hc ?_ fun a => ?_
  · refine .bind hc (.ask hc) fun _ => .bind hc (hρ.steady.observe _) fun _ => .ite (.pure hc) ?_
    refine .bind hc (hρ.work nofun rfl) fun _ => .bind hc hsend fun _ => ?_
    refine .bind hc (hρ.steady.observe _) fun _ => .ite (.pure hc) ?_
    exact .bind hc (hρ.work nofun rfl) fun _ => .pure hc
  · refine .bind hc (.ite (.pure hc) (hρ.lateOutcome nofun nofun)) fun _ => ?_
    refine .bind hc (hρ.countHeaderLimit nofun) fun _ => ?_
    exact .bind hc (hρ.work nofun rfl) fun _ => .pure hc

theorem attemptLoop_propagating (hw : w.PropagatesCleanly) (hp : p.headers.length = 5) :
    Within w (Only Event.Propagating) (attemptLoop cfg permit p left k committed) := by
  have hρ := propagating_loose w
  have hc := hρ.toComposes
  induction left generalizing k committed with
  | zero => exact .stop hc
  | succ left ih =>
    refine .bind hc ?_ fun verdict => ?_
    · refine .bind hc (.ask hc) fun operationID => .bind hc hρ.steady.checkTerminal fun _ => ?_
      refine .bind hc hρ.steady.callMonotonicClock fun reading => .bind hc hρ.steady.checkTerminal fun _ => ?_
      cases reading with
      | none => exact .stop hc
      | some now =>
        refine .bindReturns hc (hρ.startAttempt nofun) (startAttempt_propagates hw)
          fun fields hfields => ?_
        refine .bind hc (settle_propagating ⟨p.headers, fields, rfl, hp, hfields⟩) fun _ => ?_
        exact hρ.classify nofun nofun
    · cases verdict with
      | accepted result => exact .pure hc
      | retry committed => exact ih

theorem sendAdmitted_propagating {codec : Codec Schema Data Payload} (hw : w.PropagatesCleanly) :
    Within w (Only Event.Propagating)
      (sendAdmitted codec cfg permit schema group member input) := by
  have hρ := propagating_loose w
  have hc := hρ.toComposes
  refine .bind hc hρ.steady.checkTerminal fun _ => .bind hc (hρ.startObservability nofun) fun _ => ?_
  refine .defer hc ?_ fun _ => hρ.finish nofun
  exact .bindReturns hc (hρ.prepare nofun nofun) prepare_fiveHeaders fun p hp =>
    attemptLoop_propagating hw hp

end Shows

end Repost
