import Repost.Replay
import Repost.SteadyFrames

namespace Repost
open GoText Traced
set_option autoImplicit true

structure SameAnswers (w : World) (i : Nat) (w₀ : World) (j : Nat) : Prop where
  clock : w₀.clock j = w.clock i
  deadline : deadlineDone w₀ j = deadlineDone w i
  operation : contextError w₀.operationDone j = contextError w.operationDone i
  caller : contextError w₀.callerDone j = contextError w.callerDone i
  closed : reached w₀.closedAt j = reached w.closedAt i
  givesUp : w₀.givesUp j = w.givesUp i
  apiKeyProvider : w₀.apiKeyProvider j = w.apiKeyProvider i
  idempotencyKeyGenerator : w₀.idempotencyKeyGenerator j = w.idempotencyKeyGenerator i
  generateNow : w₀.generateNow j = w.generateNow i
  retryEntropy : w₀.retryEntropy j = w.retryEntropy i
  sleep : w₀.sleep j = w.sleep i

/-- Two codecs that differ at most in what serialization gives at an instant. -/
structure SameCodec (codec codec₀ : Codec Schema Data Payload) : Prop where
  descriptor : codec₀.validateSchemaDescriptor = codec.validateSchemaDescriptor
  version : codec₀.descriptorFormatVersion = codec.descriptorFormatVersion
  webhooks : codec₀.webhooks = codec.webhooks
  envelope : codec₀.marshalEnvelope = codec.marshalEnvelope

theorem SameCodec.lookupEvent {codec codec₀ : Codec Schema Data Payload}
    (hc : SameCodec codec codec₀) :
    lookupEvent codec₀ schema group member = lookupEvent codec schema group member := by
  unfold Repost.lookupEvent
  rw [hc.descriptor, hc.version, hc.webhooks]

def RuntimeConfig.withTelemetry (cfg : RuntimeConfig) (telemetry : Bool) : RuntimeConfig :=
  { cfg with telemetry := telemetry }

structure Mirrors (V : View World OpState Event) (w : World) : Prop where
  look : ∀ {α : Type} {f f₀ : World → Nat → α},
    (∀ w₀ i j, SameAnswers w i w₀ j → f₀ w₀ j = f w i) →
      Replays V w id (observe f) (observe f₀)
  identity : ∀ {α : Type} (f : Bytes → α),
    Replays V w id (Prog.ask fun w _ => f w.operationID : Op α) (Prog.ask fun w _ => f w.operationID)
  event : ∀ e : Event, e.kind ≠ .report → e.kind ≠ .send → e.handling = false → V.erase e = some e

structure SeesCodec (V : View World OpState Event) (codec codec₀ : Codec Schema Data Payload)
    (w : World) : Prop extends SameCodec codec codec₀ where
  serialize : ∀ schema model data timestamp,
    Replays V w id (observe fun _ t => codec.serializeOperation schema model data timestamp t)
      (observe fun _ t => codec₀.serializeOperation schema model data timestamp t)

section Mirrors
variable {V : View World OpState Event} {codec codec₀ : Codec Schema Data Payload} {w : World}
  (hV : Mirrors V w)
include hV

theorem Mirrors.callMonotonicClock : Replays V w id callMonotonicClock callMonotonicClock := by
  refine .andThen (hV.look fun _ _ _ ha => ha.clock) fun _ => ?_
  exact .andThen (.emit (hV.event _ nofun nofun rfl)) fun _ => .pure

theorem Mirrors.operationID : Replays V w id (Prog.ask fun w _ => w.operationID : Op Bytes)
    (Prog.ask fun w _ => w.operationID) :=
  hV.identity id

theorem Mirrors.deadlineDone :
    Replays V w id (observe Repost.deadlineDone) (observe Repost.deadlineDone) :=
  hV.look fun _ _ _ ha => ha.deadline

theorem Mirrors.clockTerminal : Replays V w id
    (clockTerminal permit committed attempts id' key)
    (clockTerminal permit committed attempts id' key) := by
  apply Replays.andThen hV.callMonotonicClock
  intro reading
  cases reading with
  | none => exact .pure
  | some now => exact .pure

theorem Mirrors.preAttemptTerminal : Replays V w id
    (preAttemptTerminal permit committed attempts key)
    (preAttemptTerminal permit committed attempts key) := by
  refine .andThen hV.operationID fun _ => .andThen hV.deadlineDone fun _ => .ite .pure ?_
  refine .andThen (hV.look ?_) fun _ => .ite .pure ?_
  · intro w₀ i j ha
    rw [ha.operation, ha.caller]
  refine .andThen (hV.look fun _ _ _ ha => ha.closed) fun _ => .ite .pure ?_
  refine .andThen (hV.look ?_) fun _ => .ite .pure hV.clockTerminal
  intro w₀ i j ha
  rw [ha.operation, ha.caller]

theorem Mirrors.deadlineTerminal : Replays V w id
    (deadlineTerminal permit committed attempts key)
    (deadlineTerminal permit committed attempts key) :=
  .andThen hV.operationID fun _ => .andThen hV.deadlineDone fun _ => .ite .pure hV.clockTerminal

theorem Mirrors.checkTerminal : Replays V w id (checkTerminal permit committed attempts key)
    (checkTerminal permit committed attempts key) := by
  apply Replays.andThen hV.preAttemptTerminal
  intro terminal
  cases terminal with
  | none => exact .pure
  | some e => exact .stop

theorem Mirrors.boundedPermitCall {call call₀ : World → Nat → α} (he : e.kind = .hook ∨ e.kind = .work)
    (hh : e.handling = false) (hcall : Replays V w id (observe call) (observe call₀)) :
    Replays V w id (boundedPermitCall e call) (boundedPermitCall e call₀) := by
  have hevent : V.erase e = some e := by
    refine hV.event e ?_ ?_ hh
    · rcases he with he | he <;> rw [he] <;> nofun
    · rcases he with he | he <;> rw [he] <;> nofun
  refine .andThen hV.deadlineDone fun _ => .ite .pure ?_
  refine .andThen (.emit (hV.event _ nofun nofun rfl)) fun _ => .andThen (.emit hevent) fun _ => ?_
  refine .andThen hcall fun _ => .andThen (hV.look ?_) fun _ => ?_
  · intro w₀ i j ha
    rw [ha.deadline, ha.givesUp]
  · exact .ite .pure (.andThen (.emit (hV.event _ nofun nofun rfl)) fun _ => .pure)

theorem Mirrors.preparationCall {call call₀ : World → Nat → α} (he : e.kind = .hook ∨ e.kind = .work)
    (hh : e.handling = false) (hcall : Replays V w id (observe call) (observe call₀)) :
    Replays V w id (preparationCall permit key e call) (preparationCall permit key e call₀) := by
  refine .andThen hV.checkTerminal fun _ => ?_
  apply Replays.andThen (hV.boundedPermitCall he hh hcall)
  intro value
  cases value with
  | none =>
    apply Replays.andThen hV.preAttemptTerminal
    intro terminal
    cases terminal with
    | none => exact .stop
    | some e => exact .stop
  | some value => exact .andThen hV.checkTerminal fun _ => .pure

theorem Mirrors.failDecorated :
    Replays V w id (failDecorated e : Op α) (failDecorated e) :=
  .andThen (hV.identity fun id => { e with operationID := id }) fun _ => .stop

theorem Mirrors.failHook :
    Replays V w id (failHook key option cause : Op α) (failHook key option cause) :=
  .andThen hV.operationID fun _ => .stop

theorem Mirrors.obtainAPIKey : Replays V w id (obtainAPIKey cfg permit)
    (obtainAPIKey (cfg.withTelemetry b) permit) := by
  refine .ite ?_ (.ite hV.failDecorated .pure)
  apply Replays.andThen (hV.preparationCall (.inl rfl) rfl (hV.look fun _ _ _ ha => ha.apiKeyProvider))
  intro provided
  cases provided with
  | none =>
    refine .andThen (hV.look ?_) fun _ => .ite hV.failDecorated hV.failHook
    intro w₀ i j ha
    rw [ha.operation]
  | some apiKey => exact .ite .pure hV.failDecorated

theorem Mirrors.obtainIdempotencyKey : Replays V w id (obtainIdempotencyKey permit callerKey)
    (obtainIdempotencyKey permit callerKey) := by
  refine .ite (.ite .pure hV.failDecorated) ?_
  apply Replays.andThen
    (hV.preparationCall (.inl rfl) rfl (hV.look fun _ _ _ ha => ha.idempotencyKeyGenerator))
  intro generated
  cases generated with
  | none => exact hV.failHook
  | some key => exact .ite .pure hV.failDecorated

theorem Mirrors.serializePayload (hc : SeesCodec V codec codec₀ w) : Replays V w id
    (serializePayload codec permit key schema webhook input timestamp)
    (serializePayload codec₀ permit key schema webhook input timestamp) := by
  apply Replays.andThen (hV.preparationCall (.inr rfl) rfl (hc.serialize _ _ _ _))
  intro serialized
  cases serialized with
  | data payload => exact .pure
  | panicked => exact hV.failHook
  | invalid issues issueCount => exact hV.failDecorated

theorem Mirrors.marshalBody (hc : SameCodec codec codec₀) : Replays V w id
    (marshalBody codec permit key webhook customerID timestamp payload)
    (marshalBody codec₀ permit key webhook customerID timestamp payload) := by
  refine .andThen (hV.preparationCall (.inr rfl) rfl (hV.look fun _ _ _ _ => ?_)) fun marshaled => ?_
  · rw [hc.envelope]
  · cases marshaled with
    | none => exact hV.failDecorated
    | some body => exact .ite hV.failDecorated .pure

theorem Mirrors.prepare (hc : SeesCodec V codec codec₀ w) : Replays V w id
    (prepare codec cfg permit schema group member input)
    (prepare codec₀ (cfg.withTelemetry b) permit schema group member input) := by
  unfold Repost.prepare
  rw [hc.lookupEvent]
  cases lookupEvent codec schema group member with
  | error code => exact hV.failDecorated
  | ok event =>
    refine .andThen hV.obtainAPIKey fun apiKey => .andThen hV.checkTerminal fun _ => ?_
    refine .andThen hV.obtainIdempotencyKey fun key => ?_
    apply Replays.andThen
      (hV.preparationCall (.inl rfl) rfl (hV.look fun _ _ _ ha => ha.generateNow))
    intro generated
    cases generated with
    | none => exact hV.failHook
    | some timestamp =>
      refine .andThen (hV.serializePayload hc) fun payload => ?_
      refine .andThen (hV.marshalBody hc.toSameCodec) fun body => ?_
      have hshrink := hV.event (.shrinkRequest body.length) nofun nofun rfl
      exact .andThen (.emit hshrink) fun _ => .andThen hV.checkTerminal fun _ => .pure

theorem Mirrors.callScheduler : Replays V w id (callScheduler cfg delay)
    (callScheduler (cfg.withTelemetry b) delay) := by
  have hsleep : Replays V w id (observe fun w t => w.sleep t delay)
      (observe fun w t => w.sleep t delay) :=
    hV.look fun _ _ _ ha => congrFun ha.sleep delay
  refine .ite ?_ (hV.boundedPermitCall (.inr rfl) rfl hsleep)
  exact .andThen (.emit (hV.event _ nofun nofun rfl)) fun _ => .andThen hsleep fun _ => .pure

end Mirrors

structure SeesReports (V : View World OpState Event) (w : World) (cfg : RuntimeConfig)
    (b : Bool) : Prop where
  endAttempt : ∀ err retryable, Replays V w id (endAttempt cfg err retryable)
    (endAttempt (cfg.withTelemetry b) err retryable)
  reportRetry : ∀ delay e, Replays V w id (reportRetry cfg delay e)
    (reportRetry (cfg.withTelemetry b) delay e)

section SeesReports
variable {V : View World OpState Event} {w : World} (hV : Mirrors V w) (hr : SeesReports V w cfg b)
include hr

theorem SeesReports.failAttempt : Replays V w id
    (do
      Repost.endAttempt cfg err retryable
      fail e : Op α)
    (do
      Repost.endAttempt (cfg.withTelemetry b) err retryable
      fail e) :=
  .andThen (hr.endAttempt err retryable) fun _ => .stop

include hV

theorem SeesReports.awaitRetry : Replays V w id
    (awaitRetry cfg permit last attempt committed delay)
    (awaitRetry (cfg.withTelemetry b) permit last attempt committed delay) := by
  refine .andThen (hr.reportRetry _ _) fun _ => .andThen hV.callScheduler fun slept => ?_
  apply Replays.andThen hV.preAttemptTerminal
  intro terminal
  rcases slept with _ | slept <;> rcases terminal with _ | e
  · exact .stop
  · exact .stop
  · cases slept with
    | true => exact .pure
    | false =>
      apply Replays.andThen hV.preAttemptTerminal
      intro terminal
      cases terminal with
      | none => exact .stop
      | some e => exact .stop
  · exact .stop

theorem SeesReports.backoff (hd : retryAfterDelay response₀ = retryAfterDelay response) :
    Replays V w id (backoff cfg permit last response attempt committed)
      (backoff (cfg.withTelemetry b) permit last response₀ attempt committed) := by
  apply Replays.andThen hV.callMonotonicClock
  intro reading
  cases reading with
  | none => exact .stop
  | some now =>
    refine .ite .stop ?_
    refine .andThen (hV.boundedPermitCall (.inr rfl) rfl (hV.look ?_)) fun sampled => ?_
    · intro w₀ i j ha
      rw [ha.retryEntropy]
      rfl
    · rcases sampled with _ | jitter | _ | _
      · exact hV.checkTerminal
      · dsimp only [id]
        rw [hd]
        rcases retryAfterDelay response with _ | _ | retryAfter
        · exact .stop
        · exact hr.awaitRetry hV
        · exact hr.awaitRetry hV
      · exact .stop
      · exact .stop

theorem SeesReports.retryOrFail (hs : response₀.isSome = response.isSome)
    (hd : retryAfterDelay response₀ = retryAfterDelay response) : Replays V w id
    (retryOrFail cfg permit e response attempt committed)
    (retryOrFail (cfg.withTelemetry b) permit e response₀ attempt committed) := by
  unfold Repost.retryOrFail
  rw [hs]
  apply Replays.andThen hV.preAttemptTerminal
  intro terminal
  cases terminal with
  | some e => exact hr.failAttempt
  | none =>
    refine .ite hr.failAttempt (.andThen (hr.endAttempt _ _) fun _ => ?_)
    exact .andThen (hr.backoff hV hd) fun _ => .pure

end SeesReports

end Repost
