import Repost.Frames
import Repost.Operation

namespace Repost
open GoText Traced
set_option autoImplicit true

inductive EventKind where
  | clock | hook | send | work | report

def Event.kind : Event → EventKind
  | .clock _ => .clock
  | .apiKeyProvider | .idempotencyKeyGenerator | .generateNow => .hook
  | .send _ => .send
  | .observer _ | .telemetryFailure | .operationSpan | .operationSpanEnd | .attemptSpan _
  | .attemptSpanEnd _ => .report
  | _ => .work

def Event.handling : Event → Bool
  | .settled _ | .closeResponse _ | .responseCloseFailure => true
  | _ => false

structure Steady (w : World) (allowed : Event → Prop)
    (ρ : OpState → OpState → List Event → Prop) : Prop extends Composes ρ where
  tick : ∀ s : OpState, ρ s { s with tick := s.tick + 1 } []
  clock : ∀ s : OpState, ρ s { s with tick := s.tick + 1 } [.clock (w.clock s.tick)]
  event : ∀ s e, allowed e → ρ s s [e]

structure Mild (w : World) (allowed : Event → Prop)
    (ρ : OpState → OpState → List Event → Prop) : Prop extends Steady w allowed ρ where
  observability : ∀ s s' : OpState, s'.tick = s.tick → s'.closed = s.closed → ρ s s' []

section Steady
variable {w : World} {allowed : Event → Prop} {ρ : OpState → OpState → List Event → Prop}

theorem observe_run (f : World → Nat → α) (w : World) (s : OpState) :
    observe f w s = (.ok (f w s.tick), { s with tick := s.tick + 1 }, []) := rfl

theorem Steady.observe (hρ : Steady w allowed ρ) (f : World → Nat → α) :
    Within w ρ (observe f) := by
  intro s r s' t h
  cases h
  exact hρ.tick s

theorem Steady.callMonotonicClock (hρ : Steady w allowed ρ) : Within w ρ callMonotonicClock := by
  intro s r s' t h
  cases h
  exact hρ.clock s

theorem Steady.emit (hρ : Steady w allowed ρ) (he : allowed e) :
    Within w ρ (Prog.emit e : Op Unit) :=
  .emit fun s => hρ.event s e he

theorem Steady.clockTerminal (hρ : Steady w allowed ρ) :
    Within w ρ (clockTerminal permit committed attempts id' key) := by
  apply Within.bind hρ.toComposes hρ.callMonotonicClock
  intro reading
  cases reading with
  | none | some now => exact .pure hρ.toComposes

theorem Steady.preAttemptTerminal (hρ : Steady w allowed ρ) :
    Within w ρ (preAttemptTerminal permit committed attempts key) := by
  have hc := hρ.toComposes
  refine .bind hc (.ask hc) fun _ => .bind hc (hρ.observe _) fun _ => .ite (.pure hc) ?_
  refine .bind hc (hρ.observe _) fun _ => .ite (.pure hc) ?_
  refine .bind hc (hρ.observe _) fun _ => .ite (.pure hc) ?_
  exact .bind hc (hρ.observe _) fun _ => .ite (.pure hc) hρ.clockTerminal

theorem Steady.deadlineTerminal (hρ : Steady w allowed ρ) :
    Within w ρ (deadlineTerminal permit committed attempts key) := by
  have hc := hρ.toComposes
  exact .bind hc (.ask hc) fun _ => .bind hc (hρ.observe _) fun _ => .ite (.pure hc)
    hρ.clockTerminal

theorem Steady.checkTerminal (hρ : Steady w allowed ρ) :
    Within w ρ (checkTerminal permit committed attempts key) := by
  apply Within.bind hρ.toComposes hρ.preAttemptTerminal
  intro terminal
  cases terminal with
  | none => exact .pure hρ.toComposes
  | some e => exact .stop hρ.toComposes

theorem Steady.failDecorated (hρ : Steady w allowed ρ) : Within w ρ (failDecorated err : Op α) :=
  .bind hρ.toComposes (.ask hρ.toComposes) fun _ => .stop hρ.toComposes

theorem Steady.failHook (hρ : Steady w allowed ρ) : Within w ρ (failHook key option cause : Op α) :=
  .bind hρ.toComposes (.ask hρ.toComposes) fun _ => .stop hρ.toComposes

variable (hρ : Steady w allowed ρ)
  (hw : ∀ e : Event, e.kind = .work → e.handling = false → allowed e)
include hρ hw

theorem Steady.work (hk : e.kind = .work) (hn : e.handling = false) :
    Within w ρ (Prog.emit e : Op Unit) :=
  hρ.emit (hw e hk hn)

theorem Steady.boundedPermitCall (e : Event) (he : allowed e)
    (call : World → Nat → α) : Within w ρ (boundedPermitCall e call) := by
  have hc := hρ.toComposes
  refine .bind hc (hρ.observe _) fun _ => .ite (.pure hc) ?_
  refine .bind hc (hρ.work hw rfl rfl) fun _ => .bind hc (hρ.emit he) fun _ => ?_
  refine .bind hc (hρ.observe _) fun _ => .bind hc (hρ.observe _) fun _ => .ite (.pure hc) ?_
  exact .bind hc (hρ.work hw rfl rfl) fun _ => .pure hc

theorem Steady.preparationCall (e : Event) (he : allowed e)
    (call : World → Nat → α) : Within w ρ (preparationCall permit key e call) := by
  have hc := hρ.toComposes
  refine .bind hc hρ.checkTerminal fun _ => ?_
  apply Within.bind hc (hρ.boundedPermitCall hw e he call)
  intro value
  cases value with
  | none =>
    apply Within.bind hc hρ.preAttemptTerminal
    intro terminal
    cases terminal with
    | none => exact .stop hc
    | some e => exact .stop hc
  | some value => exact .bind hc hρ.checkTerminal fun _ => .pure hc

variable {codec : Codec Schema Data Payload}

theorem Steady.serializePayload :
    Within w ρ (serializePayload codec permit key schema webhook input timestamp) := by
  apply Within.bind hρ.toComposes (hρ.preparationCall hw .serialize (hw _ rfl rfl) _)
  intro serialized
  cases serialized with
  | data payload => exact .pure hρ.toComposes
  | panicked => exact hρ.failHook
  | invalid issues issueCount => exact hρ.failDecorated

theorem Steady.marshalBody :
    Within w ρ (marshalBody codec permit key webhook customerID timestamp payload) := by
  apply Within.bind hρ.toComposes (hρ.preparationCall hw .marshal (hw _ rfl rfl) _)
  intro marshaled
  cases marshaled with
  | none => exact hρ.failDecorated
  | some body => exact .ite hρ.failDecorated (.pure hρ.toComposes)

theorem Steady.countHeaderLimit : Within w ρ (countHeaderLimit outcome) :=
  .ite (hρ.work hw rfl rfl) (.pure hρ.toComposes)

theorem Steady.callScheduler : Within w ρ (callScheduler cfg delay) := by
  have hc := hρ.toComposes
  refine .ite ?_ (hρ.boundedPermitCall hw (.sleep delay) (hw _ rfl rfl) _)
  exact .bind hc (hρ.work hw rfl rfl) fun _ => .bind hc (hρ.observe _) fun _ => .pure hc

section Hooks
variable (hh : ∀ e : Event, e.kind = .hook → allowed e)
include hh

theorem Steady.obtainAPIKey : Within w ρ (obtainAPIKey cfg permit) := by
  have hc := hρ.toComposes
  refine .ite ?_ (.ite hρ.failDecorated (.pure hc))
  apply Within.bind hc (hρ.preparationCall hw .apiKeyProvider (hh _ rfl) _)
  intro provided
  cases provided with
  | none => exact .bind hc (hρ.observe _) fun _ => .ite hρ.failDecorated hρ.failHook
  | some apiKey => exact .ite (.pure hc) hρ.failDecorated

theorem Steady.obtainIdempotencyKey : Within w ρ (obtainIdempotencyKey permit callerKey) := by
  have hc := hρ.toComposes
  refine .ite (.ite (.pure hc) hρ.failDecorated) ?_
  apply Within.bind hc (hρ.preparationCall hw .idempotencyKeyGenerator (hh _ rfl) _)
  intro generated
  cases generated with
  | none => exact hρ.failHook
  | some key => exact .ite (.pure hc) hρ.failDecorated

theorem Steady.prepare :
    Within w ρ (prepare codec cfg permit schema group member input) := by
  have hc := hρ.toComposes
  unfold Repost.prepare
  cases lookupEvent codec schema group member with
  | error code => exact hρ.failDecorated
  | ok event =>
    refine .bind hc (hρ.obtainAPIKey hw hh) fun _ => .bind hc hρ.checkTerminal fun _ => ?_
    refine .bind hc (hρ.obtainIdempotencyKey hw hh) fun _ => ?_
    apply Within.bind hc (hρ.preparationCall hw .generateNow (hh _ rfl) _)
    intro generated
    cases generated with
    | none => exact hρ.failHook
    | some timestamp =>
      refine .bind hc (hρ.serializePayload hw) fun _ => .bind hc (hρ.marshalBody hw) fun _ => ?_
      exact .bind hc (hρ.work hw rfl rfl) fun _ => .bind hc hρ.checkTerminal fun _ => .pure hc

end Hooks

theorem Steady.boundedAttemptCall (hs : ∀ q, allowed (.send q)) :
    Within w ρ (boundedAttemptCall request) := by
  have hc := hρ.toComposes
  refine .bind hc (.ask hc) fun _ => .bind hc (hρ.observe _) fun _ => .ite (.pure hc) ?_
  refine .bind hc (hρ.work hw rfl rfl) fun _ => .bind hc (hρ.emit (hs _)) fun _ => ?_
  refine .bind hc (hρ.observe _) fun _ => .ite (.pure hc) ?_
  exact .bind hc (hρ.work hw rfl rfl) fun _ => .pure hc

end Steady

section Mild
variable {w : World} {allowed : Event → Prop} {ρ : OpState → OpState → List Event → Prop}
  (hρ : Mild w allowed ρ) (hr : ∀ e : Event, e.kind = .report → allowed e)
include hρ

theorem Mild.modify {f : OpState → OpState}
    (hf : ∀ s, (f s).tick = s.tick ∧ (f s).closed = s.closed) :
    Within w ρ (Prog.modify f : Op Unit) :=
  .modify fun s => hρ.observability s (f s) (hf s).1 (hf s).2

theorem Mild.sample : Within w ρ sample := by
  have hc := hρ.toComposes
  refine .bind hc hρ.callMonotonicClock fun reading => .bind hc (hρ.modify ?_) fun _ =>
    .bind hc (.get hc) fun _ => .pure hc
  intro s
  cases reading with
  | none => exact ⟨rfl, rfl⟩
  | some now =>
    dsimp only
    split <;> exact ⟨rfl, rfl⟩

theorem Mild.observedOutcome : Within w ρ (observedOutcome err) :=
  .ite (.bind hρ.toComposes (hρ.observe _) fun _ => .pure hρ.toComposes) (.pure hρ.toComposes)

include hr

theorem Mild.report (he : e.kind = .report) : Within w ρ (Prog.emit e : Op Unit) :=
  hρ.toSteady.emit (hr _ he)

theorem Mild.emitAt : Within w ρ (emitAt cfg e timestamp) :=
  .ite (hρ.report hr rfl) (.pure hρ.toComposes)

theorem Mild.emit : Within w ρ (Repost.emit cfg e) :=
  .ite (.bind hρ.toComposes hρ.sample fun _ => hρ.emitAt hr) (.pure hρ.toComposes)

theorem Mild.callTelemetry : Within w ρ (callTelemetry hook) := by
  have hc := hρ.toComposes
  refine .bind hc (hρ.observe _) fun _ => .ite (.pure hc) ?_
  exact .bind hc (hρ.report hr rfl) fun _ => .pure hc

theorem Mild.startObservability : Within w ρ (startObservability cfg permit) := by
  have hc := hρ.toComposes
  refine .bind hc (hρ.modify fun _ => ⟨rfl, rfl⟩) fun _ => .bind hc (hρ.emit hr) fun _ => ?_
  refine .ite (.bind hc (hρ.callTelemetry hr) fun _ => .ite ?_ (.pure hc)) (.pure hc)
  refine .bind hc (hρ.report hr rfl) fun _ => .bind hc (hρ.modify fun _ => ⟨rfl, rfl⟩) fun _ => ?_
  exact .bind hc (hρ.callTelemetry hr) fun _ => hρ.modify fun _ => ⟨rfl, rfl⟩

theorem Mild.attemptHeaders : Within w ρ (attemptHeaders attempt) := by
  have hc := hρ.toComposes
  refine .bind hc (hρ.callTelemetry hr) fun _ => .ite ?_ (.pure hc)
  refine .bind hc (hρ.report hr rfl) fun _ => .bind hc (hρ.modify fun _ => ⟨rfl, rfl⟩) fun _ => ?_
  apply Within.bind hc (hρ.observe _)
  intro pairs
  cases pairs with
  | none => exact .bind hc (hρ.report hr rfl) fun _ => .pure hc
  | some pairs => exact .pure hc

theorem Mild.startAttempt : Within w ρ (startAttempt cfg attempt) := by
  have hc := hρ.toComposes
  refine .bind hc (.get hc) fun _ => .ite (.pure hc) ?_
  refine .bind hc (hρ.modify fun _ => ⟨rfl, rfl⟩) fun _ => .bind hc hρ.sample fun _ => ?_
  refine .bind hc (hρ.modify fun _ => ⟨rfl, rfl⟩) fun _ => .bind hc (hρ.emit hr) fun _ => ?_
  exact .bind hc (.get hc) fun _ => .ite (hρ.attemptHeaders hr) (.pure hc)

theorem Mild.endSpan (he : e.kind = .report) : Within w ρ (endSpan present e hook) := by
  have hc := hρ.toComposes
  refine .ite (.bind hc (hρ.report hr he) fun _ => ?_) (.pure hc)
  exact .bind hc (hρ.callTelemetry hr) fun _ => .pure hc

theorem Mild.endAttempt : Within w ρ (endAttempt cfg err retryable) := by
  have hc := hρ.toComposes
  refine .bind hc (.get hc) fun _ => .ite (.pure hc) ?_
  refine .bind hc hρ.sample fun _ => .bind hc hρ.observedOutcome fun _ => ?_
  refine .bind hc (hρ.modify fun s => ?_) fun _ => .bind hc (hρ.emit hr) fun _ => ?_
  · split <;> exact ⟨rfl, rfl⟩
  · exact .bind hc (hρ.endSpan hr rfl) fun _ => hρ.modify fun _ => ⟨rfl, rfl⟩

theorem Mild.reportRetry : Within w ρ (reportRetry cfg delay e) :=
  .bind hρ.toComposes (.get hρ.toComposes) fun _ => .ite (.pure hρ.toComposes) (hρ.emit hr)

theorem Mild.finish : Within w ρ (finish cfg err) := by
  have hc := hρ.toComposes
  refine .bind hc (.get hc) fun _ => .ite (.pure hc) ?_
  refine .bind hc (hρ.modify fun _ => ⟨rfl, rfl⟩) fun _ => .bind hc (hρ.endAttempt hr) fun _ => ?_
  refine .bind hc hρ.observedOutcome fun _ => .bind hc (.ite (hρ.emit hr) (.pure hc)) fun _ => ?_
  refine .bind hc hρ.sample fun _ => .bind hc (.get hc) fun _ => ?_
  exact .bind hc (hρ.endSpan hr rfl) fun _ => hρ.emitAt hr

theorem Mild.failAttempt : Within w ρ
    (do
      Repost.endAttempt cfg err retryable
      fail e : Op α) :=
  .bind hρ.toComposes (hρ.endAttempt hr) fun _ => .stop hρ.toComposes

section Retries
variable (hw : ∀ e : Event, e.kind = .work → e.handling = false → allowed e)
include hw

theorem Mild.awaitRetry : Within w ρ (awaitRetry cfg permit last attempt committed delay) := by
  have hc := hρ.toComposes
  refine .bind hc (hρ.reportRetry hr) fun _ => ?_
  apply Within.bind hc (hρ.callScheduler hw)
  intro slept
  apply Within.bind hc hρ.preAttemptTerminal
  intro terminal
  rcases slept with _ | slept <;> rcases terminal with _ | e
  · exact .stop hc
  · exact .stop hc
  · cases slept with
    | true => exact .pure hc
    | false =>
      apply Within.bind hc hρ.preAttemptTerminal
      intro terminal
      cases terminal with
      | none => exact .stop hc
      | some e => exact .stop hc
  · exact .stop hc

theorem Mild.backoff : Within w ρ (backoff cfg permit last response attempt committed) := by
  have hc := hρ.toComposes
  apply Within.bind hc hρ.callMonotonicClock
  intro reading
  cases reading with
  | none => exact .stop hc
  | some now =>
    refine .ite (.stop hc) ?_
    apply Within.bind hc (hρ.boundedPermitCall hw (.retryEntropy _) (hw _ rfl rfl) _)
    intro sampled
    rcases sampled with _ | jitter | _ | _
    · exact hρ.checkTerminal
    · dsimp only
      rcases retryAfterDelay response with _ | _ | retryAfter
      · exact .stop hc
      · exact hρ.awaitRetry hr hw
      · exact hρ.awaitRetry hr hw
    · exact .stop hc
    · exact .stop hc

theorem Mild.retryOrFail :
    Within w ρ (retryOrFail cfg permit e response attempt committed) := by
  have hc := hρ.toComposes
  apply Within.bind hc hρ.preAttemptTerminal
  intro terminal
  cases terminal with
  | some e => exact hρ.failAttempt hr
  | none =>
    refine .ite (hρ.failAttempt hr) (.bind hc (hρ.endAttempt hr) fun _ => ?_)
    exact .bind hc (hρ.backoff hr hw) fun _ => .pure hc

end Retries

end Mild

end Repost
