import Repost.SteadyFrames

namespace Repost
open GoText Traced
set_option autoImplicit true

structure Calm (w : World) (kinds : EventKind → Prop)
    (ρ : OpState → OpState → List Event → Prop) : Prop extends Composes ρ where
  tick : ∀ s : OpState, ρ s { s with tick := s.tick + 1 } []
  clock : ∀ s : OpState, ρ s { s with tick := s.tick + 1 } [.clock (w.clock s.tick)]
  closed : ∀ (s : OpState) (ids : List Nat), ρ s { s with closed := ids } []
  event : ∀ s e, e.kind ≠ .clock → kinds e.kind → ρ s s [e]

structure Loose (w : World) (kinds : EventKind → Prop)
    (ρ : OpState → OpState → List Event → Prop) : Prop extends Calm w kinds ρ where
  observability : ∀ s s' : OpState, s'.tick = s.tick → ρ s s' []

section Calm
variable {w : World} {kinds : EventKind → Prop} {ρ : OpState → OpState → List Event → Prop}

theorem Calm.steady (hρ : Calm w kinds ρ) :
    Steady w (fun e => e.kind ≠ .clock ∧ kinds e.kind) ρ :=
  ⟨hρ.toComposes, hρ.tick, hρ.clock, fun s e he => hρ.event s e he.1 he.2⟩

theorem allows_kind {kinds : EventKind → Prop} (hk : kinds k) (hne : k ≠ .clock) (e : Event)
    (he : e.kind = k) : e.kind ≠ .clock ∧ kinds e.kind := by
  subst he
  exact ⟨hne, hk⟩

variable (hρ : Calm w kinds ρ) (hw : kinds .work)
include hρ hw

theorem Calm.work (he : e.kind = .work) : Within w ρ (Prog.emit e : Op Unit) :=
  hρ.steady.emit (allows_kind hw nofun e he)

theorem Calm.boundedPermitCall (e : Event) (hk : e.kind ≠ .clock) (he : kinds e.kind)
    (call : World → Nat → α) : Within w ρ (boundedPermitCall e call) :=
  hρ.steady.boundedPermitCall (fun e h _ => allows_kind hw nofun e h) e ⟨hk, he⟩ call

variable {codec : Codec Schema Data Payload}

theorem Calm.serializePayload :
    Within w ρ (serializePayload codec permit key schema webhook input timestamp) :=
  hρ.steady.serializePayload fun e h _ => allows_kind hw nofun e h

theorem Calm.marshalBody :
    Within w ρ (marshalBody codec permit key webhook customerID timestamp payload) :=
  hρ.steady.marshalBody fun e h _ => allows_kind hw nofun e h

theorem Calm.closeResponse : Within w ρ (closeResponse response) := by
  have hc := hρ.toComposes
  unfold Repost.closeResponse
  cases response.bind (·.closer) with
  | none => exact .pure hc
  | some closer =>
    refine .bind hc ?_ fun _ => .ite (hρ.work hw rfl) (.pure hc)
    refine .bind hc (.get hc) fun _ => .ite (.pure hc) ?_
    exact .bind hc (.modify fun s => hρ.closed s _) fun _ => hρ.work hw rfl

theorem Calm.countHeaderLimit : Within w ρ (countHeaderLimit outcome) :=
  hρ.steady.countHeaderLimit fun e h _ => allows_kind hw nofun e h

theorem Calm.callScheduler : Within w ρ (callScheduler cfg delay) :=
  hρ.steady.callScheduler fun e h _ => allows_kind hw nofun e h

theorem Calm.prepare (hh : kinds .hook) :
    Within w ρ (prepare codec cfg permit schema group member input) :=
  hρ.steady.prepare (fun e h _ => allows_kind hw nofun e h) (allows_kind hh nofun)

theorem Calm.boundedAttemptCall (hs : kinds .send) : Within w ρ (boundedAttemptCall request) :=
  hρ.steady.boundedAttemptCall (fun e h _ => allows_kind hw nofun e h)
    fun q => allows_kind hs nofun (.send q) rfl

end Calm

section Loose
variable {w : World} {kinds : EventKind → Prop} {ρ : OpState → OpState → List Event → Prop}
  (hρ : Loose w kinds ρ) (hr : kinds .report)
include hρ

theorem Loose.mild : Mild w (fun e => e.kind ≠ .clock ∧ kinds e.kind) ρ :=
  ⟨hρ.toCalm.steady, fun s s' ht _ => hρ.observability s s' ht⟩

include hr

theorem Loose.startObservability : Within w ρ (startObservability cfg permit) :=
  hρ.mild.startObservability (allows_kind hr nofun)

theorem Loose.startAttempt : Within w ρ (startAttempt cfg attempt) :=
  hρ.mild.startAttempt (allows_kind hr nofun)

theorem Loose.endAttempt : Within w ρ (endAttempt cfg err retryable) :=
  hρ.mild.endAttempt (allows_kind hr nofun)

theorem Loose.finish : Within w ρ (finish cfg err) :=
  hρ.mild.finish (allows_kind hr nofun)

theorem Loose.failAttempt : Within w ρ
    (do
      Repost.endAttempt cfg err retryable
      fail e : Op α) :=
  .bind hρ.toComposes (hρ.endAttempt hr) fun _ => .stop hρ.toComposes

section Attempts
variable (hw : kinds .work)
include hw

theorem Loose.lateOutcome : Within w ρ (lateOutcome cfg permit p request committed a) := by
  have hc := hρ.toComposes
  refine .bind hc (hρ.closeResponse hw) fun _ => ?_
  apply Within.bind hc hρ.steady.preAttemptTerminal
  intro terminal
  cases terminal with
  | none => exact .pure hc
  | some e => exact .bind hc (hρ.work hw rfl) fun _ => hρ.failAttempt hr

theorem Loose.retryOrFail :
    Within w ρ (retryOrFail cfg permit e response attempt committed) :=
  hρ.mild.retryOrFail (allows_kind hr nofun) fun e h _ => allows_kind hw nofun e h

theorem Loose.handleResponse :
    Within w ρ (handleResponse cfg permit p attempt before committed r) := by
  have hc := hρ.toComposes
  refine .bind hc (.ask hc) fun _ => .bind hc (hρ.closeResponse hw) fun _ => ?_
  cases validateAttemptResponse r p.eventType p.customerID p.timestamp with
  | error e => exact hρ.retryOrFail hr hw
  | ok result =>
    apply Within.bind hc hρ.steady.deadlineTerminal
    intro terminal
    cases terminal with
    | some e => exact hρ.failAttempt hr
    | none => exact .bind hc (hρ.endAttempt hr) fun _ => .pure hc

theorem Loose.rejectMalformed : Within w ρ (rejectMalformed cfg p attempt response) := by
  have hc := hρ.toComposes
  refine .bind hc (.ask hc) fun _ => .bind hc (hρ.closeResponse hw) fun _ => ?_
  exact hρ.failAttempt hr

theorem Loose.classify :
    Within w ρ (classify cfg permit p attempt before committed outcome) := by
  have hc := hρ.toComposes
  refine .ite (hρ.rejectMalformed hr hw) ?_
  rcases outcome with ⟨_ | r, _ | f⟩
  · exact hρ.rejectMalformed hr hw
  · exact .bind hc (.ask hc) fun _ => hρ.retryOrFail hr hw
  · exact hρ.handleResponse hr hw
  · exact hρ.handleResponse hr hw

variable (hs : kinds .send)
include hs

theorem Loose.settle : Within w ρ (settle cfg permit p request committed) := by
  have hc := hρ.toComposes
  refine .bind hc (hρ.boundedAttemptCall hw hs) fun a => ?_
  refine .bind hc (.ite (.pure hc) (hρ.lateOutcome hr hw)) fun _ => ?_
  refine .bind hc (hρ.countHeaderLimit hw) fun _ => ?_
  exact .bind hc (hρ.work hw rfl) fun _ => .pure hc

theorem Loose.attemptOnce : Within w ρ (attemptOnce cfg permit p attempt committed) := by
  have hc := hρ.toComposes
  refine .bind hc (.ask hc) fun _ => .bind hc hρ.steady.checkTerminal fun _ => ?_
  apply Within.bind hc hρ.steady.callMonotonicClock
  intro reading
  refine .bind hc hρ.steady.checkTerminal fun _ => ?_
  cases reading with
  | none => exact .stop hc
  | some now =>
    refine .bind hc (hρ.startAttempt hr) fun _ => .bind hc (hρ.settle hr hw hs) fun _ => ?_
    exact hρ.classify hr hw

theorem Loose.attemptLoop :
    Within w ρ (attemptLoop cfg permit p left attempt committed) := by
  have hc := hρ.toComposes
  induction left generalizing attempt committed with
  | zero => exact .stop hc
  | succ left ih =>
    apply Within.bind hc (hρ.attemptOnce hr hw hs)
    intro verdict
    cases verdict with
    | accepted result => exact .pure hc
    | retry committed => exact ih

theorem Loose.sendAdmitted (hh : kinds .hook) :
    Within w ρ (sendAdmitted codec cfg permit schema group member input) := by
  have hc := hρ.toComposes
  refine .bind hc hρ.steady.checkTerminal fun _ => .bind hc (hρ.startObservability hr) fun _ => ?_
  refine .defer hc ?_ fun _ => hρ.finish hr
  exact .bind hc (hρ.prepare hw hh) fun _ => hρ.attemptLoop hr hw hs

end Attempts

end Loose

theorem Only.loose {q : Event → Prop} {kinds : EventKind → Prop} (w : World)
    (hclock : ∀ reading, q (.clock reading)) (hq : ∀ e, kinds e.kind → q e) :
    Loose w kinds (Only q) where
  toComposes := Only.composes q
  tick := fun _ e he => by cases he
  clock := fun s e he => by
    rw [List.mem_singleton.1 he]
    exact hclock _
  closed := fun _ _ e he => by cases he
  event := fun _ e _ hk e' he => by
    rw [List.mem_singleton.1 he]
    exact hq e hk
  observability := fun _ _ _ e he => by cases he

end Repost
