import Repost.Operation

namespace Repost
open GoText Traced
set_option autoImplicit true

def Event.settled? : Event → Option Settled
  | .settled s => some s
  | _ => none

def settledOf (h : List Event) : List Settled := h.filterMap Event.settled?

/-- The delivery state of an attempt.end or operation.end event. -/
def Event.endReport : Event → Option DeliveryState
  | .observer e =>
    if e.kind = .attemptEnd ∨ e.kind = .operationEnd then e.deliveryState else none
  | _ => none

def Settled.raises (s : Settled) : Bool := attemptCommitted s.effective s.tracker

def floor (S : List Settled) : Bool := S.any Settled.raises

@[simp] theorem floor_append (S T : List Settled) : floor (S ++ T) = (floor S || floor T) :=
  List.any_append

@[simp] theorem floor_singleton (s : Settled) : floor [s] = s.raises := by
  simp only [floor, List.any_cons, List.any_nil, Bool.or_false]

theorem floor_of_mem (hs : s ∈ S) (hr : s.raises = true) : floor S = true :=
  List.any_eq_true.2 ⟨s, hs, hr⟩

def Settled.malformed (s : Settled) : Bool := malformedOutcome s.effective

def Clean (S : List Settled) : Prop := ∀ s ∈ S, s.malformed = false

def responseState (committedBefore : Bool) (r : AttemptResponse) : DeliveryState :=
  if r.attemptFailureCode.isSome || (200 ≤ r.status && r.status < 300) then .possiblySent
  else
    match statusVerdict r.status with
    | (code, state, _) =>
      if committedBefore && (code = .proxy || state = .rejected) then .possiblySent else state

def ownState (committedBefore : Bool) (s : Settled) : DeliveryState :=
  if s.malformed then .possiblySent
  else
    match s.effective.response, s.effective.failure with
    | some r, _ => responseState committedBefore r
    | none, some f => deliveryForCommit (committedBefore || s.raises || f.committed)
    | none, none => .possiblySent

/-- The states that an operation can report after the given attempts: the floor, as a terminal or
hook error states it, or the last attempt's own. A malformed attempt is always the last. -/
inductive Reported : List Settled → DeliveryState → Prop where
  | commit (hc : Clean S) : Reported S (deliveryForCommit (floor S))
  | abort (hc : Clean S) : Reported S (deliveryForAbort (floor S))
  | own (hc : Clean S) : Reported (S ++ [s]) (ownState (floor S) s)

structure Settled.From (w : World) (s : Settled) : Prop where
  handed : s.handed = s.callEnd.outcome (w.transport s.request)
  inTime : s.completed = true → s.callEnd = .returned ∧
    s.effective = { s.handed with response := s.handed.response.map snapshotAttemptResponse }
  late : s.completed = false → ∃ c, s.effective = timeoutOutcome c ∧ (c = true → s.tracker = true)
  tracker : ∃ look, s.tracker = reached (s.callEnd.markedAt (w.transport s.request)) look
  abandoned : s.callEnd = .abandoned → (w.transport s.request).givesUp = true

structure Trail (w : World) (S : List Settled) (h : List Event) : Prop where
  settled : settledOf h = S
  source : ∀ s ∈ S, s.From w
  reports : ∀ g e t d, h = g ++ e :: t → e.endReport = some d →
    d = .accepted ∨ Reported (settledOf g) d

def Says (D : DeliveryState → Prop) (e : Event) : Prop :=
  e.settled? = none ∧ ∀ d, e.endReport = some d → D d

abbrev Quiet : Event → Prop := Says (fun _ => False)

abbrev Saying (w : World) (D : DeliveryState → Prop) (m : Op α) (Q : α → Prop) : Prop :=
  Leaves w (fun _ => ()) (Says D) m Q

theorem settledOf_append (h t : List Event) : settledOf (h ++ t) = settledOf h ++ settledOf t :=
  List.filterMap_append

theorem settledOf_eq_nil (ht : ∀ e ∈ t, Says D e) : settledOf t = [] :=
  List.filterMap_eq_nil_iff.2 fun e he => (ht e he).1

theorem append_eq_append_cons {h t g u : List α} {e : α} (he : h ++ t = g ++ e :: u) :
    (∃ v, h = g ++ e :: v) ∨ ∃ v, g = h ++ v ∧ t = v ++ e :: u := by
  rcases List.append_eq_append_iff.1 he with ⟨v, hg, ht⟩ | ⟨v, hh, hu⟩
  · exact .inr ⟨v, hg, ht⟩
  · cases v with
    | nil => exact .inr ⟨[], by simpa using hh.symm, by simpa using hu.symm⟩
    | cons a v =>
      obtain ⟨rfl, -⟩ := List.cons.inj hu
      exact .inl ⟨v, hh⟩

theorem Trail.extend (hT : Trail w S h) (ht : ∀ e ∈ t, Says D e)
    (hD : ∀ d, D d → d = .accepted ∨ Reported S d) : Trail w S (h ++ t) := by
  refine ⟨?_, hT.source, ?_⟩
  · rw [settledOf_append, settledOf_eq_nil ht, List.append_nil, hT.settled]
  · intro g e u d he hd
    rcases append_eq_append_cons he with ⟨v, hv⟩ | ⟨v, rfl, rfl⟩
    · exact hT.reports g e v d hv hd
    · have hv : settledOf v = [] := settledOf_eq_nil fun e he => ht e (by simp [he])
      rw [settledOf_append, hv, List.append_nil, hT.settled]
      exact hD d ((ht e (by simp)).2 d hd)

theorem Trail.settle (hT : Trail w S h) (hs : s.From w) :
    Trail w (S ++ [s]) (h ++ [.settled s]) := by
  refine ⟨?_, ?_, ?_⟩
  · rw [settledOf_append, hT.settled]
    rfl
  · intro x hx
    rcases List.mem_append.1 hx with hx | hx
    · exact hT.source x hx
    · rw [List.mem_singleton.1 hx]
      exact hs
  · intro g e u d he hd
    rcases append_eq_append_cons he with ⟨v, hv⟩ | ⟨v, rfl, hv⟩
    · exact hT.reports g e v d hv hd
    · cases v with
      | nil =>
        obtain rfl := (List.cons.inj hv).1
        cases hd
      | cons a v => simp at hv

theorem Trail.stable (hD : ∀ d, D d → d = .accepted ∨ Reported S d) :
    Stable (fun _ : OpState => ()) (Says D) (fun _ h => Trail w S h) :=
  fun _ _ _ _ _ ht hT => hT.extend ht hD

theorem Saying.triple {m : Op α} (hm : Saying w D m Q)
    (hD : ∀ d, D d → d = .accepted ∨ Reported S d) :
    Triple w (fun _ h => Trail w S h) m (fun a _ h => Q a ∧ Trail w S h) R :=
  Leaves.triple hm (Trail.stable hD)

theorem mute_of_other (hs : e.settled? = none) (hr : e.endReport = none) : Says D e :=
  ⟨hs, fun d hd => by rw [hr] at hd; cases hd⟩

theorem observe_spec (f : World → Nat → α) :
    Saying w D (observe f) (fun a => ∃ t, a = f w t) :=
  Leaves.bind (Leaves.ask fun s => ⟨s.tick, rfl⟩) fun _ ha =>
    Leaves.bind (Leaves.modify fun _ => rfl) fun _ _ => Leaves.pure ha

theorem emit_spec (he : Says D e) : Saying w D (Prog.emit e) (fun _ => True) :=
  Leaves.emit he

theorem callMonotonicClock_spec : Saying w D callMonotonicClock (fun _ => True) :=
  Leaves.bind (observe_spec _) fun _ _ =>
    Leaves.bind (emit_spec (mute_of_other rfl rfl)) fun _ _ => Leaves.pure trivial

theorem sample_spec : Saying w D sample (fun _ => True) :=
  Leaves.bind callMonotonicClock_spec fun _ _ =>
    Leaves.bind (Leaves.modify fun _ => rfl) fun _ _ =>
      Leaves.bind Leaves.get fun _ _ => Leaves.pure trivial

theorem emitAt_spec (he : ∀ t, Says D (.observer { e with timestamp := t })) :
    Saying w D (emitAt cfg e t) (fun _ => True) :=
  Leaves.ite (fun _ => emit_spec (he t)) fun _ => Leaves.pure trivial

theorem emitObserver_spec (he : ∀ t, Says D (.observer { e with timestamp := t })) :
    Saying w D (emit cfg e) (fun _ => True) :=
  Leaves.ite (fun _ => Leaves.bind sample_spec fun _ _ => emitAt_spec he) fun _ => Leaves.pure trivial

theorem callTelemetry_spec : Saying w D (callTelemetry hook) (fun _ => True) :=
  Leaves.bind (observe_spec _) fun _ _ =>
    Leaves.ite (fun _ => Leaves.pure trivial) fun _ =>
      Leaves.bind (emit_spec (mute_of_other rfl rfl)) fun _ _ => Leaves.pure trivial

theorem startObservability_spec : Saying w D (startObservability cfg permit) (fun _ => True) := by
  refine Leaves.bind (Leaves.modify fun _ => rfl) fun _ _ => ?_
  refine Leaves.bind (emitObserver_spec fun _ => mute_of_other rfl rfl) fun _ _ => ?_
  refine Leaves.ite (fun _ => ?_) fun _ => Leaves.pure trivial
  refine Leaves.bind callTelemetry_spec fun _ _ => ?_
  refine Leaves.ite (fun _ => ?_) fun _ => Leaves.pure trivial
  refine Leaves.bind (emit_spec (mute_of_other rfl rfl)) fun _ _ => ?_
  refine Leaves.bind (Leaves.modify fun _ => rfl) fun _ _ => ?_
  exact Leaves.bind callTelemetry_spec fun _ _ => Leaves.modify fun _ => rfl

theorem attemptHeaders_spec : Saying w D (attemptHeaders attempt) (fun _ => True) := by
  refine Leaves.bind callTelemetry_spec fun _ _ => ?_
  refine Leaves.ite (fun _ => ?_) fun _ => Leaves.pure trivial
  refine Leaves.bind (emit_spec (mute_of_other rfl rfl)) fun _ _ => ?_
  refine Leaves.bind (Leaves.modify fun _ => rfl) fun _ _ => ?_
  refine Leaves.bind (observe_spec _) fun pairs _ => ?_
  cases pairs with
  | some pairs => exact Leaves.pure trivial
  | none => exact Leaves.bind (emit_spec (mute_of_other rfl rfl)) fun _ _ => Leaves.pure trivial

theorem startAttempt_spec : Saying w D (startAttempt cfg attempt) (fun _ => True) := by
  refine Leaves.bind Leaves.get fun s _ => ?_
  refine Leaves.ite (fun _ => Leaves.pure trivial) fun _ => ?_
  refine Leaves.bind (Leaves.modify fun _ => rfl) fun _ _ => ?_
  refine Leaves.bind sample_spec fun _ _ => ?_
  refine Leaves.bind (Leaves.modify fun _ => rfl) fun _ _ => ?_
  refine Leaves.bind (emitObserver_spec fun _ => mute_of_other rfl rfl) fun _ _ => ?_
  refine Leaves.bind Leaves.get fun s _ => ?_
  exact Leaves.ite (fun _ => attemptHeaders_spec) fun _ => Leaves.pure trivial

theorem observedOutcome_spec : Saying w D (observedOutcome err) (fun _ => True) :=
  Leaves.ite (fun _ => Leaves.bind (observe_spec _) fun _ _ => Leaves.pure trivial) fun _ =>
    Leaves.pure trivial

theorem endSpan_spec (he : Says D e) : Saying w D (endSpan present e hook) (fun _ => True) :=
  Leaves.ite
    (fun _ => Leaves.bind (emit_spec he) fun _ _ =>
      Leaves.bind callTelemetry_spec fun _ _ => Leaves.pure trivial)
    fun _ => Leaves.pure trivial

theorem endAttempt_spec (hd : D (reportedState err)) :
    Saying w D (endAttempt cfg err retryable) (fun _ => True) := by
  refine Leaves.bind Leaves.get fun s _ => ?_
  refine Leaves.ite (fun _ => Leaves.pure trivial) fun _ => ?_
  refine Leaves.bind sample_spec fun _ _ => ?_
  refine Leaves.bind observedOutcome_spec fun _ _ => ?_
  refine Leaves.bind (Leaves.modify fun _ => rfl) fun _ _ => ?_
  refine Leaves.bind (emitObserver_spec fun t => ⟨rfl, ?_⟩) fun _ _ => ?_
  · intro d hr
    obtain rfl : reportedState err = d := by simpa [Event.endReport] using hr
    exact hd
  refine Leaves.bind (endSpan_spec (mute_of_other rfl rfl)) fun _ _ => ?_
  exact Leaves.modify fun _ => rfl

theorem reportRetry_spec : Saying w D (reportRetry cfg delay e) (fun _ => True) := by
  refine Leaves.bind Leaves.get fun s _ => ?_
  exact Leaves.ite (fun _ => Leaves.pure trivial) fun _ =>
    emitObserver_spec fun _ => mute_of_other rfl rfl

theorem reportCancel_spec : Saying w D (reportCancel cfg outcome err) (fun _ => True) :=
  Leaves.ite (fun _ => emitObserver_spec fun _ => mute_of_other rfl rfl) fun _ => Leaves.pure trivial

theorem finish_spec (hd : D (reportedState err)) : Saying w D (finish cfg err) (fun _ => True) := by
  refine Leaves.bind Leaves.get fun s _ => ?_
  refine Leaves.ite (fun _ => Leaves.pure trivial) fun _ => ?_
  refine Leaves.bind (Leaves.modify fun _ => rfl) fun _ _ => ?_
  refine Leaves.bind (endAttempt_spec hd) fun _ _ => ?_
  refine Leaves.bind observedOutcome_spec fun _ _ => ?_
  refine Leaves.bind reportCancel_spec fun _ _ => ?_
  refine Leaves.bind sample_spec fun _ _ => ?_
  refine Leaves.bind Leaves.get fun s _ => ?_
  refine Leaves.bind (endSpan_spec (mute_of_other rfl rfl)) fun _ _ => ?_
  refine emitAt_spec fun t => ⟨rfl, ?_⟩
  intro d hr
  obtain rfl : reportedState err = d := by simpa [Event.endReport] using hr
  exact hd

def TerminalFor (committed : Bool) (terminal : Option Error) : Prop :=
  ∀ e, terminal = some e →
    e.deliveryState = deliveryForCommit committed ∨ e.deliveryState = deliveryForAbort committed

theorem operationDeadlineError_terminal :
    TerminalFor committed (some (operationDeadlineError committed attempts operationID key)) := by
  rintro _ ⟨⟩
  exact .inl rfl

theorem abortError_terminal :
    TerminalFor committed (some (abortError code committed attempts operationID key)) := by
  rintro _ ⟨⟩
  exact .inr rfl

theorem clockTerminal_spec :
    Saying w D (clockTerminal permit committed attempts operationID key) (TerminalFor committed) := by
  refine Leaves.bind callMonotonicClock_spec fun reading _ => ?_
  cases reading with
  | none =>
    refine Leaves.pure ?_
    rintro _ ⟨⟩
    exact .inl rfl
  | some now =>
    refine Leaves.pure ?_
    split
    · exact operationDeadlineError_terminal
    · rintro _ ⟨⟩

theorem preAttemptTerminal_spec :
    Saying w D (preAttemptTerminal permit committed attempts key) (TerminalFor committed) := by
  refine Leaves.bind (M := fun _ => True) (Leaves.ask fun _ => trivial) fun id _ => ?_
  refine Leaves.bind (observe_spec _) fun _ _ => ?_
  refine Leaves.ite (fun _ => Leaves.pure operationDeadlineError_terminal) fun _ => ?_
  refine Leaves.bind (observe_spec _) fun _ _ => ?_
  refine Leaves.ite (fun _ => Leaves.pure operationDeadlineError_terminal) fun _ => ?_
  refine Leaves.bind (observe_spec _) fun _ _ => ?_
  refine Leaves.ite (fun _ => Leaves.pure abortError_terminal) fun _ => ?_
  refine Leaves.bind (observe_spec _) fun _ _ => ?_
  exact Leaves.ite (fun _ => Leaves.pure abortError_terminal) fun _ => clockTerminal_spec

theorem deadlineTerminal_spec :
    Saying w D (deadlineTerminal permit committed attempts key) (TerminalFor committed) := by
  refine Leaves.bind (M := fun _ => True) (Leaves.ask fun _ => trivial) fun id _ => ?_
  refine Leaves.bind (observe_spec _) fun _ _ => ?_
  exact Leaves.ite (fun _ => Leaves.pure operationDeadlineError_terminal) fun _ =>
    clockTerminal_spec

theorem boundedPermitCall_spec (he : Says D e) :
    Saying w D (boundedPermitCall e call) (fun value => ∀ a, value = some a → ∃ t, a = call w t) := by
  refine Leaves.bind (observe_spec _) fun _ _ => ?_
  refine Leaves.ite (fun _ => Leaves.pure ?_) fun _ => ?_
  · rintro _ ⟨⟩
  refine Leaves.bind (emit_spec (mute_of_other rfl rfl)) fun _ _ => ?_
  refine Leaves.bind (emit_spec he) fun _ _ => ?_
  refine Leaves.bind (observe_spec _) fun value hv => ?_
  refine Leaves.bind (observe_spec _) fun _ _ => ?_
  refine Leaves.ite (fun _ => Leaves.pure ?_) fun _ => ?_
  · rintro _ ⟨⟩
  refine Leaves.bind (emit_spec (mute_of_other rfl rfl)) fun _ _ => Leaves.pure ?_
  rintro _ ⟨⟩
  exact hv

theorem closeResponse_spec : Saying w D (closeResponse response) (fun _ => True) := by
  unfold closeResponse
  split
  · exact Leaves.pure trivial
  · refine Leaves.bind (M := fun _ => True) ?_ fun _ _ =>
      Leaves.ite (fun _ => emit_spec (mute_of_other rfl rfl)) fun _ => Leaves.pure trivial
    refine Leaves.bind Leaves.get fun s _ => ?_
    refine Leaves.ite (fun _ => Leaves.pure trivial) fun _ => ?_
    exact Leaves.bind (Leaves.modify fun _ => rfl) fun _ _ => emit_spec (mute_of_other rfl rfl)

theorem countHeaderLimit_spec : Saying w D (countHeaderLimit outcome) (fun _ => True) :=
  Leaves.ite (fun _ => emit_spec (mute_of_other rfl rfl)) fun _ => Leaves.pure trivial

theorem callScheduler_spec : Saying w D (callScheduler cfg delay) (fun _ => True) := by
  refine Leaves.ite (fun _ => ?_) fun _ =>
    Leaves.mono (boundedPermitCall_spec (mute_of_other rfl rfl)) fun _ _ => trivial
  refine Leaves.bind (emit_spec (mute_of_other rfl rfl)) fun _ _ => ?_
  exact Leaves.bind (observe_spec _) fun _ _ => Leaves.pure trivial

structure Attempted.From (w : World) (request : AttemptRequest) (a : Attempted) : Prop where
  outcome : a.outcome = a.callEnd.outcome (w.transport request)
  markedAt : a.markedAt = a.callEnd.markedAt (w.transport request)
  inTime : a.completed = true → a.callEnd = .returned
  abandoned : a.callEnd = .abandoned → (w.transport request).givesUp = true

theorem boundedAttemptCall_spec :
    Saying w D (boundedAttemptCall request) (Attempted.From w request) := by
  refine Leaves.bind (M := fun call => call = w.transport request) (Leaves.ask fun _ => rfl) ?_
  rintro _ rfl
  refine Leaves.bind (observe_spec _) fun _ _ => ?_
  refine Leaves.ite (fun _ => Leaves.pure ⟨rfl, rfl, nofun, nofun⟩) fun _ => ?_
  refine Leaves.bind (emit_spec (mute_of_other rfl rfl)) fun _ _ => ?_
  refine Leaves.bind (emit_spec (mute_of_other rfl rfl)) fun _ _ => ?_
  refine Leaves.bind (observe_spec _) fun _ _ => ?_
  refine Leaves.ite (fun hg => Leaves.pure ⟨rfl, rfl, nofun, fun _ => ?_⟩) fun _ => ?_
  · rw [Bool.and_eq_true] at hg
    exact hg.2
  refine Leaves.bind (emit_spec (mute_of_other rfl rfl)) fun _ _ => ?_
  exact Leaves.pure ⟨rfl, rfl, fun _ => rfl, nofun⟩

end Repost
