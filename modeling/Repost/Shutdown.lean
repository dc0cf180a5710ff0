import Repost.ObserverDelivery

namespace Repost
open Runs
set_option autoImplicit true

/-- Where a call of `Close` is. -/
inductive ClosePhase where
  | beginning
  | awaitingClosed
  | awaitingOperations
  | callingObserver
  | inObserver (call : Nat)
  | finishing
  | returned
  deriving DecidableEq

/-- A call of `Close`: its goroutine, whether it found itself in the dispatcher's callback, and
whether it runs the shutdown. -/
structure CloseCall where
  gid : Nat
  self : Bool
  owner : Bool := false
  phase : ClosePhase := .beginning

/-- A runtime with its dispatcher, if it has an observer. `closeDone` counts how often the channel
was closed. -/
structure Shutdown (α : Type) where
  state : RuntimeState
  closeDone : Nat := 0
  dispatcher : Option (Dispatcher α) := none
  closers : List CloseCall := []

inductive ShutdownAct (α : Type) where
  | runtime (a : AdmissionAct)
  | dispatcher (a : DispatcherAct α)
  | close (gid : Nat)
  | advance (i : Nat)

/-- The steps of admission that only `Close` takes. -/
def AdmissionAct.closes : AdmissionAct → Bool
  | beginClose | finishClose => true
  | _ => false

/-- The steps of the dispatcher that only `Close` takes. -/
def DispatcherAct.closes : DispatcherAct α → Bool
  | close _ | resume _ => true
  | _ => false

def DispatcherAct.runs : DispatcherAct α → Bool
  | loop _ => true
  | _ => false

/-- After the dispatcher's close, only the owner has anything left to do. -/
def CloseCall.afterObserver (c : CloseCall) : CloseCall :=
  { c with phase := if c.owner then .finishing else .returned }

namespace Shutdown

/-- The goroutine is in a call of `Close`. -/
def inClose (s : Shutdown α) (gid : Nat) : Bool :=
  s.closers.any fun c => c.gid = gid && c.phase ≠ .returned

def isCurrentCallback (s : Shutdown α) (gid : Nat) : Bool :=
  match s.dispatcher with
  | some d => d.isCurrentCallback gid
  | none => false

def finishClose (s : Shutdown α) : Shutdown α :=
  if s.state.diagnostics.closed then s
  else { s with state := s.state.finishClose, closeDone := s.closeDone + 1 }

/-- The next step of a call of `Close`. Cancelling the operations and closing the idle connections
change nothing here. -/
def advance (s : Shutdown α) (c : CloseCall) : Option (Shutdown α × CloseCall) :=
  match c.phase with
  | .beginning =>
    match s.state.beginClose with
    | (state, true) =>
      some ({ s with state := state }, { c with owner := true, phase := .awaitingOperations })
    | (_, false) => some (s, { c with phase := if c.self then .returned else .awaitingClosed })
  | .awaitingClosed =>
    if s.closeDone > 0 then some (s, { c with phase := .callingObserver }) else none
  | .awaitingOperations =>
    if s.state.wg = 0 then some (s, { c with phase := .callingObserver }) else none
  | .callingObserver =>
    match s.dispatcher with
    | none => some (s, c.afterObserver)
    | some d =>
      (d.close c.gid).map fun d' => ({ s with dispatcher := some d' },
        if d.closes.length < d'.closes.length then { c with phase := .inObserver d.closes.length }
        else c.afterObserver)
  | .inObserver call =>
    match s.dispatcher with
    | none => none
    | some d =>
      (d.resume call).map fun d' => ({ s with dispatcher := some d' },
        if d'.closes[call]? = some .returned then c.afterObserver else c)
  | .finishing => some (s.finishClose, { c with phase := .returned })
  | .returned => none

/-- A callback calls `Close` on the dispatcher's goroutine and does not return before that call. -/
def step (s : Shutdown α) : ShutdownAct α → Option (Shutdown α)
  | .runtime a =>
    if a.closes || a.dispatchers then none
    else (admissionStep s.state a).map fun state => { s with state := state }
  | .dispatcher a =>
    match s.dispatcher with
    | none => none
    | some d =>
      if a.closes || a.runs && d.inCallback && s.inClose d.goroutine then none
      else (d.step a).map fun (d', tally) =>
        { s with dispatcher := some d', state := s.state.tally tally }
  | .close gid =>
    if s.dispatcher.any fun d => gid = d.goroutine && (!d.inCallback || s.inClose gid) then none
    else some { s with closers := s.closers ++ [{ gid := gid, self := s.isCurrentCallback gid }] }
  | .advance i =>
    match s.closers[i]? with
    | none => none
    | some c => (s.advance c).map fun (s', c') => { s' with closers := s'.closers.set i c' }

end Shutdown

def shutdown (α : Type) : System (Shutdown α) (ShutdownAct α) where
  Init s := ∃ config, s.state = newRuntimeState config ∧ s.closeDone = 0 ∧ s.closers = [] ∧
    ∀ d ∈ s.dispatcher, ∃ g, ∃ hg : g ≠ 0, d = { goroutine := g, goroutine_ne := hg }
  step := Shutdown.step

namespace Shutdown

def Quiet (s : Shutdown α) : Prop := ∀ d ∈ s.dispatcher, d.done = true

def Outside (s : Shutdown α) (gid : Nat) : Prop := ∀ d ∈ s.dispatcher, gid ≠ d.goroutine

end Shutdown

def ClosePhase.past : ClosePhase → Bool
  | callingObserver | inObserver _ | finishing => true
  | _ => false

structure CloseCall.Sound (s : Shutdown α) (c : CloseCall) : Prop where
  owner : c.owner = true → s.state.closing = true
  waiting : c.phase = .beginning ∨ c.phase = .awaitingClosed → c.owner = false
  operating : c.phase = .awaitingOperations ∨ c.phase = .finishing → c.owner = true
  drained : c.owner = true → c.phase.past = true → s.state.wg = 0
  follows : c.owner = false → c.phase.past = true → s.state.diagnostics.closed = true
  finished : c.owner = true → c.phase = .returned → s.state.diagnostics.closed = true
  self : s.Outside c.gid → c.self = false
  quiet : s.Outside c.gid → c.phase = .finishing ∨ c.phase = .returned → s.Quiet
  closed : s.Outside c.gid → c.phase = .returned → s.state.diagnostics.closed = true

structure Shutdown.Later (s s' : Shutdown α) : Prop where
  closing : s.state.closing = true → s'.state.closing = true
  drained : s.state.closing = true → s.state.wg = 0 → s'.state.wg = 0
  closed : s.state.diagnostics.closed = true → s'.state.diagnostics.closed = true
  quiet : s.Quiet → s'.Quiet
  outside : s'.Outside gid → s.Outside gid

theorem CloseCall.Sound.later {s s' : Shutdown α} {c : CloseCall} (h : c.Sound s) (hl : s.Later s') : c.Sound s' where
  owner ho := hl.closing (h.owner ho)
  waiting := h.waiting
  operating := h.operating
  drained ho hp := hl.drained (h.owner ho) (h.drained ho hp)
  follows ho hp := hl.closed (h.follows ho hp)
  finished ho hp := hl.closed (h.finished ho hp)
  self ho := h.self (hl.outside ho)
  quiet ho hp := hl.quiet (h.quiet (hl.outside ho) hp)
  closed ho hp := hl.closed (h.closed (hl.outside ho) hp)

theorem tally_frame (s : RuntimeState) (t : Tally) : (s.tally t).closing = s.closing ∧
    (s.tally t).wg = s.wg ∧ (s.tally t).diagnostics.closed = s.diagnostics.closed := by
  match t with
  | none => exact ⟨rfl, rfl, rfl⟩
  | some (c, n) => exact ⟨rfl, rfl, rfl⟩

variable {s : RuntimeState}

theorem own_frame (hs : s.own a = some s') (ha : a.closes = false) :
    s'.closing = s.closing ∧ s'.diagnostics.closed = s.diagnostics.closed := by
  cases a with
  | admitOperation call =>
    simp only [RuntimeState.own] at hs
    rcases s.admitOperation_cases call with ⟨e, he⟩ | ⟨c, e, he⟩ | ⟨started, -, -, he⟩
    all_goals
      rw [he] at hs
      cases hs
      exact ⟨rfl, rfl⟩
  | beginClose => cases ha
  | finishClose => cases ha
  | _ => cases hs <;> exact ⟨rfl, rfl⟩

theorem onTenure_frame (hs : s.onTenure t a = some (s', t')) :
    s'.closing = s.closing ∧ s'.diagnostics.closed = s.diagnostics.closed ∧ s'.wg ≤ s.wg := by
  cases a <;> simp only [RuntimeState.onTenure] at hs
  case shrinkRequest i n =>
    split at hs
    · cases hs
    · cases hs
      unfold RuntimeState.shrinkRequest
      split <;> exact ⟨rfl, rfl, Int.le_refl _⟩
  case signal i =>
    split at hs
    · cases hs
      exact ⟨rfl, rfl, by dsimp only; omega⟩
    · cases hs
  case release i =>
    cases hs
    exact ⟨rfl, rfl, Int.le_refl _⟩
  all_goals first | cases hs | (split at hs <;> cases hs; exact ⟨rfl, rfl, Int.le_refl _⟩)

theorem RuntimeState.admitOperation_closing (hc : s.closing = true)
    (call : AdmissionCall) :
    s.admitOperation call = (s, .error (operationError .closed)) := by
  unfold RuntimeState.admitOperation
  rw [hc, Bool.true_or, if_pos rfl]

theorem own_wg (hs : s.own a = some s') (hc : s.closing = true) :
    s'.wg = s.wg := by
  cases a with
  | admitOperation call =>
    simp only [RuntimeState.own, RuntimeState.admitOperation_closing hc] at hs
    cases hs
    rfl
  | beginClose =>
    cases hs
    unfold RuntimeState.beginClose
    split <;> rfl
  | _ => cases hs <;> rfl

theorem admissionStep_frame (hs : admissionStep s a = some s') (ha : a.closes = false) :
    s'.closing = s.closing ∧ s'.diagnostics.closed = s.diagnostics.closed := by
  rcases admissionStep_cases hs with ⟨-, ho⟩ | ⟨i, t, u, t', -, -, hu, rfl⟩
  · exact own_frame ho ha
  · exact ⟨(onTenure_frame hu).1, (onTenure_frame hu).2.1⟩

theorem admissionStep_wg (hs : admissionStep s a = some s') (hc : s.closing = true) :
    s'.wg ≤ s.wg := by
  rcases admissionStep_cases hs with ⟨-, ho⟩ | ⟨i, t, u, t', -, -, hu, rfl⟩
  · exact (own_wg ho hc).le
  · exact (onTenure_frame hu).2.2

theorem Tenure.Sound.owed_nonneg {t : Tenure} : 0 ≤ t.owed := by
  unfold Tenure.owed Tenure.units
  split <;> omega

theorem RuntimeState.Balanced.wg_nonneg (h : s.Balanced) : 0 ≤ s.wg := by
  rw [h.wg]
  exact sum_map_nonneg fun t _ => Tenure.Sound.owed_nonneg

theorem RuntimeState.Balanced.empty (h : s.Balanced) (hw : s.wg = 0) :
    s.diagnostics.inFlightOperations = 0 ∧ s.diagnostics.bufferedBytes = 0 := by
  have howed : ∀ t ∈ s.tenures, t.owed = 0 := by
    refine sum_map_eq_zero (fun t _ => Tenure.Sound.owed_nonneg) ?_
    rw [← h.wg]
    exact hw
  have hunits : ∀ t ∈ s.tenures, t.units = 0 := by
    intro t ht
    have hzero := howed t ht
    have hnonneg : 0 ≤ t.units := by
      unfold Tenure.units
      split <;> decide
    unfold Tenure.owed at hzero
    omega
  have hbytes : ∀ t ∈ s.tenures, t.bytes = 0 := by
    intro t ht
    have hzero := hunits t ht
    unfold Tenure.units at hzero
    unfold Tenure.bytes
    split
    · rename_i hf
      rw [if_pos hf] at hzero
      cases hzero
    · rfl
  constructor
  · rw [h.inFlight]
    exact List.sum_eq_zero (by simpa using hunits)
  · rw [h.buffered]
    exact List.sum_eq_zero (by simpa using hbytes)

end Repost
