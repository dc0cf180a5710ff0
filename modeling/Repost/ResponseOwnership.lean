import Repost.AdmissionTenures
import Repost.ResponseFactory

namespace Repost
open GoText Runs
set_option autoImplicit true

/-- Where the call of one attempt stands. The operation waits in the first or, once the attempt's
deadline has passed, in the second select of `boundedAttemptCall`; then it holds the outcome until
the response is closed, or it gives the call up to a goroutine that waits for the outcome, closes
the response and ends the call. -/
inductive CallStage where
  | waiting | overdue
  | held (completed : Bool) | settled
  | abandoned | collected | closed | ended
  deriving DecidableEq

namespace CallStage

def busy : CallStage → Bool
  | waiting | overdue | held _ => true
  | _ => false

def active : CallStage → Bool
  | waiting | overdue | abandoned | collected | closed => true
  | _ => false

def disposed : CallStage → Bool
  | settled | closed | ended => true
  | _ => false

def received : CallStage → Bool
  | waiting | overdue | abandoned => false
  | _ => true

end CallStage

/-- One call of the transport: whether the attempt's deadline has passed, what the transport has
returned, and where the call stands. -/
structure AttemptCall where
  attemptDone : Bool := false
  outcome : Option AttemptOutcome := none
  stage : CallStage := .waiting

def AttemptOutcome.closer (o : AttemptOutcome) : Option Closer := o.response.bind (·.closer)

def AttemptCall.closer (c : AttemptCall) : Option Closer := c.outcome.bind (·.closer)

/-- The arguments of one call of `NewAttemptResponse`. A nil close function is `none`. -/
structure Construction where
  gunzip : GunzipLimited
  wall : Option Time
  status : Int
  headers : Option (List HeaderField)
  wireBody : Option Bytes
  closer : Option Closer

def Construction.response (k : Construction) : Option AttemptResponse :=
  newAttemptResponse k.gunzip k.wall k.status k.headers k.wireBody k.closer

/-- An operation's permit and deadline, the calls of hooks that still run, its calls of the
transport, the closers of the responses that were built and of those that were rejected, the close
functions that were invoked (last first) and the failures that were counted. -/
structure Ownership where
  tenure : Tenure
  operationDone : Bool := false
  hooks : Nat := 0
  calls : List AttemptCall := []
  built : List Closer := []
  rejected : List Closer := []
  ran : List Nat := []
  failures : List Nat := []

/-- The steps of one call of the transport and of those who wait for it. -/
inductive CallAct where
  | expire
  | returns (outcome : AttemptOutcome)
  | receive | overdue | giveUp | close
  | collect | closeAbandoned | endCall

inductive OwnershipAct where
  | expireOperation
  | construct (k : Construction)
  | attempt
  | call (i : Nat) (a : CallAct)
  | beginHook | endHook
  | release | finishRelease

namespace Ownership

def busy (σ : Ownership) : Bool := σ.calls.any (·.stage.busy)

/-- `attemptResponseCloser.close`: the close function is invoked once. -/
def invoke (σ : Ownership) (k : Closer) : Ownership :=
  { σ with ran := if k.id ∈ σ.ran then σ.ran else k.id :: σ.ran }

/-- Close a response and count its failure; the stored error is returned each time. -/
def closeResponse (σ : Ownership) : Option Closer → Ownership
  | none => σ
  | some k =>
    { σ.invoke k with failures := if k.fails then k.id :: σ.failures else σ.failures }

def endCall (σ : Ownership) : Ownership :=
  { σ with tenure := σ.tenure.finish σ.tenure.permit.endCall }

def fresh (σ : Ownership) (k : Closer) : Bool := (σ.built ++ σ.rejected).all (·.id ≠ k.id)

/-- `NewAttemptResponse`, which closes what it rejects and ignores the error. -/
def construct (σ : Ownership) (k : Construction) : Option Ownership :=
  match k.closer with
  | none => some σ
  | some closer =>
    if σ.fresh closer then
      match k.response with
      | some _ => some { σ with built := closer :: σ.built }
      | none => some { σ.invoke closer with rejected := closer :: σ.rejected }
    else none

/-- What a step of a call does to it and to what it shares, if the step can be taken. -/
def onCall (σ : Ownership) (c : AttemptCall) : CallAct → Option (Ownership × AttemptCall)
  | .expire => some (σ, { c with attemptDone := true })
  | .returns outcome =>
    if c.outcome.isNone && outcome.closer.all (fun k => decide (k ∈ σ.built)) then
      some (σ, { c with outcome := some outcome })
    else none
  | .receive =>
    match c.outcome, c.stage with
    | some _, .waiting => some (σ.endCall, { c with stage := .held (!c.attemptDone) })
    | some _, .overdue => some (σ.endCall, { c with stage := .held false })
    | _, _ => none
  | .overdue =>
    if c.stage = .waiting ∧ c.attemptDone then some (σ, { c with stage := .overdue }) else none
  | .giveUp =>
    if σ.operationDone ∧ (c.stage = .waiting ∨ c.stage = .overdue) then
      some (σ, { c with stage := .abandoned })
    else none
  | .close =>
    match c.stage with
    | .held _ => some (σ.closeResponse c.closer, { c with stage := .settled })
    | _ => none
  | .collect =>
    if c.stage = .abandoned ∧ c.outcome.isSome then some (σ, { c with stage := .collected })
    else none
  | .closeAbandoned =>
    if c.stage = .collected then some (σ.closeResponse c.closer, { c with stage := .closed })
    else none
  | .endCall =>
    if c.stage = .closed then some (σ.endCall, { c with stage := .ended }) else none

/-- The operation begins a call, runs a hook or releases its permit only between its attempts, and
calls the transport only before the operation's deadline. -/
def step (σ : Ownership) : OwnershipAct → Option Ownership
  | .expireOperation => some { σ with operationDone := true }
  | .construct k => σ.construct k
  | .attempt =>
    if σ.operationDone || σ.busy || σ.tenure.permit.releaseRequested then none
    else some { σ with
      tenure := { σ.tenure with permit := σ.tenure.permit.beginCall }, calls := σ.calls ++ [{}] }
  | .call i a =>
    match σ.calls[i]? with
    | none => none
    | some c => (σ.onCall c a).map fun (σ', c') => { σ' with calls := σ.calls.set i c' }
  | .beginHook =>
    if σ.busy || σ.tenure.permit.releaseRequested then none
    else some { σ with
      tenure := { σ.tenure with permit := σ.tenure.permit.beginCall }, hooks := σ.hooks + 1 }
  | .endHook => if σ.hooks = 0 then none else some { σ.endCall with hooks := σ.hooks - 1 }
  | .release =>
    if σ.busy || σ.tenure.permit.releaseRequested then none
    else some { σ with tenure := σ.tenure.finish σ.tenure.permit.release }
  | .finishRelease =>
    if σ.tenure.finishing > 0 then some { σ with tenure := σ.tenure.finalise } else none

end Ownership

/-- An operation starts with the permit that admission gives it. -/
def ownership : System Ownership OwnershipAct where
  Init σ := ∃ started deadline, σ = { tenure := { permit :=
    { heldBytes := initialOperationReservationBytes, startedNanos := started,
      exclusiveDeadline := deadline } } }
  step := Ownership.step

/-- What a step of a call can be: it concerns the call alone, its outcome arrives, the permit's
count of it ends, or its response is closed. -/
inductive Ownership.CallMove (σ : Ownership) (c : AttemptCall) : Ownership → AttemptCall → Prop where
  | still (ho : c'.outcome = c.outcome) (ha : c'.stage.active = c.stage.active)
      (hd : c'.stage.disposed = c.stage.disposed) (hb : c'.stage.busy = true → c.stage.busy = true)
      (hr : c'.stage.received = true → c.outcome.isSome ∨ c.stage.received = true) :
      CallMove σ c σ c'
  | returns (outcome : AttemptOutcome) (hn : c.outcome = none)
      (hk : ∀ k, outcome.closer = some k → k ∈ σ.built) :
      CallMove σ c σ { c with outcome := some outcome }
  | ends (ho : c'.outcome = c.outcome) (ha : c.stage.active = true) (ha' : c'.stage.active = false)
      (hd : c'.stage.disposed = c.stage.disposed) (hb : c'.stage.busy = true → c.stage.busy = true)
      (hr : c.outcome.isSome ∨ c.stage.received = true) : CallMove σ c σ.endCall c'
  | closes (ho : c'.outcome = c.outcome) (ha : c'.stage.active = c.stage.active)
      (hd : c.stage.disposed = false) (hd' : c'.stage.disposed = true)
      (hb : c'.stage.busy = false) (hr : c.stage.received = true) :
      CallMove σ c (σ.closeResponse c.closer) c'

theorem Ownership.onCall_move {σ σ' : Ownership} {c c' : AttemptCall}
    (h : σ.onCall c a = some (σ', c')) : σ.CallMove c σ' c' := by
  cases a with
  | expire =>
    cases h
    exact .still rfl rfl rfl id .inr
  | returns outcome =>
    simp only [onCall] at h
    split at h
    · rename_i hc
      cases h
      rw [Bool.and_eq_true, Option.isNone_iff_eq_none] at hc
      refine .returns outcome hc.1 fun k hk => ?_
      rw [hk] at hc
      exact of_decide_eq_true hc.2
    · cases h
  | receive =>
    simp only [onCall] at h
    split at h
    · rename_i ho hs
      cases h
      exact .ends rfl (by rw [hs]; rfl) rfl (by rw [hs]; rfl) (fun _ => by rw [hs]; rfl)
        (.inl (by rw [ho]; rfl))
    · rename_i ho hs
      cases h
      exact .ends rfl (by rw [hs]; rfl) rfl (by rw [hs]; rfl) (fun _ => by rw [hs]; rfl)
        (.inl (by rw [ho]; rfl))
    · cases h
  | overdue =>
    simp only [onCall] at h
    split at h
    · rename_i hs
      cases h
      exact .still rfl (by rw [hs.1]; rfl) (by rw [hs.1]; rfl) (fun _ => by rw [hs.1]; rfl) nofun
    · cases h
  | giveUp =>
    simp only [onCall] at h
    split at h
    · rename_i hs
      cases h
      rcases hs.2 with hs | hs
      · exact .still rfl (by rw [hs]; rfl) (by rw [hs]; rfl) nofun nofun
      · exact .still rfl (by rw [hs]; rfl) (by rw [hs]; rfl) nofun nofun
    · cases h
  | close | closeAbandoned =>
    simp only [onCall] at h
    split at h
    · rename_i hs
      cases h
      exact .closes rfl (by rw [hs]; rfl) (by rw [hs]; rfl) rfl rfl (by rw [hs]; rfl)
    · cases h
  | collect =>
    simp only [onCall] at h
    split at h
    · rename_i hs
      cases h
      exact .still rfl (by rw [hs.1]; rfl) (by rw [hs.1]; rfl) nofun fun _ => .inl hs.2
    · cases h
  | endCall =>
    simp only [onCall] at h
    split at h
    · rename_i hs
      cases h
      exact .ends rfl (by rw [hs]; rfl) rfl (by rw [hs]; rfl) nofun (.inr (by rw [hs]; rfl))
    · cases h

end Repost
