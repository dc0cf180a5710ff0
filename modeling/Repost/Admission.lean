import Repost.Observability
import Repost.Runs

namespace Repost
open Runs
set_option autoImplicit true

def requestWorkspaceBytes : Int := 1048576
def responseWorkspaceBytes : Int := 1048576
def parserScratchBytes : Int := 262144

def initialOperationReservationBytes : Int :=
  requestWorkspaceBytes + responseWorkspaceBytes + parserScratchBytes

def maximumDiagnosticCounter : Int := 9007199254740991

inductive Counter where
  | concurrencyOverloadRejections
  | byteOverloadRejections
  | responseHeaderLimitFailures
  | responseCloseFailures
  | droppedObserverEvents
  | observerFailures
  | telemetryFailures
  deriving DecidableEq

structure RuntimeDiagnostics where
  inFlightOperations : Int := 0
  bufferedBytes : Int := 0
  counters : Counter → Int := fun _ => 0
  closed : Bool := false

/-- The part of a validated configuration that admission uses. -/
structure AdmissionConfig where
  maxInFlightOperations : Int
  maxBufferedBytes : Int
  operationTimeout : Int
  inFlight_range : 1 ≤ maxInFlightOperations ∧ maxInFlightOperations ≤ 65536
  buffered_range : 4194304 ≤ maxBufferedBytes ∧ maxBufferedBytes ≤ 1073741824

structure OperationPermit extends Permit where
  activeCalls : Int := 0
  releaseRequested : Bool := false
  heldBytes : Int
  released : Bool := false

/-- A permit with what its callers have done and still have to do: calls of `shrinkRequest`, calls
of `finishRelease` that have yet to take the lock, those that have, and those of them that have yet
to signal the wait group. -/
structure Tenure where
  permit : OperationPermit
  shrinks : Nat := 0
  finishing : Nat := 0
  finalised : Nat := 0
  signalling : Nat := 0

structure RuntimeState where
  config : AdmissionConfig
  diagnostics : RuntimeDiagnostics := {}
  closing : Bool := false
  wg : Int := 0
  tenures : List Tenure := []

def newRuntimeState (config : AdmissionConfig) : RuntimeState := { config := config }

def saturatingAdd (counter delta : Int) : Int :=
  if delta ≤ 0 || counter ≥ maximumDiagnosticCounter then counter
  else if delta > maximumDiagnosticCounter - counter then maximumDiagnosticCounter
  else counter + delta

def addNanosSaturated (value delta : Int) : Int :=
  if delta > 0 && value > 2 ^ 63 - 1 - delta then 2 ^ 63 - 1
  else if delta < 0 && value < -(2 ^ 63) - delta then -(2 ^ 63)
  else value + delta

namespace RuntimeState

def count (s : RuntimeState) (c : Counter) (delta : Int) : RuntimeState :=
  { s with diagnostics := { s.diagnostics with
      counters := Function.update s.diagnostics.counters c
        (saturatingAdd (s.diagnostics.counters c) delta) } }

def recordResponseHeaderLimitFailure (s : RuntimeState) := s.count .responseHeaderLimitFailures 1
def recordResponseCloseFailure (s : RuntimeState) := s.count .responseCloseFailures 1
def addDroppedObserverEvents (s : RuntimeState) (delta : Int) := s.count .droppedObserverEvents delta
def addObserverFailure (s : RuntimeState) := s.count .observerFailures 1
def addTelemetryFailure (s : RuntimeState) := s.count .telemetryFailures 1

end RuntimeState

/-- What a call of `admit` finds: whether the deadline context is done, the clock, and the time
until the caller's own deadline. -/
structure AdmissionCall where
  expired : Bool := false
  clock : Option Int := some 0
  parentRemaining : Option Int := none

def AdmissionCall.deadline (call : AdmissionCall) (started timeout : Int) : Int :=
  let deadline := addNanosSaturated started timeout
  match call.parentRemaining with
  | some remaining =>
    let parent := addNanosSaturated started (if remaining < 0 then 0 else remaining)
    if parent < deadline then parent else deadline
  | none => deadline

namespace RuntimeState

def admitOperation (s : RuntimeState) (call : AdmissionCall) :
    RuntimeState × Except Error OperationPermit :=
  if s.closing || s.diagnostics.closed then (s, .error (operationError .closed))
  else if s.diagnostics.inFlightOperations ≥ s.config.maxInFlightOperations then
    (s.count .concurrencyOverloadRejections 1, .error (operationError .overloaded))
  else if s.diagnostics.bufferedBytes >
      s.config.maxBufferedBytes - initialOperationReservationBytes then
    (s.count .byteOverloadRejections 1, .error (operationError .overloaded))
  else if call.expired then (s, .error (operationError .operationDeadline))
  else
    match call.clock with
    | none => (s, .error (hookConfigurationError .notSent [] [] 0 .monotonicClock (some .unknown)))
    | some started =>
      ({ s with
          diagnostics := { s.diagnostics with
            inFlightOperations := s.diagnostics.inFlightOperations + 1
            bufferedBytes := s.diagnostics.bufferedBytes + initialOperationReservationBytes }
          wg := s.wg + 1 },
        .ok { heldBytes := initialOperationReservationBytes, startedNanos := started
              exclusiveDeadline := call.deadline started s.config.operationTimeout })

end RuntimeState

namespace OperationPermit

/-- The locked section of `release` and whether it goes on to finish. -/
def release (p : OperationPermit) : OperationPermit × Bool :=
  let p := { p with releaseRequested := true }
  let finalize := p.activeCalls = 0 && !p.released
  (if finalize then { p with released := true } else p, finalize)

def beginCall (p : OperationPermit) : OperationPermit := { p with activeCalls := p.activeCalls + 1 }

/-- The locked section of `endCall` and whether it goes on to finish. -/
def endCall (p : OperationPermit) : OperationPermit × Bool :=
  let p := { p with activeCalls := p.activeCalls - 1 }
  let finalize := p.activeCalls = 0 && p.releaseRequested && !p.released
  (if finalize then { p with released := true } else p, finalize)

end OperationPermit

namespace RuntimeState

/-- The locked section of `finishRelease`. -/
def finishRelease (s : RuntimeState) (p : OperationPermit) : RuntimeState :=
  { s with diagnostics := { s.diagnostics with
      inFlightOperations := s.diagnostics.inFlightOperations - 1
      bufferedBytes := s.diagnostics.bufferedBytes - p.heldBytes } }

def shrinkRequest (s : RuntimeState) (p : OperationPermit) (serializedBytes : Int) :
    RuntimeState × OperationPermit :=
  if serializedBytes < 0 || serializedBytes ≥ requestWorkspaceBytes then (s, p)
  else
    let releasedBytes := requestWorkspaceBytes - serializedBytes
    ({ s with diagnostics := { s.diagnostics with
        bufferedBytes := s.diagnostics.bufferedBytes - releasedBytes } },
      { p with heldBytes := p.heldBytes - releasedBytes })

def beginClose (s : RuntimeState) : RuntimeState × Bool :=
  if s.closing || s.diagnostics.closed then (s, false) else ({ s with closing := true }, true)

def finishClose (s : RuntimeState) : RuntimeState :=
  { s with diagnostics := { s.diagnostics with closed := true } }

def put (s : RuntimeState) (i : Nat) (t : Tenure) : RuntimeState :=
  { s with tenures := s.tenures.set i t }

end RuntimeState

/-- The steps of admission. Those of a permit name it by its place in the order of admission. -/
inductive AdmissionAct where
  | admitOperation (call : AdmissionCall)
  | beginCall (i : Nat)
  | endCall (i : Nat)
  | shrinkRequest (i : Nat) (serializedBytes : Int)
  | release (i : Nat)
  | finishRelease (i : Nat)
  | signal (i : Nat)
  | recordResponseHeaderLimitFailure
  | recordResponseCloseFailure
  | addDroppedObserverEvents (delta : Int)
  | addObserverFailure
  | addTelemetryFailure
  | beginClose
  | finishClose

def Tenure.finish (t : Tenure) (p : OperationPermit × Bool) : Tenure :=
  { t with permit := p.1, finishing := if p.2 then t.finishing + 1 else t.finishing }

def Tenure.finalise (t : Tenure) : Tenure :=
  { t with finishing := t.finishing - 1, finalised := t.finalised + 1,
           signalling := t.signalling + 1 }

/-- What a step on a permit does to its tenure and to the runtime, if its caller may take it: calls
begin before the release, each begun call ends once, and the request shrinks at most once before
the release. -/
def RuntimeState.onTenure (s : RuntimeState) (t : Tenure) :
    AdmissionAct → Option (RuntimeState × Tenure)
  | .beginCall _ =>
    if t.permit.releaseRequested then none
    else some (s, { t with permit := t.permit.beginCall })
  | .endCall _ =>
    if t.permit.activeCalls > 0 then some (s, t.finish t.permit.endCall) else none
  | .shrinkRequest _ n =>
    if t.permit.releaseRequested || t.shrinks > 0 then none
    else some ((s.shrinkRequest t.permit n).1,
      { t with permit := (s.shrinkRequest t.permit n).2, shrinks := t.shrinks + 1 })
  | .release _ => some (s, t.finish t.permit.release)
  | .finishRelease _ =>
    if t.finishing > 0 then some (s.finishRelease t.permit, t.finalise) else none
  | .signal _ =>
    if t.signalling > 0 then
      some ({ s with wg := s.wg - 1 }, { t with signalling := t.signalling - 1 })
    else none
  | _ => none

def AdmissionAct.permit : AdmissionAct → Option Nat
  | .beginCall i | .endCall i | .shrinkRequest i _ | .release i | .finishRelease i | .signal i =>
    some i
  | _ => none

def RuntimeState.own (s : RuntimeState) : AdmissionAct → Option RuntimeState
  | .admitOperation call =>
    match s.admitOperation call with
    | (s, .ok p) => some { s with tenures := s.tenures ++ [{ permit := p }] }
    | (s, .error _) => some s
  | .recordResponseHeaderLimitFailure => some s.recordResponseHeaderLimitFailure
  | .recordResponseCloseFailure => some s.recordResponseCloseFailure
  | .addDroppedObserverEvents delta => some (s.addDroppedObserverEvents delta)
  | .addObserverFailure => some s.addObserverFailure
  | .addTelemetryFailure => some s.addTelemetryFailure
  | .beginClose => some s.beginClose.1
  | .finishClose => some s.finishClose
  | _ => none

def admissionStep (s : RuntimeState) (a : AdmissionAct) : Option RuntimeState :=
  match a.permit with
  | some i =>
    match s.tenures[i]? with
    | some t => (s.onTenure t a).map fun (s, t) => s.put i t
    | none => none
  | none => s.own a

def admission : System RuntimeState AdmissionAct where
  Init s := ∃ config, s = newRuntimeState config
  step := admissionStep

end Repost
