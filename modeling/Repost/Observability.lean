import Repost.Traced
import Repost.Validation

namespace Repost
open GoText Traced
set_option autoImplicit true

inductive ObserverEventKind where
  | operationStart | attemptStart | attemptEnd | retryDelay | operationCancel | operationEnd
  deriving DecidableEq

inductive ObserverOutcome where
  | accepted | retryableFailure | rejected | failed | cancelled | closed
  deriving DecidableEq

inductive HTTPStatusClass where
  | unclassified | success | redirection | clientError | serverError
  deriving DecidableEq

structure AttemptSummary where
  attemptNumber : Nat
  outcome : ObserverOutcome
  errorCode : Option ErrorCode
  deliveryState : DeliveryState
  httpStatusClass : HTTPStatusClass
  duration : Int
  deriving DecidableEq

/-- An event handed to the observer's dispatcher. Empty strings are `none`. -/
structure ObserverEvent where
  kind : ObserverEventKind
  timestamp : Int := 0
  attemptNumber : Nat := 0
  duration : Int := 0
  outcome : Option ObserverOutcome := none
  errorCode : Option ErrorCode := none
  deliveryState : Option DeliveryState := none
  httpStatusClass : HTTPStatusClass := .unclassified
  retryDelay : Int := 0
  operationStartedAt : Int := 0
  operationEndedAt : Int := 0
  attemptSummaries : List AttemptSummary := []
  deriving DecidableEq

/-- The immutable request of one attempt. Its commit tracker and its wall clock are part of the
call, see `TransportCall`. -/
structure AttemptRequest where
  operationID : Bytes
  apiURL : Bytes
  headers : List HeaderField
  body : Bytes
  attemptNumber : Nat
  connectTimeout : Int
  attemptTimeout : Int
  deriving DecidableEq

/-- How one call of the transport goes: what it returns (nothing when it panics), whether the
attempt deadline has passed when the result is taken, whether the runtime would rather give up at
the operation deadline, and the first of the runtime's looks at the commit tracker that finds it
marked, when the call returns and when it is given up (looks are numbered from 0). -/
structure TransportCall where
  outcome : AttemptOutcome
  overruns : Bool := false
  givesUp : Bool := false
  markedAt : Option Nat := none
  markedAtIfAbandoned : Option Nat := none

inductive CallEnd where
  | uncalled | abandoned | returned
  deriving DecidableEq

def CallEnd.outcome : CallEnd → TransportCall → AttemptOutcome
  | .returned, call => call.outcome
  | _, _ => {}

def CallEnd.markedAt : CallEnd → TransportCall → Option Nat
  | .uncalled, _ => none
  | .abandoned, call => call.markedAtIfAbandoned
  | .returned, call => call.markedAt

inductive ContextError where
  | canceled | deadlineExceeded
  deriving DecidableEq

/-- How the telemetry hooks behave at each instant; `false` and `none` are panics or nil handles.
`contextValue` is whether the context that an operation's handle returned, with what hooks it
carries, answers during an attempt without a panic. -/
structure Telemetry where
  startOperation : Nat → Bool := fun _ => false
  operationContext : Nat → Bool := fun _ => false
  contextValue : Nat → Bool := fun _ => true
  startAttempt : Nat → Bool := fun _ => false
  propagationHeaders : Nat → Option (List (Bytes × Bytes)) := fun _ => none
  endAttempt : Nat → Bool := fun _ => false
  endOperation : Nat → Bool := fun _ => false

/-- Everything outside one operation. Instants are numbered by the observations the operation
makes; a context that ends stays ended, so it is given by the instant of its end. -/
structure World where
  operationID : Bytes
  clock : Nat → Option Int
  deadlineAt : Option Nat := none
  operationDone : Option (Nat × ContextError) := none
  callerDone : Option (Nat × ContextError) := none
  closedAt : Option Nat := none
  givesUp : Nat → Bool := fun _ => false
  apiKeyProvider : Nat → Option Bytes := fun _ => none
  idempotencyKeyGenerator : Nat → Option Bytes := fun _ => none
  generateNow : Nat → Option Bytes := fun _ => none
  retryEntropy : Nat → Int → Option Int := fun _ _ => none
  sleep : Nat → Int → Bool := fun _ _ => false
  transport : AttemptRequest → TransportCall
  telemetry : Telemetry := {}

/-- What became of one attempt: its request, how the bounded call ended and what it handed back,
whether in time, the outcome that counts (for an overrun attempt the substituted timeout), and the
last look at the tracker. -/
structure Settled where
  request : AttemptRequest
  callEnd : CallEnd
  completed : Bool
  handed : AttemptOutcome
  effective : AttemptOutcome
  tracker : Bool
  deriving DecidableEq

/-- The log of an operation: its calls out of the runtime and what it reports. -/
inductive Event where
  | clock (reading : Option Int)
  | beginCall
  | endCall
  | apiKeyProvider
  | idempotencyKeyGenerator
  | generateNow
  | serialize
  | marshal
  | shrinkRequest (bytes : Nat)
  | send (request : AttemptRequest)
  | settled (s : Settled)
  | closeResponse (id : Nat)
  | responseCloseFailure
  | responseHeaderLimitFailure
  | retryEntropy (bound : Int)
  | sleep (delay : Int)
  | observer (e : ObserverEvent)
  | telemetryFailure
  | operationSpan
  | operationSpanEnd
  | attemptSpan (attempt : Nat)
  | attemptSpanEnd (attempt : Nat)
  deriving DecidableEq

/-- The clock of observations, the closers already run and the observability of the operation. -/
structure OpState where
  tick : Nat := 0
  closed : List Nat := []
  startedAt : Int := 0
  lastTimestamp : Int := 0
  attemptStartedAt : Int := 0
  attemptNumber : Nat := 0
  summaries : List AttemptSummary := []
  telemetry : Bool := false
  attemptTelemetry : Bool := false
  transportValues : Bool := false
  finished : Bool := false

/-- Why an operation stops without a result: an error, a nil error value, or a panic. -/
inductive Stop where
  | error (e : Error)
  | nilError
  | panic
  deriving DecidableEq

abbrev Op := Prog World OpState Event Stop

/-- Look at the world; time moves on. -/
def observe (f : World → Nat → α) : Op α := do
  let a ← Prog.ask (fun w s => f w s.tick)
  Prog.modify (fun s => { s with tick := s.tick + 1 })
  pure a

def reached (instant : Option Nat) (t : Nat) : Bool := instant.any (· ≤ t)

/-- `Err()` of a context. -/
def contextError (done : Option (Nat × ContextError)) (t : Nat) : Option ContextError :=
  match done with
  | some (instant, e) => if instant ≤ t then some e else none
  | none => none

def deadlineDone (w : World) (t : Nat) : Bool := reached w.deadlineAt t

def callMonotonicClock : Op (Option Int) := do
  let reading ← observe (fun w t => w.clock t)
  Prog.emit (.clock reading)
  pure reading

/-- The parts of the runtime's configuration that an operation reads. -/
structure RuntimeConfig where
  endpoint : Bytes
  apiKey : Bytes
  apiKeyProvider : Bool := false
  connectTimeout : Int := 10000000000
  attemptTimeout : Int := 30000000000
  maxAttempts : Nat := 4
  retryBaseDelay : Int := 250000000
  retryMaxDelay : Int := 60000000000
  builtInScheduler : Bool := false
  ownsTransport : Bool := false
  observer : Bool := true
  telemetry : Bool := false
  userAgentSuffix : Bytes := []
  attempts_pos : 1 ≤ maxAttempts := by decide
  attempts_le : maxAttempts ≤ 10 := by decide

structure Permit where
  startedNanos : Int
  exclusiveDeadline : Int
  telemetryContext : Bool := false

def sample : Op Int := do
  let reading ← callMonotonicClock
  Prog.modify (fun s =>
    match reading with
    | some now => if now > s.lastTimestamp then { s with lastTimestamp := now } else s
    | none => s)
  let s ← Prog.get
  pure s.lastTimestamp

def emitAt (cfg : RuntimeConfig) (e : ObserverEvent) (timestamp : Int) : Op Unit :=
  if cfg.observer then Prog.emit (.observer { e with timestamp := timestamp }) else pure ()

def emit (cfg : RuntimeConfig) (e : ObserverEvent) : Op Unit :=
  if cfg.observer then do
    let timestamp ← sample
    emitAt cfg e timestamp
  else pure ()

def callTelemetry (hook : Telemetry → Nat → Bool) : Op Bool := do
  let ok ← observe (fun w t => hook w.telemetry t)
  if ok then pure true
  else do
    Prog.emit .telemetryFailure
    pure false

def startObservability (cfg : RuntimeConfig) (permit : Permit) : Op Unit := do
  Prog.modify (fun s =>
    { s with startedAt := permit.startedNanos, lastTimestamp := permit.startedNanos })
  emit cfg { kind := .operationStart }
  if cfg.telemetry && permit.telemetryContext then do
    let started ← callTelemetry Telemetry.startOperation
    if started then do
      Prog.emit .operationSpan
      Prog.modify (fun s => { s with telemetry := true })
      let values ← callTelemetry Telemetry.operationContext
      Prog.modify (fun s => { s with transportValues := values })
    else pure ()
  else pure ()

/-- The first traceparent and, only with it, the first tracestate. -/
def authorizedPropagationHeaders (pairs : List (Bytes × Bytes)) : List HeaderField :=
  let field (name : Bytes) : Option HeaderField :=
    (pairs.find? (fun p => equalFold p.1 name)).map (fun p => { name := p.1, value := p.2 })
  match field (lit "traceparent") with
  | none => []
  | some traceparent => traceparent :: (field (lit "tracestate")).toList

def attemptHeaders (attempt : Nat) : Op (List HeaderField) := do
  let started ← callTelemetry Telemetry.startAttempt
  if started then do
    Prog.emit (.attemptSpan attempt)
    Prog.modify (fun s => { s with attemptTelemetry := true })
    let pairs ← observe (fun w t => w.telemetry.propagationHeaders t)
    match pairs with
    | some pairs => pure (authorizedPropagationHeaders pairs)
    | none => do
      Prog.emit .telemetryFailure
      pure []
  else pure []

def startAttempt (cfg : RuntimeConfig) (attempt : Nat) : Op (List HeaderField) := do
  let s ← Prog.get
  if s.finished then pure []
  else do
    Prog.modify (fun s => { s with attemptNumber := attempt })
    let startedAt ← sample
    Prog.modify (fun s => { s with attemptStartedAt := startedAt })
    emit cfg { kind := .attemptStart, attemptNumber := attempt }
    let s ← Prog.get
    if s.telemetry then attemptHeaders attempt else pure []

def outcomeForError : Option Error → ObserverOutcome
  | none => .accepted
  | some e =>
    match e.code with
    | .cancelled => .cancelled
    | .closed => .closed
    | _ => if e.deliveryState = .rejected then .rejected else .failed

/-- A cancellation that the closing runtime caused is reported as closed. -/
def observedOutcome (err : Option Error) : Op ObserverOutcome :=
  if err.map (·.code) = some .cancelled then do
    let closed ← observe (fun w t => reached w.closedAt t)
    pure (if closed then .closed else outcomeForError err)
  else pure (outcomeForError err)

def httpStatusClass (status : Int) : HTTPStatusClass :=
  if status ≥ 200 ∧ status < 300 then .success
  else if status ≥ 300 ∧ status < 400 then .redirection
  else if status ≥ 400 ∧ status < 500 then .clientError
  else if status ≥ 500 ∧ status < 600 then .serverError
  else .unclassified

def nonnegativeDuration (nanos : Int) : Int := if int64 nanos < 0 then 0 else int64 nanos

def reportedClass : Option Error → HTTPStatusClass
  | some e => httpStatusClass e.httpStatus
  | none => .success

def reportedState : Option Error → DeliveryState
  | some e => e.deliveryState
  | none => .accepted

def endSpan (present : Bool) (event : Event) (hook : Telemetry → Nat → Bool) : Op Unit :=
  if present then do
    Prog.emit event
    let _ ← callTelemetry hook
    pure ()
  else pure ()

def endAttempt (cfg : RuntimeConfig) (err : Option Error) (retryable : Bool) : Op Unit := do
  let s ← Prog.get
  if s.attemptNumber = 0 then pure ()
  else do
    let endedAt ← sample
    let duration := nonnegativeDuration (endedAt - s.attemptStartedAt)
    let outcome ← observedOutcome err
    let summary : AttemptSummary :=
      { attemptNumber := s.attemptNumber
        outcome := if retryable then .retryableFailure else outcome
        errorCode := err.map (·.code)
        deliveryState := reportedState err
        httpStatusClass := reportedClass err
        duration := duration }
    Prog.modify (fun s =>
      if s.summaries.length < 10 then { s with summaries := s.summaries ++ [summary] } else s)
    emit cfg
      { kind := .attemptEnd, attemptNumber := s.attemptNumber, duration := duration,
        outcome := some summary.outcome, errorCode := summary.errorCode,
        deliveryState := some summary.deliveryState, httpStatusClass := summary.httpStatusClass }
    endSpan s.attemptTelemetry (.attemptSpanEnd s.attemptNumber) Telemetry.endAttempt
    Prog.modify (fun s => { s with attemptTelemetry := false, attemptNumber := 0 })

def reportRetry (cfg : RuntimeConfig) (delay : Int) (err : Error) : Op Unit := do
  let s ← Prog.get
  if s.finished then pure ()
  else
    emit cfg
      { kind := .retryDelay, attemptNumber := err.attemptCount, outcome := some .retryableFailure,
        errorCode := some err.code, deliveryState := some err.deliveryState,
        httpStatusClass := httpStatusClass err.httpStatus, retryDelay := delay }

def reportCancel (cfg : RuntimeConfig) (outcome : ObserverOutcome) (err : Option Error) : Op Unit :=
  if outcome = .cancelled then
    emit cfg
      { kind := .operationCancel, outcome := some outcome, errorCode := err.map (·.code),
        deliveryState := some (reportedState err), httpStatusClass := reportedClass err }
  else pure ()

def finish (cfg : RuntimeConfig) (err : Option Error) : Op Unit := do
  let s ← Prog.get
  if s.finished then pure ()
  else do
    Prog.modify (fun s => { s with finished := true })
    endAttempt cfg err false
    let outcome ← observedOutcome err
    reportCancel cfg outcome err
    let endedAt ← sample
    let s ← Prog.get
    endSpan s.telemetry .operationSpanEnd Telemetry.endOperation
    emitAt cfg
      { kind := .operationEnd, duration := nonnegativeDuration (endedAt - s.startedAt),
        outcome := some outcome, errorCode := err.map (·.code),
        deliveryState := some (reportedState err), httpStatusClass := reportedClass err,
        operationStartedAt := s.startedAt, operationEndedAt := endedAt,
        attemptSummaries := s.summaries } endedAt

end Repost
