import Repost.Observability

namespace Repost
open GoText Traced
set_option autoImplicit true

/-- The last check of both terminal functions: the operation's own clock against its deadline. -/
def clockTerminal (permit : Permit) (committed : Bool) (attempts : Nat) (id key : Bytes) :
    Op (Option Error) := do
  let reading ← callMonotonicClock
  match reading with
  | none =>
    pure (some (hookConfigurationError (deliveryForCommit committed) id key attempts
      .monotonicClock (some .unknown)))
  | some now =>
    pure (if now ≥ permit.exclusiveDeadline
      then some (operationDeadlineError committed attempts id key) else none)

/-- The errors that end an operation between or during its attempts, in the order of the checks. -/
def preAttemptTerminal (permit : Permit) (committed : Bool) (attempts : Nat) (key : Bytes) :
    Op (Option Error) := do
  let id ← Prog.ask (fun w _ => w.operationID)
  let deadline := operationDeadlineError committed attempts id key
  let gone ← observe deadlineDone
  if gone then pure (some deadline)
  else do
    let expired ← observe (fun w t => contextError w.operationDone t = some .deadlineExceeded ||
      contextError w.callerDone t = some .deadlineExceeded)
    if expired then pure (some deadline)
    else do
      let closed ← observe (fun w t => reached w.closedAt t)
      if closed then pure (some (abortError .closed committed attempts id key))
      else do
        let ended ← observe (fun w t =>
          (contextError w.operationDone t).isSome || (contextError w.callerDone t).isSome)
        if ended then pure (some (abortError .cancelled committed attempts id key))
        else clockTerminal permit committed attempts id key

def deadlineTerminal (permit : Permit) (committed : Bool) (attempts : Nat) (key : Bytes) :
    Op (Option Error) := do
  let id ← Prog.ask (fun w _ => w.operationID)
  let gone ← observe deadlineDone
  if gone then pure (some (operationDeadlineError committed attempts id key))
  else clockTerminal permit committed attempts id key

def fail (e : Error) : Op α := Prog.stop (.error e)

/-- `if terminal := preAttemptTerminal(...); terminal != nil { return nil, terminal }`. -/
def checkTerminal (permit : Permit) (committed : Bool) (attempts : Nat) (key : Bytes) :
    Op Unit := do
  let terminal ← preAttemptTerminal permit committed attempts key
  match terminal with
  | some e => fail e
  | none => pure ()

/-- Run a call that the runtime abandons at the operation deadline; `none` when it was abandoned
or never begun. -/
def boundedPermitCall (event : Event) (call : World → Nat → α) : Op (Option α) := do
  let gone ← observe deadlineDone
  if gone then pure none
  else do
    Prog.emit .beginCall
    Prog.emit event
    let value ← observe call
    let abandoned ← observe (fun w t => deadlineDone w t && w.givesUp t)
    if abandoned then pure none
    else do
      Prog.emit .endCall
      pure (some value)

/-- A bounded call before the first attempt; an abandoned one returns the terminal error, whatever
it is, and a completed one is followed by the usual check. -/
def preparationCall (permit : Permit) (key : Bytes) (event : Event) (call : World → Nat → α) :
    Op α := do
  checkTerminal permit false 0 key
  let value ← boundedPermitCall event call
  match value with
  | none => do
    let terminal ← preAttemptTerminal permit false 0 key
    match terminal with
    | some e => fail e
    | none => Prog.stop .nilError
  | some value => do
    checkTerminal permit false 0 key
    pure value

structure WebhookEvent where
  type : Bytes
  model : Bytes

inductive Serialized (Payload : Type) where
  | data (payload : Payload)
  | panicked
  | invalid (issues : List ValidationIssue) (issueCount : Nat)

/-- Descriptors and payloads: how a schema is checked and looked up and how an input becomes the
body. Default generators make serialization depend on the instant. -/
structure Codec (Schema Data Payload : Type) where
  validateSchemaDescriptor : Schema → Bool
  descriptorFormatVersion : Schema → Int
  webhooks : Schema → Bytes → Option (Bytes → Option WebhookEvent)
  serializeOperation : Schema → Bytes → Data → Bytes → Nat → Serialized Payload
  marshalEnvelope : Bytes → Bytes → Bytes → Payload → Option Bytes

structure SendInput (Data : Type) where
  customerID : Bytes
  data : Data
  idempotencyKey : Bytes := []

def supportedDescriptorFormatVersion : Int := 2

def printableASCII (b : UInt8) : Bool := 0x20 ≤ b && b ≤ 0x7E

def validIdempotencyKey (value : Bytes) : Bool :=
  value != [] && value.length ≤ 255 && value.head? != some 0x20 && value.getLast? != some 0x20 &&
    value.all printableASCII

def lookupEvent (codec : Codec Schema Data Payload) (schema : Schema) (group member : Bytes) :
    Except ErrorCode WebhookEvent :=
  if !codec.validateSchemaDescriptor schema then
    .error (if codec.descriptorFormatVersion schema ≠ supportedDescriptorFormatVersion
      then .descriptorVersion else .configuration)
  else
    match codec.webhooks schema group with
    | none => .error .configuration
    | some members =>
      match members member with
      | none => .error .configuration
      | some event => .ok event

def validCredential (value : Bytes) : Bool :=
  value != [] && value.length ≤ 4096 && value.all printableASCII && value.any (· != 0x20)

def decorate (e : Error) : Op Error :=
  Prog.ask (fun w _ => { e with operationID := w.operationID })

def failDecorated (e : Error) : Op α := do
  let e ← decorate e
  fail e

def failHook (key : Bytes) (option : ClientOptionKey) (cause : CauseCategory) : Op α := do
  let id ← Prog.ask (fun w _ => w.operationID)
  fail (hookConfigurationError .notSent id key 0 option (some cause))

def obtainAPIKey (cfg : RuntimeConfig) (permit : Permit) : Op Bytes :=
  if cfg.apiKeyProvider then do
    let provided ← preparationCall permit [] .apiKeyProvider (fun w t => w.apiKeyProvider t)
    match provided with
    | none => do
      let ended ← observe (fun w t => (contextError w.operationDone t).isSome)
      if ended then failDecorated (cancelledError .notSent)
      else failHook [] .apiKeyProvider .apiKeyProvider
    | some apiKey =>
      if validCredential apiKey then pure apiKey
      else failDecorated (configurationError .invalidValue [.apiKeyProvider])
  else if cfg.apiKey = [] then failDecorated (configurationError .missing [.apiKey])
  else pure cfg.apiKey

def obtainIdempotencyKey (permit : Permit) (callerKey : Bytes) : Op Bytes :=
  if callerKey ≠ [] then
    if validIdempotencyKey callerKey then pure callerKey
    else
      failDecorated
        { code := .validation, deliveryState := .notSent,
          validationIssues := [{ code := if callerKey.length > 255 then .collectionLimit
            else .invalidUnicode, path := lit "$" }] }
  else do
    let generated ← preparationCall permit [] .idempotencyKeyGenerator
      (fun w t => w.idempotencyKeyGenerator t)
    match generated with
    | none => failHook [] .idempotencyKeyGenerator .idempotencyGenerator
    | some key =>
      if validIdempotencyKey key then pure key
      else failDecorated (configurationError .invalidValue [.idempotencyKeyGenerator])

structure Prepared where
  eventType : Bytes
  customerID : Bytes
  timestamp : Bytes
  key : Bytes
  headers : List HeaderField
  body : Bytes

def operationUserAgent (suffix : Bytes) : Bytes :=
  lit "repost-client-go/0.3.0" ++ (if suffix = [] then [] else 0x20 :: suffix)

def requestHeaders (cfg : RuntimeConfig) (apiKey key : Bytes) : List HeaderField :=
  [{ name := lit "authorization", value := lit "Bearer " ++ apiKey },
   { name := lit "content-type", value := lit "application/json" },
   { name := lit "accept-encoding", value := lit "gzip" },
   { name := lit "user-agent", value := operationUserAgent cfg.userAgentSuffix },
   { name := lit "idempotency-key", value := key }]

/-- The errors of serialization and marshalling, which name the operation and its key. -/
def failKeyed (key : Bytes) (e : Error) : Op α :=
  failDecorated { e with idempotencyKey := key }

def serializePayload (codec : Codec Schema Data Payload) (permit : Permit) (key : Bytes)
    (schema : Schema) (event : WebhookEvent) (input : SendInput Data) (timestamp : Bytes) :
    Op Payload := do
  let serialized ← preparationCall permit key .serialize
    (fun _ t => codec.serializeOperation schema event.model input.data timestamp t)
  match serialized with
  | .data payload => pure payload
  | .panicked => failHook key .defaultValueGenerators .defaultGenerator
  | .invalid issues issueCount =>
    failKeyed key
      { code := .validation, deliveryState := .notSent, validationIssues := issues,
        issueCount := issueCount, issuesTruncated := issueCount ≠ issues.length }

def marshalBody (codec : Codec Schema Data Payload) (permit : Permit) (key : Bytes)
    (event : WebhookEvent) (customerID timestamp : Bytes) (payload : Payload) : Op Bytes := do
  let marshaled ← preparationCall permit key .marshal
    (fun _ _ => codec.marshalEnvelope customerID event.type timestamp payload)
  match marshaled with
  | none => failKeyed key { code := .serialization, deliveryState := .notSent }
  | some body =>
    if body.length > maxPayloadBytes then
      failKeyed key { code := .requestTooLarge, deliveryState := .notSent }
    else pure body

def prepare (codec : Codec Schema Data Payload) (cfg : RuntimeConfig) (permit : Permit)
    (schema : Schema) (group member : Bytes) (input : SendInput Data) : Op Prepared :=
  match lookupEvent codec schema group member with
  | .error code => failDecorated (operationError code)
  | .ok event => do
    let apiKey ← obtainAPIKey cfg permit
    checkTerminal permit false 0 []
    let key ← obtainIdempotencyKey permit input.idempotencyKey
    let generated ← preparationCall permit key .generateNow (fun w t => w.generateNow t)
    match generated with
    | none => failHook key .defaultValueGenerators .defaultGenerator
    | some timestamp => do
      let payload ← serializePayload codec permit key schema event input timestamp
      let body ← marshalBody codec permit key event input.customerID timestamp payload
      Prog.emit (.shrinkRequest body.length)
      checkTerminal permit false 0 key
      pure
        { eventType := event.type, customerID := input.customerID, timestamp := timestamp,
          key := key, headers := requestHeaders cfg apiKey key, body := body }

structure Attempted where
  callEnd : CallEnd
  completed : Bool
  outcome : AttemptOutcome
  markedAt : Option Nat

def attempted (callEnd : CallEnd) (completed : Bool) (call : TransportCall) : Attempted :=
  { callEnd := callEnd, completed := completed, outcome := callEnd.outcome call,
    markedAt := callEnd.markedAt call }

def boundedAttemptCall (request : AttemptRequest) : Op Attempted := do
  let call ← Prog.ask (fun w _ => w.transport request)
  let gone ← observe deadlineDone
  if gone then pure (attempted .uncalled false call)
  else do
    Prog.emit .beginCall
    Prog.emit (.send request)
    let gone ← observe deadlineDone
    if gone && call.givesUp then pure (attempted .abandoned false call)
    else do
      Prog.emit .endCall
      pure (attempted .returned (!(call.overruns || gone)) call)

def isCommitted (a : Attempted) (look : Nat) : Bool := reached a.markedAt look

/-- The close function itself runs at most once. -/
def Closer.run (closer : Closer) : Op Unit := do
  let s ← Prog.get
  if closer.id ∈ s.closed then pure ()
  else do
    Prog.modify (fun s => { s with closed := closer.id :: s.closed })
    Prog.emit (.closeResponse closer.id)

def closeResponse (response : Option AttemptResponse) : Op Unit :=
  match response.bind (·.closer) with
  | none => pure ()
  | some closer => do
    closer.run
    if closer.fails then Prog.emit .responseCloseFailure else pure ()

/-- The outcome substituted for an attempt that did not end in time. -/
def timeoutOutcome (committed : Bool) : AttemptOutcome :=
  { failure := some { code := .attemptTimeout, committed := committed } }

/-- The outcome of an attempt that did not end in time, unless the operation ends here. -/
def lateOutcome (cfg : RuntimeConfig) (permit : Permit) (p : Prepared) (request : AttemptRequest)
    (committed : Bool) (attempted : Attempted) : Op AttemptOutcome := do
  closeResponse attempted.outcome.response
  let marked := isCommitted attempted 0
  let terminal ← preAttemptTerminal permit (committed || marked) request.attemptNumber p.key
  match terminal with
  | some e => do
    Prog.emit (.settled
      { request := request, callEnd := attempted.callEnd, completed := false,
        handed := attempted.outcome, effective := timeoutOutcome marked, tracker := marked })
    endAttempt cfg (some e) false
    fail e
  | none => pure (timeoutOutcome (isCommitted attempted 1))

/-- Whether an outcome raises the floor of the delivery states to come. -/
def attemptCommitted (outcome : AttemptOutcome) (tracker : Bool) : Bool :=
  let evidence :=
    match outcome.response with
    | some r => responseMayHaveBeenAccepted r.status
    | none => tracker || outcome.failure.any (·.committed)
  evidence && !outcome.failure.any (fun f => preCommitFailure f.code)

def malformedOutcome (outcome : AttemptOutcome) : Bool :=
  (outcome.response.isSome && outcome.failure.isSome) ||
    (outcome.response.isNone && outcome.failure.isNone) ||
    outcome.failure.any (fun f => !validAttemptFailure f) ||
    outcome.response.any (fun r => !validAttemptResponseShape r)

def attemptCause (cfg : RuntimeConfig) : CauseCategory :=
  if cfg.ownsTransport then .httpRuntime else .customTransport

def setAttemptCause (cfg : RuntimeConfig) (e : Error) : Error :=
  { e with causeCategory := some (e.causeCategory.getD (attemptCause cfg)) }

/-- `classifyAttemptFailure` of a failure that is present. -/
def classifyAttemptFailure (f : AttemptFailure) (committed : Bool) : Error :=
  { code := f.code
    deliveryState := deliveryForCommit (committed || f.committed)
    retryable := f.code = .dns || f.code = .connect || f.code = .io || f.code = .attemptTimeout ||
      (f.code = .proxy && f.failureReason ≠ some .proxyAuthRequired)
    failureReason := f.failureReason
    causeCategory := f.causeCategory }

def retryAfterCap : Int := 60 * 1000000000

def milliseconds (nanos : Int) : Int := nanos.tdiv 1000000

/-- The base delay doubled once per earlier attempt, up to a maximum. -/
def backoffCap (maximum : Int) : Nat → Int → Int
  | 0, cap => cap
  | n + 1, cap => if cap > maximum - cap then maximum else backoffCap maximum n (cap * 2)

inductive RetryEntropy where
  | value (jitter : Int)
  | outOfRange
  | panicked

def sampleRetryEntropy (bound : Int) (sampled : Option Int) : RetryEntropy :=
  match sampled with
  | none => .panicked
  | some value => if 0 ≤ value ∧ value < bound then .value value else .outOfRange

/-- The delay a Retry-After header asks for, if any; an error when the wall clock failed. -/
def retryAfterDelay (response : Option AttemptResponse) : Except ClientOptionKey (Option Int) :=
  match response with
  | none => .ok none
  | some r =>
    match retryAfterValue r.fields with
    | none => .ok none
    | some value =>
      match parseRetryAfterDelta value with
      | .delay nanos => .ok (some nanos)
      | .invalid => .ok none
      | .needsWall =>
        if !responseNeedsWallSnapshotForStatus r.status r.fields then .ok none
        else if r.headerClockFailed || !r.headersReceivedAtSet then .error .wallClock
        else .ok (parseRetryAfterDate value r.headersReceivedAt)

/-- `callScheduler`, bounded unless the scheduler is the built-in timer. -/
def callScheduler (cfg : RuntimeConfig) (delay : Int) : Op (Option Bool) :=
  if cfg.builtInScheduler then do
    Prog.emit (.sleep delay)
    let ok ← observe (fun w t => w.sleep t delay)
    pure (some ok)
  else boundedPermitCall (.sleep delay) (fun w t => w.sleep t delay)

def awaitRetry (cfg : RuntimeConfig) (permit : Permit) (last : Error) (attempt : Nat)
    (committed : Bool) (delayMillis : Int) : Op Unit := do
  reportRetry cfg (delayMillis * 1000000) last
  let slept ← callScheduler cfg (delayMillis * 1000000)
  let terminal ← preAttemptTerminal permit committed attempt last.idempotencyKey
  match slept, terminal with
  | none, none => Prog.stop .panic
  | _, some e => fail (withResponseEvidence e last)
  | some true, none => pure ()
  | some false, none => do
    let terminal ← preAttemptTerminal permit committed attempt last.idempotencyKey
    match terminal with
    | some e => fail (withResponseEvidence e last)
    | none =>
      fail (withResponseEvidence (hookConfigurationError last.deliveryState last.operationID
        last.idempotencyKey attempt .scheduler (some .unknown)) last)

def backoff (cfg : RuntimeConfig) (permit : Permit) (last : Error)
    (response : Option AttemptResponse) (attempt : Nat) (committed : Bool) : Op Unit := do
  let hookError (state : DeliveryState) (option : ClientOptionKey)
      (cause : Option CauseCategory) : Error :=
    withResponseEvidence (hookConfigurationError state last.operationID last.idempotencyKey attempt
      option cause) last
  let reading ← callMonotonicClock
  match reading with
  | none => fail (hookError (deliveryForCommit committed) .monotonicClock (some .unknown))
  | some now =>
    let remainingMillis := milliseconds (int64 (permit.exclusiveDeadline - now))
    if remainingMillis ≤ 0 then
      fail (withResponseEvidence (operationDeadlineError committed attempt last.operationID
        last.idempotencyKey) last)
    else do
      let maximum := milliseconds cfg.retryMaxDelay
      let cap := min (min (backoffCap maximum (attempt - 1) (milliseconds cfg.retryBaseDelay))
        maximum) remainingMillis
      let sampled ← boundedPermitCall (.retryEntropy (cap + 1))
        (fun w t => sampleRetryEntropy (cap + 1) (w.retryEntropy t (cap + 1)))
      match sampled with
      | none => checkTerminal permit committed attempt last.idempotencyKey
      | some .outOfRange => fail (hookError last.deliveryState .retryEntropy none)
      | some .panicked => fail (hookError last.deliveryState .retryEntropy (some .retryEntropy))
      | some (.value jitter) =>
        match retryAfterDelay response with
        | .error option => fail (hookError last.deliveryState option (some .unknown))
        | .ok none => awaitRetry cfg permit last attempt committed jitter
        | .ok (some retryAfter) =>
          awaitRetry cfg permit last attempt committed
            (max jitter (min (min (milliseconds retryAfter) (milliseconds retryAfterCap))
              remainingMillis))

inductive Verdict where
  | accepted (result : SendResult)
  | retry (committed : Bool)

/-- An error of an attempt: report it and return it, or wait and go on. -/
def retryOrFail (cfg : RuntimeConfig) (permit : Permit) (e : Error)
    (response : Option AttemptResponse) (attempt : Nat) (committed : Bool) : Op Verdict := do
  let terminal ← preAttemptTerminal permit committed attempt e.idempotencyKey
  match terminal with
  | some terminal => do
    let terminal := if response.isSome then withResponseEvidence terminal e else terminal
    endAttempt cfg (some terminal) false
    fail terminal
  | none =>
    if !e.retryable || attempt = cfg.maxAttempts then do
      endAttempt cfg (some e) false
      fail e
    else do
      endAttempt cfg (some e) true
      backoff cfg permit e response attempt committed
      pure (.retry committed)

/-- The error of a response as the operation reports it, given the floor before the attempt. -/
def responseError (cfg : RuntimeConfig) (r : AttemptResponse) (committedBefore : Bool)
    (e : Error) : Error :=
  let e := if r.status = statusProxyAuthRequired then setAttemptCause cfg e else e
  { e with
    deliveryState :=
      if committedBefore && (e.code = .proxy || e.deliveryState = .rejected) then .possiblySent
      else e.deliveryState }

def handleResponse (cfg : RuntimeConfig) (permit : Permit) (p : Prepared) (attempt : Nat)
    (committedBefore committed : Bool) (r : AttemptResponse) : Op Verdict := do
  let id ← Prog.ask (fun w _ => w.operationID)
  closeResponse (some r)
  match validateAttemptResponse r p.eventType p.customerID p.timestamp with
  | .ok result => do
    let terminal ← deadlineTerminal permit committed attempt p.key
    match terminal with
    | some terminal => do
      let terminal := { terminal with toEvidence := responseEvidence r }
      endAttempt cfg (some terminal) false
      fail terminal
    | none => do
      endAttempt cfg none false
      pure (.accepted result)
  | .error e =>
    retryOrFail cfg permit
      (responseError cfg r committedBefore
        { e with operationID := id, idempotencyKey := p.key, attemptCount := attempt })
      (some r) attempt committed

def handleFailure (cfg : RuntimeConfig) (permit : Permit) (p : Prepared) (attempt : Nat)
    (committed : Bool) (f : AttemptFailure) : Op Verdict := do
  let id ← Prog.ask (fun w _ => w.operationID)
  let e := setAttemptCause cfg (classifyAttemptFailure f committed)
  retryOrFail cfg permit
    { e with operationID := id, idempotencyKey := p.key, attemptCount := attempt }
    none attempt committed

def rejectMalformed (cfg : RuntimeConfig) (p : Prepared) (attempt : Nat)
    (response : Option AttemptResponse) : Op Verdict := do
  let id ← Prog.ask (fun w _ => w.operationID)
  closeResponse response
  let e : Error :=
    { code := .io, deliveryState := .possiblySent, operationID := id, idempotencyKey := p.key,
      attemptCount := attempt, failureReason := some .unknown,
      causeCategory := some (attemptCause cfg) }
  endAttempt cfg (some e) false
  fail e

def classify (cfg : RuntimeConfig) (permit : Permit) (p : Prepared) (attempt : Nat)
    (committedBefore committed : Bool) (outcome : AttemptOutcome) : Op Verdict :=
  if malformedOutcome outcome then rejectMalformed cfg p attempt outcome.response
  else
    match outcome.response, outcome.failure with
    | some r, _ => handleResponse cfg permit p attempt committedBefore committed r
    | none, some f => handleFailure cfg permit p attempt committed f
    | none, none => rejectMalformed cfg p attempt none

def countHeaderLimit (outcome : AttemptOutcome) : Op Unit :=
  if outcome.response.any (·.headerLimitViolation) then Prog.emit .responseHeaderLimitFailure
  else pure ()

def attemptOutcome (cfg : RuntimeConfig) (permit : Permit) (p : Prepared)
    (request : AttemptRequest) (committed : Bool) (attempted : Attempted) : Op AttemptOutcome :=
  if attempted.completed then
    pure { attempted.outcome with
      response := attempted.outcome.response.map snapshotAttemptResponse }
  else lateOutcome cfg permit p request committed attempted

def settle (cfg : RuntimeConfig) (permit : Permit) (p : Prepared) (request : AttemptRequest)
    (committed : Bool) : Op Settled := do
  let attempted ← boundedAttemptCall request
  let outcome ← attemptOutcome cfg permit p request committed attempted
  countHeaderLimit outcome
  let settled : Settled :=
    { request := request, callEnd := attempted.callEnd, completed := attempted.completed,
      handed := attempted.outcome, effective := outcome, tracker := isCommitted attempted 2 }
  Prog.emit (.settled settled)
  pure settled

def attemptRequest (cfg : RuntimeConfig) (permit : Permit) (p : Prepared) (operationID : Bytes)
    (attempt : Nat) (now : Int) (propagation : List HeaderField) : AttemptRequest :=
  let budget := min cfg.attemptTimeout (int64 (permit.exclusiveDeadline - now))
  { operationID := operationID, apiURL := cfg.endpoint, headers := p.headers ++ propagation,
    body := p.body, attemptNumber := attempt, connectTimeout := cfg.connectTimeout,
    attemptTimeout := budget }

def attemptOnce (cfg : RuntimeConfig) (permit : Permit) (p : Prepared) (attempt : Nat)
    (committed : Bool) : Op Verdict := do
  let id ← Prog.ask (fun w _ => w.operationID)
  checkTerminal permit committed (attempt - 1) p.key
  let reading ← callMonotonicClock
  checkTerminal permit committed (attempt - 1) p.key
  match reading with
  | none =>
    fail (hookConfigurationError (deliveryForCommit committed) id p.key (attempt - 1)
      .monotonicClock (some .unknown))
  | some now => do
    let propagation ← startAttempt cfg attempt
    let s ← settle cfg permit p (attemptRequest cfg permit p id attempt now propagation) committed
    classify cfg permit p attempt committed
      (committed || attemptCommitted s.effective s.tracker) s.effective

/-- The attempts from `attempt` on, with the number of attempts left. -/
def attemptLoop (cfg : RuntimeConfig) (permit : Permit) (p : Prepared) :
    Nat → Nat → Bool → Op SendResult
  | 0, _, _ => Prog.stop .panic
  | left + 1, attempt, committed => do
    let verdict ← attemptOnce cfg permit p attempt committed
    match verdict with
    | .accepted result => pure result
    | .retry committed => attemptLoop cfg permit p left (attempt + 1) committed

def finalError : Except Stop α → Option Error
  | .error (.error e) => some e
  | _ => none

def sendAdmitted (codec : Codec Schema Data Payload) (cfg : RuntimeConfig) (permit : Permit)
    (schema : Schema) (group member : Bytes) (input : SendInput Data) : Op SendResult := do
  checkTerminal permit false 0 []
  startObservability cfg permit
  Prog.defer
    (do
      let p ← prepare codec cfg permit schema group member input
      attemptLoop cfg permit p cfg.maxAttempts 1 false)
    (fun result => finish cfg (finalError result))

end Repost
