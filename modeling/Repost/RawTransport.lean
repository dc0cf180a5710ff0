import Repost.Http1
import Repost.Operation

namespace Repost
open GoText
set_option autoImplicit true

structure ContextView where
  deadlineReached : Bool := false
  err : Option ContextError := none
  deriving DecidableEq

def classifyTransportCause (ctx : ContextView) (e : H1.GoError) : ErrorCode × FailureReason :=
  if ctx.deadlineReached || ctx.err = some .deadlineExceeded || e.deadlineExceeded then
    (.attemptTimeout, .unknown)
  else if ctx.err = some .canceled || e.canceled then (.cancelled, .unknown)
  else
    match e.dns with
    | some (timeout, notFound) =>
      (.dns, if timeout then .dnsTimeout else if notFound then .dnsNotFound else .unknown)
    | none =>
      match e.certificate with
      | some reason => (.tls, reason)
      | none =>
        if e.tlsAlert then (.tls, .tlsNegotiation)
        else if e.refused then (.connect, .connectRefused)
        else if e.reset || e.brokenPipe || e.eof then (.io, .connectionReset)
        else if e.unexpectedEOF || e.closedPipe || e.closed then (.io, .connectionClosed)
        else if e.timeout then (.connect, .connectTimeout)
        else (.io, .unknown)

def rawFailure (code : ErrorCode) (reason : FailureReason) (committed : Bool) : AttemptOutcome :=
  { failure := some { code := code, failureReason := some reason, committed := committed } }

inductive ProxyFailure where
  | credentials | authRequired | connect
  deriving DecidableEq

inductive DialError where
  | tlsNegotiation
  | proxy (kind : ProxyFailure)
  | network (cause : H1.GoError)
  deriving DecidableEq

def dialFailure (ctx : ContextView) : DialError → AttemptFailure
  | .tlsNegotiation => { code := .tls, failureReason := some .tlsNegotiation }
  | .proxy .credentials =>
    { code := .configuration, failureReason := some .unknown,
      causeCategory := some .proxyCredentialProvider }
  | .proxy .authRequired => { code := .proxy, failureReason := some .proxyAuthRequired }
  | .proxy .connect => { code := .proxy, failureReason := some .proxyConnectFailed }
  | .network e =>
    if ctx.err = none && e.deadlineExceeded then
      { code := .connect, failureReason := some .connectTimeout }
    else
      match classifyTransportCause ctx e with
      | (code, reason) => { code := code, failureReason := some reason }

/-- A connection during one exchange: what it does with writes, what the reader still holds from
earlier exchanges, what arrives, and the error that ends reading. -/
structure RawH1Connection where
  clientCertificateRequested : Bool := false
  setDeadline : Option H1.GoError := none
  writes : H1.Writes := []
  buffered : Bytes := []
  incoming : Bytes := []
  ending : H1.GoError := {}

/-- `responseBytes` counts what arrived: all of it when reading ends in a network error, which is
the only case in which it is looked at. -/
structure RawExchange where
  response : H1.Response := {}
  headerSnapshot : HeaderSnapshot := {}
  responseBytes : Nat := 0
  requestWrote : Bool := false
  committed : Bool := false
  err : Option H1.Err := none

def exchangeH1 (gzip : H1.GzipReader) (connection : RawH1Connection) (wire : H1.Request)
    (wall : Option Time) : RawExchange :=
  match connection.setDeadline with
  | some e => { err := some (.io e) }
  | none =>
    match H1.writeRequest connection.writes wire with
    | (some e, committed) => { committed := committed, err := some (.io e) }
    | (none, committed) =>
      let read := H1.readResponse gzip connection.ending (connection.buffered ++ connection.incoming)
      { response := read.response
        headerSnapshot :=
          match read.final with
          | some head => snapshotResponseWallTime wall head.status head.headers
          | none => {}
        responseBytes := connection.incoming.length
        requestWrote := true
        committed := committed
        err := read.err }

def unparsable (status : Int) : Bool := status < 100 || status > 599

/-- The status that an exchange's response is given; without a status line it becomes 202. -/
def wireStatus (status : Int) : Int := if unparsable status then 202 else status

theorem wireStatus_of_range (hlo : 100 ≤ status) (hhi : status ≤ 599) :
    wireStatus status = status := by
  have hv : unparsable status = false := by
    simp only [unparsable, Bool.or_eq_false_iff, decide_eq_false_iff_not]
    omega
  rw [wireStatus, hv]
  rfl

def h1Response (response : H1.Response) (snapshot : HeaderSnapshot) : AttemptResponse :=
  { status := wireStatus response.status
    headers := some response.headers
    body := some (if unparsable response.status then [] else response.body)
    compressedBytes := response.compressedBytes
    decompressedBytes := response.decompressedBytes
    truncated := response.truncated
    headersReceivedAt := snapshot.receivedAt
    headersReceivedAtSet := snapshot.set
    headerClockFailed := snapshot.failed }

def h1Outcome (response : H1.Response) (snapshot : HeaderSnapshot) : AttemptOutcome :=
  { response := some (h1Response response snapshot) }

def h1ErrorResponse (exchange : RawExchange) : AttemptResponse :=
  h1Response { exchange.response with body := [], truncated := false } exchange.headerSnapshot

def markBodyLimitViolation (r : AttemptResponse) : AttemptResponse :=
  if responseContentEncoding r.fields = some .gzip then { r with protocolViolation := true }
  else { r with limitViolation := true }

def outside2xx (status : Int) : Bool := status < 200 || status ≥ 300

def mapH1Exchange (ctx : ContextView) (exchange : RawExchange) : AttemptOutcome :=
  match exchange.err with
  | none => h1Outcome exchange.response exchange.headerSnapshot
  | some .bodyTooLarge =>
    { response := some { markBodyLimitViolation (h1ErrorResponse exchange) with
        retryForbidden := outside2xx exchange.response.status } }
  | some .expansionRatio | some .protocol =>
    { response := some { h1ErrorResponse exchange with
        protocolViolation := true, retryForbidden := outside2xx exchange.response.status } }
  | some .headerLimit =>
    { response := some { h1ErrorResponse exchange with
        limitViolation := true, retryForbidden := true, headerLimitViolation := true } }
  | some .incompleteBody =>
    { response := some { h1Response exchange.response exchange.headerSnapshot with
        incomplete := true } }
  | some (.io e) =>
    match classifyTransportCause ctx e with
    | (code, reason) =>
      if code = .attemptTimeout && exchange.response.status ≥ 100 &&
          exchange.response.status ≤ 599 then
        { response := some { h1Response exchange.response exchange.headerSnapshot with
            attemptFailureCode := some code, attemptFailureReason := some reason } }
      else rawFailure code reason exchange.committed

def staleH1Failure (e : H1.GoError) : Bool := e.eof || e.unexpectedEOF || e.closed || e.reset

structure RawEndpoint where
  authority : Bytes
  target : Bytes

/-- What happens around one call of the transport: the endpoint that its URL denotes, the pool's
connection, the connection of a replay (`none` when it speaks another protocol), the context when
errors are classified, the wall clock, and the call's place among the deadlines. -/
structure RawScript where
  endpoint : Option RawEndpoint
  acquire : Except DialError (Bool × RawH1Connection)
  redial : Except DialError (Option RawH1Connection) := .ok none
  atDial : ContextView := {}
  atExchange : ContextView := {}
  wall : Option Time := none
  overruns : Bool := false
  givesUp : Bool := false
  markSeenIfAbandoned : Option Nat := none

def makeH1Request (endpoint : RawEndpoint) (request : AttemptRequest) : Option H1.Request :=
  match request.headers with
  | authorization :: contentType :: acceptEncoding :: userAgent :: idempotencyKey :: trace =>
    let named (h : HeaderField) (name : String) : Bool := equalFold h.name (lit name)
    if named authorization "authorization" && named contentType "content-type" &&
        named acceptEncoding "accept-encoding" && named userAgent "user-agent" &&
        named idempotencyKey "idempotency-key" && contentType.value = lit "application/json" &&
        acceptEncoding.value = lit "gzip" then
      let wire : H1.Request :=
        { target := endpoint.target, authority := endpoint.authority,
          authorization := authorization.value, userAgent := userAgent.value,
          idempotencyKey := idempotencyKey.value, body := request.body }
      match trace with
      | [] => some wire
      | [traceparent] =>
        if named traceparent "traceparent" then some { wire with traceparent := traceparent.value }
        else none
      | [traceparent, tracestate] =>
        if named traceparent "traceparent" && named tracestate "tracestate" then
          some { wire with traceparent := traceparent.value, tracestate := tracestate.value }
        else none
      | _ => none
    else none
  | _ => none

/-- What one call of the transport does: its outcome, whether a byte of the body was accepted by a
connection, and the exchange that decided. -/
structure RawSent where
  outcome : AttemptOutcome
  committed : Bool := false
  exchange : RawExchange := {}

/-- A request written in full to a pooled connection that turned out to be dead. -/
def replays (reused : Bool) (exchange : RawExchange) : Bool :=
  reused && exchange.requestWrote && exchange.responseBytes = 0 &&
    match exchange.err with
    | some (.io e) => staleH1Failure e
    | _ => false

def sendH1 (gzip : H1.GzipReader) (script : RawScript) (wire : H1.Request) (reused : Bool)
    (connection : RawH1Connection) : RawSent :=
  let exchange := exchangeH1 gzip connection wire script.wall
  let sent (outcome : AttemptOutcome) : RawSent :=
    { outcome := outcome, committed := exchange.committed, exchange := exchange }
  if exchange.err.isSome && connection.clientCertificateRequested then
    sent (rawFailure .tls .tlsNegotiation false)
  else if replays reused exchange then
    match script.redial with
    | .error e =>
      sent { failure := some { dialFailure script.atDial e with committed := exchange.committed } }
    | .ok none => sent (rawFailure .io .unknown exchange.committed)
    | .ok (some fresh) =>
      let replayed := exchangeH1 gzip fresh wire script.wall
      let committed := exchange.committed || replayed.committed
      { outcome := mapH1Exchange script.atExchange { replayed with committed := committed },
        committed := committed, exchange := replayed }
  else sent (mapH1Exchange script.atExchange exchange)

def rawSend (gzip : H1.GzipReader) (script : RawScript) (request : AttemptRequest) : RawSent :=
  match script.endpoint.bind (fun endpoint => makeH1Request endpoint request) with
  | none => { outcome := rawFailure .io .unknown false }
  | some wire =>
    match script.acquire with
    | .error e => { outcome := { failure := some (dialFailure script.atDial e) } }
    | .ok (reused, connection) => sendH1 gzip script wire reused connection

def rawCall (gzip : H1.GzipReader) (script : RawScript) (request : AttemptRequest) :
    TransportCall :=
  let sent := rawSend gzip script request
  { outcome := sent.outcome
    overruns := script.overruns
    givesUp := script.givesUp
    markedAt := if sent.committed then some 0 else none
    markedAtIfAbandoned := if sent.committed then script.markSeenIfAbandoned else none }

def World.overRaw (w : World) (gzip : H1.GzipReader) (scripts : AttemptRequest → RawScript) :
    World :=
  { w with transport := fun request => rawCall gzip (scripts request) request }

end Repost
