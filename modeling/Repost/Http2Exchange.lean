import Repost.RawTransport
import Repost.SessionLoops

namespace Repost
open GoText
set_option autoImplicit true

namespace H2.SessionError

/-- `errors.Is` for one of the sentinel errors. -/
def is (target : SessionError) : SessionError → Bool
  | .joined first second => is target first || is target second
  | e => e = target

def isGoAway : SessionError → Bool
  | .goAway _ _ => true
  | .joined first second => isGoAway first || isGoAway second
  | _ => false

def isStreamReset : SessionError → Bool
  | .streamReset _ => true
  | .joined first second => isStreamReset first || isStreamReset second
  | _ => false

end H2.SessionError

def H1.GoError.join (a b : H1.GoError) : H1.GoError where
  deadlineExceeded := a.deadlineExceeded || b.deadlineExceeded
  canceled := a.canceled || b.canceled
  dns := a.dns <|> b.dns
  certificate := a.certificate <|> b.certificate
  tlsAlert := a.tlsAlert || b.tlsAlert
  refused := a.refused || b.refused
  reset := a.reset || b.reset
  brokenPipe := a.brokenPipe || b.brokenPipe
  eof := a.eof || b.eof
  unexpectedEOF := a.unexpectedEOF || b.unexpectedEOF
  closed := a.closed || b.closed
  closedPipe := a.closedPipe || b.closedPipe
  timeout := a.timeout || b.timeout

def ContextError.goError : ContextError → H1.GoError
  | .deadlineExceeded => { deadlineExceeded := true, timeout := true }
  | .canceled => { canceled := true }

/-- What an error of a session wraps, given the network error behind a failed read or write. -/
def H2.SessionError.goError (network : H1.GoError) : H2.SessionError → H1.GoError
  | .context cause | .writeFrame (some cause) => cause.goError
  | .writeFrame none | .readFrame => network
  | .eof => { eof := true }
  | .joined first second => (first.goError network).join (second.goError network)
  | _ => {}

/-- `capture`: the clock is read when the headers arrive, if at all. -/
def HeaderSnapshot.capture (snapshot : HeaderSnapshot) (wall : Option Time) (status : Int)
    (headers : List HeaderField) : HeaderSnapshot :=
  let taken := snapshotResponseWallTime wall status headers
  if !taken.set && !taken.failed then snapshot else taken

/-- The snapshot of a request whose stream observed its response's headers, or did not. -/
def HeaderSnapshot.ofObserved (wall : Option Time) :
    Option (Int × List HeaderField) → HeaderSnapshot
  | none => {}
  | some (status, headers) => ({} : HeaderSnapshot).capture wall status headers

def h2Response (response : H2.Response) (snapshot : HeaderSnapshot) : AttemptResponse :=
  { status := wireStatus response.status
    headers := some response.headers
    body := some (if unparsable response.status then [] else response.body)
    compressedBytes := response.compressedBytes
    decompressedBytes := response.decompressedBytes
    truncated := response.truncated
    headersReceivedAt := snapshot.receivedAt
    headersReceivedAtSet := snapshot.set
    headerClockFailed := snapshot.failed }

def h2Outcome (response : H2.Response) (snapshot : HeaderSnapshot) : AttemptOutcome :=
  { response := some (h2Response response snapshot) }

def mapH2Exchange (ctx : ContextView) (network : H1.GoError) (committed : Bool)
    (response : H2.Response) (err : Option H2.SessionError) (snapshot : HeaderSnapshot) :
    AttemptOutcome :=
  match err with
  | none => h2Outcome response snapshot
  | some e =>
    if e.is .responseTooLarge then
      { response := some { markBodyLimitViolation (h2Response response snapshot) with
          retryForbidden := outside2xx response.status } }
    else if e.is .responseProtocol then
      { response := some { h2Response response snapshot with
          protocolViolation := true, retryForbidden := outside2xx response.status } }
    else if e.isGoAway then rawFailure .io .connectionClosed false
    else if e.isStreamReset then rawFailure .io .connectionReset committed
    else
      match classifyTransportCause ctx (e.goError network) with
      | (code, reason) =>
        if code = .attemptTimeout && response.status ≥ 100 && response.status ≤ 599 then
          { response := some { h2Response response snapshot with
              attemptFailureCode := some code, attemptFailureReason := some reason } }
        else rawFailure code reason committed

/-- What a call of `Do` returns: a response only without an error. -/
def mapH2Result (ctx : ContextView) (network : H1.GoError) (committed : Bool)
    (result : Except H2.SessionError H2.Response) (snapshot : HeaderSnapshot) : AttemptOutcome :=
  match result with
  | .ok response => mapH2Exchange ctx network committed response none snapshot
  | .error e => mapH2Exchange ctx network committed {} (some e) snapshot

namespace H2

def maxHPACKListSize : Nat := Limits.headerBytes + (32 - 4) * Limits.headerFields

def hpackSize (h : HeaderField) : Nat := h.name.length + h.value.length + 32

namespace Shared

/-- One operation of the read loop, as far as it concerns what the mutex guards. -/
def perform (gunzip : GunzipLimited) (s : Shared) : ReaderOp → Shared × List ReaderOp
  | .finish id response err => (s.finishStream id response err, [])
  | .queue _ => (s, [])
  | .headers frame response expected => s.handleHeaders gunzip frame response expected
  | .observe id status headers =>
    (s.updateStream id fun st => { st with observed := some (status, headers) }, [])
  | .data id payload streamEnded => s.handleData gunzip id payload streamEnded
  | .goAway lastStreamID code => (s.handleGoAway lastStreamID code, [])
  | .windowUpdate id increment =>
    ((s.handleWindowUpdate id increment).1,
      ((s.handleWindowUpdate id increment).2.map ReaderOp.shutdown).toList)
  | .settings settings =>
    ((s.applySettings settings).1, ((s.applySettings settings).2.map ReaderOp.shutdown).toList)
  | .shutdown err => (s.shutdown err, [])

def settle (gunzip : GunzipLimited) (s : Shared) (op : ReaderOp) : Shared :=
  (s.perform gunzip op).2.foldl (fun s op => (s.perform gunzip op).1) (s.perform gunzip op).1

def receive (gunzip : GunzipLimited) (s : Shared) (frame : Incoming) : Shared :=
  frame.ops.foldl (settle gunzip) s

def receiveAll (gunzip : GunzipLimited) (s : Shared) (frames : List Incoming) : Shared :=
  frames.foldl (receive gunzip) s

end Shared

end H2

end Repost
