import Repost.Runs
import Repost.Session

namespace Repost.H2
open GoText Runs
set_option autoImplicit true

/-- What happens to a frame function: all frames are written, or the connection fails after some. -/
inductive WriterChoice where
  | go
  | fails (after : Nat)
  | session
  deriving DecidableEq

namespace Session

/-- The requests that the frame function of a call marks as committed: the first chunk's. -/
def marks (s : Session) (w : Nat) : Job → List Nat
  | .data _ _ _ true => ((s.writes[w]?).bind (·.owner)).toList
  | _ => []

def writeContext (s : Session) (w : Nat) : Option ContextError :=
  s.contextOf ((s.writes[w]?).bind (·.owner))

def writerStep (s : Session) : Writer → WriterChoice → Option Session
  | .idle, .go =>
    match s.writeCh with
    | (w, job) :: rest => some { s with writeCh := rest, writer := .received w job }
    | [] => none
  | .idle, .session => if s.shared.closeErr.isSome then some { s with writer := .stopped } else none
  | .received w job, .go =>
    some { s.updateWrite w (fun c => { c with started := true }) with writer := .started w job }
  | .started w job, .go =>
    match s.writeContext w with
    | some e =>
      some { s.updateWrite w (fun c => { c with done := some (some (.context e)) }) with
        writer := .idle }
    | none => some { s with writer := .running w job }
  | .running w job, .go =>
    some { s.updateWrite w (fun c => { c with done := some none }) with
      wire := s.wire ++ job.frames s.shared.maxFrameSize
      marked := s.marked ++ s.marks w job
      writer := .idle }
  | .running w job, .fails after =>
    if after < (job.frames s.shared.maxFrameSize).length then
      let err := match s.writeContext w with
        | some e => SessionError.context e
        | none => .writeFrame none
      some { s.updateWrite w (fun c => { c with done := some (some err) }) with
        wire := s.wire ++ (job.frames s.shared.maxFrameSize).take after
        marked := s.marked ++ s.marks w job
        writer := .failed job err }
    else none
  | .failed _ err, .go =>
    let cause := match err with
      | .context e => some e
      | _ => none
    some { s with shared := s.shared.shutdown (.writeFrame cause), writer := .stopped }
  | _, _ => none

end Session

/-- What the read loop does with a frame, up to the sections under the mutex. -/
def Incoming.ops : Incoming → List ReaderOp
  | .headers frame =>
    match decodeResponseHeaders frame with
    | .error e =>
      [.finish frame.streamID {} (some e), .queue (.rstStream frame.streamID errCodeProtocol)]
    | .ok (response, expected) => [.headers frame response expected]
  | .data id payload _ streamEnded =>
    if payload = [] then [.data id payload streamEnded]
    else if payload.length > 2 ^ 32 - 1 then [.finish id {} (some .responseTooLarge)]
    else [.queue (.windowUpdates id payload.length), .data id payload streamEnded]
  | .rstStream id code => [.finish id {} (some (.streamReset code))]
  | .goAway lastStreamID code => [.goAway lastStreamID code]
  | .windowUpdate id increment => [.windowUpdate id increment]
  | .settings ack list => if ack then [] else [.settings list]
  | .ping ack payload => if ack then [] else [.queue (.pingAck payload)]
  | .pushPromise => [.shutdown .responseProtocol]
  | .other => []
  | .streamError id code => [.finish id {} (some .responseProtocol), .queue (.rstStream id code)]
  | .readError => [.shutdown .readFrame]

def finishOp (gunzip : GunzipLimited) (id : Nat) (response : Response) : ReaderOp :=
  match finalizeResponse gunzip response with
  | .ok response => .finish id response none
  | .error e => .finish id {} (some e)

def rejectOp (id : Nat) (err : SessionError) : ReaderOp := .finish id {} (some err)

namespace Shared

/-- The section of `handleHeaders` under the mutex and what is left to do after it. -/
def handleHeaders (gunzip : GunzipLimited) (s : Shared) (frame : MetaHeaders)
    (response : Response) (expected : Option Nat) : Shared × List ReaderOp :=
  let id := frame.streamID
  match s.lookup id with
  | none => (s, [])
  | some st =>
    if st.finished then (s, [])
    else if 100 ≤ response.status && response.status < 200 then
      let invalid := response.status = 101 || frame.streamEnded || st.headersReceived ||
        st.informational + 1 > maxInformationalResponses
      (s.updateStream id fun st => { st with informational := st.informational + 1 },
        if invalid then [rejectOp id .responseProtocol] else [])
    else if st.headersReceived then (s, [rejectOp id .responseProtocol])
    else
      (s.updateStream id fun st =>
          { st with headersReceived := true, response := response, expectedLength := expected },
        .observe id response.status response.headers ::
          if frame.streamEnded && expected.any (· != 0) then [rejectOp id .responseProtocol]
          else if frame.streamEnded then [finishOp gunzip id response]
          else [])

/-- The section of `handleData` under the mutex and what is left to do after it. -/
def handleData (gunzip : GunzipLimited) (s : Shared) (id : Nat) (data : Bytes)
    (streamEnded : Bool) : Shared × List ReaderOp :=
  match s.lookup id with
  | none => (s, [])
  | some st =>
    if st.finished then (s, [])
    else if !st.headersReceived then (s, [rejectOp id .responseProtocol])
    else if st.response.body.length + data.length > Limits.bodyBytes then
      (s, [rejectOp id .responseTooLarge])
    else
      let response := { st.response with body := st.response.body ++ data }
      (s.updateStream id fun st => { st with response := response },
        if st.expectedLength.any (response.body.length > ·) then [rejectOp id .responseProtocol]
        else if streamEnded then
          if st.expectedLength.any (response.body.length != ·) then
            [rejectOp id .responseProtocol]
          else [finishOp gunzip id response]
        else [])

def handleWindowUpdate (s : Shared) (id increment : Nat) : Shared × Option SessionError :=
  if id = 0 then
    if s.connectionWindow + increment > maxWindowSize then (s, some .responseProtocol)
    else
      ({ s with connectionWindow := s.connectionWindow + increment
                credits := s.credits ++ [increment] }.signalFlowLocked, none)
  else
    match s.lookup id with
    | some st =>
      if st.finished then (s.signalFlowLocked, none)
      else if st.sendWindow + increment > maxWindowSize then (s, some .responseProtocol)
      else
        ((s.updateStream id fun st =>
          { st with sendWindow := st.sendWindow + increment }).signalFlowLocked, none)
    | none => (s.signalFlowLocked, none)

end Shared

namespace Shared

def applySetting (s : Shared) (setting : Setting) : Shared :=
  match setting.id with
  | .initialWindowSize =>
    let delta := (setting.value : Int) - s.initialStreamWindow
    { s with
      initialStreamWindow := setting.value
      objects := s.objects.map fun st : Stream =>
        if s.streams.contains st.id then { st with sendWindow := st.sendWindow + delta }
        else st }.signalFlowLocked
  | .maxFrameSize => { s with maxFrameSize := setting.value }
  | .maxConcurrentStreams => { s with maxConcurrent := setting.value }.signalAdmissionLocked
  | _ => s

/-- Settings before an invalid one are applied. -/
def applySettings (s : Shared) : List Setting → Shared × Option SessionError
  | [] => (s, none)
  | setting :: settings =>
    if setting.valid then (s.applySetting setting).applySettings settings
    else (s, some .invalidSetting)

def handleGoAway (s : Shared) (lastStreamID code : Nat) : Shared :=
  let bound : GoAway := match s.goAway with
    | some g => if lastStreamID < g.lastStreamID then ⟨lastStreamID, code⟩ else g
    | none => ⟨lastStreamID, code⟩
  ({ s with goAway := some bound }.finishAll (.goAway bound.lastStreamID bound.code)
    (s.streams.filter (· > bound.lastStreamID))).signalAdmissionLocked

end Shared

namespace Session

def andThen (s : Session) (result : Shared × List ReaderOp) (rest : List ReaderOp) : Session :=
  { s with shared := result.1, reader := result.2 ++ rest }

def orShutdown (s : Session) (result : Shared × Option SessionError) (rest : List ReaderOp) :
    Session :=
  { s with
    shared := result.1
    reader := match result.2 with
      | none => rest
      | some e => [.shutdown e] }

/-- One step of the read loop. Only `queue` has a choice, once the session is shut down. -/
def readerStep (gunzip : GunzipLimited) (s : Session) (rest : List ReaderOp) :
    ReaderOp → Choice → Option Session
  | .finish id response err, .go =>
    some { s with shared := s.shared.finishStream id response err, reader := rest }
  | .queue reply, .go =>
    if s.writeCh.length < writeQueueSize then
      some { s.send none (.reply reply) with reader := rest }
    else none
  | .queue _, .session =>
    if s.shared.closeErr.isSome then some { s with reader := rest } else none
  | .headers frame response expected, .go =>
    some (s.andThen (s.shared.handleHeaders gunzip frame response expected) rest)
  | .observe id status headers, .go =>
    some { s with
      shared := s.shared.updateStream id fun st => { st with observed := some (status, headers) }
      reader := rest }
  | .data id payload streamEnded, .go =>
    some (s.andThen (s.shared.handleData gunzip id payload streamEnded) rest)
  | .goAway lastStreamID code, .go =>
    some { s with shared := s.shared.handleGoAway lastStreamID code, reader := rest }
  | .windowUpdate id increment, .go =>
    some (s.orShutdown (s.shared.handleWindowUpdate id increment) rest)
  | .settings settings, .go =>
    some (s.orShutdown (s.shared.applySettings settings) (.queue .settingsAck :: rest))
  | .shutdown err, .go =>
    some { s with shared := s.shared.shutdown err, reader := [], reading := false }
  | _, _ => none

end Session

/-- The steps of a session: a new request, the end of a request's context, a step of a request, of
the write loop or of the read loop, a frame that is read, and `Close`. -/
inductive Act where
  | start (block body : Bytes)
  | cancel (i : Nat) (cause : ContextError)
  | call (i : Nat) (choice : Choice)
  | writer (choice : WriterChoice)
  | receive (frame : Incoming)
  | reader (choice : Choice)
  | close

def sessionStep (gunzip : GunzipLimited) (s : Session) : Act → Option Session
  | .start block body => some { s with calls := s.calls ++ [{ block := block, body := body }] }
  | .cancel i cause =>
    match s.calls[i]? with
    | some c =>
      if c.ctx.isNone then some { s with calls := s.calls.set i { c with ctx := some cause } }
      else none
    | none => none
  | .call i choice =>
    match s.calls[i]? with
    | some c => (s.callStep i c c.point choice).map fun (s, c) => { s with calls := s.calls.set i c }
    | none => none
  | .writer choice => s.writerStep s.writer choice
  | .receive frame =>
    match s.reader with
    | [] =>
      if s.reading then some { s with reader := frame.ops, received := s.received ++ [frame] }
      else none
    | _ => none
  | .reader choice =>
    match s.reader with
    | op :: rest => s.readerStep gunzip rest op choice
    | [] => none
  | .close => some { s with shared := s.shared.shutdown .sessionClosed }

/-- A session after the handshake, in which the server's first settings were applied. -/
def newSession (settings : List Setting) : Option Session :=
  match ({} : Shared).applySettings settings with
  | (shared, none) => some { shared := shared }
  | (_, some _) => none

def session (gunzip : GunzipLimited) : System Session Act where
  Init s := ∃ settings, newSession settings = some s
  step := sessionStep gunzip

end Repost.H2
