import Repost.Http2Framing

namespace Repost.H2
open GoText
set_option autoImplicit true

def defaultWindowSize : Int := 65535
def maxWindowSize : Int := 2 ^ 31 - 1
def maxStreamID : Nat := 2 ^ 31 - 1
def maxInformationalResponses : Nat := 8
def writeQueueSize : Nat := 64
def errCodeCancel : Nat := 8
def errCodeProtocol : Nat := 1

structure Stream where
  id : Nat
  sendWindow : Int
  response : Response := {}
  err : Option SessionError := none
  finished : Bool := false
  headersReceived : Bool := false
  expectedLength : Option Nat := none
  informational : Nat := 0
  observed : Option (Int × List HeaderField) := none

structure GoAway where
  lastStreamID : Nat
  code : Nat

/-- The small frames, which carry neither a request nor a part of it. -/
inductive Reply where
  | rstStream (streamID code : Nat)
  | windowUpdates (streamID increment : Nat)
  | settingsAck
  | pingAck (payload : Bytes)
  deriving DecidableEq

inductive Job where
  | headers (streamID : Nat) (block : Bytes) (endStream : Bool)
  | data (streamID : Nat) (endStream : Bool) (chunk : Bytes) (first : Bool)
  | reply (reply : Reply)
  deriving DecidableEq

def Reply.frames : Reply → List Frame
  | .rstStream id code => [.rstStream id code]
  | .windowUpdates id increment => [.windowUpdate 0 increment, .windowUpdate id increment]
  | .settingsAck => [.settingsAck]
  | .pingAck payload => [.pingAck payload]

def Job.frames (maxFrameSize : Nat) : Job → List Frame
  | .headers id block endStream => writeHeaderBlock id block endStream maxFrameSize
  | .data id endStream chunk _ => [.data id endStream chunk]
  | .reply r => r.frames

/-- A write call's channels and the request whose context it carries, if any: `started` closed, and
the error sent on `done`. -/
structure WriteCall where
  owner : Option Nat
  started : Bool := false
  done : Option (Option SessionError) := none

inductive Purpose where
  | headers
  | data (size : Nat)
  | reset (cause : ContextError)
  deriving DecidableEq

/-- Where a call of `Do` stands. `check`, `enqueue`, `await` and `awaitStarted` are the stages of
`write`. -/
inductive Point where
  | acquire
  | awaitAdmission (generation : Nat)
  | check (purpose : Purpose)
  | enqueue (purpose : Purpose)
  | await (purpose : Purpose) (call : Nat)
  | awaitStarted (purpose : Purpose) (call : Nat)
  | reserve
  | awaitFlow (generation : Nat)
  | reserveFailed (err : SessionError)
  | fail (err : SessionError)
  | afterReset (cause : ContextError) (err : Option SessionError)
  | awaitResponse
  | returned (result : Except SessionError Response)

/-- One call of `Do`, after its headers are encoded. -/
structure Call where
  block : Bytes
  body : Bytes
  ctx : Option ContextError := none
  stream : Nat := 0
  offset : Nat := 0
  point : Point := .acquire

/-- Where the write loop stands with the call that it took from the channel. -/
inductive Writer where
  | idle
  | received (call : Nat) (job : Job)
  | started (call : Nat) (job : Job)
  | running (call : Nat) (job : Job)
  | failed (job : Job) (err : SessionError)
  | stopped

inductive SettingID where
  | headerTableSize | enablePush | maxConcurrentStreams | initialWindowSize | maxFrameSize
  | maxHeaderListSize | other
  deriving DecidableEq

/-- A setting and what `Setting.Valid` says about it, which allows no greater initial window. -/
structure Setting where
  id : SettingID
  value : Nat
  valid : Bool := true
  bounded : valid = true → id = .initialWindowSize → value ≤ 2 ^ 31 - 1

/-- What the read loop still has to do for the frame that it read. -/
inductive ReaderOp where
  | finish (streamID : Nat) (response : Response) (err : Option SessionError)
  | queue (reply : Reply)
  | headers (frame : MetaHeaders) (response : Response) (expected : Option Nat)
  | observe (streamID : Nat) (status : Int) (headers : List HeaderField)
  | data (streamID : Nat) (payload : Bytes) (streamEnded : Bool)
  | goAway (lastStreamID code : Nat)
  | windowUpdate (streamID increment : Nat)
  | settings (settings : List Setting)
  | shutdown (err : SessionError)

inductive Incoming where
  | headers (frame : MetaHeaders)
  | data (streamID : Nat) (payload : Bytes) (padding : Nat) (streamEnded : Bool)
  | rstStream (streamID code : Nat)
  | goAway (lastStreamID code : Nat)
  | windowUpdate (streamID increment : Nat)
  | settings (ack : Bool) (settings : List Setting)
  | ping (ack : Bool) (data : Bytes)
  | pushPromise
  | other
  | streamError (streamID code : Nat)
  | readError

/-- What the mutex guards. `streams` are the keys of the map and `objects` all streams ever made;
`flowChanged` and `admissionChanged` count how often these channels were replaced, and `credits`
records the accepted increments of the connection window. The channel `done` is closed when
`closeErr` is set. -/
structure Shared where
  closeErr : Option SessionError := none
  streams : List Nat := []
  objects : List Stream := []
  nextStreamID : Nat := 1
  connectionWindow : Int := defaultWindowSize
  initialStreamWindow : Int := defaultWindowSize
  maxFrameSize : Nat := 16384
  maxConcurrent : Nat := 2 ^ 32 - 1
  flowChanged : Nat := 0
  admissionChanged : Nat := 0
  goAway : Option GoAway := none
  credits : List Nat := []

/-- A session: what the mutex guards, the requests, all calls ever put on the channel and those
still on it, the two loops, and the frames written and read so far. `marked` records the requests
whose commitment was marked. -/
structure Session where
  shared : Shared := {}
  calls : List Call := []
  writes : List WriteCall := []
  writeCh : List (Nat × Job) := []
  writer : Writer := .idle
  reader : List ReaderOp := []
  reading : Bool := true
  wire : List Frame := []
  received : List Incoming := []
  marked : List Nat := []

namespace Shared

def signalFlowLocked (s : Shared) : Shared := { s with flowChanged := s.flowChanged + 1 }

def signalAdmissionLocked (s : Shared) : Shared :=
  { s with admissionChanged := s.admissionChanged + 1 }

def object (s : Shared) (id : Nat) : Option Stream := s.objects.find? fun st => st.id == id

theorem object_id {s : Shared} {id : Nat} (h : s.object id = some st) : st.id = id := by
  have hid := List.find?_some h
  exact beq_iff_eq.1 hid

theorem object_map {s s' : Shared} (g : Stream → Stream) (ho : s'.objects = s.objects.map g)
    (hid : ∀ st, (g st).id = st.id) (id : Nat) : s'.object id = (s.object id).map g := by
  simp only [object, ho, List.find?_map, Function.comp_def, hid]

/-- `s.streams[id]`. -/
def lookup (s : Shared) (id : Nat) : Option Stream :=
  if s.streams.contains id then s.object id else none

def updateStream (s : Shared) (id : Nat) (f : Stream → Stream) : Shared :=
  { s with objects := s.objects.map fun st => if st.id = id then f st else st }

section
variable {s s' : Shared} {id : Nat} {f : Stream → Stream}

theorem object_update (ho : s'.objects = (s.updateStream id f).objects)
    (hf : ∀ st, (f st).id = st.id) (i : Nat) :
    s'.object i = if i = id then (s.object i).map f else s.object i := by
  have hid : ∀ st : Stream, (if st.id = id then f st else st).id = st.id := by
    intro st
    split
    · exact hf st
    · rfl
  rw [object_map (fun st => if st.id = id then f st else st) ho hid i]
  cases hs : s.object i with
  | none => exact (ite_self none).symm
  | some st =>
    rw [Option.map_some, Option.map_some, object_id hs]
    split <;> rfl

end

def finishLocked (s : Shared) (id : Nat) (response : Response) (err : Option SessionError) :
    Shared :=
  ((({ s with streams := s.streams.erase id }).updateStream id fun st =>
    { st with response := response, err := err, finished := true }).signalAdmissionLocked
      ).signalFlowLocked

/-- `cancelStream`, which knows the stream and not only its identifier. -/
def cancelStream (s : Shared) (id : Nat) (err : SessionError) : Shared :=
  match s.object id with
  | some st => if st.finished then s else s.finishLocked id {} (some err)
  | none => s

def finishStream (s : Shared) (id : Nat) (response : Response) (err : Option SessionError) :
    Shared :=
  match s.lookup id with
  | some st => if st.finished then s else s.finishLocked id response err
  | none => s

def finishAll (s : Shared) (err : SessionError) : List Nat → Shared
  | [] => s
  | id :: ids => (s.finishLocked id {} (some err)).finishAll err ids

/-- Only the first call has an effect. -/
def shutdown (s : Shared) (err : SessionError) : Shared :=
  match s.closeErr with
  | some _ => s
  | none => { s with closeErr := some err }.finishAll err s.streams

def sessionError (s : Shared) : SessionError := s.closeErr.getD .sessionClosed

end Shared

namespace Session

def contextOf (s : Session) (owner : Option Nat) : Option ContextError :=
  match owner with
  | none => none
  | some i => (s.calls[i]?).bind (·.ctx)

/-- Put a call on the channel; it gets the next number. -/
def send (s : Session) (owner : Option Nat) (job : Job) : Session :=
  { s with writes := s.writes ++ [{ owner := owner }]
           writeCh := s.writeCh ++ [(s.writes.length, job)] }

def updateWrite (s : Session) (w : Nat) (f : WriteCall → WriteCall) : Session :=
  { s with writes := s.writes.modify w f }

end Session

namespace Call

/-- After the headers and after every chunk: the next chunk, or the wait for the response. -/
def proceed (c : Call) : Call :=
  { c with point := if c.offset < c.body.length then .reserve else .awaitResponse }

/-- The return of `write`. -/
def wrote (c : Call) (purpose : Purpose) (err : Option SessionError) : Call :=
  match purpose, err with
  | .headers, none => c.proceed
  | .data size, none => { c with offset := c.offset + size }.proceed
  | .headers, some e | .data _, some e => { c with point := .fail e }
  | .reset cause, err => { c with point := .afterReset cause err }

def job (c : Call) : Purpose → Job
  | .headers => .headers c.stream c.block (c.body = [])
  | .data size =>
    .data c.stream (c.offset + size = c.body.length) ((c.body.drop c.offset).take size)
      (c.offset = 0)
  | .reset _ => .reply (.rstStream c.stream errCodeCancel)

/-- The context that a write of this purpose carries: a reset is written without one. -/
def contextFor (c : Call) : Purpose → Option ContextError
  | .reset _ => none
  | _ => c.ctx

def leave (c : Call) (result : Except SessionError Response) : Call :=
  { c with point := .returned result }

end Call

def Purpose.owner (i : Nat) : Purpose → Option Nat
  | .reset _ => none
  | _ => some i

/-- The error of a request whose stream was reset, with the error of writing the reset. -/
def resetError (cause : ContextError) : Option SessionError → SessionError
  | none => .context cause
  | some e => .joined (.context cause) e

def Stream.result (st : Stream) : Except SessionError Response :=
  match st.err with
  | some e => .error e
  | none => .ok st.response

/-- Which branch of a `select` is taken, where there is a choice: the proper one, the end of the
context, or the end of the session. -/
inductive Choice where
  | go | context | session
  deriving DecidableEq

namespace Shared

def openStream (s : Shared) : Shared :=
  { s with
    nextStreamID := s.nextStreamID + 2
    streams := s.nextStreamID :: s.streams
    objects := s.objects ++ [{ id := s.nextStreamID, sendWindow := s.initialStreamWindow }] }

/-- The locked section of `acquireStream`. -/
def acquireStream (s : Shared) (c : Call) : Shared × Call :=
  match s.closeErr, s.goAway with
  | some e, _ => (s, c.leave (.error e))
  | none, some g => (s, c.leave (.error (.goAway g.lastStreamID g.code)))
  | none, none =>
    if s.nextStreamID > maxStreamID then (s, c.leave (.error .sessionClosed))
    else if s.streams.length < s.maxConcurrent then
      (s.openStream, { c with stream := s.nextStreamID, point := .check .headers })
    else (s, { c with point := .awaitAdmission s.admissionChanged })

/-- Take bytes from the connection's window and from a stream's. -/
def debit (s : Shared) (id n : Nat) : Shared :=
  { s with connectionWindow := s.connectionWindow - n }.updateStream id fun st =>
    { st with sendWindow := st.sendWindow - n }

/-- One round of `reserveSend`. The look at the context and the locked section are one step: a
context that ends between them might as well end after them. -/
def reserveSend (s : Shared) (c : Call) : Option (Shared × Call) :=
  match c.ctx with
  | some e => some (s, { c with point := .reserveFailed (.context e) })
  | none =>
    match s.object c.stream with
    | none => none
    | some st =>
      if st.finished then some (s, { c with point := .reserveFailed (st.err.getD .eof) })
      else
        let available := min (min (c.body.length - c.offset) s.maxFrameSize)
          (min s.connectionWindow st.sendWindow).toNat
        if available > 0 then
          some (s.debit c.stream available, { c with point := .check (.data available) })
        else some (s, { c with point := .awaitFlow s.flowChanged })

end Shared

namespace Session

def whenEnded (s : Session) (ctx : Option ContextError) (f : ContextError → Call) :
    Option (Session × Call) :=
  ctx.map fun e => (s, f e)

def whenDone (s : Session) (c : Call) : Option (Session × Call) :=
  if s.shared.closeErr.isSome then some (s, c) else none

def whenWritten (s : Session) (w : Nat) (f : Option SessionError → Call) :
    Option (Session × Call) :=
  match (s.writes[w]?).bind (·.done) with
  | some err => some (s, f err)
  | none => none

def withShared (s : Session) (result : Shared × Call) : Session × Call :=
  ({ s with shared := result.1 }, result.2)

/-- One step of a call of `Do`. -/
def callStep (s : Session) (i : Nat) (c : Call) : Point → Choice → Option (Session × Call)
  | .acquire, .go => some (s.withShared (s.shared.acquireStream c))
  | .awaitAdmission generation, .go =>
    if generation ≠ s.shared.admissionChanged then some (s, { c with point := .acquire }) else none
  | .awaitAdmission _, .context => s.whenEnded c.ctx fun e => c.leave (.error (.context e))
  | .awaitAdmission _, .session => s.whenDone (c.leave (.error s.shared.sessionError))
  | .check purpose, .go =>
    match c.contextFor purpose with
    | some e => some (s, c.wrote purpose (some (.context e)))
    | none => some (s, { c with point := .enqueue purpose })
  | .enqueue purpose, .go =>
    if s.writeCh.length < writeQueueSize then
      some (s.send (purpose.owner i) (c.job purpose),
        { c with point := .await purpose s.writes.length })
    else none
  | .enqueue purpose, .context =>
    s.whenEnded (c.contextFor purpose) fun e => c.wrote purpose (some (.context e))
  | .enqueue purpose, .session => s.whenDone (c.wrote purpose (some s.shared.sessionError))
  | .await purpose w, .go => s.whenWritten w (c.wrote purpose)
  | .await purpose w, .context =>
    s.whenEnded (c.contextFor purpose) fun e =>
      if (s.writes[w]?).any (·.started) then { c with point := .awaitStarted purpose w }
      else c.wrote purpose (some (.context e))
  | .await purpose _, .session => s.whenDone (c.wrote purpose (some s.shared.sessionError))
  | .awaitStarted purpose w, .go => s.whenWritten w (c.wrote purpose)
  | .awaitStarted purpose _, .session =>
    if s.shared.closeErr.isSome then
      s.whenEnded (c.contextFor purpose) fun e => c.wrote purpose (some (.context e))
    else none
  | .reserve, .go => (s.shared.reserveSend c).map s.withShared
  | .awaitFlow generation, .go =>
    if generation ≠ s.shared.flowChanged then some (s, { c with point := .reserve }) else none
  | .awaitFlow _, .context =>
    s.whenEnded c.ctx fun e => { c with point := .reserveFailed (.context e) }
  | .awaitFlow _, .session => s.whenDone { c with point := .reserveFailed s.shared.sessionError }
  | .reserveFailed err, .go =>
    match s.shared.object c.stream with
    | none => none
    | some st =>
      if st.finished then some (s, c.leave st.result)
      else
        match c.ctx with
        | some e => some (s, { c with point := .check (.reset e) })
        | none => some (s, { c with point := .fail err })
  | .fail err, .go => some (s.withShared (s.shared.cancelStream c.stream err, c.leave (.error err)))
  | .afterReset cause err, .go =>
    some (s.withShared (s.shared.cancelStream c.stream (.context cause),
      c.leave (.error (resetError cause err))))
  | .awaitResponse, .go =>
    match s.shared.object c.stream with
    | some st => if st.finished then some (s, c.leave st.result) else none
    | none => none
  | .awaitResponse, .context => s.whenEnded c.ctx fun e => { c with point := .check (.reset e) }
  | .awaitResponse, .session => s.whenDone (c.leave (.error s.shared.sessionError))
  | _, _ => none

end Session

end Repost.H2
