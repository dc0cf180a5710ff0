import Repost.Acceptance
import Repost.AttemptPacing
import Repost.Http2Exchange
import Repost.TelemetryReplay

namespace Repost
open GoText Traced
set_option autoImplicit true

/-- What a session makes of a request whose headers it has encoded: whether it wrote them, whether
it marked the request as committed, and what `Do` returns. -/
structure H2Answer where
  network : H1.GoError := {}
  written : Bool := true
  committed : Bool := false
  result : Except H2.SessionError H2.Response
  observed : Option (Int × List HeaderField) := none

/-- What happens around a call of the built-in transport; the pool may hand out a session in place
of a connection. -/
structure BuiltInScript extends RawScript where
  scheme : Bytes := lit "https"
  session : Option H2Answer := none

/-- The checks of `encodeRequestHeaders`. -/
def H2.encodable (scheme : Bytes) (r : H1.Request) : Bool :=
  (scheme = lit "https" || scheme = lit "http") &&
    (r.authority != [] && H1.validWireValue r.authority) &&
    (r.target.head? == some 0x2F && !r.target.contains 0x23 && H1.validWireValue r.target) &&
    (r.authorization != [] && r.userAgent != [] && r.idempotencyKey != []) &&
    [r.authorization, r.userAgent, r.idempotencyKey, r.traceparent, r.tracestate].all
      H1.validWireValue &&
    (r.tracestate == [] || r.traceparent != []) && r.body.length ≤ Limits.bodyBytes

/-- An error of the encoding is classified as an error that wraps nothing. -/
def encodingFailure (ctx : ContextView) : AttemptOutcome :=
  match classifyTransportCause ctx {} with
  | (code, reason) => rawFailure code reason false

/-- A call of the transport and the requests that it put on a wire. -/
structure BuiltInSent where
  outcome : AttemptOutcome
  committed : Bool := false
  wires : List H1.Request := []
  deriving DecidableEq

def sendH2 (script : BuiltInScript) (wire : H1.Request) (answer : H2Answer) : BuiltInSent :=
  if H2.encodable script.scheme wire then
    { outcome := mapH2Result script.atExchange answer.network answer.committed answer.result
        (.ofObserved script.wall answer.observed)
      committed := answer.committed
      wires := if answer.written then [wire] else [] }
  else { outcome := encodingFailure script.atExchange }

def RawH1Connection.written (connection : RawH1Connection) (wire : H1.Request) : List H1.Request :=
  if connection.setDeadline.isNone && H1.validRequest wire then [wire] else []

def h1Wires (gzip : H1.GzipReader) (script : RawScript) (wire : H1.Request) (reused : Bool)
    (connection : RawH1Connection) : List H1.Request :=
  let exchange := exchangeH1 gzip connection wire script.wall
  connection.written wire ++
    if exchange.err.isSome && connection.clientCertificateRequested then []
    else if replays reused exchange then
      match script.redial with
      | .ok (some fresh) => fresh.written wire
      | _ => []
    else []

def builtInSend (gzip : H1.GzipReader) (script : BuiltInScript) (request : AttemptRequest) :
    BuiltInSent :=
  match script.endpoint.bind (fun endpoint => makeH1Request endpoint request) with
  | none => { outcome := rawFailure .io .unknown false }
  | some wire =>
    match script.acquire with
    | .error e => { outcome := { failure := some (dialFailure script.atDial e) } }
    | .ok (reused, connection) =>
      match script.session with
      | some answer => sendH2 script wire answer
      | none =>
        let sent := sendH1 gzip script.toRawScript wire reused connection
        { outcome := sent.outcome, committed := sent.committed,
          wires := h1Wires gzip script.toRawScript wire reused connection }

def builtInCall (gzip : H1.GzipReader) (script : BuiltInScript) (request : AttemptRequest) :
    TransportCall :=
  let sent := builtInSend gzip script request
  { outcome := sent.outcome
    overruns := script.overruns
    givesUp := script.givesUp
    markedAt := if sent.committed then some 0 else none
    markedAtIfAbandoned := if sent.committed then script.markSeenIfAbandoned else none }

def World.overBuiltIn (w : World) (gzip : H1.GzipReader)
    (scripts : AttemptRequest → BuiltInScript) : World :=
  { w with transport := fun request => builtInCall gzip (scripts request) request }

def H1.Request.untraced (r : H1.Request) : H1.Request := { r with traceparent := [], tracestate := [] }

/-- Connections that treat requests alike whatever their trace headers, as long as the client
writes them at all. -/
structure RawH1Connection.Alike (a b : RawH1Connection) : Prop where
  same : b = { a with writes := b.writes }
  writes : ∀ wire wire₀ : H1.Request, wire.untraced = wire₀.untraced → H1.validRequest wire = true →
    H1.validRequest wire₀ = true → H1.writeRequest a.writes wire = H1.writeRequest b.writes wire₀

def dialsAlike : Except DialError (Option RawH1Connection) →
    Except DialError (Option RawH1Connection) → Prop
  | .ok (some a), .ok (some b) => a.Alike b
  | .ok none, .ok none => True
  | .error e, .error e' => e = e'
  | _, _ => False

def acquiresAlike : Except DialError (Bool × RawH1Connection) →
    Except DialError (Bool × RawH1Connection) → Prop
  | .ok (reused, a), .ok (reused', b) => reused = reused' ∧ a.Alike b
  | .error e, .error e' => e = e'
  | _, _ => False

structure BuiltInScript.Alike (a b : BuiltInScript) : Prop where
  same : b = { a with acquire := b.acquire, redial := b.redial }
  acquire : acquiresAlike a.acquire b.acquire
  redial : dialsAlike a.redial b.redial

def IgnoreTraces (scripts : AttemptRequest → BuiltInScript) : Prop :=
  ∀ q q₀ : AttemptRequest, q.untraced = q₀.untraced → (scripts q).Alike (scripts q₀)

def wiresOf (gzip : H1.GzipReader) (scripts : AttemptRequest → BuiltInScript) (h : List Event) :
    List H1.Request :=
  (sends h).flatMap fun q => (builtInSend gzip (scripts q) q).wires

def H1.Request.traced (r : H1.Request) : List HeaderField → H1.Request
  | [traceparent] => { r with traceparent := traceparent.value }
  | [traceparent, tracestate] =>
    { r with traceparent := traceparent.value, tracestate := tracestate.value }
  | _ => r

theorem authorizedPropagationHeaders_cases (pairs : List (Bytes × Bytes)) :
    authorizedPropagationHeaders pairs = [] ∨
      (∃ a, authorizedPropagationHeaders pairs = [a] ∧ equalFold a.name (lit "traceparent") = true) ∨
      ∃ a b, authorizedPropagationHeaders pairs = [a, b] ∧
        equalFold a.name (lit "traceparent") = true ∧ equalFold b.name (lit "tracestate") = true := by
  have hnamed : ∀ name a, (pairs.find? (fun p => equalFold p.1 name)).map
      (fun p => ({ name := p.1, value := p.2 } : HeaderField)) = some a →
      equalFold a.name name = true := by
    intro name a ha
    obtain ⟨p, hp, rfl⟩ := Option.map_eq_some_iff.1 ha
    have hfound := List.find?_some hp
    exact hfound
  unfold authorizedPropagationHeaders
  dsimp only
  split
  · exact .inl rfl
  · rename_i a ha
    cases hb : (pairs.find? (fun p => equalFold p.1 (lit "tracestate"))).map
        (fun p => ({ name := p.1, value := p.2 } : HeaderField)) with
    | none => exact .inr (.inl ⟨a, rfl, hnamed _ a ha⟩)
    | some b => exact .inr (.inr ⟨a, b, rfl, hnamed _ a ha, hnamed _ b hb⟩)

theorem makeH1Request_traced (hq : q.headers = base ++ authorizedPropagationHeaders pairs)
    (hbase : base.length = 5) : makeH1Request endpoint q =
      (makeH1Request endpoint q.untraced).map
        (·.traced (authorizedPropagationHeaders pairs)) := by
  have huntraced : q.untraced.headers = base := by
    show q.headers.take 5 = base
    rw [hq, List.take_append_of_le_length hbase.ge, List.take_of_length_le hbase.le]
  match base, hbase with
  | [h₀, h₁, h₂, h₃, h₄], _ =>
    unfold makeH1Request
    rw [huntraced, hq]
    rcases authorizedPropagationHeaders_cases pairs with he | ⟨a, he, ha⟩ | ⟨a, b, he, ha, hb⟩
    · rw [he]
      simp only [List.append_nil]
      split <;> rfl
    · rw [he]
      simp only [List.cons_append, List.nil_append, ha, if_true]
      split <;> rfl
    · rw [he]
      simp only [List.cons_append, List.nil_append, ha, hb, Bool.and_self, if_true]
      split <;> rfl

theorem makeH1Request_untraced (h : makeH1Request endpoint q = some wire)
    (hq : q.headers.length = 5) : wire.untraced = wire := by
  match hh : q.headers, hq with
  | [h₀, h₁, h₂, h₃, h₄], _ =>
    unfold makeH1Request at h
    rw [hh] at h
    dsimp only at h
    split at h
    · cases h
      rfl
    · cases h

def H1.Request.validTraces (r : H1.Request) : Bool :=
  H1.validWireValue r.traceparent && H1.validWireValue r.tracestate &&
    (r.tracestate == [] || r.traceparent != [])

theorem validRequest_eq (r : H1.Request) :
    H1.validRequest r = (H1.validRequest r.untraced && r.validTraces) := by
  have hnil : H1.validWireValue [] = true := rfl
  rw [Bool.eq_iff_iff]
  simp only [H1.validRequest, H1.Request.untraced, H1.Request.validTraces, Bool.and_eq_true, hnil,
    beq_self_eq_true, Bool.true_or]
  tauto

theorem encodable_eq (scheme : Bytes) (r : H1.Request) :
    H2.encodable scheme r = (H2.encodable scheme r.untraced && r.validTraces) := by
  have hnil : H1.validWireValue [] = true := rfl
  rw [Bool.eq_iff_iff]
  simp only [H2.encodable, H1.Request.untraced, H1.Request.validTraces, Bool.and_eq_true, hnil,
    beq_self_eq_true, Bool.true_or, List.all_cons, List.all_nil]
  tauto

theorem untraced_traced (r : H1.Request) (fields : List HeaderField) :
    (r.traced fields).untraced = r.untraced := by
  unfold H1.Request.traced
  split <;> rfl

theorem validTraces_traced {wire : H1.Request} (hw : wire.untraced = wire) (pairs : List (Bytes × Bytes)) :
    (wire.traced (authorizedPropagationHeaders pairs)).validTraces =
      acceptablePropagation (authorizedPropagationHeaders pairs) := by
  have hp : wire.traceparent = [] := congrArg H1.Request.traceparent hw.symm
  have hs : wire.tracestate = [] := congrArg H1.Request.tracestate hw.symm
  rcases authorizedPropagationHeaders_cases pairs with he | ⟨a, he, -⟩ | ⟨a, b, he, -, -⟩
  · rw [he]
    simp only [H1.Request.traced, H1.Request.validTraces, hp, hs]
    rfl
  · rw [he]
    simp only [H1.Request.traced, H1.Request.validTraces, hs, acceptablePropagation,
      List.all_cons, List.all_nil, beq_self_eq_true, Bool.true_or, Bool.and_true]
    exact Bool.and_true _
  · rw [he]
    simp only [H1.Request.traced, H1.Request.validTraces, acceptablePropagation, List.all_cons,
      List.all_nil, Bool.and_true]

section Alike
variable {wire wire₀ : H1.Request} (hwire : wire.untraced = wire₀.untraced)
  (htraces : wire.validTraces = true) (htraces₀ : wire₀.validTraces = true)
include hwire htraces htraces₀

theorem validRequest_alike : H1.validRequest wire = H1.validRequest wire₀ := by
  rw [validRequest_eq wire, validRequest_eq wire₀, hwire, htraces, htraces₀]

theorem exchangeH1_alike (h : a.Alike b) :
    exchangeH1 gzip a wire wall = exchangeH1 gzip b wire₀ wall := by
  have hvalid := validRequest_alike hwire htraces htraces₀
  have hwrites : H1.writeRequest a.writes wire = H1.writeRequest b.writes wire₀ := by
    cases hv : H1.validRequest wire with
    | true => exact h.writes wire wire₀ hwire hv (hvalid ▸ hv)
    | false =>
      have hv₀ : H1.validRequest wire₀ = false := hvalid ▸ hv
      unfold H1.writeRequest
      rw [hv, hv₀]
      rfl
  have hsame := h.same
  unfold exchangeH1
  rw [hsame] at hwrites ⊢
  rw [hwrites]

theorem written_alike {a b : RawH1Connection} (h : a.Alike b) :
    (a.written wire).map H1.Request.untraced = (b.written wire₀).map H1.Request.untraced := by
  unfold RawH1Connection.written
  rw [h.same, validRequest_alike hwire htraces htraces₀]
  split
  · exact congrArg (fun r => [r]) hwire
  · rfl

variable {script script₀ : BuiltInScript}

theorem sendH1_alike (h : script.Alike script₀)
    (hc : a.Alike b) :
    sendH1 gzip script.toRawScript wire reused a = sendH1 gzip script₀.toRawScript wire₀ reused b ∧
      (h1Wires gzip script.toRawScript wire reused a).map H1.Request.untraced =
        (h1Wires gzip script₀.toRawScript wire₀ reused b).map H1.Request.untraced := by
  have hwall : script₀.wall = script.wall := congrArg (·.wall) h.same
  have hdial : script₀.atDial = script.atDial := congrArg (·.atDial) h.same
  have hclass : script₀.atExchange = script.atExchange := congrArg (·.atExchange) h.same
  have hcert : b.clientCertificateRequested = a.clientCertificateRequested :=
    congrArg (·.clientCertificateRequested) hc.same
  have hredial := h.redial
  unfold sendH1 h1Wires
  dsimp only
  rw [hwall, hdial, hclass, hcert, exchangeH1_alike hwire htraces htraces₀ hc, List.map_append,
    List.map_append, written_alike hwire htraces htraces₀ hc]
  split
  · exact ⟨rfl, rfl⟩
  split
  · -- The replay goes to connections that are alike as well.
    unfold dialsAlike at hredial
    split at hredial
    · rename_i fresh fresh₀ hf hf₀
      have hagain := written_alike hwire htraces htraces₀ hredial
      simp only [hf, hf₀, exchangeH1_alike hwire htraces htraces₀ hredial, hagain, and_self]
    · rename_i hf hf₀
      simp only [hf, hf₀, and_self]
    · rename_i e e' hf hf₀
      simp only [hf, hf₀, hredial, and_self]
    · cases hredial
  · exact ⟨rfl, rfl⟩

theorem sendH2_alike (h : script.Alike script₀)
    (answer : H2Answer) :
    (sendH2 script wire answer).outcome = (sendH2 script₀ wire₀ answer).outcome ∧
      (sendH2 script wire answer).committed = (sendH2 script₀ wire₀ answer).committed ∧
      (sendH2 script wire answer).wires.map H1.Request.untraced =
        (sendH2 script₀ wire₀ answer).wires.map H1.Request.untraced := by
  have hwall : script₀.wall = script.wall := congrArg (·.wall) h.same
  have hclass : script₀.atExchange = script.atExchange := congrArg (·.atExchange) h.same
  have hscheme : script₀.scheme = script.scheme := congrArg (·.scheme) h.same
  have hencodable : H2.encodable script.scheme wire = H2.encodable script₀.scheme wire₀ := by
    rw [encodable_eq, encodable_eq _ wire₀, hwire, htraces, htraces₀, hscheme]
  unfold sendH2
  rw [hencodable, hwall, hclass]
  split
  · refine ⟨rfl, rfl, ?_⟩
    cases answer.written with
    | true => exact congrArg (fun r => [r]) hwire
    | false => rfl
  · exact ⟨rfl, rfl, rfl⟩

end Alike

/-- A call that does the same with propagation headers and without them. -/
structure CallNeutral (gzip : H1.GzipReader) (scripts : AttemptRequest → BuiltInScript)
    (q : AttemptRequest) : Prop where
  call : builtInCall gzip (scripts q) q = builtInCall gzip (scripts q.untraced) q.untraced
  wires : (builtInSend gzip (scripts q) q).wires.map H1.Request.untraced =
    (builtInSend gzip (scripts q.untraced) q.untraced).wires.map H1.Request.untraced

theorem AttemptRequest.untraced_untraced (q : AttemptRequest) : q.untraced.untraced = q.untraced := by
  unfold AttemptRequest.untraced
  dsimp only
  rw [List.take_take, Nat.min_self]

theorem builtInSend_alike (h : script.Alike script₀)
    (hq : q.Propagates) :
    (builtInSend gzip script q).outcome = (builtInSend gzip script₀ q.untraced).outcome ∧
      (builtInSend gzip script q).committed = (builtInSend gzip script₀ q.untraced).committed ∧
      (builtInSend gzip script q).wires.map H1.Request.untraced =
        (builtInSend gzip script₀ q.untraced).wires.map H1.Request.untraced := by
  obtain ⟨base, fields, hheaders, hbase, pairs, rfl, hgood⟩ := hq
  have hendpoint : script₀.endpoint = script.endpoint := congrArg (·.endpoint) h.same
  have hsession : script₀.session = script.session := congrArg (·.session) h.same
  have hdial : script₀.atDial = script.atDial := congrArg (·.atDial) h.same
  have hlength : q.untraced.headers.length = 5 := by
    show (q.headers.take 5).length = 5
    rw [hheaders, List.take_append_of_le_length hbase.ge, List.take_of_length_le hbase.le, hbase]
  unfold builtInSend
  rw [hendpoint, hsession, hdial]
  cases hend : script.endpoint with
  | none => exact ⟨rfl, rfl, rfl⟩
  | some endpoint =>
    simp only [Option.bind_some]
    rw [makeH1Request_traced hheaders hbase]
    cases hmake : makeH1Request endpoint q.untraced with
    | none => exact ⟨rfl, rfl, rfl⟩
    | some wire =>
      have huntraced := makeH1Request_untraced hmake hlength
      have hwire := untraced_traced wire (authorizedPropagationHeaders pairs)
      have htraces := (validTraces_traced huntraced pairs).trans hgood
      have htraces₀ : wire.validTraces = true := by
        rw [← huntraced]
        rfl
      simp only [Option.map_some]
      have hacquire := h.acquire
      unfold acquiresAlike at hacquire
      split at hacquire
      · rename_i reused a reused' b ha hb
        obtain ⟨rfl, hc⟩ := hacquire
        simp only [ha, hb]
        cases script.session with
        | some answer => exact sendH2_alike hwire htraces htraces₀ h answer
        | none =>
          obtain ⟨hsent, hwires⟩ := sendH1_alike hwire htraces htraces₀ h hc
          exact ⟨congrArg (·.outcome) hsent, congrArg (·.committed) hsent, hwires⟩
      · rename_i e e' ha hb
        simp only [ha, hb, hacquire, and_self]
      · cases hacquire

theorem callNeutral_of_propagates (hs : IgnoreTraces scripts) (hq : q.Propagates) :
    CallNeutral gzip scripts q := by
  have halike := hs q q.untraced q.untraced_untraced.symm
  refine ⟨?_, (builtInSend_alike halike hq).2.2⟩
  obtain ⟨houtcome, hcommitted, -⟩ := builtInSend_alike halike hq
  unfold builtInCall
  dsimp only
  rw [houtcome, hcommitted, show (scripts q.untraced).overruns = (scripts q).overruns from
    congrArg (·.overruns) halike.same, show (scripts q.untraced).givesUp = (scripts q).givesUp from
    congrArg (·.givesUp) halike.same, show (scripts q.untraced).markSeenIfAbandoned =
    (scripts q).markSeenIfAbandoned from congrArg (·.markSeenIfAbandoned) halike.same]

/-- The same operation without telemetry, and with the codec of its own instants. -/
def Operation.untraced (o : Operation Schema Data Payload) (codec₀ : Codec Schema Data Payload) :
    Operation Schema Data Payload :=
  { o with codec := codec₀, cfg := o.cfg.untraced }

theorem SameAnswers.overBuiltIn (h : SameAnswers w i w₀ j) :
    SameAnswers (w.overBuiltIn gzip scripts) i (w₀.overBuiltIn gzip scripts) j :=
  ⟨h.clock, h.deadline, h.operation, h.caller, h.closed, h.givesUp, h.apiKeyProvider,
    h.idempotencyKeyGenerator, h.generateNow, h.retryEntropy, h.sleep⟩

theorem along_overBuiltIn {codec codec₀ : Codec Schema Data Payload}
    (h : (untracedView codec codec₀).Along w w₀ j l) :
    (untracedView codec codec₀).Along (w.overBuiltIn gzip scripts) (w₀.overBuiltIn gzip scripts)
      j l := by
  induction l generalizing j with
  | nil => trivial
  | cons i l ih => exact ⟨⟨h.1.1.overBuiltIn, h.1.2⟩, ih h.2⟩

theorem sends_untraced (t : List Event) :
    sends (t.filterMap Event.untraced) = (sends t).map AttemptRequest.untraced := by
  induction t with
  | nil => rfl
  | cons e t ih =>
    cases e with
    | send q => exact congrArg (List.cons _) ih
    | _ => exact ih

/-- Whether the context that telemetry returned panics in an attempt: `newAttemptContexts` derives
the attempt's contexts from it, unguarded. -/
def Operation.contextPanics (o : Operation Schema Data Payload) (w : World) : Bool :=
  (o.run w).2.1.transportValues &&
    (o.settled w).any fun s => !w.telemetry.contextValue s.request.attemptNumber

/-- How a call ends. The first attempt at which the context panics takes the call down, and what
the run has after it does not happen. -/
def Operation.ending (o : Operation Schema Data Payload) (w : World) : Except Stop SendResult :=
  if o.contextPanics w then .error .panic else o.result w

/-- Two calls that end alike and put the same requests on the wires, up to their trace headers. -/
structure EndAlike (gzip : H1.GzipReader) (scripts : AttemptRequest → BuiltInScript)
    (o o₀ : Operation Schema Data Payload) (w w₀ : World) : Prop where
  result : o₀.ending w₀ = o.ending w
  wires : (wiresOf gzip scripts (o₀.log w₀)).map H1.Request.untraced =
    (wiresOf gzip scripts (o.log w)).map H1.Request.untraced

/-- With clean propagation headers and a context that answers, an operation is the same operation
without telemetry, at the instants that its telemetry does not take up. -/
theorem Operation.replays_untraced (o : Operation Schema Data Payload) (hc : SameCodec o.codec codec₀)
    (hs : IgnoreTraces scripts) (hw : w.PropagatesCleanly)
    (hcontext : o.contextPanics (w.overBuiltIn gzip scripts) = false) :
    ∃ l : List Nat, l.Pairwise (· < ·) ∧ ∀ w₀ : World, w₀.operationID = w.operationID →
      (untracedView o.codec codec₀).Along w w₀ 0 l →
      EndAlike gzip scripts o (o.untraced codec₀) (w.overBuiltIn gzip scripts)
        (w₀.overBuiltIn gzip scripts) := by
  obtain ⟨r, s', t, hrun⟩ : ∃ r s' t, o.run (w.overBuiltIn gzip scripts) = (r, s', t) :=
    ⟨_, _, _, rfl⟩
  have hclean : (w.overBuiltIn gzip scripts).PropagatesCleanly := hw
  obtain ⟨l, hl, hshows⟩ := sendAdmitted_shows hc hclean hrun
  refine ⟨l, hl.sorted, fun w₀ hid halong => ?_⟩
  have hrun₀ : (o.untraced codec₀).run (w₀.overBuiltIn gzip scripts) =
      (r.map id, s'.untraced (0 + l.length), t.filterMap Event.untraced) := by
    refine hshows (w₀.overBuiltIn gzip scripts) 0 ⟨hid, fun q hq => ?_⟩ (along_overBuiltIn halong)
    exact (callNeutral_of_propagates hs hq).call.symm
  have hcontext₀ : (o.untraced codec₀).contextPanics (w₀.overBuiltIn gzip scripts) = false := by
    unfold Operation.contextPanics
    rw [hrun₀]
    rfl
  refine ⟨?_, ?_⟩
  · unfold Operation.ending Operation.result
    rw [hcontext, hcontext₀, hrun, hrun₀]
    cases r <;> rfl
  have hsent : ∀ q ∈ sends t, q.Propagates := by
    intro q hq
    obtain ⟨g, u, rfl⟩ := mem_sends.1 hq
    exact sendAdmitted_propagating hclean hrun _ (by simp) q rfl
  unfold Operation.log wiresOf
  rw [hrun, hrun₀]
  rw [sends_untraced, List.map_flatMap, List.map_flatMap, List.flatMap_map]
  refine List.flatMap_congr fun q hq => ?_
  exact (callNeutral_of_propagates hs (hsent q hq)).wires.symm

/-- A fresh connection that takes every request, and on which the server sends the given bytes. -/
def obliging (endpoint : RawEndpoint) (incoming : Bytes) : BuiltInScript where
  endpoint := some endpoint
  acquire := .ok (false, { incoming := incoming, ending := { eof := true } })

theorem obliging_ignores (endpoint : RawEndpoint) (incoming : Bytes) :
    IgnoreTraces fun _ => obliging endpoint incoming := by
  intro q q₀ _
  refine ⟨rfl, ⟨rfl, rfl, fun wire wire₀ hwire hv hv₀ => ?_⟩, trivial⟩
  have hbody : wire.body = wire₀.body := by
    have hb := congrArg H1.Request.body hwire
    exact hb
  have haccepts : ∀ r : H1.Request, H1.validRequest r = true →
      H1.writeRequest [] r = (none, r.body != []) := by
    intro r hr
    have hhead : H1.writeAll [] (H1.requestHead r) = { accepted := true } := rfl
    unfold H1.writeRequest
    rw [hr, hhead]
    cases r.body with
    | nil => rfl
    | cons b body => rfl
  show H1.writeRequest [] wire = H1.writeRequest [] wire₀
  rw [haccepts wire hv, haccepts wire₀ hv₀, hbody]

theorem not_callNeutral (hheaders : q.headers = base ++ authorizedPropagationHeaders pairs)
    (hbase : base.length = 5) (hmake : makeH1Request endpoint q.untraced = some wire)
    (hvalid : H1.validRequest wire = true)
    (hbad : acceptablePropagation (authorizedPropagationHeaders pairs) = false) :
    ¬ CallNeutral gzip (fun _ => obliging endpoint []) q := by
  intro hneutral
  have hlength : q.untraced.headers.length = 5 := by
    show (q.headers.take 5).length = 5
    rw [hheaders, List.take_append_of_le_length hbase.ge, List.take_of_length_le hbase.le, hbase]
  have huntraced := makeH1Request_untraced hmake hlength
  have hinvalid : H1.validRequest (wire.traced (authorizedPropagationHeaders pairs)) = false := by
    rw [validRequest_eq, validTraces_traced huntraced pairs, hbad, Bool.and_false]
  have hwires := hneutral.wires
  have hnone : (builtInSend gzip (obliging endpoint []) q).wires = [] := by
    unfold builtInSend
    simp only [obliging, Option.bind_some, makeH1Request_traced hheaders hbase, hmake,
      Option.map_some]
    unfold h1Wires RawH1Connection.written replays exchangeH1 H1.writeRequest
    simp [hinvalid]
  have hone : (builtInSend gzip (obliging endpoint []) q.untraced).wires ≠ [] := by
    unfold builtInSend
    simp only [obliging, Option.bind_some, hmake]
    unfold h1Wires RawH1Connection.written
    simp [hvalid]
  rw [hnone] at hwires
  exact hone (List.map_eq_nil_iff.1 hwires.symm)

namespace Sample

def tracing (traceparent : Bytes) : Telemetry where
  startOperation _ := true
  operationContext _ := true
  startAttempt _ := true
  propagationHeaders _ := some [(lit "traceparent", traceparent)]
  endAttempt _ := true
  endOperation _ := true

def tracingWorld (traceparent : Bytes) : World :=
  { world (failure .io false) (failure .io false) with telemetry := tracing traceparent }

def tracingOperation : Operation Unit Unit Unit :=
  { operation with
    cfg := { operation.cfg with telemetry := true }
    permit := { operation.permit with telemetryContext := true } }

def obligingServer : BuiltInScript :=
  obliging { authority := lit "api.repost.sh", target := lit "/v1/messages" } accepting

def baseHeaders : List HeaderField :=
  [{ name := lit "authorization", value := lit "Bearer rp_key" },
    { name := lit "content-type", value := lit "application/json" },
    { name := lit "accept-encoding", value := lit "gzip" },
    { name := lit "user-agent", value := lit "repost-go" },
    { name := lit "idempotency-key", value := lit "key-1" }]

def tracedRequest (traceparent : Bytes) : AttemptRequest where
  operationID := lit "op_1"
  apiURL := lit "https://api.repost.sh/v1/messages"
  headers := baseHeaders ++ authorizedPropagationHeaders [(lit "traceparent", traceparent)]
  body := lit "\x7b\x7d"
  attemptNumber := 1
  connectTimeout := 1
  attemptTimeout := 1

theorem tracingWorld_clean (h : acceptablePropagation
    (authorizedPropagationHeaders [(lit "traceparent", traceparent)]) = true) :
    (tracingWorld traceparent).PropagatesCleanly := by
  intro i pairs hpairs
  cases hpairs
  exact h

theorem tracingWorld_along (traceparent : Bytes) (j : Nat) (l : List Nat) :
    (untracedView codec codec).Along (tracingWorld traceparent) (tracingWorld traceparent) j l := by
  induction l generalizing j with
  | nil => trivial
  | cons i l ih => exact ⟨⟨⟨rfl, rfl, rfl, rfl, rfl, rfl, rfl, rfl, rfl, rfl, rfl⟩, fun _ _ _ _ => rfl⟩, ih _⟩

end Sample

end Repost
