import Repost.RawDelivery

namespace Repost
open GoText Traced
set_option autoImplicit true

/-- A byte of the body was accepted by a connection and no complete final response was read. -/
def RawSent.InDoubt (sent : RawSent) : Prop :=
  sent.committed = true ∧ sent.exchange.err.isSome = true

instance (sent : RawSent) : Decidable sent.InDoubt := inferInstanceAs (Decidable (_ ∧ _))

/-- If some attempt was left in doubt, the error of the operation is open. -/
def DoubtKept (gzip : H1.GzipReader) (scripts : AttemptRequest → RawScript) (S : List Settled)
    (error : Option Error) : Prop :=
  ∀ s ∈ S, s.callEnd ≠ .uncalled → (rawSend gzip (scripts s.request) s.request).InDoubt →
    ∀ e, error = some e → e.deliveryState.Open

/-- The network does nothing that the classification takes for a failure before commitment: no
client certificate is asked for, a failed replay dial and the error that ends the exchange are not
classified as failures of lookup, connection, proxy or handshake, what was read is not handed over
as a response that rules out acceptance, and an abandoned call has its mark seen. -/
structure RawScript.Plain (gzip : H1.GzipReader) (script : RawScript) (request : AttemptRequest) :
    Prop where
  certificate : ∀ lease, script.acquire = .ok lease → lease.2.clientCertificateRequested = false
  redial : ∀ e, script.redial = .error e → preCommitFailure (dialFailure script.atDial e).code = false
  cause : ∀ e, (rawSend gzip script request).exchange.err = some (.io e) →
    preCommitFailure (classifyTransportCause script.atExchange e).1 = false
  answered : ∀ r, (rawSend gzip script request).outcome.response = some r →
    responseMayHaveBeenAccepted r.status = true
  abandoned : script.givesUp = true → script.markSeenIfAbandoned = some 0

variable {s : Settled}

theorem raises_of_failure (hr : s.effective.response = none) (hf : s.effective.failure = some f)
    (hp : preCommitFailure f.code = false) (ht : s.tracker = true) : s.raises = true := by
  simp [Settled.raises, attemptCommitted, hr, hf, hp, ht]

theorem raises_of_response (hr : s.effective.response = some r) (hf : s.effective.failure = none)
    (ha : responseMayHaveBeenAccepted r.status = true) : s.raises = true := by
  simp [Settled.raises, attemptCommitted, hr, hf, ha]

theorem RawScript.Plain.outcome {script : RawScript} (hp : script.Plain gzip request)
    (hd : (rawSend gzip script request).InDoubt) :
    (∃ f, (rawSend gzip script request).outcome = { failure := some f } ∧
      preCommitFailure f.code = false) ∨
    ∃ r, (rawSend gzip script request).outcome = { response := some r } ∧
      responseMayHaveBeenAccepted r.status = true := by
  obtain ⟨hcert, hredial, hcause, hanswered, -⟩ := hp
  have hends := rawSend_ends gzip script request
  generalize rawSend gzip script request = sent at hends hcause hanswered hd ⊢
  obtain ⟨hcom, -⟩ := hd
  cases hends with
  | unsent => cases hcom
  | certificate connection x ha hr =>
    rw [hcert _ ha] at hr
    cases hr
  | redial x e he => exact .inl ⟨_, rfl, hredial e he⟩
  | otherProtocol x => exact .inl ⟨_, rfl, rfl⟩
  | exchanged connection wire x committed hx =>
    rcases mapH1Exchange_cases script.atExchange { x with committed := committed } with
      ⟨-, r, hm, -⟩ | ⟨-, r, hm, -⟩ | ⟨e, he, hm⟩
    · exact .inr ⟨r, hm, hanswered r (congrArg AttemptOutcome.response hm)⟩
    · exact .inr ⟨r, hm, hanswered r (congrArg AttemptOutcome.response hm)⟩
    · exact .inl ⟨_, hm, hcause e he⟩

theorem Settled.From.rawTracker {w : World} {scripts : AttemptRequest → RawScript}
    (hs : s.From (w.overRaw gzip scripts)) (hc : s.callEnd ≠ .uncalled)
    (hd : (rawSend gzip (scripts s.request) s.request).InDoubt)
    (hp : (scripts s.request).Plain gzip s.request) : s.tracker = true := by
  refine hs.marked ?_
  cases he : s.callEnd with
  | uncalled => exact absurd he hc
  | abandoned =>
    have hg : (scripts s.request).givesUp = true := hs.abandoned he
    simp only [World.overRaw, CallEnd.markedAt, rawCall, hd.1, if_true, hp.abandoned hg]
  | returned => simp only [World.overRaw, CallEnd.markedAt, rawCall, hd.1, if_true]

/-- A plain call left in doubt raises the floor, in time or late. -/
theorem Settled.From.rawRaises {w : World} {scripts : AttemptRequest → RawScript}
    (hs : s.From (w.overRaw gzip scripts)) (hc : s.callEnd ≠ .uncalled)
    (hd : (rawSend gzip (scripts s.request) s.request).InDoubt)
    (hp : (scripts s.request).Plain gzip s.request) : s.raises = true := by
  have ht := hs.rawTracker hc hd hp
  cases hcomp : s.completed with
  | false => exact hs.late_raises hcomp ht
  | true =>
    obtain ⟨hret, he⟩ := hs.inTime hcomp
    have hh : s.handed = (rawSend gzip (scripts s.request) s.request).outcome := by
      rw [hs.handed, hret]
      rfl
    rcases hp.outcome hd with ⟨f, ho, hcode⟩ | ⟨r, ho, ha⟩
    · refine raises_of_failure ?_ ?_ hcode ht
      · rw [he, hh, ho]
        rfl
      · rw [he, hh, ho]
    · refine raises_of_response (r := snapshotAttemptResponse r) ?_ ?_ ?_
      · rw [he, hh, ho]
        rfl
      · rw [he, hh, ho]
      · rw [snapshotAttemptResponse_status]
        exact ha

/-- Over HTTP/1.1 an attempt left in doubt keeps the operation's error open, in every run in which
the network is plain whenever an attempt is left in doubt. -/
theorem Operation.doubt_kept (o : Operation Schema Data Payload) (w : World)
    (gzip : H1.GzipReader) (scripts : AttemptRequest → RawScript)
    (hp : ∀ s ∈ o.settled (w.overRaw gzip scripts), s.callEnd ≠ .uncalled →
      (rawSend gzip (scripts s.request) s.request).InDoubt →
      (scripts s.request).Plain gzip s.request) :
    DoubtKept gzip scripts (o.settled (w.overRaw gzip scripts))
      (o.error (w.overRaw gzip scripts)) := by
  intro s hs hc hd e he
  have hr := ((o.trail _).source s hs).rawRaises hc hd (hp s hs hc hd)
  exact (o.reported _ he).open (floor_of_mem hs hr)

/-- A call whose server reads the request and closes the connection, having asked for a client
certificate during the handshake or not. -/
def Sample.closing (requested : Bool) : RawScript :=
  { Sample.script [] with
    acquire := .ok (false, { clientCertificateRequested := requested, ending := { eof := true } }) }

theorem Sample.closing_plain :
    DoubtKept Sample.noGzip (fun _ => Sample.closing false)
        (Sample.operation.settled (Sample.rawWorld (Sample.closing false)))
        (Sample.operation.error (Sample.rawWorld (Sample.closing false))) ∧
      ∃ s ∈ Sample.operation.settled (Sample.rawWorld (Sample.closing false)),
        s.callEnd ≠ .uncalled ∧
          (rawSend Sample.noGzip (Sample.closing false) s.request).InDoubt := by
  have hall : ∀ s ∈ Sample.operation.settled (Sample.rawWorld (Sample.closing false)),
      (rawSend Sample.noGzip (Sample.closing false) s.request).exchange.err =
          some (.io { eof := true }) ∧
        (rawSend Sample.noGzip (Sample.closing false) s.request).outcome.response.isNone := by
    decide +kernel
  refine ⟨Sample.operation.doubt_kept _ _ _ fun s hs _ _ => ?_, by decide +kernel⟩
  obtain ⟨herr, hnone⟩ := hall s hs
  refine ⟨?_, ?_, ?_, ?_, nofun⟩
  · rintro lease ⟨⟩
    rfl
  · rintro e ⟨⟩
  · intro e he
    cases herr.symm.trans he
    rfl
  · intro r hr
    rw [hr] at hnone
    cases hnone

/-- After a request for a client certificate every error of the exchange is taken for a failed
handshake, so the operation says not sent although its body was accepted. -/
theorem Sample.certificate_doubt :
    ¬ DoubtKept Sample.noGzip (fun _ => Sample.closing true)
      (Sample.operation.settled (Sample.rawWorld (Sample.closing true)))
      (Sample.operation.error (Sample.rawWorld (Sample.closing true))) := by
  intro h
  obtain ⟨s, hs, hc, hd⟩ : ∃ s ∈ Sample.operation.settled (Sample.rawWorld (Sample.closing true)),
      s.callEnd ≠ .uncalled ∧
        (rawSend Sample.noGzip (Sample.closing true) s.request).InDoubt := by
    decide +kernel
  obtain ⟨e, he, hn⟩ : ∃ e ∈ Sample.operation.error (Sample.rawWorld (Sample.closing true)),
      e.deliveryState = .notSent := by
    decide +kernel
  have ho := h s hs hc hd e he
  rw [hn] at ho
  exact absurd ho (by decide)

end Repost
