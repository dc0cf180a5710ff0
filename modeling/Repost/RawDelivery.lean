import Repost.DeliveryFloor
import Repost.Http1Reading
import Repost.RawTransport

namespace Repost
open GoText Traced
set_option autoImplicit true

/-- The exchange ended while its last status line was informational. -/
def RawExchange.Informational (x : RawExchange) : Prop :=
  100 ≤ x.response.status ∧ x.response.status < 200

instance (x : RawExchange) : Decidable x.Informational := inferInstanceAs (Decidable (_ ∧ _))

theorem exchangeH1_cases (gzip : H1.GzipReader) (connection : RawH1Connection) (wire : H1.Request)
    (wall : Option Time) :
    (∃ e c, exchangeH1 gzip connection wire wall = { committed := c, err := some (.io e) }) ∨
      ((exchangeH1 gzip connection wire wall).response =
          (H1.readResponse gzip connection.ending
            (connection.buffered ++ connection.incoming)).response ∧
        (exchangeH1 gzip connection wire wall).err =
          (H1.readResponse gzip connection.ending
            (connection.buffered ++ connection.incoming)).err) := by
  unfold exchangeH1
  split
  · exact .inl ⟨_, _, rfl⟩
  · split
    · exact .inl ⟨_, _, rfl⟩
    · exact .inr ⟨rfl, rfl⟩

theorem exchangeH1_final (h : ∀ e, (exchangeH1 gzip connection wire wall).err ≠ some (.io e)) :
    (200 ≤ (exchangeH1 gzip connection wire wall).response.status ∧
      (exchangeH1 gzip connection wire wall).response.status ≤ 599) ∨
    (exchangeH1 gzip connection wire wall).err = some .protocol ∨
    (exchangeH1 gzip connection wire wall).err = some .headerLimit := by
  rcases exchangeH1_cases gzip connection wire wall with ⟨e, c, hx⟩ | ⟨hr, he⟩
  · rw [hx] at h
    exact absurd rfl (h e)
  · rcases H1.readResponse_cases gzip connection.ending (connection.buffered ++ connection.incoming)
      with ⟨-, e, hread, hearly⟩ | ⟨head, -, hs, hlo, hhi⟩
    · rw [he, hread] at h ⊢
      rcases hearly with rfl | rfl | rfl
      · exact .inr (.inl rfl)
      · exact .inr (.inr rfl)
      · exact absurd rfl (h connection.ending)
    · rw [hr, hs]
      exact .inl ⟨hlo, hhi⟩

theorem markBodyLimitViolation_status : (markBodyLimitViolation r).status = r.status := by
  unfold markBodyLimitViolation
  split <;> rfl

theorem markBodyLimitViolation_attemptFailureCode :
    (markBodyLimitViolation r).attemptFailureCode = r.attemptFailureCode := by
  unfold markBodyLimitViolation
  split <;> rfl

/-- Every outcome of an exchange: a response with the status that was read, a response marked
because time ran out after its status line, or a failure after a network error. -/
theorem mapH1Exchange_cases (ctx : ContextView) (x : RawExchange) :
    ((∀ e, x.err ≠ some (.io e)) ∧ ∃ r, mapH1Exchange ctx x = { response := some r } ∧
      r.status = wireStatus x.response.status ∧ r.attemptFailureCode = none) ∨
    (100 ≤ x.response.status ∧ ∃ r, mapH1Exchange ctx x = { response := some r } ∧
      r.status = x.response.status ∧ r.attemptFailureCode = some .attemptTimeout) ∨
    ∃ e, x.err = some (.io e) ∧ mapH1Exchange ctx x =
      rawFailure (classifyTransportCause ctx e).1 (classifyTransportCause ctx e).2 x.committed := by
  unfold mapH1Exchange
  cases he : x.err with
  | none => exact .inl ⟨fun _ h => (nomatch h), _, rfl, rfl, rfl⟩
  | some err =>
    cases err with
    | bodyTooLarge =>
      exact .inl ⟨fun _ h => (nomatch h), _, rfl, markBodyLimitViolation_status,
        markBodyLimitViolation_attemptFailureCode⟩
    | expansionRatio | protocol | headerLimit | incompleteBody =>
      exact .inl ⟨fun _ h => (nomatch h), _, rfl, rfl, rfl⟩
    | io e =>
      right
      dsimp only
      split
      · rename_i hc
        simp only [Bool.and_eq_true, decide_eq_true_eq] at hc
        obtain ⟨⟨hcode, hlo⟩, hhi⟩ := hc
        exact .inl ⟨hlo, _, rfl, wireStatus_of_range hlo hhi, congrArg some hcode⟩
      · exact .inr ⟨e, rfl, rfl⟩

inductive RawSent.Ends (gzip : H1.GzipReader) (script : RawScript) : RawSent → Prop where
  | unsent (f : AttemptFailure) : Ends gzip script { outcome := { failure := some f } }
  | certificate (connection : RawH1Connection) (x : RawExchange)
      (ha : script.acquire = .ok (reused, connection))
      (hr : connection.clientCertificateRequested = true) :
      Ends gzip script
        { outcome := rawFailure .tls .tlsNegotiation false, committed := x.committed, exchange := x }
  | redial (x : RawExchange) (e : DialError) (hd : script.redial = .error e) :
      Ends gzip script
        { outcome :=
            { failure := some { dialFailure script.atDial e with committed := x.committed } }
          committed := x.committed
          exchange := x }
  | otherProtocol (x : RawExchange) :
      Ends gzip script
        { outcome := rawFailure .io .unknown x.committed, committed := x.committed, exchange := x }
  | exchanged (connection : RawH1Connection) (wire : H1.Request) (x : RawExchange)
      (committed : Bool) (hx : x = exchangeH1 gzip connection wire script.wall) :
      Ends gzip script
        { outcome := mapH1Exchange script.atExchange { x with committed := committed }
          committed := committed
          exchange := x }

theorem rawSend_ends (gzip : H1.GzipReader) (script : RawScript) (request : AttemptRequest) :
    (rawSend gzip script request).Ends gzip script := by
  unfold rawSend
  split
  · exact .unsent _
  · rename_i wire _
    split
    · exact .unsent _
    · rename_i reused connection ha
      unfold sendH1
      dsimp only
      split
      · rename_i hc
        simp only [Bool.and_eq_true] at hc
        exact .certificate connection _ ha hc.2
      · split
        · split
          · exact .redial _ _ ‹_›
          · exact .otherProtocol _
          · exact .exchanged _ wire _ _ rfl
        · exact .exchanged connection wire _ _ rfl

theorem RawSent.Ends.response {sent : RawSent} (h : sent.Ends gzip script)
    (hr : sent.outcome.response = some r) :
    ∃ connection wire, sent.exchange = exchangeH1 gzip connection wire script.wall ∧
      sent.outcome =
        mapH1Exchange script.atExchange { sent.exchange with committed := sent.committed } := by
  cases h with
  | unsent => cases hr
  | certificate => cases hr
  | redial => cases hr
  | otherProtocol => cases hr
  | exchanged connection wire x committed hx => exact ⟨connection, wire, hx, rfl⟩

/-- An unmarked response with a status outside 2xx has that status on the wire; if it is not final,
an error of the format ended the exchange. -/
theorem RawSent.Ends.status {sent : RawSent} (h : sent.Ends gzip script)
    (hr : sent.outcome.response = some r) (hn : r.attemptFailureCode = none)
    (hst : r.status ≠ 202) :
    r.status = sent.exchange.response.status ∧
      (200 ≤ sent.exchange.response.status ∨ sent.exchange.err = some .protocol ∨
        sent.exchange.err = some .headerLimit) := by
  obtain ⟨connection, wire, hx, ho⟩ := h.response hr
  rw [ho] at hr
  rcases mapH1Exchange_cases script.atExchange { sent.exchange with committed := sent.committed } with
    ⟨hio, r', hm, hs, -⟩ | ⟨-, r', hm, -, hc⟩ | ⟨e, -, hm⟩
  · rw [hm] at hr
    cases hr
    constructor
    · rw [hs, wireStatus] at hst ⊢
      split at hst
      · exact absurd rfl hst
      · rename_i hp
        rw [if_neg hp]
    · have hio' : ∀ e, (exchangeH1 gzip connection wire script.wall).err ≠ some (.io e) := by
        intro e
        rw [← hx]
        exact hio e
      rw [hx]
      exact (exchangeH1_final hio').imp_left And.left
  · rw [hm] at hr
    cases hr
    rw [hn] at hc
    cases hc
  · rw [hm] at hr
    cases hr

/-- A rejection is always the last attempt's own, read from a response that proves it. -/
theorem Reported.rejected (h : Reported S .rejected) :
    ∃ S' s r, S = S' ++ [s] ∧ Clean S' ∧ floor S' = false ∧ s.effective.response = some r ∧
      validAttemptResponseShape r = true ∧ r.attemptFailureCode = none ∧
      responseMayHaveBeenAccepted r.status = false ∧ r.status ≠ 407 := by
  generalize hd : DeliveryState.rejected = d at h
  cases h with
  | commit =>
    unfold deliveryForCommit at hd
    split at hd <;> cases hd
  | abort =>
    unfold deliveryForAbort at hd
    split at hd <;> cases hd
  | own hc =>
    rename_i S s
    cases hm : s.malformed with
    | true =>
      rw [ownState_malformed hm] at hd
      cases hd
    | false =>
      rcases wellFormed_cases hm with ⟨r, hr, -, hv⟩ | ⟨f, hr, hf, -⟩
      · rw [ownState_response hm hr, responseState_eq] at hd
        split at hd
        · cases hd
        · rename_i hn
          simp only [Bool.or_eq_true, not_or, Bool.not_eq_true] at hn
          obtain ⟨⟨hcode, hacc⟩, hfl⟩ := hn
          split at hd
          · cases hd
          · exact ⟨S, s, r, rfl, hc, hfl, hr, hv, by simpa using hcode, hacc, ‹_›⟩
      · rw [ownState_failure hm hr hf] at hd
        unfold deliveryForCommit at hd
        split at hd <;> cases hd

theorem validAttemptResponseShape_status (h : validAttemptResponseShape r = true) :
    100 ≤ r.status ∧ r.status ≤ 599 := by
  simp only [validAttemptResponseShape, Bool.and_eq_true, Bool.not_eq_true', Bool.or_eq_false_iff,
    decide_eq_false_iff_not] at h
  omega

theorem not_raising_of_floor (hc : Clean S) (hf : floor S = false) :
    ∀ t ∈ S, t.raises = false ∧ ¬ t.Raising := by
  intro t ht
  have hr : t.raises = false := by
    cases h : t.raises with
    | false => rfl
    | true =>
      rw [floor_of_mem ht h] at hf
      cases hf
  refine ⟨hr, fun h => ?_⟩
  rcases h.raises with h | h
  · rw [hr] at h
    cases h
  · rw [hc t ht] at h
    cases h

theorem Settled.From.rawResponse {w : World} {scripts : AttemptRequest → RawScript} {s : Settled}
    (hs : s.From (w.overRaw gzip scripts))
    (hr : s.effective.response = some r) :
    ∃ r', (rawSend gzip (scripts s.request) s.request).outcome.response = some r' ∧
      r = snapshotAttemptResponse r' := by
  obtain ⟨hret, he⟩ := hs.inTime (hs.completed hr)
  rw [he, hs.handed, hret] at hr
  obtain ⟨r', hr', rfl⟩ := Option.map_eq_some_iff.1 hr
  exact ⟨r', hr', rfl⟩

/-- The error says rejected only if the last attempt read the status line of a final 3xx or 4xx
response that proves it, and no earlier attempt raised the floor. -/
def RejectedOnProof (gzip : H1.GzipReader) (scripts : AttemptRequest → RawScript)
    (S : List Settled) (error : Option Error) : Prop :=
  ∀ e, error = some e → e.deliveryState = .rejected →
    ∃ S' s, S = S' ++ [s] ∧ (∀ t ∈ S', t.raises = false ∧ ¬ t.Raising) ∧
      300 ≤ (rawSend gzip (scripts s.request) s.request).exchange.response.status ∧
      (rawSend gzip (scripts s.request) s.request).exchange.response.status < 500 ∧
      (rawSend gzip (scripts s.request) s.request).exchange.response.status ≠ 407 ∧
      (rawSend gzip (scripts s.request) s.request).exchange.response.status ≠ 409

/-- A format error met while the last status line was informational. -/
def RawExchange.StoppedInformational (x : RawExchange) : Prop :=
  (x.err = some .protocol ∨ x.err = some .headerLimit) ∧ x.Informational

instance (x : RawExchange) : Decidable x.StoppedInformational :=
  inferInstanceAs (Decidable (_ ∧ _))

/-- Over HTTP/1.1 a rejection is reported only on proof, in every run in which no response stops
in an informational head. -/
theorem Operation.rejected_on_proof (o : Operation Schema Data Payload) (w : World)
    (gzip : H1.GzipReader) (scripts : AttemptRequest → RawScript)
    (hi : ∀ s ∈ o.settled (w.overRaw gzip scripts),
      ¬ (rawSend gzip (scripts s.request) s.request).exchange.StoppedInformational) :
    RejectedOnProof gzip scripts (o.settled (w.overRaw gzip scripts))
      (o.error (w.overRaw gzip scripts)) := by
  intro e he hd
  have hrep := o.reported _ he
  rw [hd] at hrep
  obtain ⟨S, s, r, hS, hc, hf, hr, hv, hcode, hacc, h407⟩ := hrep.rejected
  have hmem : s ∈ o.settled (w.overRaw gzip scripts) := by
    rw [hS]
    simp
  obtain ⟨r', hr', rfl⟩ := ((o.trail _).source s hmem).rawResponse hr
  have hrange := validAttemptResponseShape_status hv
  rw [snapshotAttemptResponse_status] at hacc h407 hrange
  rw [snapshotAttemptResponse_attemptFailureCode] at hcode
  have hna := mt responseMayHaveBeenAccepted_iff.2 (by rw [hacc]; decide)
  obtain ⟨hst, hfin⟩ := (rawSend_ends gzip (scripts s.request) s.request).status hr' hcode
    (by omega)
  have hfinal : 200 ≤ (rawSend gzip (scripts s.request) s.request).exchange.response.status := by
    rcases hfin with h | h
    · exact h
    · by_contra hlt
      exact hi s hmem ⟨h, by omega, by omega⟩
  exact ⟨S, s, hS, not_raising_of_floor hc hf, by omega, by omega, by omega, by omega⟩

namespace Sample

def noGzip : H1.GzipReader := fun _ => none

/-- A call over a fresh connection on which the server sends the given bytes and then closes. -/
def script (incoming : Bytes) : RawScript where
  endpoint := some { authority := lit "api.repost.sh", target := lit "/v1/messages" }
  acquire := .ok (false, { incoming := incoming, ending := { eof := true } })

/-- A calm world with the built-in transport, every attempt following one script. -/
def rawWorld (s : RawScript) : World :=
  (world (failure .io false) (failure .io false)).overRaw noGzip (fun _ => s)

def notFound : Bytes := lit "HTTP/1.1 404 Not Found\r\ncontent-length: 0\r\n\r\n"

def switching : Bytes := lit "HTTP/1.1 101 Switching Protocols\r\n\r\n"

end Sample

theorem Sample.not_found_rejected :
    RejectedOnProof Sample.noGzip (fun _ => Sample.script Sample.notFound)
        (Sample.operation.settled (Sample.rawWorld (Sample.script Sample.notFound)))
        (Sample.operation.error (Sample.rawWorld (Sample.script Sample.notFound))) ∧
      ∃ e, Sample.operation.error (Sample.rawWorld (Sample.script Sample.notFound)) = some e ∧
        e.deliveryState = .rejected := by
  obtain ⟨e, he, hd⟩ : ∃ e ∈ Sample.operation.error
      (Sample.rawWorld (Sample.script Sample.notFound)), e.deliveryState = .rejected := by
    decide +kernel
  exact ⟨Sample.operation.rejected_on_proof _ _ _ (by decide +kernel), e, he, hd⟩

/-- A switch of protocols is refused by the reader and then reported as a rejection, although no
final response was received. -/
theorem Sample.switching_rejected :
    ¬ RejectedOnProof Sample.noGzip (fun _ => Sample.script Sample.switching)
      (Sample.operation.settled (Sample.rawWorld (Sample.script Sample.switching)))
      (Sample.operation.error (Sample.rawWorld (Sample.script Sample.switching))) := by
  intro h
  obtain ⟨e, he, hd⟩ : ∃ e ∈ Sample.operation.error
      (Sample.rawWorld (Sample.script Sample.switching)), e.deliveryState = .rejected := by
    decide +kernel
  obtain ⟨S, s, hS, -, hst, -⟩ := h e he hd
  have hall : ∀ s ∈ Sample.operation.settled (Sample.rawWorld (Sample.script Sample.switching)),
      (rawSend Sample.noGzip (Sample.script Sample.switching) s.request).exchange.response.status =
        101 := by
    decide +kernel
  rw [hall s (by rw [hS]; simp)] at hst
  exact absurd hst (by decide)

end Repost
