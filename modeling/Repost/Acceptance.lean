import Repost.Http1Framing
import Repost.JsonMembers
import Repost.RawDelivery
import Repost.ResponseFactory

namespace Repost
open GoText Traced
set_option autoImplicit true

theorem lookup_mem (h : StrictJson.lookup name members = some v) : (name, v) ∈ members := by
  obtain ⟨m, hm, rfl⟩ := Option.map_eq_some_iff.1 h
  have hname : m.1 = name := by simpa using List.find?_some hm
  have hmem := List.mem_of_find?_eq_some hm
  rw [← hname]
  exact List.mem_reverse.1 hmem

theorem stringField_mem (h : stringField members name = some text) :
    (name, .string text) ∈ members := by
  unfold stringField at h
  split at h
  · cases h
    exact lookup_mem ‹_›
  · cases h

/-- The four members of an accepted body, each of which is the only one of its name. -/
structure SendResult.In (result : SendResult) (body : Bytes) : Prop where
  members : ∃ members, StrictJson.parse body = .ok (.object members) ∧
    (members.map Prod.fst).Nodup ∧
    (lit "id", .string result.id) ∈ members ∧
    (lit "type", .string result.type) ∈ members ∧
    (lit "customerId", .string result.customerID) ∈ members ∧
    (lit "timestamp", .string result.timestamp) ∈ members

theorem decodeSendResult_ok (h : decodeSendResult body = .ok result) : result.In body := by
  unfold decodeSendResult at h
  split at h
  · cases h
  · rename_i members hp
    split at h
    · rename_i id type customerID timestamp hid htype hcustomer htime
      cases h
      exact ⟨members, hp, StrictJson.parse_object_nodup hp, stringField_mem hid,
        stringField_mem htype, stringField_mem hcustomer, stringField_mem htime⟩
    · cases h
  · cases h

theorem parse_ok_length (h : StrictJson.parse body = .ok v) : body.length ≤ maxPayloadBytes := by
  unfold StrictJson.parse at h
  split at h
  · cases h
  · rename_i hl
    exact Nat.le_of_not_lt hl

/-- An identifier that matches `msg_[A-Za-z0-9_-]{1,124}`. -/
def MessageID (id : Bytes) : Prop :=
  ∃ tail, id = lit "msg_" ++ tail ∧ 1 ≤ tail.length ∧ tail.length ≤ 124 ∧
    ∀ b ∈ tail, isDigit b ∨ isLetter b ∨ b = 0x5F ∨ b = 0x2D

theorem messageIDPattern_spec {id : Bytes} (h : messageIDPattern id = true) : MessageID id := by
  simp only [messageIDPattern, Bool.and_eq_true, decide_eq_true_eq, List.all_eq_true,
    Bool.or_eq_true, beq_iff_eq] at h
  obtain ⟨⟨⟨hp, hlo⟩, hhi⟩, hall⟩ := h
  refine ⟨id.drop 4, ?_, hlo, hhi, ?_⟩
  · rw [← hp, List.take_append_drop]
  · intro b hb
    simpa only [or_assoc] using hall b hb

theorem validJSONContentType_single (h : validJSONContentType headers = true) :
    ∃ value, headerValues headers (lit "content-type") = [value] := by
  unfold validJSONContentType at h
  split at h
  · exact ⟨_, ‹_›⟩
  · cases h

structure AttemptResponse.Valid (type customerID timestamp : Bytes) (result : SendResult)
    (r : AttemptResponse) : Prop where
  status : 200 ≤ r.status ∧ r.status < 300
  inTime : r.attemptFailureCode = none
  unflagged : r.limitViolation = false ∧ r.protocolViolation = false
  limits : r.normalized = false → responseExceedsLimits r = false
  whole : r.incomplete = false → r.truncated = false
  contentType : validJSONContentType r.fields = true
  nonempty : r.bytes ≠ []
  decoded : decodeSendResult r.bytes = .ok result
  id : messageIDPattern result.id = true
  envelope : result.type = type ∧ result.customerID = customerID ∧ result.timestamp = timestamp

theorem validateAttemptResponse_ok
    (h : validateAttemptResponse r type customerID timestamp = .ok result) :
    r.Valid type customerID timestamp result := by
  unfold validateAttemptResponse at h
  dsimp only at h
  split at h
  · cases h
  · rename_i hcode
    split at h
    · cases h
    · rename_i hstatus
      split at h
      · cases h
      · rename_i hlimit
        split at h
        · cases h
        · rename_i hprotocol
          split at h
          · cases h
          · rename_i htrunc
            split at h
            · cases h
            · rename_i hbody
              split at h
              · cases h
              · cases h
              · rename_i hdec
                split at h
                · cases h
                · rename_i hmatch
                  cases h
                  simp only [Bool.or_eq_true, Bool.and_eq_true, Bool.not_eq_true',
                    decide_eq_true_eq, not_or, not_and, not_not, Bool.not_eq_true,
                    Bool.not_eq_false, ne_eq] at hstatus hlimit hprotocol htrunc hbody hmatch
                  refine ⟨⟨by omega, by omega⟩, hcode, ⟨hlimit.1, hprotocol⟩, ?_, ?_, hbody.1.1,
                    hbody.1.2, hdec, hmatch.1.1.1, hmatch.1.1.2, hmatch.1.2, hmatch.2⟩
                  · intro hn
                    exact hlimit.2 ⟨hn, hprotocol⟩
                  · intro hi
                    cases ht : r.truncated with
                    | false => rfl
                    | true => rw [htrunc ht] at hi; cases hi

theorem snapshotAttemptResponse_unflagged
    (hl : (snapshotAttemptResponse r).limitViolation = false)
    (hp : (snapshotAttemptResponse r).protocolViolation = false) :
    snapshotAttemptResponse r = r ∧
      ∀ headers, r.headers = some headers → validateResponseHeaders headers = true := by
  have hs : snapshotAttemptResponse r = snapshotHeaders r := by
    unfold snapshotAttemptResponse at hl hp ⊢
    dsimp only at hl hp ⊢
    split
    · rename_i hc
      rw [if_pos hc] at hl hp
      split at hp
      · cases hp
      · rename_i he
        rw [if_neg he] at hl
        cases hl
    · rfl
  rw [hs] at hl hp ⊢
  unfold snapshotHeaders at hl hp ⊢
  cases hh : r.headers with
  | none => exact ⟨rfl, fun _ h => (nomatch h)⟩
  | some headers =>
    simp only [hh] at hl hp ⊢
    cases hv : validateResponseHeaders headers with
    | true =>
      refine ⟨if_pos rfl, ?_⟩
      rintro _ ⟨⟩
      exact hv
    | false =>
      simp only [hv] at hl hp
      rcases markResponseHeaderViolation_flagged r (headerCounts headers).1 (headerCounts headers).2
        with h | h
      · exact absurd (hl.symm.trans h) Bool.false_ne_true
      · exact absurd (hp.symm.trans h) Bool.false_ne_true

/-- A response that may be taken for the acceptance of what an operation prepared. -/
structure AttemptResponse.Genuine (p : Prepared) (result : SendResult) (r : AttemptResponse) :
    Prop extends r.Valid p.eventType p.customerID p.timestamp result where
  headers : ∃ headers, r.headers = some headers ∧ validateResponseHeaders headers = true
  size : r.bytes.length ≤ maxPayloadBytes
  single : ∃ value, headerValues r.fields (lit "content-type") = [value]
  body : result.In r.bytes
  messageID : MessageID result.id

theorem validAttemptResponseShape_headers (h : validAttemptResponseShape r = true) :
    ∃ headers, r.headers = some headers := by
  simp only [validAttemptResponseShape, Bool.and_eq_true, Bool.not_eq_true',
    Bool.or_eq_false_iff] at h
  exact Option.isSome_iff_exists.1 (Option.isSome_iff_ne_none.2 (by
    intro hn
    rw [hn] at h
    exact absurd h.1.1.1.1.1.2 (by decide)))

theorem Settled.Accepts.genuine {s : Settled} (ha : s.Accepts p result) (hs : s.From w) :
    ∃ r, (w.transport s.request).outcome.response = some r ∧ r.Genuine p result := by
  obtain ⟨r, hr, hshape, hv⟩ := ha.response
  obtain ⟨hret, he⟩ := hs.inTime ha.completed
  rw [he, hs.handed, hret] at hr
  obtain ⟨r', hr', rfl⟩ := Option.map_eq_some_iff.1 hr
  have hval := validateAttemptResponse_ok hv
  obtain ⟨hsame, hheaders⟩ := snapshotAttemptResponse_unflagged hval.unflagged.1 hval.unflagged.2
  rw [hsame] at hval hshape
  obtain ⟨headers, hh⟩ := validAttemptResponseShape_headers hshape
  have hin := decodeSendResult_ok hval.decoded
  obtain ⟨members, hparse, -⟩ := hin.members
  exact ⟨r', hr',
    { hval with
      headers := ⟨headers, hh, hheaders headers hh⟩
      size := parse_ok_length hparse
      single := validJSONContentType_single hval.contentType
      body := hin
      messageID := messageIDPattern_spec hval.id }⟩

/-- The response of an exchange whose bytes came from one connection. -/
def AttemptResponse.ReadFrom (gzip : H1.GzipReader) (connection : RawH1Connection)
    (r : AttemptResponse) : Prop :=
  ∃ ctx wire wall committed,
    (mapH1Exchange ctx
      { exchangeH1 gzip connection wire wall with committed := committed }).response = some r

/-- The bytes of a connection held a complete response, and this is what it said. -/
def RawH1Connection.Delivers (gzip : H1.GzipReader) (connection : RawH1Connection)
    (r : AttemptResponse) : Prop :=
  ∃ head wire response,
    (H1.readResponse gzip connection.ending (connection.buffered ++ connection.incoming)).final =
      some head ∧
    head.Delivers gzip response wire ∧ r.status = response.status ∧
    r.headers = some response.headers ∧ r.body = some response.body ∧
    r.compressedBytes = response.compressedBytes ∧
    r.decompressedBytes = response.decompressedBytes ∧ r.truncated = false

theorem exchangeH1_error_body (h : (exchangeH1 gzip connection wire wall).err ≠ none) :
    (exchangeH1 gzip connection wire wall).response.body = [] := by
  rcases exchangeH1_cases gzip connection wire wall with ⟨e, c, hx⟩ | ⟨hr, he⟩
  · rw [hx]
  · rw [hr]
    rw [he] at h
    exact H1.readResponse_error_body h

theorem mapH1Exchange_clean (h : (mapH1Exchange ctx x).response = some r)
    (hb : x.err ≠ none → x.response.body = []) (hl : r.limitViolation = false)
    (hp : r.protocolViolation = false) (hc : r.attemptFailureCode = none) (hn : r.bytes ≠ []) :
    x.err = none ∧ r = h1Response x.response x.headerSnapshot := by
  have hempty : ∀ body snapshot, body = [] →
      (h1Response { x.response with body := body } snapshot).bytes = [] := by
    intro body snapshot he
    subst he
    exact ite_self _
  unfold mapH1Exchange at h
  cases he : x.err with
  | none =>
    rw [he] at h
    cases h
    exact ⟨rfl, rfl⟩
  | some err =>
    have hbody := hb (by rw [he]; exact Option.some_ne_none _)
    rw [he] at h
    cases err with
    | bodyTooLarge =>
      cases h
      unfold markBodyLimitViolation at hl hp
      split at hp
      · cases hp
      · rename_i hg
        rw [if_neg hg] at hl
        cases hl
    | expansionRatio =>
      cases h
      cases hp
    | protocol =>
      cases h
      cases hp
    | headerLimit =>
      cases h
      cases hl
    | incompleteBody =>
      cases h
      exact absurd (hempty x.response.body x.headerSnapshot hbody) hn
    | io e =>
      dsimp only at h
      split at h
      · cases h
        cases hc
      · cases h

theorem AttemptResponse.Genuine.delivered {r : AttemptResponse} (h : r.Genuine p result)
    (hr : r.ReadFrom gzip connection) : connection.Delivers gzip r := by
  obtain ⟨ctx, wire, wall, committed, hm⟩ := hr
  obtain ⟨he, rfl⟩ := mapH1Exchange_clean hm exchangeH1_error_body h.unflagged.1 h.unflagged.2
    h.inTime h.nonempty
  dsimp only at he h
  rcases exchangeH1_cases gzip connection wire wall with ⟨e, c, hx⟩ | ⟨hresp, herr⟩
  · rw [hx] at he
    cases he
  · rw [herr] at he
    have hb : (exchangeH1 gzip connection wire wall).response.body ≠ [] := by
      intro hb
      refine h.nonempty ?_
      simp only [AttemptResponse.bytes, h1Response, hb, ite_self, Option.getD_some]
    rw [hresp] at hb
    obtain ⟨head, body, hfinal, hd⟩ := H1.readResponse_ok he hb
    have hparsable : unparsable (exchangeH1 gzip connection wire wall).response.status = false := by
      rcases H1.readResponse_cases gzip connection.ending
        (connection.buffered ++ connection.incoming) with ⟨hnone, -⟩ | ⟨head', -, hs, hlo, hhi⟩
      · rw [hfinal] at hnone
        cases hnone
      · rw [hresp, hs]
        simp only [unparsable, Bool.or_eq_false_iff, decide_eq_false_iff_not]
        omega
    rw [← hresp] at hd
    refine ⟨head, body, _, hfinal, hd, ?_, rfl, ?_, rfl, rfl, hd.untruncated⟩
    · simp only [h1Response, wireStatus, hparsable, Bool.false_eq_true, if_false]
    · simp only [h1Response, hparsable, Bool.false_eq_true, if_false]

/-- A genuine response that is complete and within the limits by its own counts. -/
structure AttemptResponse.Acceptable (p : Prepared) (result : SendResult) (r : AttemptResponse) :
    Prop extends r.Genuine p result where
  complete : r.incomplete = false ∧ r.truncated = false
  bounded : responseExceedsLimits r = false

/-- Validation passes over truncation where a response is marked as incomplete, and over the limits
where `NewAttemptResponse` has checked them. -/
def AttemptResponse.Checked (r : AttemptResponse) : Prop :=
  r.incomplete = false ∧ (r.normalized = true → responseExceedsLimits r = false)

theorem AttemptResponse.Genuine.acceptable {r : AttemptResponse} (h : r.Genuine p result)
    (hc : r.Checked) : r.Acceptable p result := by
  obtain ⟨hwhole, hlimits⟩ := hc
  refine { h with complete := ⟨hwhole, h.whole hwhole⟩, bounded := ?_ }
  cases hn : r.normalized with
  | false => exact h.limits hn
  | true => exact hlimits hn

/-- A result is returned only on a last response that is acceptable as the transport handed it
over; read from an HTTP/1.1 connection, it was complete there. -/
def Operation.NoFalseAcceptance (o : Operation Schema Data Payload) (w : World) : Prop :=
  ∀ sent, o.result w = .ok sent →
    ∃ p S s r, p.Of w o.codec o.schema o.group o.member o.input ∧ o.settled w = S ++ [s] ∧
      s.request.body = p.body ∧ (w.transport s.request).outcome.response = some r ∧
      r.Acceptable p sent ∧
      ∀ gzip connection, r.ReadFrom gzip connection → connection.Delivers gzip r

/-- What the transport answered last, where a result is returned, is checked. -/
def Operation.AnswerChecked (o : Operation Schema Data Payload) (w : World) : Prop :=
  ∀ sent S s r, o.result w = .ok sent → o.settled w = S ++ [s] →
    (w.transport s.request).outcome.response = some r → r.Checked

theorem Operation.noFalseAcceptance_iff (o : Operation Schema Data Payload) (w : World) :
    o.NoFalseAcceptance w ↔ o.AnswerChecked w := by
  constructor
  · intro h sent S s r hsent hS hr
    obtain ⟨p, S', s', r', -, hS', -, hr', ha, -⟩ := h sent hsent
    obtain ⟨-, hs⟩ := List.append_inj' (hS.symm.trans hS') rfl
    cases hs
    cases hr.symm.trans hr'
    exact ⟨ha.complete.1, fun _ => ha.bounded⟩
  · intro h sent hsent
    obtain ⟨p, hp, S, s, hS, hs, ha⟩ := o.accepted w hsent
    obtain ⟨r, hr, hg⟩ := ha.genuine hs
    exact ⟨p, S, s, r, hp, hS, ha.body, hr, hg.acceptable (h sent S s r hsent hS hr),
      fun _ _ hc => hg.delivered hc⟩

theorem rawSend_readFrom (h : (rawSend gzip script request).outcome.response = some r) :
    ∃ connection, r.ReadFrom gzip connection := by
  obtain ⟨connection, wire, hx, ho⟩ := (rawSend_ends gzip script request).response h
  rw [ho, hx] at h
  exact ⟨connection, _, _, _, _, h⟩

theorem AttemptResponse.Genuine.checked {r : AttemptResponse} (h : r.Genuine p result)
    (hr : r.ReadFrom gzip connection) : r.Checked := by
  obtain ⟨ctx, wire, wall, committed, hm⟩ := hr
  obtain ⟨-, rfl⟩ := mapH1Exchange_clean hm exchangeH1_error_body h.unflagged.1 h.unflagged.2
    h.inTime h.nonempty
  exact ⟨rfl, fun hn => absurd hn Bool.false_ne_true⟩

theorem Operation.rawAnswer_checked (o : Operation Schema Data Payload) (w : World)
    (gzip : H1.GzipReader) (scripts : AttemptRequest → RawScript) :
    o.AnswerChecked (w.overRaw gzip scripts) := by
  intro sent S s r hsent hS hr
  obtain ⟨p, -, S', s', hS', hs, ha⟩ := o.accepted _ hsent
  obtain ⟨-, he⟩ := List.append_inj' (hS.symm.trans hS') rfl
  cases he
  obtain ⟨r', hr', hg⟩ := ha.genuine hs
  cases hr.symm.trans hr'
  obtain ⟨connection, hc⟩ := rawSend_readFrom hr
  exact hg.checked hc

/-- There is no false acceptance over HTTP/1.1, and over any transport exactly where the last
response is checked. -/
theorem Operation.no_false_acceptance (o : Operation Schema Data Payload) (w : World) :
    (o.NoFalseAcceptance w ↔ o.AnswerChecked w) ∧
      ∀ gzip scripts, o.NoFalseAcceptance (w.overRaw gzip scripts) :=
  ⟨o.noFalseAcceptance_iff w, fun gzip scripts =>
    (o.noFalseAcceptance_iff _).2 (o.rawAnswer_checked w gzip scripts)⟩

namespace Sample

/-- The answer of a server that accepts the sample operation, in two chunks. -/
def accepting : Bytes :=
  lit "HTTP/1.1 100 Continue\r\n\r\nHTTP/1.1 202 Accepted\r\ntransfer-encoding: chunked\r\n" ++
    lit "content-type: application/json\r\n\r\n" ++
    lit "17;first\r\n\x7b\"id\":\"msg_1\",\"type\":\"o\r\n" ++
    lit "46\r\nrder.created\",\"customerId\":\"cus_1\",\"timestamp\":" ++
    lit "\"2026-01-01T00:00:00Z\"\x7d\r\n0\r\n\r\n"

def receipt : SendResult where
  id := lit "msg_1"
  type := lit "order.created"
  customerID := lit "cus_1"
  timestamp := lit "2026-01-01T00:00:00Z"

end Sample

/-- A response built within the limits, whose transport then wrote another count into it. -/
def Sample.recounted : TransportCall where
  outcome :=
    { response := (newAttemptResponse (fun _ _ => none) none 202 acceptance.headers acceptance.body
        none).map fun r => { r with decompressedBytes := 2 ^ 40 } }

theorem Sample.recounted_accepted :
    ¬ Sample.operation.NoFalseAcceptance (Sample.world Sample.recounted Sample.recounted) := by
  intro h
  have hresult : Sample.operation.result (Sample.world Sample.recounted Sample.recounted) =
      .ok Sample.receipt := by
    decide +kernel
  have hcount : Sample.recounted.outcome.response.all responseExceedsLimits = true := by
    decide +kernel
  obtain ⟨p, S, s, r, -, -, -, hr, ha, -⟩ := h _ hresult
  simp only [Sample.world, ite_self] at hr
  rw [hr, Option.all_some, ha.bounded] at hcount
  cases hcount

end Repost
