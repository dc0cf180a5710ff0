import Repost.SessionAnswers
import Repost.StreamFollowing

namespace Repost.H2
open GoText Runs
set_option autoImplicit true

section
variable {gunzip : GunzipLimited} {id : Nat} {start : Shared} {before : List Incoming}
  {s s' : Session}

theorem Session.Moves.up (h : s.Moves gunzip a s') (hup : s'.shared.Up) : s.shared.Up := by
  refine ⟨h.live hup.1, ?_⟩
  cases h with
  | start block body => exact hup.2
  | cancel i cause hi hctx => exact hup.2
  | call i choice hi hm => exact hm.settles.goAway.symm.trans hup.2
  | writer choice hw =>
    cases hw with
    | shut e hw => exact absurd hup.1 (Shared.shutdown_ne_none s.shared e)
    | _ => exact hup.2
  | receive frame hr => exact hup.2
  | reader choice hr hread =>
    rw [readerStep_perform hread] at hup
    exact (Shared.perform_up gunzip _ hup).2
  | close => exact absurd hup.1 (Shared.shutdown_ne_none s.shared _)

theorem Session.Following.step (h : s.Following gunzip id start before)
    (hlet : Session.Lets id s a) (hm : s.Moves gunzip a s') (hup : s'.shared.Up) :
    s'.Following gunzip id start before := by
  cases hm with
  | start block body | cancel i cause hi hctx => exact h.spare (.refl ..) rfl rfl
  | call i choice hi hm =>
    exact h.spare (hm.spares hi hlet) hm.beside.reader hm.beside.received
  | writer choice hw =>
    cases hw with
    | shut e hw => exact absurd hup.1 (Shared.shutdown_ne_none s.shared e)
    | _ => exact h.spare (.refl ..) rfl rfl
  | receive frame hr => exact h.receive hr frame
  | reader choice hr hread => exact h.read hr hread hup
  | close => exact absurd hup.1 (Shared.shutdown_ne_none s.shared _)

theorem Session.Following.steps (hs : (session gunzip).Steps (Session.Lets id) s s')
    (hup : s'.shared.Up) (h : s.Following gunzip id start before) :
    s'.Following gunzip id start before := by
  induction hs with
  | refl => exact h
  | tail _ hlet hstep ih =>
    have hm := sessionStep_moves hstep
    exact (ih (hm.up hup)).step hlet hm hup

end

def Incoming.payload : Incoming → Bytes
  | .data _ payload _ _ => payload
  | _ => []

def Incoming.endsStream : Incoming → Bool
  | .headers frame => frame.streamEnded
  | .data _ _ _ streamEnded => streamEnded
  | _ => false

def payloads (frames : List Incoming) : Bytes := (frames.map Incoming.payload).flatten

theorem payloads_snoc (frames : List Incoming) (frame : Incoming) :
    payloads (frames ++ [frame]) = payloads frames ++ frame.payload := by
  simp [payloads]

/-- A response that the frames of its stream carry: those up to the one that ends the stream hold
its header block and, as their payloads, the body of the declared length. -/
structure Delivered (gunzip : GunzipLimited) (frames : List Incoming) (r : Response) : Prop where
  carried : ∃ through later head held expected, frames = through ++ later ∧
    (through.getLast?.any Incoming.endsStream = true) ∧ Incoming.headers head ∈ through ∧
    decodeResponseHeaders head = .ok (held, expected) ∧ 200 ≤ held.status ∧
    (payloads through).length ≤ Limits.bodyBytes ∧
    (∀ length, expected = some length → (payloads through).length = length) ∧
    finalizeResponse gunzip { held with body := payloads through } = .ok r

inductive Received (gunzip : GunzipLimited) (id : Nat) (frames : List Incoming) (s : Shared) :
    Prop where
  | waiting (st : Stream) (ho : s.Open id st) (hh : st.headersReceived = false)
      (hp : payloads frames = [])
  | filling (st : Stream) (head : MetaHeaders) (held : Response) (ho : s.Open id st)
      (hh : st.headersReceived = true) (hm : Incoming.headers head ∈ frames)
      (hd : decodeResponseHeaders head = .ok (held, st.expectedLength))
      (hs : 200 ≤ held.status) (hr : st.response = { held with body := payloads frames })
      (hl : (payloads frames).length ≤ Limits.bodyBytes)
  | settled (st : Stream) (hd : s.Done id st)
      (hr : st.err = none → Delivered gunzip frames st.response)

theorem decodeResponseHeaders_body (h : decodeResponseHeaders frame = .ok (r, expected)) :
    r.body = [] := by
  unfold decodeResponseHeaders at h
  split at h
  · cases h
  · split at h
    · cases h
    · split at h
      · cases h
      · split at h
        · cases h
        · cases h
          rfl

theorem Delivered.more (h : Delivered gunzip frames r) (frame : Incoming) :
    Delivered gunzip (frames ++ [frame]) r := by
  obtain ⟨through, later, head, held, expected, hf, hrest⟩ := h.carried
  refine ⟨through, later ++ [frame], head, held, expected, ?_, hrest⟩
  rw [hf, List.append_assoc]

section
variable {gunzip : GunzipLimited} {id : Nat} {frames : List Incoming} {s : Shared} {st : Stream}

theorem Received.refused (ho : s.Open id st) (e : SessionError) :
    Received gunzip id frames (s.finishStream id {} (some e)) :=
  .settled _ (ho.finish {} (some e)) nofun

theorem Received.rejected (ho : s.Open id st) (e : SessionError) :
    Received gunzip id frames (s.perform gunzip (rejectOp id e)).1 :=
  .refused ho e

theorem Received.finished {held : Response} (ho : s.Open id st)
    (hr : ∀ r, finalizeResponse gunzip held = .ok r → Delivered gunzip frames r) :
    Received gunzip id frames (s.perform gunzip (finishOp gunzip id held)).1 := by
  rw [Shared.perform_finishOp]
  refine .settled _ (ho.finish _ _) ?_
  unfold finalized
  cases hf : finalizeResponse gunzip held with
  | ok r => exact fun _ => hr r hf
  | error e =>
    intro h
    cases h

theorem Received.done (hd : s.Done id st) (hr : st.err = none → Delivered gunzip frames st.response)
    (frame : Incoming) (hf : frame.target = some id) :
    Received gunzip id (frames ++ [frame]) (s.receive gunzip frame) := by
  have hsettled : s.settlement id = some (st.response, st.err) := by
    rw [Shared.settlement, hd.object]
    exact if_pos hd.finished
  have hafter : (s.receive gunzip frame).settlement id = some (st.response, st.err) := by
    rw [Shared.receive_own gunzip s hf]
    exact Shared.settlement_settle gunzip _
      (fun op hm => ReaderOp.ownedBy_iff.1 (List.mem_filter.1 hm).2) hsettled
  obtain ⟨st', hs', hst'⟩ := Option.bind_eq_some_iff.1 hafter
  unfold Stream.settlement at hst'
  split at hst'
  · rename_i hfinished
    obtain ⟨hresponse, herr⟩ := Prod.mk.inj (Option.some.inj hst')
    rw [← hresponse, ← herr] at hr
    exact .settled st' ⟨hs', hfinished⟩ fun he => (hr he).more frame
  · cases hst'

variable {frame : MetaHeaders}

theorem receive_headers_error (gunzip : GunzipLimited) (s : Shared)
    (hd : decodeResponseHeaders frame = .error e) :
    s.receive gunzip (.headers frame) = s.finishStream frame.streamID {} (some e) := by
  unfold Shared.receive
  rw [Incoming.ops, hd]
  rfl

theorem payloads_headers (frames : List Incoming) (frame : MetaHeaders) :
    payloads (frames ++ [.headers frame]) = payloads frames := by
  rw [payloads_snoc]
  exact List.append_nil _

theorem Received.answered {held : Response} {expected : Option Nat}
    (ho : s.Open frame.streamID st) (hp : payloads frames = [])
    (hd : decodeResponseHeaders frame = .ok (held, expected)) (hs : 200 ≤ held.status) :
    Received gunzip frame.streamID (frames ++ [.headers frame])
      ((ReaderOp.observe frame.streamID held.status held.headers ::
          if frame.streamEnded && expected.any (· != 0) then
            [rejectOp frame.streamID .responseProtocol]
          else if frame.streamEnded then [finishOp gunzip frame.streamID held]
          else []).foldl (fun s op => (s.perform gunzip op).1)
        (s.updateStream frame.streamID fun st =>
          { st with headersReceived := true, response := held, expectedLength := expected })) := by
  have hbody := decodeResponseHeaders_body hd
  have hpayloads := (payloads_headers frames frame).trans hp
  have hmem : Incoming.headers frame ∈ frames ++ [.headers frame] :=
    List.mem_append_right _ (List.mem_singleton.2 rfl)
  have hheld : held = { held with body := payloads (frames ++ [.headers frame]) } := by
    rw [hpayloads, ← hbody]
  have hupdated := ho.update (fun st =>
    { st with headersReceived := true, response := held, expectedLength := expected })
    (fun _ => rfl) fun _ => rfl
  have hobserved := hupdated.update (fun st =>
    { st with observed := some (held.status, held.headers) }) (fun _ => rfl) fun _ => rfl
  split
  · exact .rejected hobserved _
  · rename_i hlength
    split
    · rename_i hended
      refine .finished hobserved fun r hr => ⟨_, [], frame, held, expected,
        (List.append_nil _).symm, ?_, hmem, hd, hs, ?_, ?_, ?_⟩
      · rw [List.getLast?_concat]
        exact hended
      · rw [hpayloads]
        exact Nat.zero_le _
      · rintro length rfl
        rw [hpayloads]
        simp only [hended, Option.any_some, Bool.true_and, bne_iff_ne, ne_eq, not_not] at hlength
        exact hlength.symm
      · rw [← hheld]
        exact hr
    · refine .filling _ frame held hobserved rfl hmem hd hs hheld ?_
      rw [hpayloads]
      exact Nat.zero_le _

theorem Received.headers (h : Received gunzip id frames s)
    (hf : frame.streamID = id) :
    Received gunzip id (frames ++ [.headers frame]) (s.receive gunzip (.headers frame)) := by
  subst hf
  have hpayloads := payloads_headers frames frame
  cases hd : decodeResponseHeaders frame with
  | error e =>
    cases h with
    | settled st hdone hr => exact .done hdone hr (.headers frame) rfl
    | waiting st ho hh hp | filling st head held ho hh hm hdec hs hr hl =>
      rw [receive_headers_error gunzip s hd]
      exact .refused ho e
  | ok decoded =>
    obtain ⟨held, expected⟩ := decoded
    have hparsed := decodeResponseHeaders_parsed hd
    have hupdated := fun {st : Stream} (ho : s.Open frame.streamID st) => ho.update
      (fun st => { st with informational := st.informational + 1 }) (fun _ => rfl) fun _ => rfl
    cases h with
    | settled st hdone hr => exact .done hdone hr (.headers frame) rfl
    | waiting st ho hh hp =>
      rw [Shared.receive_headers gunzip s hd]
      unfold Shared.handleHeaders
      simp only [ho.lookup, ho.unfinished, hh, Bool.false_eq_true, if_false]
      split
      · dsimp only
        split
        · exact .rejected (hupdated ho) _
        · exact .waiting _ (hupdated ho) hh (hpayloads.trans hp)
      · rename_i hfinal
        simp only [Bool.and_eq_true, decide_eq_true_eq, not_and, not_lt] at hfinal
        exact .answered ho hp hd (hfinal hparsed.status_ge)
    | filling st head first ho hh hm hdec hs hr hl =>
      rw [Shared.receive_headers gunzip s hd]
      unfold Shared.handleHeaders
      simp only [ho.lookup, ho.unfinished, hh, Bool.false_eq_true, if_false, Bool.or_true,
        Bool.true_or, if_true]
      split
      · exact .rejected (hupdated ho) _
      · exact .rejected ho _

theorem Received.data (h : Received gunzip id frames s) (payload : Bytes) (padding : Nat)
    (ended : Bool) :
    Received gunzip id (frames ++ [.data id payload padding ended])
      (s.receive gunzip (.data id payload padding ended)) := by
  have hpayloads := payloads_snoc frames (.data id payload padding ended)
  by_cases hlarge : payload.length > 2 ^ 32 - 1
  · have hreceive : s.receive gunzip (.data id payload padding ended) =
        s.finishStream id {} (some .responseTooLarge) := by
      have hne : payload ≠ [] := by
        rintro rfl
        exact absurd hlarge (by decide)
      unfold Shared.receive
      rw [Incoming.ops, if_neg hne, if_pos hlarge]
      rfl
    cases h with
    | settled st hdone hr => exact .done hdone hr (.data id payload padding ended) rfl
    | waiting st ho hh hp | filling st head held ho hh hm hdec hs hr hl =>
      rw [hreceive]
      exact .refused ho _
  · cases h with
    | settled st hdone hr => exact .done hdone hr (.data id payload padding ended) rfl
    | waiting st ho hh hp =>
      rw [Shared.receive_chunk gunzip s id padding ended hlarge]
      unfold Shared.handleData
      simp only [ho.lookup, ho.unfinished, hh, Bool.false_eq_true, if_false, Bool.not_false,
        if_true]
      exact .rejected ho _
    | filling st head held ho hh hm hdec hs hr hl =>
      rw [Shared.receive_chunk gunzip s id padding ended hlarge]
      unfold Shared.handleData
      simp only [ho.lookup, ho.unfinished, hh, Bool.false_eq_true, if_false, Bool.not_true]
      have hm' := List.mem_append_left [.data id payload padding ended] hm
      have hupdated := ho.update (fun st => { st with
        response := { held with body := payloads (frames ++ [.data id payload padding ended]) } })
        (fun _ => rfl) fun _ => rfl
      have hresponse : { st.response with body := st.response.body ++ payload } =
          { held with body := payloads (frames ++ [.data id payload padding ended]) } := by
        rw [hr, hpayloads]
        rfl
      have hlength : st.response.body.length + payload.length =
          (payloads (frames ++ [.data id payload padding ended])).length := by
        rw [hr, hpayloads, List.length_append]
        rfl
      rw [hlength]
      split
      · exact .rejected ho _
      · rename_i hfits
        simp only [hresponse]
        split
        · exact .rejected hupdated _
        · rename_i hexceeds
          split
          · rename_i hended
            split
            · exact .rejected hupdated _
            · rename_i hexact
              refine .finished hupdated fun r hfinal => ⟨_, [], head, held, st.expectedLength,
                (List.append_nil _).symm, ?_, hm', hdec, hs, Nat.le_of_not_gt hfits, ?_, hfinal⟩
              · rw [List.getLast?_concat]
                exact hended
              · intro length hexpected
                rw [hexpected, Option.any_some, bne_iff_ne, ne_eq, not_not,
                  List.length_append, hlength] at hexact
                exact hexact
          · exact .filling _ head held hupdated hh hm' hdec hs rfl (Nat.le_of_not_gt hfits)

theorem Received.rstStream (h : Received gunzip id frames s) (code : Nat) :
    Received gunzip id (frames ++ [.rstStream id code])
      (s.receive gunzip (.rstStream id code)) := by
  cases h with
  | settled st hdone hr => exact .done hdone hr (.rstStream id code) rfl
  | waiting st ho hh hp => exact .refused ho _
  | filling st head held ho hh hm hdec hs hr hl => exact .refused ho _

theorem Received.streamError (h : Received gunzip id frames s) (code : Nat) :
    Received gunzip id (frames ++ [.streamError id code])
      (s.receive gunzip (.streamError id code)) := by
  cases h with
  | settled st hdone hr => exact .done hdone hr (.streamError id code) rfl
  | waiting st ho hh hp => exact .refused ho _
  | filling st head held ho hh hm hdec hs hr hl => exact .refused ho _

theorem Received.receive (h : Received gunzip id frames s) (frame : Incoming)
    (hf : frame.target = some id) :
    Received gunzip id (frames ++ [frame]) (s.receive gunzip frame) := by
  cases frame with
  | headers frame => exact h.headers (Option.some.inj hf)
  | data n payload padding ended =>
    cases hf
    exact h.data payload padding ended
  | rstStream n code =>
    cases hf
    exact h.rstStream code
  | streamError n code =>
    cases hf
    exact h.streamError code
  | _ => cases hf

theorem Received.receiveAll (h : Received gunzip id frames s) (more : List Incoming)
    (hf : ∀ frame ∈ more, frame.target = some id) :
    Received gunzip id (frames ++ more) (s.receiveAll gunzip more) := by
  induction more generalizing frames s with
  | nil =>
    rw [List.append_nil]
    exact h
  | cons frame more ih =>
    have hnext := ih (h.receive frame (hf frame List.mem_cons_self))
      fun frame hm => hf frame (List.mem_cons_of_mem _ hm)
    rw [List.append_assoc] at hnext
    exact hnext

end

/-- In every run that leaves the session up, whatever else happens on it, a stream that is not
cancelled is settled with the response and the error that its own frames give it in a session of
its own. A response that a stream gets is the one its frames carry. -/
theorem streams_demultiplexed (gunzip : GunzipLimited) {id : Nat} {st : Stream} {s s' : Session}
    (hopen : s.shared.Open id st) (hidle : ∀ op ∈ s.reader, op.target ≠ some id)
    (hrun : (session gunzip).Steps (Session.Lets id) s s') (hup : s'.shared.Up) :
    ∃ frames, s'.received = s.received ++ frames ∧
      (∀ result, s'.shared.settlement id = some result →
        ((Shared.single st).receiveAll gunzip
          (frames.filter (Incoming.ownedBy id))).settlement id = some result) ∧
      ((∀ op ∈ s'.reader, op.target ≠ some id) →
        s'.shared.settlement id = ((Shared.single st).receiveAll gunzip
          (frames.filter (Incoming.ownedBy id))).settlement id) ∧
      (st.headersReceived = false → ∀ r, s'.shared.settlement id = some (r, none) →
        Delivered gunzip (frames.filter (Incoming.ownedBy id)) r) := by
  have hnone : ∀ {reader : List ReaderOp}, (∀ op ∈ reader, op.target ≠ some id) →
      reader.filter (ReaderOp.ownedBy id) = [] := fun hr =>
    List.filter_eq_nil_iff.2 fun op hm hown => hr op hm (ReaderOp.ownedBy_iff.1 hown)
  have hstart : s.Following gunzip id (Shared.single st) s.received := by
    refine ⟨?_, [], Shared.single st, (List.append_nil _).symm, .single hopen, ?_⟩
    · exact List.pairwise_of_forall_mem_list fun _ _ later hm _ => hidle later hm
    · rw [hnone hidle]
      rfl
  obtain ⟨-, frames, r, hframes, halike, hfold⟩ := hstart.steps hrun hup
  have hsettled : ∀ result, s'.shared.settlement id = some result →
      ((Shared.single st).receiveAll gunzip
        (frames.filter (Incoming.ownedBy id))).settlement id = some result := by
    intro result hresult
    rw [← hfold]
    refine Shared.settlement_settle gunzip _ ?_ (halike.settlement ▸ hresult)
    exact fun op hm => ReaderOp.ownedBy_iff.1 (List.mem_filter.1 hm).2
  refine ⟨frames, hframes, hsettled, ?_, ?_⟩
  · intro hquiet
    rw [hnone hquiet] at hfold
    rw [halike.settlement, ← hfold]
    rfl
  · intro hh r hr
    have hid := Shared.object_id hopen.object
    have hsingle : (Shared.single st).Open id st := by
      subst hid
      exact ⟨Shared.single_object st, List.mem_singleton.2 rfl, hopen.unfinished⟩
    have hfirst : Received gunzip id [] (Shared.single st) := .waiting st hsingle hh rfl
    have hreceived := hfirst.receiveAll (frames.filter (Incoming.ownedBy id))
      fun frame hm => beq_iff_eq.1 (List.mem_filter.1 hm).2
    have halone := hsettled _ hr
    generalize (Shared.single st).receiveAll gunzip _ = alone at hreceived halone
    cases hreceived with
    | waiting st' ho hh' hp | filling st' head held ho hh' hm hd hs hr' hl =>
      rw [Shared.settlement, ho.object, Option.bind_some, Stream.settlement, ho.unfinished] at halone
      cases halone
    | settled st' hd hdelivered =>
      rw [Shared.settlement, hd.object, Option.bind_some, Stream.settlement,
        if_pos hd.finished] at halone
      obtain ⟨hresponse, herr⟩ := Prod.mk.inj (Option.some.inj halone)
      rw [← hresponse]
      exact hdelivered herr

namespace Sample

/-- Two requests acquire streams 1 and 3. -/
def openingBoth : List Act := [.start [104] [], .start [104] [], .call 0 .go, .call 1 .go]

def okHeaders (id : Nat) : Incoming :=
  .headers { streamID := id, pseudos := [{ name := lit ":status", value := lit "200" }] }

def answering : List Act :=
  [.receive (okHeaders 3), .reader .go, .reader .go, .receive (okHeaders 1), .reader .go, .reader .go,
    .receive (.data 3 [7] 0 false), .reader .go, .reader .go,
    .receive (.data 1 [8] 2 true), .reader .go, .reader .go, .reader .go,
    .receive (.data 3 [9] 0 true), .reader .go, .reader .go, .reader .go]

end Sample

/-- The second stream gets both of its payloads and none of the first one's. -/
theorem answering_demultiplexed : ∃ s s' : Session,
    (session Sample.noGunzip).exec System.Any {} Sample.openingBoth = some s ∧
      (session Sample.noGunzip).exec (Session.Lets 3) s Sample.answering = some s' ∧
      ∃ frames r, s'.received = s.received ++ frames ∧
        s'.shared.settlement 3 = some (r, none) ∧ r.body = [7, 9] ∧
        Delivered Sample.noGunzip (frames.filter (Incoming.ownedBy 3)) r := by
  obtain ⟨s, hs, hreader, st, hopen, hh⟩ :
      ∃ s ∈ (session Sample.noGunzip).exec System.Any {} Sample.openingBoth,
        s.reader = [] ∧ ∃ st, s.shared.Open 3 st ∧ st.headersReceived = false :=
    ⟨_, rfl, rfl, _, ⟨rfl, List.mem_cons_self, rfl⟩, rfl⟩
  have hrun : ∃ s' ∈ (session Sample.noGunzip).exec (Session.Lets 3) s Sample.answering,
      s'.shared.Up ∧ ∃ r, s'.shared.settlement 3 = some (r, none) ∧ r.body = [7, 9] := by
    cases hs
    exact ⟨_, rfl, ⟨rfl, rfl⟩, _, rfl, rfl⟩
  obtain ⟨s', hs', hup, r, hr, hbody⟩ := hrun
  obtain ⟨frames, hframes, -, -, hdelivered⟩ := streams_demultiplexed Sample.noGunzip hopen
    (by rw [hreader]; exact fun _ hm => (List.not_mem_nil hm).elim)
    (System.exec_steps hs' (.refl s)) hup
  exact ⟨s, s', hs, hs', frames, r, hframes, hr, hbody, hdelivered hh r hr⟩

end Repost.H2
