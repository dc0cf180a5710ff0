import Repost.SessionObserved

namespace Repost.H2
open GoText Runs
set_option autoImplicit true

theorem finishOp_observes (gunzip : GunzipLimited) (id : Nat) (r : Response) :
    (finishOp gunzip id r).observes = false := by
  unfold finishOp
  split <;> rfl

theorem finishOp_ne_headers (gunzip : GunzipLimited) (id : Nat) (r : Response)
    (frame : MetaHeaders) (r' : Response) (expected : Option Nat) :
    ReaderOp.headers frame r' expected ≠ finishOp gunzip id r := by
  unfold finishOp
  split <;> exact nofun

theorem finalizeResponse_ok (h : finalizeResponse gunzip r = .ok r') :
    r'.status = r.status ∧ r'.headers = r.headers ∧ 0 ≤ r'.compressedBytes ∧
      0 ≤ r'.decompressedBytes := by
  unfold finalizeResponse at h
  dsimp only at h
  generalize (if (decide (200 ≤ r.status) && decide (r.status < 300)) = true then Limits.bodyBytes
    else Limits.errorBodyBytes) = limit at h
  split at h
  · cases h
  · split at h
    · cases h
    · split at h
      · cases h
      · split at h
        · cases h
        · cases h
          exact ⟨rfl, rfl, Int.natCast_nonneg _, Int.natCast_nonneg _⟩

theorem finishOp_cases (gunzip : GunzipLimited) (id : Nat) (r : Response) :
    (∃ e, finishOp gunzip id r = .finish id {} (some e)) ∨
      ∃ r', finishOp gunzip id r = .finish id r' none ∧ r'.status = r.status ∧
        r'.headers = r.headers ∧ 0 ≤ r'.compressedBytes ∧ 0 ≤ r'.decompressedBytes := by
  unfold finishOp
  split
  · rename_i r' hf
    exact .inr ⟨r', rfl, finalizeResponse_ok hf⟩
  · exact .inl ⟨_, rfl⟩

theorem Session.Shown.finished {s : Session} {id : Nat} (h : s.Shown id r)
    (hm : ReaderOp.finish i r' none = finishOp gunzip id r) : s.Shown i r' := by
  rcases finishOp_cases gunzip id r with ⟨e, he⟩ | ⟨r₁, he, hst, hh, hc, hd⟩
  · rw [he] at hm
    cases hm
  · rw [he] at hm
    cases hm
    obtain ⟨hp, st, hs, hrec, hv⟩ := h
    refine ⟨⟨?_, ?_, hc, hd⟩, st, hs, hrec, ?_⟩
    · rw [hst]
      exact hp.status_ge
    · rw [hst]
      exact hp.status_le
    · rw [hst, hh]
      exact hv

theorem Shared.lookup_object {s : Shared} {id : Nat} (h : s.lookup id = some st) :
    s.object id = some st := by
  unfold Shared.lookup at h
  split at h
  · exact h
  · cases h

section
variable {s : Session} {rest : List ReaderOp}

theorem Session.Observing.chunk {id : Nat} {r : Response} (gunzip : GunzipLimited)
    (h : s.Observing) (hr : s.reader = .data id payload ended :: rest)
    (hs : s.shared.object id = some st) (hopen : st.finished = false) (hanswer : s.Shown id r)
    (ops : List ReaderOp)
    (hops : ∀ op ∈ ops, (∃ e, op = rejectOp id e) ∨ op = finishOp gunzip id r) :
    (s.andThen (s.shared.updateStream id fun st => { st with response := r }, ops)
      rest).Observing := by
  have hplain := h.plain hr rfl
  have hrest := h.behind hr
  have hplain' : ∀ op ∈ ops ++ rest, op.observes = false := by
    intro op hm
    rcases List.mem_append.1 hm with hnew | hold
    · rcases hops op hnew with ⟨e, rfl⟩ | rfl
      · rfl
      · exact finishOp_observes ..
    · exact hrest op hold
  have hkeep : ∀ i r', s.Shown i r' → (s.andThen (s.shared.updateStream id fun st =>
      { st with response := r }, ops) rest).Shown i r' := by
    intro i r' hi
    exact hi.change (fun st => { st with response := r }) (fun _ => rfl) (fun _ => rfl)
      (fun _ => rfl) rfl hplain hplain'
  refine h.update (f := fun st => { st with response := r }) (fun _ => rfl) rfl hkeep
    (fun _ => .inl rfl) ?_ rfl ?_ ?_ ?_
  · intro st' hs'
    cases hs.symm.trans hs'
    refine .inr ⟨hkeep id r hanswer, fun hfin => ?_⟩
    rw [hopen] at hfin
    cases hfin
  · intro i r' hm
    rcases List.mem_append.1 hm with hnew | hold
    · rcases hops _ hnew with ⟨e, he⟩ | hfin
      · cases he
      · exact .inr ((hkeep id r hanswer).finished hfin)
    · rw [hr]
      exact .inl (List.mem_cons_of_mem _ hold)
  · intro op hm
    exact hplain' op (List.mem_of_mem_tail hm)
  · intro frame r' expected hm
    rcases List.mem_append.1 hm with hnew | hold
    · rcases hops _ hnew with ⟨e, he⟩ | hfin
      · cases he
      · exact (finishOp_ne_headers _ _ _ _ _ _ hfin).elim
    · rw [hr]
      exact List.mem_cons_of_mem _ hold

theorem Session.Observing.data {id : Nat} (h : s.Observing)
    (hr : s.reader = .data id payload ended :: rest) :
    (s.andThen (s.shared.handleData gunzip id payload ended) rest).Observing := by
  have hplain := h.plain hr rfl
  have hrest := h.behind hr
  have hmem : ∀ op ∈ rest, op ∈ s.reader := by
    intro op hm
    rw [hr]
    exact List.mem_cons_of_mem _ hm
  -- A chunk that the handler turns down, or that is for no open stream, leaves the stream alone.
  have hreject : ∀ ops : List ReaderOp, (∀ op ∈ ops, ∃ e, op = rejectOp id e) →
      (s.andThen (s.shared, ops) rest).Observing := by
    intro ops hops
    refine h.reads hplain (.refl _) rfl fun op hm => ?_
    rcases List.mem_append.1 hm with hnew | hold
    · obtain ⟨e, rfl⟩ := hops op hnew
      exact .inr (Option.some_ne_none e)
    · exact .inl (hmem op hold)
  unfold Shared.handleData
  cases hl : s.shared.lookup id with
  | none => exact hreject [] nofun
  | some st =>
    have hs := Shared.lookup_object hl
    dsimp only
    split
    · exact hreject [] nofun
    · rename_i hf
      split
      · exact hreject _ fun op hm => ⟨_, List.mem_singleton.1 hm⟩
      · rename_i hh
        split
        · exact hreject _ fun op hm => ⟨_, List.mem_singleton.1 hm⟩
        · have hanswer : s.Shown id { st.response with body := st.response.body ++ payload } := by
            rcases h.objects id st hs with hb | ⟨hshown, -⟩
            · rcases hb with ⟨-, hno⟩ | ⟨hfin, -⟩
              · rw [hno] at hh
                exact absurd rfl hh
              · exact absurd hfin hf
            · exact ⟨⟨hshown.1.1, hshown.1.2, hshown.1.3, hshown.1.4⟩, hshown.2⟩
          refine h.chunk gunzip hr hs (Bool.eq_false_iff.2 hf) hanswer _ fun op hm => ?_
          split at hm
          · exact .inl ⟨_, List.mem_singleton.1 hm⟩
          · split at hm
            · split at hm
              · exact .inl ⟨_, List.mem_singleton.1 hm⟩
              · exact .inr (List.mem_singleton.1 hm)
            · cases hm

theorem Session.Observing.answered (gunzip : GunzipLimited) (h : s.Observing)
    (hr : s.reader = .headers frame response expected :: rest)
    (hs : s.shared.object frame.streamID = some st) (hopen : st.finished = false)
    (hfirst : st.headersReceived = false) (hproper : response.Proper)
    (expected' : Option Nat) (ops : List ReaderOp)
    (hops : ∀ op ∈ ops, (∃ e, op = rejectOp frame.streamID e) ∨
      op = finishOp gunzip frame.streamID response) :
    (s.andThen (s.shared.updateStream frame.streamID fun st =>
        { st with headersReceived := true, response := response, expectedLength := expected' },
      .observe frame.streamID response.status response.headers :: ops) rest).Observing := by
  have hplain := h.plain hr rfl
  have hrest := h.behind hr
  have hkeep : ∀ i r, s.Shown i r → (s.andThen (s.shared.updateStream frame.streamID fun st =>
        { st with headersReceived := true, response := response, expectedLength := expected' },
      .observe frame.streamID response.status response.headers :: ops) rest).Shown i r := by
    intro i r hi
    refine hi.update (f := fun st =>
      { st with headersReceived := true, response := response, expectedLength := expected' })
      (fun _ => rfl) rfl ?_ ?_
    · intro st' hs' hh
      cases hs.symm.trans hs'
      rw [hfirst] at hh
      cases hh
    · intro i st hi
      rw [Session.seen_plain hplain]
      exact if_neg hi.symm
  have hanswer : (s.andThen (s.shared.updateStream frame.streamID fun st =>
        { st with headersReceived := true, response := response, expectedLength := expected' },
      .observe frame.streamID response.status response.headers :: ops) rest).Shown frame.streamID
      response := by
    refine ⟨hproper, { st with
      headersReceived := true, response := response, expectedLength := expected' }, ?_, rfl,
      if_pos rfl⟩
    refine (Shared.object_update (f := fun st =>
      { st with headersReceived := true, response := response, expectedLength := expected' }) rfl
      (fun _ => rfl) frame.streamID).trans ?_
    rw [if_pos rfl, hs]
    rfl
  refine h.update (f := fun st =>
    { st with headersReceived := true, response := response, expectedLength := expected' })
    (fun _ => rfl) rfl hkeep (fun _ => .inl rfl) ?_ rfl ?_ ?_ ?_
  · intro st' hs'
    cases hs.symm.trans hs'
    refine .inr ⟨hanswer, fun hfin => ?_⟩
    rw [hopen] at hfin
    cases hfin
  · intro i r hm
    rcases List.mem_cons.1 hm with he | hm
    · cases he
    · rcases List.mem_append.1 hm with hnew | hold
      · rcases hops _ hnew with ⟨e, he⟩ | hfin
        · cases he
        · exact .inr (hanswer.finished hfin)
      · rw [hr]
        exact .inl (List.mem_cons_of_mem _ hold)
  · intro op hm
    rcases List.mem_append.1 hm with hnew | hold
    · rcases hops op hnew with ⟨e, rfl⟩ | rfl
      · rfl
      · exact finishOp_observes ..
    · exact hrest op hold
  · intro frame' r expected hm
    rcases List.mem_cons.1 hm with he | hm
    · cases he
    · rcases List.mem_append.1 hm with hnew | hold
      · rcases hops _ hnew with ⟨e, he⟩ | hfin
        · cases he
        · exact (finishOp_ne_headers _ _ _ _ _ _ hfin).elim
      · rw [hr]
        exact List.mem_cons_of_mem _ hold

theorem Session.Observing.headers (h : s.Observing)
    (hr : s.reader = .headers frame response expected :: rest) :
    (s.andThen (s.shared.handleHeaders gunzip frame response expected) rest).Observing := by
  have hplain := h.plain hr rfl
  have hrest := h.behind hr
  obtain ⟨hlo, hhi, hcomp, hdecomp⟩ := h.parsed frame response expected
    (by rw [hr]; exact List.mem_cons_self)
  have hmem : ∀ op ∈ rest, op ∈ s.reader := by
    intro op hm
    rw [hr]
    exact List.mem_cons_of_mem _ hm
  have hreject : ∀ (shared : Shared) (ops : List ReaderOp), s.shared.Aside shared →
      (∀ op ∈ ops, ∃ e, op = rejectOp frame.streamID e) →
      (s.andThen (shared, ops) rest).Observing := by
    intro shared ops ha hops
    refine h.reads hplain ha rfl fun op hm => ?_
    rcases List.mem_append.1 hm with hnew | hold
    · obtain ⟨e, rfl⟩ := hops op hnew
      exact .inr (Option.some_ne_none e)
    · exact .inl (hmem op hold)
  unfold Shared.handleHeaders
  dsimp only
  cases hl : s.shared.lookup frame.streamID with
  | none => exact hreject _ [] (.refl _) nofun
  | some st =>
    have hs := Shared.lookup_object hl
    dsimp only
    split
    · exact hreject _ [] (.refl _) nofun
    · rename_i hopen
      split
      · refine hreject _ _ ?_ ?_
        · exact .of_update frame.streamID
            (fun st => { st with informational := st.informational + 1 }) rfl (fun _ => rfl)
            fun _ => ⟨rfl, rfl, .inl ⟨rfl, rfl, rfl⟩⟩
        · intro op hm
          split at hm
          · exact ⟨_, List.mem_singleton.1 hm⟩
          · cases hm
      · rename_i hfinal
        split
        · exact hreject _ _ (.refl _) fun op hm => ⟨_, List.mem_singleton.1 hm⟩
        · rename_i hfirst
          refine h.answered gunzip hr hs (Bool.eq_false_iff.2 hopen) (Bool.eq_false_iff.2 hfirst)
            ?_ _ _ ?_
          · simp only [Bool.and_eq_true, decide_eq_true_eq] at hfinal
            exact ⟨by omega, hhi, by omega, by omega⟩
          · intro op hm
            split at hm
            · exact .inl ⟨_, List.mem_singleton.1 hm⟩
            · split at hm
              · exact .inr (List.mem_singleton.1 hm)
              · cases hm

theorem orShutdown_harmless {result : Shared × Option SessionError}
    (h : ∀ op ∈ rest, op ∈ s.reader ∨ op.Harmless) :
    ∀ op ∈ (s.orShutdown result rest).reader, op ∈ s.reader ∨ op.Harmless := by
  unfold Session.orShutdown
  dsimp only
  split
  · exact h
  · intro op hm
    obtain rfl := List.mem_singleton.1 hm
    exact .inr trivial

theorem decodeStatus_range (h : decodeStatus pseudos = some status) :
    100 ≤ status ∧ status ≤ 599 := by
  unfold decodeStatus at h
  split at h
  · split at h
    · cases h
    · split at h
      · split at h
        · cases h
        · rename_i hr
          simp only [Bool.or_eq_true, decide_eq_true_eq, not_or] at hr
          cases h
          omega
      · cases h
  · cases h

theorem decodeResponseHeaders_parsed (h : decodeResponseHeaders frame = .ok (r, expected)) :
    r.Parsed := by
  unfold decodeResponseHeaders at h
  split at h
  · cases h
  · split at h
    · cases h
    · rename_i status hs
      obtain ⟨hlo, hhi⟩ := decodeStatus_range hs
      split at h
      · cases h
      · split at h
        · cases h
        · cases h
          exact ⟨hlo, hhi, rfl, rfl⟩

theorem Incoming.ops_harmless (frame : Incoming) : ∀ op ∈ frame.ops, op.Harmless := by
  intro op hm
  cases frame with
  | headers frame =>
    rw [Incoming.ops] at hm
    split at hm
    · rcases List.mem_cons.1 hm with rfl | hm
      · exact Option.some_ne_none _
      · obtain rfl := List.mem_singleton.1 hm
        trivial
    · rename_i hd
      obtain rfl := List.mem_singleton.1 hm
      exact decodeResponseHeaders_parsed hd
  | data id payload padding ended =>
    rw [Incoming.ops] at hm
    split at hm
    · obtain rfl := List.mem_singleton.1 hm
      trivial
    · split at hm
      · obtain rfl := List.mem_singleton.1 hm
        exact Option.some_ne_none _
      · rcases List.mem_cons.1 hm with rfl | hm
        · trivial
        · obtain rfl := List.mem_singleton.1 hm
          trivial
  | rstStream id code =>
    obtain rfl := List.mem_singleton.1 hm
    exact Option.some_ne_none _
  | settings ack list | ping ack payload =>
    rw [Incoming.ops] at hm
    split at hm
    · cases hm
    · obtain rfl := List.mem_singleton.1 hm
      trivial
  | streamError id code =>
    rcases List.mem_cons.1 hm with rfl | hm
    · exact Option.some_ne_none _
    · obtain rfl := List.mem_singleton.1 hm
      trivial
  | other => cases hm
  | _ =>
    obtain rfl := List.mem_singleton.1 hm
    trivial

theorem Session.Observing.reader_step {s' : Session} (h : s.Observing)
    (hr : s.reader = op :: rest) (hstep : s.readerStep gunzip rest op choice = some s') :
    s'.Observing := by
  have hmem : ∀ op' ∈ rest, op' ∈ s.reader ∨ op'.Harmless := by
    intro op' hm
    rw [hr]
    exact .inl (List.mem_cons_of_mem _ hm)
  cases choice with
  | go =>
    cases op with
    | finish id r e =>
      cases hstep
      exact h.finish hr
    | queue reply =>
      simp only [Session.readerStep] at hstep
      split at hstep
      · cases hstep
        exact h.reads (h.plain hr rfl) (.refl _) rfl hmem
      · cases hstep
    | headers frame r expected =>
      cases hstep
      exact h.headers hr
    | observe id status headers =>
      cases hstep
      exact h.observe hr
    | data id payload ended =>
      cases hstep
      exact h.data hr
    | goAway lastStreamID code =>
      cases hstep
      exact h.reads (h.plain hr rfl) (Shared.handleGoAway_aside ..) rfl hmem
    | windowUpdate id increment =>
      cases hstep
      refine h.reads (h.plain hr rfl) (Shared.handleWindowUpdate_aside ..) rfl ?_
      exact orShutdown_harmless hmem
    | settings settings =>
      cases hstep
      refine h.reads (h.plain hr rfl) (Shared.applySettings_aside ..) rfl ?_
      refine orShutdown_harmless ?_
      rw [List.forall_mem_cons]
      exact ⟨.inr trivial, hmem⟩
    | shutdown e =>
      cases hstep
      exact h.reads (h.plain hr rfl) (Shared.shutdown_aside ..) rfl fun _ h => by cases h
  | context => cases op <;> cases hstep
  | session =>
    cases op with
    | queue reply =>
      simp only [Session.readerStep] at hstep
      split at hstep
      · cases hstep
        exact h.reads (h.plain hr rfl) (.refl _) rfl hmem
      · cases hstep
    | _ => cases hstep

end

section
variable {s s' : Session} {c c' : Call}

theorem Call.wrote_not_returned (c : Call) (p : Purpose) (e : Option SessionError)
    (r : Except SessionError Response) : (c.wrote p e).point ≠ .returned r := by
  rcases c.wrote_cases p e with ⟨-, k, h | h⟩ | ⟨e', -, h⟩ | ⟨cause, -, h⟩ <;>
    (rw [h]; exact nofun)

theorem Call.Turn.returned (h : c.Turn s choice c') (hr : c'.point = .returned (.ok r)) :
    ∃ st, s.shared.object c'.stream = some st ∧ st.finished = true ∧ st.err = none ∧
      st.response = r := by
  cases h with
  | responded hp ho hf =>
    rename_i st
    refine ⟨st, ho, hf, ?_⟩
    have hresult : st.result = .ok r := Point.returned.inj hr
    unfold Stream.result at hresult
    split at hresult
    · cases hresult
    · rename_i he
      exact ⟨he, Except.ok.inj hresult⟩
  | checkEnded hp hc | enqueueEnded hp hx hc | written hp hx hw | awaitEnded hp hx hc hs
  | writeDone hp hd e =>
    exact (c.wrote_not_returned _ _ _ hr).elim
  | _ => cases hr

theorem Session.Observing.call (h : s.Observing) (hm : c.Move s i choice u c') :
    ({ u with calls := u.calls.set i c' } : Session).Observing := by
  have hframe : u.calls = s.calls ∧ u.reader = s.reader ∧ s.shared.Aside u.shared := by
    cases hm with
    | turn ht | sent hp hx hroom => exact ⟨rfl, rfl, .refl _⟩
    | acquired hp hc hg hn hroom => exact ⟨rfl, rfl, Shared.openStream_aside _⟩
    | reserved n hp hc ho hf hpos hbody hframe hconn hstream =>
      exact ⟨rfl, rfl, Shared.debit_aside ..⟩
    | failed hp | wasReset hp => exact ⟨rfl, rfl, Shared.cancelStream_aside ..⟩
  obtain ⟨hcalls, hreader, ha⟩ := hframe
  refine h.beside ha hreader fun d hd r hp => ?_
  rw [hcalls] at hd
  rcases List.mem_or_eq_of_mem_set hd with hold | rfl
  · exact h.returned d hold r hp
  · cases hm with
    | turn ht =>
      obtain ⟨st, ho, hf, he, rfl⟩ := ht.returned hp
      rcases h.objects _ st ho with (⟨hno, -⟩ | ⟨-, herr⟩) | ⟨hshown, hfin⟩
      · rw [hf] at hno
        cases hno
      · exact absurd he herr
      · exact ⟨hshown, st, ho, hfin hf⟩
    | _ => cases hp

theorem Session.Observing.step (h : s.Observing) (hstep : s.Moves gunzip a s') : s'.Observing := by
  cases hstep with
  | start block body =>
    refine h.beside (.refl _) rfl fun c hm r hp => ?_
    rcases List.mem_append.1 hm with hold | hnew
    · exact h.returned c hold r hp
    · obtain rfl := List.mem_singleton.1 hnew
      cases hp
  | cancel i cause hi hc =>
    refine h.beside (.refl _) rfl fun d hd r hp => ?_
    rcases List.mem_or_eq_of_mem_set hd with hold | rfl
    · exact h.returned d hold r hp
    · exact h.returned _ (List.mem_of_getElem? hi) r hp
  | call i choice hi hm => exact h.call hm
  | writer choice hw =>
    have hframe : s'.calls = s.calls ∧ s'.reader = s.reader ∧ s.shared.Aside s'.shared := by
      cases hw with
      | shut e hw => exact ⟨rfl, rfl, Shared.shutdown_aside ..⟩
      | _ => exact ⟨rfl, rfl, .refl _⟩
    obtain ⟨hcalls, hreader, ha⟩ := hframe
    exact h.beside ha hreader (hcalls ▸ h.returned)
  | receive frame hr =>
    refine h.reads ?_ (.refl _) rfl fun op hm => .inr (frame.ops_harmless op hm)
    rw [hr]
    exact nofun
  | reader choice hr hread => exact h.reader_step hr hread
  | close => exact h.beside (Shared.shutdown_aside ..) rfl h.returned

end

theorem observing_init (h : newSession settings = some s) : s.Observing := by
  obtain ⟨shared, rfl, -, list, hl⟩ := newSession_kept h
  have ha := Shared.applySettings_aside {} list
  rw [hl] at ha
  have hempty : ({} : Session).Observing := ⟨nofun, nofun, nofun, nofun, nofun⟩
  exact hempty.beside ha rfl nofun

theorem observing_invariant (gunzip : GunzipLimited) :
    (session gunzip).Invariant System.Any Session.Observing where
  init s hs := by
    obtain ⟨settings, h⟩ := hs
    exact observing_init h
  step s a t hs _ hstep := hs.step (sessionStep_moves hstep)

theorem returned_observed {s : Session} {c : Call} {r : Response} {i : Nat}
    (hr : (session gunzip).Reachable System.Any s) (hi : s.calls[i]? = some c)
    (hp : c.point = .returned (.ok r)) :
    r.Proper ∧ ∃ st, s.shared.object c.stream = some st ∧
      st.observed = some (r.status, r.headers) := by
  have hs := (observing_invariant gunzip).reachable hr
  have ht := hs.returned c (List.mem_of_getElem? hi) r hp
  exact ⟨ht.shown.1, ht.told⟩

end Repost.H2
