import Repost.Http2Delivery
import Repost.SessionStages

namespace Repost.H2
open GoText Runs
set_option autoImplicit true

def Incoming.target : Incoming → Option Nat
  | .headers frame => some frame.streamID
  | .data id _ _ _ | .rstStream id _ | .streamError id _ => some id
  | _ => none

def ReaderOp.target : ReaderOp → Option Nat
  | .headers frame _ _ => some frame.streamID
  | .finish id _ _ | .observe id _ _ | .data id _ _ => some id
  | _ => none

def ReaderOp.fallible : ReaderOp → Bool
  | .windowUpdate _ _ | .settings _ => true
  | _ => false

def Stream.settlement (st : Stream) : Option (Response × Option SessionError) :=
  if st.finished then some (st.response, st.err) else none

namespace Shared

def settlement (s : Shared) (id : Nat) : Option (Response × Option SessionError) :=
  (s.object id).bind Stream.settlement

def single (st : Stream) : Shared :=
  { streams := [st.id], objects := [st], nextStreamID := st.id + 2 }

/-- Two sessions that know the same of a stream, except for its send window. -/
inductive Alike (s r : Shared) (id : Nat) : Prop where
  | intro (st : Stream) (w : Int) (hs : s.object id = some st)
      (hr : r.object id = some { st with sendWindow := w })
      (listed : st.finished = false → id ∈ s.streams)
      (listed' : st.finished = false → id ∈ r.streams)

theorem single_object (st : Stream) : (single st).object st.id = some st := by
  simp [object, single]

theorem Alike.single {s : Shared} {id : Nat} {st : Stream} (h : s.Open id st) :
    s.Alike (single st) id := by
  have hid := object_id h.object
  subst hid
  exact .intro st st.sendWindow h.object (single_object st) (fun _ => h.listed)
    fun _ => List.mem_singleton.2 rfl

theorem Alike.settlement {s r : Shared} {id : Nat} (h : s.Alike r id) :
    s.settlement id = r.settlement id := by
  obtain ⟨st, w, hs, hr, -, -⟩ := h
  rw [Shared.settlement, Shared.settlement, hs, hr]
  rfl

section
variable {s r : Shared} {id : Nat}

theorem Alike.cases (h : s.Alike r id) :
    (∃ st w, s.Open id st ∧ r.Open id { st with sendWindow := w }) ∨
      ∃ st w, s.Done id st ∧ r.Done id { st with sendWindow := w } := by
  obtain ⟨st, w, hs, hr, hl, hl'⟩ := h
  cases hf : st.finished with
  | false => exact .inl ⟨st, w, ⟨hs, hl hf, hf⟩, ⟨hr, hl' hf, hf⟩⟩
  | true => exact .inr ⟨st, w, ⟨hs, hf⟩, ⟨hr, hf⟩⟩

theorem Alike.of_done (hs : s.Done id st) (hr : r.Done id { st with sendWindow := w }) :
    s.Alike r id := by
  have hfinished : ¬st.finished = false := by
    rw [hs.finished]
    exact Bool.noConfusion
  exact .intro st w hs.object hr.object (fun hf => absurd hf hfinished)
    fun hf => absurd hf hfinished

theorem Alike.update (h : s.Alike r id) (f : Stream → Stream) (hid : ∀ st, (f st).id = st.id)
    (hf : ∀ st, (f st).finished = st.finished)
    (hw : ∀ (st : Stream) (w : Int), f { st with sendWindow := w } = { f st with sendWindow := w }) :
    (s.updateStream id f).Alike (r.updateStream id f) id := by
  obtain ⟨st, w, hs, hr, hl, hl'⟩ := h
  refine .intro (f st) w ?_ ?_ (fun hst => hl (hf st ▸ hst)) fun hst => hl' (hf st ▸ hst)
  · rw [object_updateStream s id f hid, hs]
    rfl
  · rw [object_updateStream r id f hid, hr, ← hw]
    rfl

theorem Alike.finishStream (h : s.Alike r id) (response : Response) (err : Option SessionError) :
    (s.finishStream id response err).Alike (r.finishStream id response err) id := by
  rcases h.cases with ⟨st, w, hs, hr⟩ | ⟨st, w, hs, hr⟩
  · exact .of_done (hs.finish response err) (hr.finish response err)
  · rw [hs.finishStream, hr.finishStream]
    exact h

theorem Done.handleHeaders {frame : MetaHeaders} (h : s.Done frame.streamID st)
    (gunzip : GunzipLimited) (response : Response) (expected : Option Nat) :
    s.handleHeaders gunzip frame response expected = (s, []) := by
  unfold Shared.handleHeaders
  rcases h.lookup with hl | hl
  · simp only [hl]
  · simp only [hl]
    exact if_pos h.finished

theorem Alike.handleHeaders {frame : MetaHeaders} (h : s.Alike r frame.streamID)
    (gunzip : GunzipLimited) (response : Response) (expected : Option Nat) :
    (s.handleHeaders gunzip frame response expected).1.Alike
        (r.handleHeaders gunzip frame response expected).1 frame.streamID ∧
      (s.handleHeaders gunzip frame response expected).2 =
        (r.handleHeaders gunzip frame response expected).2 := by
  rcases h.cases with ⟨st, w, hs, hr⟩ | ⟨st, w, hs, hr⟩
  · unfold Shared.handleHeaders
    simp only [hs.lookup, hr.lookup, hs.unfinished, Bool.false_eq_true, if_false]
    split_ifs
    all_goals first
      | exact ⟨h, rfl⟩
      | exact ⟨h.update _ (fun _ => rfl) (fun _ => rfl) fun _ _ => rfl, rfl⟩
  · rw [hs.handleHeaders, hr.handleHeaders]
    exact ⟨h, rfl⟩

theorem Alike.handleData (h : s.Alike r id) (gunzip : GunzipLimited) (data : Bytes)
    (ended : Bool) :
    (s.handleData gunzip id data ended).1.Alike (r.handleData gunzip id data ended).1 id ∧
      (s.handleData gunzip id data ended).2 = (r.handleData gunzip id data ended).2 := by
  rcases h.cases with ⟨st, w, hs, hr⟩ | ⟨st, w, hs, hr⟩
  · unfold Shared.handleData
    simp only [hs.lookup, hr.lookup, hs.unfinished, Bool.false_eq_true, if_false]
    split_ifs
    all_goals first
      | exact ⟨h, rfl⟩
      | exact ⟨h.update _ (fun _ => rfl) (fun _ => rfl) fun _ _ => rfl, rfl⟩
  · rw [hs.handleData, hr.handleData]
    exact ⟨h, rfl⟩

theorem Alike.perform {op : ReaderOp} (h : s.Alike r id) (gunzip : GunzipLimited)
    (ho : op.target = some id) :
    (s.perform gunzip op).1.Alike (r.perform gunzip op).1 id ∧
      (s.perform gunzip op).2 = (r.perform gunzip op).2 := by
  cases op with
  | finish n response err =>
    cases ho
    exact ⟨h.finishStream response err, rfl⟩
  | headers frame response expected =>
    cases ho
    exact h.handleHeaders gunzip response expected
  | observe n status headers =>
    cases ho
    exact ⟨h.update _ (fun _ => rfl) (fun _ => rfl) fun _ _ => rfl, rfl⟩
  | data n payload ended =>
    cases ho
    exact h.handleData gunzip payload ended
  | _ => cases ho

end

structure Spares (s s' : Shared) (id : Nat) : Prop where
  object : ∀ st, s.object id = some st → ∃ w, s'.object id = some { st with sendWindow := w }
  listed : id ∈ s.streams → id ∈ s'.streams

theorem Alike.spare {s r s' : Shared} {id : Nat} (h : s.Alike r id) (hs : s.Spares s' id) :
    s'.Alike r id := by
  obtain ⟨st, w, ho, hr, hl, hl'⟩ := h
  obtain ⟨w', ho'⟩ := hs.object st ho
  exact .intro { st with sendWindow := w' } w ho' hr (fun hf => hs.listed (hl hf)) hl'

section
variable {s s' t : Shared} {id : Nat}

theorem Spares.of_objects (ho : s'.objects = s.objects) (hl : s'.streams = s.streams) :
    s.Spares s' id := by
  refine ⟨fun st h => ⟨st.sendWindow, ?_⟩, fun h => hl ▸ h⟩
  rw [Shared.object, ho]
  exact h

theorem Spares.refl (s : Shared) (id : Nat) : s.Spares s id := .of_objects rfl rfl

theorem Spares.trans (h : s.Spares t id) (h' : t.Spares s' id) : s.Spares s' id := by
  refine ⟨?_, fun hl => h'.listed (h.listed hl)⟩
  intro st hs
  obtain ⟨w, ht⟩ := h.object st hs
  obtain ⟨w', hs'⟩ := h'.object { st with sendWindow := w } ht
  exact ⟨w', hs'⟩

theorem Spares.of_map (g : Stream → Stream) (ho : s'.objects = s.objects.map g)
    (hl : s'.streams = s.streams)
    (hg : ∀ st : Stream, ∃ w, g st = { st with sendWindow := w }) : s.Spares s' id := by
  have hid : ∀ st, (g st).id = st.id := by
    intro st
    obtain ⟨w, hw⟩ := hg st
    rw [hw]
  refine ⟨?_, fun h => hl ▸ h⟩
  intro st hs
  obtain ⟨w, hw⟩ := hg st
  refine ⟨w, ?_⟩
  rw [object_map g ho hid, hs, ← hw]
  rfl

theorem updateStream_spares (s : Shared) {n : Nat} (f : Stream → Stream)
    (hf : ∀ st, (f st).id = st.id) (hne : id ≠ n) : s.Spares (s.updateStream n f) id := by
  refine ⟨fun st hs => ⟨st.sendWindow, ?_⟩, fun h => h⟩
  rw [object_update rfl hf, if_neg hne]
  exact hs

theorem finishLocked_spares (s : Shared) {n : Nat} (response : Response)
    (err : Option SessionError) (hne : id ≠ n) : s.Spares (s.finishLocked n response err) id := by
  have hupdate := updateStream_spares { s with streams := s.streams.erase n }
    (fun st => { st with response := response, err := err, finished := true }) (fun _ => rfl) hne
  exact ⟨hupdate.object, fun hl => (List.mem_erase_of_ne hne).2 hl⟩

theorem Finishes.spares {n : Nat} (h : s.Finishes n s') (hne : id ≠ n) : s.Spares s' id := by
  cases h with
  | nothing => exact .refl s id
  | finish r e => exact finishLocked_spares s r e hne

variable (gunzip : GunzipLimited) (s : Shared)

theorem handleHeaders_spares (frame : MetaHeaders)
    (r : Response) (expected : Option Nat) (hne : id ≠ frame.streamID) :
    s.Spares (s.handleHeaders gunzip frame r expected).1 id := by
  unfold Shared.handleHeaders
  dsimp only
  split
  · exact .refl s id
  · split
    · exact .refl s id
    · split
      · exact updateStream_spares s _ (fun _ => rfl) hne
      · split
        · exact .refl s id
        · exact updateStream_spares s _ (fun _ => rfl) hne

theorem handleData_spares {n : Nat} (data : Bytes)
    (ended : Bool) (hne : id ≠ n) : s.Spares (s.handleData gunzip n data ended).1 id := by
  unfold Shared.handleData
  split
  · exact .refl s id
  · split
    · exact .refl s id
    · split
      · exact .refl s id
      · split
        · exact .refl s id
        · exact updateStream_spares s _ (fun _ => rfl) hne

theorem window_spares (s : Shared) (n : Nat) (f : Stream → Int) (ho : s'.objects =
    (s.updateStream n fun st => { st with sendWindow := f st }).objects)
    (hl : s'.streams = s.streams) : s.Spares s' id := by
  refine .of_map _ ho hl ?_
  intro st
  by_cases hn : st.id = n
  · exact ⟨f st, if_pos hn⟩
  · exact ⟨st.sendWindow, if_neg hn⟩

theorem debit_spares (s : Shared) (n size : Nat) : s.Spares (s.debit n size) id :=
  window_spares s n (fun st => st.sendWindow - size) rfl rfl

theorem handleWindowUpdate_spares (s : Shared) (n increment : Nat) :
    s.Spares (s.handleWindowUpdate n increment).1 id := by
  unfold Shared.handleWindowUpdate
  split
  · split
    · exact .refl s id
    · exact .of_objects rfl rfl
  · split
    · split_ifs
      · exact .of_objects rfl rfl
      · exact .refl s id
      · exact window_spares s n (fun st => st.sendWindow + increment) rfl rfl
    · exact .of_objects rfl rfl

theorem applySetting_spares (s : Shared) (setting : Setting) :
    s.Spares (s.applySetting setting) id := by
  unfold Shared.applySetting
  split
  · refine .of_map _ rfl rfl ?_
    intro st
    split
    · exact ⟨_, rfl⟩
    · exact ⟨st.sendWindow, rfl⟩
  · exact .of_objects rfl rfl
  · exact .of_objects rfl rfl
  · exact .refl s id

theorem applySettings_spares (s : Shared) (settings : List Setting) :
    s.Spares (s.applySettings settings).1 id := by
  induction settings generalizing s with
  | nil => exact .refl s id
  | cons setting settings ih =>
    unfold Shared.applySettings
    split
    · exact (applySetting_spares s setting).trans (ih _)
    · exact .refl s id

theorem openStream_spares (s : Shared) : s.Spares s.openStream id := by
  refine ⟨fun st hs => ⟨st.sendWindow, ?_⟩, fun hl => List.mem_cons_of_mem _ hl⟩
  unfold Shared.object at hs ⊢
  unfold Shared.openStream
  rw [List.find?_append, hs]
  rfl

theorem perform_spares {op : ReaderOp}
    (ho : op.target ≠ some id) (hc : (s.perform gunzip op).1.closeErr = none)
    (hg : (s.perform gunzip op).1.goAway = none) : s.Spares (s.perform gunzip op).1 id := by
  cases op with
  | finish n response err =>
    exact (finishStream_finishes s n response err).spares fun hn => ho (congrArg some hn.symm)
  | queue reply => exact .refl s id
  | headers frame response expected =>
    exact handleHeaders_spares gunzip s frame response expected fun hn =>
      ho (congrArg some hn.symm)
  | observe n status headers =>
    exact updateStream_spares s _ (fun _ => rfl) fun hn => ho (congrArg some hn.symm)
  | data n payload ended =>
    exact handleData_spares gunzip s payload ended fun hn => ho (congrArg some hn.symm)
  | goAway lastStreamID code =>
    obtain ⟨bound, hbound, -⟩ := handleGoAway_settles s lastStreamID code
    cases hbound.symm.trans hg
  | windowUpdate n increment => exact handleWindowUpdate_spares s n increment
  | settings list => exact applySettings_spares s list
  | shutdown err => exact absurd hc (shutdown_ne_none s err)

end

end Shared

end Repost.H2
