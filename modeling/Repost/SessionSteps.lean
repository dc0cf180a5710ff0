import Repost.SessionCalls

namespace Repost.H2
open GoText Runs
set_option autoImplicit true

inductive Session.Writes (s : Session) : Session → Prop where
  | receive (hw : s.writer = .idle) (hq : s.writeCh = (w, job) :: rest) :
      Writes s { s with writeCh := rest, writer := .received w job }
  | stop (hw : s.writer = .idle) (hc : s.shared.closeErr.isSome = true) :
      Writes s { s with writer := .stopped }
  | start (hw : s.writer = .received w job) :
      Writes s { s.updateWrite w (fun c => { c with started := true }) with
        writer := .started w job }
  | skip (hw : s.writer = .started w job) (hc : s.writeContext w = some e) :
      Writes s { s.updateWrite w (fun c => { c with done := some (some (.context e)) }) with
        writer := .idle }
  | run (hw : s.writer = .started w job) (hc : s.writeContext w = none) :
      Writes s { s with writer := .running w job }
  | wrote (hw : s.writer = .running w job) :
      Writes s { s.updateWrite w (fun c => { c with done := some none }) with
        wire := s.wire ++ job.frames s.shared.maxFrameSize
        marked := s.marked ++ s.marks w job
        writer := .idle }
  | broke (after : Nat) (err : SessionError) (hw : s.writer = .running w job)
      (ha : after < (job.frames s.shared.maxFrameSize).length) :
      Writes s { s.updateWrite w (fun c => { c with done := some (some err) }) with
        wire := s.wire ++ (job.frames s.shared.maxFrameSize).take after
        marked := s.marked ++ s.marks w job
        writer := .failed job err }
  | shut (e : SessionError) (hw : s.writer = .failed job err) :
      Writes s { s with shared := s.shared.shutdown e, writer := .stopped }

theorem writerStep_writes {s s' : Session} (h : s.writerStep s.writer choice = some s') :
    s.Writes s' := by
  cases hw : s.writer with
  | idle =>
    rw [hw] at h
    cases choice <;> simp only [Session.writerStep] at h
    · split at h
      · rename_i hq
        cases h
        exact .receive hw hq
      · cases h
    · cases h
    · split at h
      · rename_i hc
        cases h
        exact .stop hw hc
      · cases h
  | received w job =>
    rw [hw] at h
    cases choice <;> simp only [Session.writerStep] at h
    · cases h
      exact .start hw
    · cases h
    · cases h
  | started w job =>
    rw [hw] at h
    cases choice <;> simp only [Session.writerStep] at h
    · split at h
      · rename_i hc
        cases h
        exact .skip hw hc
      · rename_i hc
        cases h
        exact .run hw hc
    · cases h
    · cases h
  | running w job =>
    rw [hw] at h
    cases choice <;> simp only [Session.writerStep] at h
    · cases h
      exact .wrote hw
    · split at h
      · rename_i ha
        cases h
        exact .broke _ _ hw ha
      · cases h
    · cases h
  | failed job err =>
    rw [hw] at h
    cases choice <;> simp only [Session.writerStep] at h
    · cases h
      exact .shut _ hw
    · cases h
    · cases h
  | stopped =>
    rw [hw] at h
    cases choice <;> cases h

namespace Shared

structure Kept (s s' : Shared) : Prop where
  nextStreamID : s'.nextStreamID = s.nextStreamID
  window : s'.connectionWindow = s.connectionWindow
  credits : s'.credits = s.credits
  closed : s.closeErr.isSome = true → s'.closeErr.isSome = true

variable (s : Shared)

theorem Kept.refl : s.Kept s := ⟨rfl, rfl, rfl, fun h => h⟩

theorem Kept.trans {s t u : Shared} (h : s.Kept t) (h' : t.Kept u) : s.Kept u :=
  ⟨h'.nextStreamID.trans h.nextStreamID, h'.window.trans h.window, h'.credits.trans h.credits,
    fun hc => h'.closed (h.closed hc)⟩

theorem updateStream_kept (id : Nat) (f : Stream → Stream) :
    s.Kept (s.updateStream id f) := ⟨rfl, rfl, rfl, fun h => h⟩

theorem finishLocked_kept (id : Nat) (r : Response) (e : Option SessionError) :
    s.Kept (s.finishLocked id r e) := ⟨rfl, rfl, rfl, fun h => h⟩

inductive Finishes (s : Shared) (id : Nat) : Shared → Prop where
  | nothing : Finishes s id s
  | finish (r : Response) (e : Option SessionError) : Finishes s id (s.finishLocked id r e)

theorem Finishes.kept {s s' : Shared} {id : Nat} (h : s.Finishes id s') : s.Kept s' := by
  cases h with
  | nothing => exact .refl s
  | finish r e => exact finishLocked_kept ..

theorem cancelStream_finishes (id : Nat) (e : SessionError) :
    s.Finishes id (s.cancelStream id e) := by
  unfold cancelStream
  split
  · split
    · exact .nothing
    · exact .finish ..
  · exact .nothing

theorem finishStream_finishes (id : Nat) (r : Response) (e : Option SessionError) :
    s.Finishes id (s.finishStream id r e) := by
  unfold finishStream
  split
  · split
    · exact .nothing
    · exact .finish ..
  · exact .nothing

theorem cancelStream_kept (id : Nat) (e : SessionError) :
    s.Kept (s.cancelStream id e) := (s.cancelStream_finishes id e).kept

variable (e : SessionError)

theorem finishAll_kept (ids : List Nat) :
    s.Kept (s.finishAll e ids) := by
  induction ids generalizing s with
  | nil => exact .refl s
  | cons id ids ih => exact (finishLocked_kept ..).trans (ih _)

theorem shutdown_kept : s.Kept (s.shutdown e) := by
  unfold shutdown
  split
  · exact .refl s
  · have hk := finishAll_kept { s with closeErr := some e } e s.streams
    exact ⟨hk.nextStreamID, hk.window, hk.credits, fun _ => hk.closed rfl⟩

theorem shutdown_closed :
    (s.shutdown e).closeErr.isSome = true := by
  unfold shutdown
  split
  · rename_i h
    rw [h]
    rfl
  · exact (finishAll_kept { s with closeErr := some e } e s.streams).closed rfl

theorem shutdown_ne_none : (s.shutdown e).closeErr ≠ none := by
  intro h
  have hc := shutdown_closed s e
  rw [h] at hc
  cases hc

inductive Touches (s : Shared) : Shared → Prop where
  | nothing : Touches s s
  | update (id : Nat) (f : Stream → Stream) (hid : ∀ st, (f st).id = st.id)
      (hf : ∀ st, (f st).finished = st.finished) : Touches s (s.updateStream id f)

theorem Touches.kept {s s' : Shared} (h : s.Touches s') : s.Kept s' := by
  cases h with
  | nothing => exact .refl s
  | update id f hid hf => exact updateStream_kept ..

theorem handleHeaders_touches (gunzip : GunzipLimited) (s : Shared) (frame : MetaHeaders)
    (r : Response) (expected : Option Nat) :
    s.Touches (s.handleHeaders gunzip frame r expected).1 := by
  unfold handleHeaders
  dsimp only
  split
  · exact .nothing
  · split
    · exact .nothing
    · split
      · exact .update _ _ (fun _ => rfl) (fun _ => rfl)
      · split
        · exact .nothing
        · exact .update _ _ (fun _ => rfl) (fun _ => rfl)

theorem handleData_touches (gunzip : GunzipLimited) (s : Shared) (id : Nat) (data : Bytes)
    (ended : Bool) : s.Touches (s.handleData gunzip id data ended).1 := by
  unfold handleData
  split
  · exact .nothing
  · split
    · exact .nothing
    · split
      · exact .nothing
      · split
        · exact .nothing
        · exact .update _ _ (fun _ => rfl) (fun _ => rfl)

theorem applySettings_kept (settings : List Setting) :
    s.Kept (s.applySettings settings).1 := by
  induction settings generalizing s with
  | nil => exact .refl s
  | cons setting settings ih =>
    unfold applySettings
    split
    · refine Kept.trans ?_ (ih _)
      unfold applySetting
      split <;> exact ⟨rfl, rfl, rfl, fun h => h⟩
    · exact .refl s

theorem handleGoAway_kept (lastStreamID code : Nat) :
    s.Kept (s.handleGoAway lastStreamID code) := by
  unfold handleGoAway
  dsimp only
  have hk := fun (g : GoAway) (ids : List Nat) =>
    finishAll_kept { s with goAway := some g } (.goAway g.lastStreamID g.code) ids
  exact ⟨(hk _ _).nextStreamID, (hk _ _).window, (hk _ _).credits, (hk _ _).closed⟩

end Shared

/-- Steps that leave the requests, the write loop and the wire alone: they put at most one reply on
the channel, and raise the connection's window by at most one accepted increment. -/
structure Session.Quiet (s s' : Session) : Prop where
  calls : s'.calls = s.calls
  writer : s'.writer = s.writer
  wire : s'.wire = s.wire
  sends : (s'.writeCh = s.writeCh ∧ s'.writes = s.writes) ∨
    ∃ r, s'.writeCh = s.writeCh ++ [(s.writes.length, .reply r)] ∧
      s'.writes = s.writes ++ [{ owner := none }]
  nextStreamID : s'.shared.nextStreamID = s.shared.nextStreamID
  window : (s'.shared.connectionWindow = s.shared.connectionWindow ∧
      s'.shared.credits = s.shared.credits) ∨
    ∃ n : Nat, s'.shared.connectionWindow = s.shared.connectionWindow + n ∧
      s'.shared.credits = s.shared.credits ++ [n] ∧ s.shared.connectionWindow + n ≤ maxWindowSize
  closed : s.shared.closeErr.isSome = true → s'.shared.closeErr.isSome = true

theorem Shared.Kept.quiet {s : Session} {shared : Shared} (h : s.shared.Kept shared)
    (reader : List ReaderOp) (reading : Bool) :
    s.Quiet { s with shared := shared, reader := reader, reading := reading } :=
  ⟨rfl, rfl, rfl, .inl ⟨rfl, rfl⟩, h.nextStreamID, .inl ⟨h.window, h.credits⟩, h.closed⟩

theorem handleWindowUpdate_quiet (s : Session) (id increment : Nat) (rest : List ReaderOp) :
    s.Quiet (s.orShutdown (s.shared.handleWindowUpdate id increment) rest) := by
  unfold Session.orShutdown Shared.handleWindowUpdate
  split
  · split
    · exact (Shared.Kept.refl s.shared).quiet ..
    · exact ⟨rfl, rfl, rfl, .inl ⟨rfl, rfl⟩, rfl, .inr ⟨increment, rfl, rfl, by omega⟩, fun h => h⟩
  · have hsignal : s.shared.Kept s.shared.signalFlowLocked := ⟨rfl, rfl, rfl, fun h => h⟩
    split
    · split
      · exact hsignal.quiet ..
      · split
        · exact (Shared.Kept.refl s.shared).quiet ..
        · exact ⟨rfl, rfl, rfl, .inl ⟨rfl, rfl⟩, rfl, .inl ⟨rfl, rfl⟩, fun h => h⟩
    · exact hsignal.quiet ..

theorem readerStep_quiet {s s' : Session} (h : s.readerStep gunzip rest op choice = some s') :
    s.Quiet s' := by
  cases choice with
  | go =>
    cases op with
    | finish id r e =>
      cases h
      exact (Shared.finishStream_finishes ..).kept.quiet ..
    | queue r =>
      simp only [Session.readerStep] at h
      split at h
      · cases h
        exact ⟨rfl, rfl, rfl, .inr ⟨r, rfl, rfl⟩, rfl, .inl ⟨rfl, rfl⟩, fun h => h⟩
      · cases h
    | headers frame r expected =>
      cases h
      exact (Shared.handleHeaders_touches ..).kept.quiet ..
    | observe id status headers =>
      cases h
      exact (Shared.updateStream_kept ..).quiet ..
    | data id payload ended =>
      cases h
      exact (Shared.handleData_touches ..).kept.quiet ..
    | goAway lastStreamID code =>
      cases h
      exact (Shared.handleGoAway_kept ..).quiet ..
    | windowUpdate id increment =>
      cases h
      exact handleWindowUpdate_quiet ..
    | settings settings =>
      cases h
      exact (Shared.applySettings_kept ..).quiet ..
    | shutdown e =>
      cases h
      exact (Shared.shutdown_kept ..).quiet ..
  | context => cases op <;> cases h
  | session =>
    cases op with
    | queue r =>
      simp only [Session.readerStep] at h
      split at h
      · cases h
        exact (Shared.Kept.refl s.shared).quiet ..
      · cases h
    | _ => cases h

inductive Session.Moves (gunzip : GunzipLimited) (s : Session) : Act → Session → Prop where
  | start (block body : Bytes) :
      Moves gunzip s (.start block body)
        { s with calls := s.calls ++ [{ block := block, body := body }] }
  | cancel (i : Nat) (cause : ContextError) (hi : s.calls[i]? = some c) (hc : c.ctx = none) :
      Moves gunzip s (.cancel i cause)
        { s with calls := s.calls.set i { c with ctx := some cause } }
  | call (i : Nat) (choice : Choice) (hi : s.calls[i]? = some c) (hm : c.Move s i choice u c') :
      Moves gunzip s (.call i choice) { u with calls := u.calls.set i c' }
  | writer (choice : WriterChoice) (hw : s.Writes s') : Moves gunzip s (.writer choice) s'
  | receive (frame : Incoming) (hr : s.reader = []) :
      Moves gunzip s (.receive frame)
        { s with reader := frame.ops, received := s.received ++ [frame] }
  | reader (choice : Choice) (hr : s.reader = op :: rest)
      (hstep : s.readerStep gunzip rest op choice = some s') : Moves gunzip s (.reader choice) s'
  | close : Moves gunzip s .close { s with shared := s.shared.shutdown .sessionClosed }

theorem Session.receive_quiet (s : Session) (frame : Incoming) :
    s.Quiet { s with reader := frame.ops, received := s.received ++ [frame] } :=
  ⟨rfl, rfl, rfl, .inl ⟨rfl, rfl⟩, rfl, .inl ⟨rfl, rfl⟩, fun h => h⟩

theorem Session.close_quiet (s : Session) :
    s.Quiet { s with shared := s.shared.shutdown .sessionClosed } :=
  (Shared.shutdown_kept ..).quiet s.reader s.reading

theorem Session.Writes.frame {s s' : Session} (h : s.Writes s') :
    s'.calls = s.calls ∧ s.shared.Kept s'.shared := by
  cases h with
  | shut e hw => exact ⟨rfl, Shared.shutdown_kept ..⟩
  | _ => exact ⟨rfl, .refl _⟩

theorem Call.Move.closed {s u : Session} {c c' : Call} (h : c.Move s i choice u c')
    (hc : s.shared.closeErr.isSome = true) : u.shared.closeErr.isSome = true := by
  cases h with
  | failed hp | wasReset hp => exact (Shared.cancelStream_kept ..).closed hc
  | _ => exact hc

theorem Session.Moves.closed {s s' : Session} (h : s.Moves gunzip a s')
    (hc : s.shared.closeErr.isSome = true) : s'.shared.closeErr.isSome = true := by
  cases h with
  | start block body => exact hc
  | cancel i cause hi hctx => exact hc
  | call i choice hi hm => exact hm.closed hc
  | writer choice hw => exact hw.frame.2.closed hc
  | receive frame hr => exact hc
  | reader choice hr hread => exact (readerStep_quiet hread).closed hc
  | close => exact s.close_quiet.closed hc

theorem Session.Moves.live {s s' : Session} (h : s.Moves gunzip a s')
    (hlive : s'.shared.closeErr = none) : s.shared.closeErr = none := by
  cases hc : s.shared.closeErr with
  | none => rfl
  | some e =>
    have hclosed := h.closed (by rw [hc]; rfl)
    rw [hlive] at hclosed
    cases hclosed

theorem sessionStep_moves {s s' : Session} (h : sessionStep gunzip s a = some s') :
    s.Moves gunzip a s' := by
  cases a with
  | start block body =>
    cases h
    exact .start block body
  | cancel i cause =>
    simp only [sessionStep] at h
    split at h
    · rename_i c hi
      split at h
      · rename_i hc
        cases h
        exact .cancel i cause hi (Option.isNone_iff_eq_none.1 hc)
      · cases h
    · cases h
  | call i choice =>
    simp only [sessionStep] at h
    split at h
    · rename_i c hi
      obtain ⟨⟨u, c'⟩, hu, rfl⟩ := Option.map_eq_some_iff.1 h
      exact .call i choice hi (callStep_move hu)
    · cases h
  | writer choice => exact .writer choice (writerStep_writes h)
  | receive frame =>
    simp only [sessionStep] at h
    split at h
    · rename_i hr
      split at h
      · cases h
        exact .receive frame hr
      · cases h
    · cases h
  | reader choice =>
    simp only [sessionStep] at h
    split at h
    · rename_i hr
      exact .reader choice hr h
    · cases h
  | close =>
    cases h
    exact .close

theorem newSession_kept (h : newSession settings = some s) :
    ∃ shared, s = { shared := shared } ∧ ({} : Shared).Kept shared ∧
      ∃ list, ({} : Shared).applySettings list = (shared, none) := by
  unfold newSession at h
  split at h
  · rename_i shared hs
    cases h
    have hk := Shared.applySettings_kept {} settings
    rw [hs] at hk
    exact ⟨shared, rfl, hk, settings, hs⟩
  · cases h

def Sample.noGunzip : GunzipLimited := fun _ _ => none

end Repost.H2
