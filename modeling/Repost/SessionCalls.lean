import Repost.SessionLoops

namespace Repost.H2
open GoText Runs
set_option autoImplicit true

/-- The steps of a request that leave the rest of the session alone. -/
inductive Call.Turn (s : Session) (c : Call) (choice : Choice) : Call → Prop where
  | refused (hp : c.point = .acquire) (e : SessionError) : Turn s c choice (c.leave (.error e))
  | admissionWait (hp : c.point = .acquire) :
      Turn s c choice { c with point := .awaitAdmission s.shared.admissionChanged }
  | admissionRetry (hp : c.point = .awaitAdmission g) : Turn s c choice { c with point := .acquire }
  | admissionLeft (hp : c.point = .awaitAdmission g) (e : SessionError) :
      Turn s c choice (c.leave (.error e))
  | checked (hp : c.point = .check p) (hc : c.contextFor p = none) :
      Turn s c choice { c with point := .enqueue p }
  | checkEnded (hp : c.point = .check p) (hc : c.contextFor p = some e) :
      Turn s c choice (c.wrote p (some (.context e)))
  | enqueueEnded (hp : c.point = .enqueue p) (hx : choice = .context) (hc : c.contextFor p = some e) :
      Turn s c choice (c.wrote p (some (.context e)))
  | written (hp : c.point = .await p w ∨ c.point = .awaitStarted p w) (hx : choice = .go)
      (hw : (s.writes[w]?).bind (·.done) = some r) : Turn s c choice (c.wrote p r)
  | awaitEnded (hp : c.point = .await p w) (hx : choice = .context) (hc : c.contextFor p = some e)
      (hs : (s.writes[w]?).any (·.started) = false) : Turn s c choice (c.wrote p (some (.context e)))
  | awaitStarted (hp : c.point = .await p w) :
      Turn s c choice { c with point := .awaitStarted p w }
  | writeDone (hp : c.point = .enqueue p ∨ c.point = .await p w ∨ c.point = .awaitStarted p w)
      (hd : s.shared.closeErr.isSome = true) (e : SessionError) : Turn s c choice (c.wrote p (some e))
  | reserveStopped (hp : c.point = .reserve ∨ c.point = .awaitFlow g)
      (h : c.ctx ≠ none ∨ (∃ st, s.shared.object c.stream = some st ∧ st.finished = true) ∨
        s.shared.closeErr.isSome = true) (e : SessionError) :
      Turn s c choice { c with point := .reserveFailed e }
  | reserveWait (hp : c.point = .reserve) :
      Turn s c choice { c with point := .awaitFlow s.shared.flowChanged }
  | flowRetry (hp : c.point = .awaitFlow g) : Turn s c choice { c with point := .reserve }
  | responded (hp : c.point = .awaitResponse ∨ c.point = .reserveFailed e)
      (ho : s.shared.object c.stream = some st) (hf : st.finished = true) :
      Turn s c choice (c.leave st.result)
  | resetting (hp : c.point = .awaitResponse ∨ ∃ r, c.point = .reserveFailed r)
      (hc : c.ctx = some e) : Turn s c choice { c with point := .check (.reset e) }
  | reserveFails (hp : c.point = .reserveFailed e) (hc : c.ctx = none)
      (ho : s.shared.object c.stream = some st) (hf : st.finished = false) :
      Turn s c choice { c with point := .fail e }
  | responseDone (hp : c.point = .awaitResponse) (hd : s.shared.closeErr.isSome = true)
      (e : SessionError) : Turn s c choice (c.leave (.error e))

inductive Call.Move (s : Session) (i : Nat) (c : Call) (choice : Choice) : Session → Call → Prop where
  | turn (h : c.Turn s choice c') : Move s i c choice s c'
  | acquired (hp : c.point = .acquire) (hc : s.shared.closeErr = none)
      (hg : s.shared.goAway = none) (hn : s.shared.nextStreamID ≤ maxStreamID)
      (hroom : s.shared.streams.length < s.shared.maxConcurrent) :
      Move s i c choice { s with shared := s.shared.openStream }
        { c with stream := s.shared.nextStreamID, point := .check .headers }
  | sent (hp : c.point = .enqueue p) (hx : choice = .go)
      (hroom : s.writeCh.length < writeQueueSize) :
      Move s i c choice (s.send (p.owner i) (c.job p)) { c with point := .await p s.writes.length }
  | reserved (n : Nat) (hp : c.point = .reserve) (hc : c.ctx = none)
      (ho : s.shared.object c.stream = some st) (hf : st.finished = false) (hpos : 0 < n)
      (hbody : c.offset + n ≤ c.body.length) (hframe : n ≤ s.shared.maxFrameSize)
      (hconn : (n : Int) ≤ s.shared.connectionWindow) (hstream : (n : Int) ≤ st.sendWindow) :
      Move s i c choice { s with shared := s.shared.debit c.stream n } { c with point := .check (.data n) }
  | failed (hp : c.point = .fail e) :
      Move s i c choice { s with shared := s.shared.cancelStream c.stream e } (c.leave (.error e))
  | wasReset (hp : c.point = .afterReset cause err) :
      Move s i c choice { s with shared := s.shared.cancelStream c.stream (.context cause) }
        (c.leave (.error (resetError cause err)))

theorem Call.wrote_cases (c : Call) (p : Purpose) (r : Option SessionError) :
    (r = none ∧ ∃ k, (c.wrote p r = { c with offset := k, point := .reserve } ∨
      c.wrote p r = { c with offset := k, point := .awaitResponse })) ∨
    (∃ e, r = some e ∧ c.wrote p r = { c with point := .fail e }) ∨
    ∃ cause, p = .reset cause ∧ c.wrote p r = { c with point := .afterReset cause r } := by
  have hproceed : ∀ k, ({ c with offset := k } : Call).proceed =
      { c with offset := k, point := .reserve } ∨ ({ c with offset := k } : Call).proceed =
      { c with offset := k, point := .awaitResponse } := by
    intro k
    unfold Call.proceed
    dsimp only
    split
    · exact .inl rfl
    · exact .inr rfl
  unfold Call.wrote
  split
  · exact .inl ⟨rfl, c.offset, hproceed c.offset⟩
  · exact .inl ⟨rfl, _, hproceed _⟩
  · exact .inr (.inl ⟨_, rfl, rfl⟩)
  · exact .inr (.inl ⟨_, rfl, rfl⟩)
  · exact .inr (.inr ⟨_, rfl, rfl⟩)

theorem acquireStream_move {s : Session} {c : Call} (hp : c.point = .acquire)
    (choice : Choice) :
    Call.Move s i c choice (s.withShared (s.shared.acquireStream c)).1
      (s.withShared (s.shared.acquireStream c)).2 := by
  unfold Session.withShared Shared.acquireStream
  split
  · exact .turn (.refused hp _)
  · exact .turn (.refused hp _)
  · rename_i hc hg
    split
    · exact .turn (.refused hp _)
    · rename_i hn
      split
      · rename_i hroom
        exact .acquired hp hc hg (Nat.le_of_not_lt hn) hroom
      · exact .turn (.admissionWait hp)

theorem reserveSend_move {s : Session} {c : Call} (hp : c.point = .reserve)
    (h : s.shared.reserveSend c = some r) (choice : Choice) :
    Call.Move s i c choice (s.withShared r).1 (s.withShared r).2 := by
  unfold Shared.reserveSend at h
  split at h
  · rename_i e he
    cases h
    exact .turn (.reserveStopped (g := 0) (.inl hp) (.inl (by rw [he]; exact nofun)) _)
  · rename_i hctx
    split at h
    · cases h
    · rename_i st ho
      split at h
      · rename_i hf
        cases h
        exact .turn (.reserveStopped (g := 0) (.inl hp) (.inr (.inl ⟨st, ho, hf⟩)) _)
      · rename_i hf
        dsimp only at h
        split at h
        · rename_i hpos
          cases h
          refine .reserved _ hp hctx ho (Bool.eq_false_iff.2 hf) hpos ?_ ?_ ?_ ?_ <;> omega
        · cases h
          exact .turn (.reserveWait hp)

variable {s s' : Session}

theorem whenEnded_eq {c' : Call} (h : s.whenEnded ctx f = some (s', c')) :
    ∃ e, ctx = some e ∧ s' = s ∧ c' = f e := by
  obtain ⟨e, he, hr⟩ := Option.map_eq_some_iff.1 h
  cases hr
  exact ⟨e, he, rfl, rfl⟩

theorem whenDone_eq {c c' : Call} (h : s.whenDone c = some (s', c')) :
    s.shared.closeErr.isSome = true ∧ s' = s ∧ c' = c := by
  unfold Session.whenDone at h
  split at h
  · rename_i hd
    cases h
    exact ⟨hd, rfl, rfl⟩
  · cases h

theorem whenWritten_eq {c' : Call} (h : s.whenWritten w f = some (s', c')) :
    ∃ r, (s.writes[w]?).bind (·.done) = some r ∧ s' = s ∧ c' = f r := by
  unfold Session.whenWritten at h
  split at h
  · rename_i r hr
    cases h
    exact ⟨r, hr, rfl, rfl⟩
  · cases h

theorem writeStage_move {c c' : Call} (hp : c.point = point)
    (hw : point = .check p ∨ point = .enqueue p ∨ point = .await p w ∨ point = .awaitStarted p w)
    (h : s.callStep i c point choice = some (s', c')) : c.Move s i choice s' c' := by
  rcases hw with rfl | rfl | rfl | rfl
  · cases choice <;> simp only [Session.callStep] at h
    · split at h
      · rename_i e he
        cases h
        exact .turn (.checkEnded hp he)
      · rename_i hn
        cases h
        exact .turn (.checked hp hn)
    · cases h
    · cases h
  · cases choice <;> simp only [Session.callStep] at h
    · split at h
      · rename_i hroom
        cases h
        exact .sent hp rfl hroom
      · cases h
    · obtain ⟨e, he, rfl, rfl⟩ := whenEnded_eq h
      exact .turn (.enqueueEnded hp rfl he)
    · obtain ⟨hd, rfl, rfl⟩ := whenDone_eq h
      exact .turn (.writeDone (w := 0) (.inl hp) hd _)
  · cases choice <;> simp only [Session.callStep] at h
    · obtain ⟨r, hr, rfl, rfl⟩ := whenWritten_eq h
      exact .turn (.written (.inl hp) rfl hr)
    · obtain ⟨e, he, rfl, rfl⟩ := whenEnded_eq h
      cases hs : (s'.writes[w]?).any (·.started) with
      | true =>
        rw [if_pos rfl]
        exact .turn (.awaitStarted hp)
      | false =>
        rw [if_neg Bool.false_ne_true]
        exact .turn (.awaitEnded hp rfl he hs)
    · obtain ⟨hd, rfl, rfl⟩ := whenDone_eq h
      exact .turn (.writeDone (.inr (.inl hp)) hd _)
  · cases choice <;> simp only [Session.callStep] at h
    · obtain ⟨r, hr, rfl, rfl⟩ := whenWritten_eq h
      exact .turn (.written (.inr hp) rfl hr)
    · cases h
    · split at h
      · rename_i hd
        obtain ⟨e, he, rfl, rfl⟩ := whenEnded_eq h
        exact .turn (.writeDone (.inr (.inr hp)) hd _)
      · cases h

theorem callStep_move {c c' : Call}
    (h : s.callStep i c c.point choice = some (s', c')) : c.Move s i choice s' c' := by
  cases hp : c.point with
  | check p => exact writeStage_move (w := 0) hp (.inl rfl) (hp ▸ h)
  | enqueue p => exact writeStage_move (w := 0) hp (.inr (.inl rfl)) (hp ▸ h)
  | await p w => exact writeStage_move hp (.inr (.inr (.inl rfl))) (hp ▸ h)
  | awaitStarted p w => exact writeStage_move hp (.inr (.inr (.inr rfl))) (hp ▸ h)
  | acquire =>
    rw [hp] at h
    cases choice <;> simp only [Session.callStep] at h
    · have hm := acquireStream_move (s := s) (i := i) hp .go
      rwa [Option.some.inj h] at hm
    · cases h
    · cases h
  | awaitAdmission g =>
    rw [hp] at h
    cases choice <;> simp only [Session.callStep] at h
    · split at h
      · cases h
        exact .turn (.admissionRetry hp)
      · cases h
    · obtain ⟨e, -, rfl, rfl⟩ := whenEnded_eq h
      exact .turn (.admissionLeft hp _)
    · obtain ⟨-, rfl, rfl⟩ := whenDone_eq h
      exact .turn (.admissionLeft hp _)
  | reserve =>
    rw [hp] at h
    cases choice <;> simp only [Session.callStep] at h
    · obtain ⟨r, hr, he⟩ := Option.map_eq_some_iff.1 h
      have hm := reserveSend_move (i := i) hp hr .go
      rwa [he] at hm
    · cases h
    · cases h
  | awaitFlow g =>
    rw [hp] at h
    cases choice <;> simp only [Session.callStep] at h
    · split at h
      · cases h
        exact .turn (.flowRetry hp)
      · cases h
    · obtain ⟨e, he, rfl, rfl⟩ := whenEnded_eq h
      exact .turn (.reserveStopped (.inr hp) (.inl (by rw [he]; exact nofun)) _)
    · obtain ⟨hd, rfl, rfl⟩ := whenDone_eq h
      exact .turn (.reserveStopped (.inr hp) (.inr (.inr hd)) _)
  | reserveFailed e =>
    rw [hp] at h
    cases choice <;> simp only [Session.callStep] at h
    · split at h
      · cases h
      · rename_i st ho
        split at h
        · rename_i hf
          cases h
          exact .turn (.responded (.inr hp) ho hf)
        · rename_i hf
          split at h
          · rename_i e' he
            cases h
            exact .turn (.resetting (.inr ⟨_, hp⟩) he)
          · rename_i hn
            cases h
            exact .turn (.reserveFails hp hn ho (Bool.eq_false_iff.2 hf))
    · cases h
    · cases h
  | fail e =>
    rw [hp] at h
    cases choice <;> simp only [Session.callStep] at h
    · cases h
      exact .failed hp
    · cases h
    · cases h
  | afterReset cause err =>
    rw [hp] at h
    cases choice <;> simp only [Session.callStep] at h
    · cases h
      exact .wasReset hp
    · cases h
    · cases h
  | awaitResponse =>
    rw [hp] at h
    cases choice <;> simp only [Session.callStep] at h
    · split at h
      · rename_i st ho
        split at h
        · rename_i hf
          cases h
          exact .turn (.responded (e := .eof) (.inl hp) ho hf)
        · cases h
      · cases h
    · obtain ⟨e, he, rfl, rfl⟩ := whenEnded_eq h
      exact .turn (.resetting (.inl hp) he)
    · obtain ⟨hd, rfl, rfl⟩ := whenDone_eq h
      exact .turn (.responseDone hp hd _)
  | returned r =>
    rw [hp] at h
    cases choice <;> cases h

end Repost.H2
