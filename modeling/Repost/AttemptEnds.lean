import Repost.AttemptRuns

namespace Repost
open GoText Traced
set_option autoImplicit true

def Event.Idle (e : Event) : Prop := e.kind ≠ .send ∧ e.kind ≠ .hook

theorem idle_loose (w : World) :
    Loose w (fun kind => kind ≠ .send ∧ kind ≠ .hook) (Only Event.Idle) :=
  Only.loose w (fun _ => ⟨nofun, nofun⟩) fun _ h => h

inductive Closes (w : World) (cfg : RuntimeConfig) (permit : Permit) (k : Nat) (s : OpState) :
    Except Stop Verdict → OpState → List Event → Prop where
  | failed (hs : Silent s s₁ t₁) (he : endAttempt cfg (some e) false w s₁ = (.ok (), s', t₂))
      (hc : e.attemptCount = k) : Closes w cfg permit k s (.error (.error e)) s' (t₁ ++ t₂)
  | accepted (hs : Silent s s₁ (t₁ ++ [.clock (some now)])) (hn : now < permit.exclusiveDeadline)
      (he : endAttempt cfg none false w s₁ = (.ok (), s', t₂)) :
      Closes w cfg permit k s (.ok (.accepted result)) s' (t₁ ++ [.clock (some now)] ++ t₂)
  | retried (hs : Silent s s₁ t₁) (he : endAttempt cfg (some e) true w s₁ = (.ok (), s₂, t₂))
      (hc : e.attemptCount = k) (hw : Waits w cfg e k s₂ r s' t₃) :
      Closes w cfg permit k s (r.map fun _ => .retry c) s' (t₁ ++ (t₂ ++ t₃))

theorem Closes.after (hs : Silent s s₁ t₁) (h : Closes w cfg permit k s₁ r s' t₂) :
    Closes w cfg permit k s r s' (t₁ ++ t₂) := by
  have hcalm := Silent.calm w
  cases h with
  | failed hs' he hc =>
    rw [← List.append_assoc]
    exact .failed (hcalm.trans hs hs') he hc
  | accepted hs' hn he =>
    rw [← List.append_assoc, ← List.append_assoc]
    have hs'' := hcalm.trans hs hs'
    rw [← List.append_assoc] at hs''
    exact .accepted hs'' hn he
  | retried hs' he hc hw =>
    rw [← List.append_assoc]
    exact .retried (hcalm.trans hs hs') he hc hw

theorem failAttempt_run {α : Type} {r : Except Stop α}
    (h : (do endAttempt cfg (some e) false; fail e : Op α) w s = (r, s', t)) :
    r = .error (.error e) ∧ endAttempt cfg (some e) false w s = (.ok (), s', t) := by
  obtain ⟨_, s₁, t₁, t₂, he, hk, rfl⟩ :=
    (endAttempt_spec (D := fun _ => True) trivial).bind_run h
  cases hk
  rw [List.append_nil]
  exact ⟨rfl, he⟩

theorem retryOrFail_run (hc : e.attemptCount = k)
    (h : retryOrFail cfg permit e response k committed w s = (r, s', t)) :
    Closes w cfg permit k s r s' t ∧
      ∀ c, r = .ok (.retry c) → e.retryable = true ∧ k ≠ cfg.maxAttempts := by
  obtain ⟨terminal, s₁, t₁, t₂, hterminal, hk, rfl⟩ :=
    (preAttemptTerminal_spec (D := fun _ => True)).bind_run h
  have hs := (Silent.calm w).steady.preAttemptTerminal hterminal
  rcases preAttemptTerminal_run hterminal with ⟨now, hr, -⟩ | ⟨e', hr, hc'⟩
  · cases hr
    dsimp only at hk
    split at hk
    · obtain ⟨rfl, he⟩ := failAttempt_run hk
      exact ⟨.failed hs he hc, nofun⟩
    · rename_i hretry
      simp only [Bool.or_eq_true, Bool.not_eq_eq_eq_not, Bool.not_true, decide_eq_true_eq,
        not_or, Bool.not_eq_false] at hretry
      obtain ⟨_, s₂, t₃, t₄, he, hwait, rfl⟩ :=
        (endAttempt_spec (D := fun _ => True) trivial).bind_run hk
      refine ⟨?_, fun c _ => hretry⟩
      rcases bind_run hwait with ⟨x, hx, rfl⟩ | ⟨_, s₃, t₅, t₆, hb, hlast, rfl⟩
      · exact .retried (r := .error x) (c := committed) hs he hc (backoff_run hx)
      · cases hlast
        rw [List.append_nil]
        exact .retried (r := .ok ()) hs he hc (backoff_run hb)
  · cases hr
    obtain ⟨rfl, he⟩ := failAttempt_run hk
    refine ⟨.failed hs he ?_, nofun⟩
    split
    · exact hc'
    · exact hc'

/-- The error of an attempt's outcome, given the floor before it and after it. -/
def attemptError (cfg : RuntimeConfig) (p : Prepared) (operationID : Bytes) (attempt : Nat)
    (committedBefore committed : Bool) (outcome : AttemptOutcome) : Option Error :=
  match outcome.response, outcome.failure with
  | some r, _ =>
    match validateAttemptResponse r p.eventType p.customerID p.timestamp with
    | .ok _ => none
    | .error e =>
      some (responseError cfg r committedBefore
        { e with operationID := operationID, idempotencyKey := p.key, attemptCount := attempt })
  | none, some f =>
    let e := setAttemptCause cfg (classifyAttemptFailure f committed)
    some { e with operationID := operationID, idempotencyKey := p.key, attemptCount := attempt }
  | none, none => none

theorem responseError_attemptCount :
    (responseError cfg r before e).attemptCount = e.attemptCount := by
  unfold responseError
  dsimp only
  split <;> rfl

structure Judged (w : World) (cfg : RuntimeConfig) (permit : Permit) (p : Prepared) (k : Nat)
    (before committed : Bool) (outcome : AttemptOutcome) (s : OpState) (r : Except Stop Verdict)
    (s' : OpState) (t : List Event) : Prop where
  closes : Closes w cfg permit k s r s' t
  retryable : ∀ c, r = .ok (.retry c) → k ≠ cfg.maxAttempts ∧
    ∃ e, attemptError cfg p w.operationID k before committed outcome = some e ∧ e.retryable = true

theorem rejectMalformed_run (h : rejectMalformed cfg p k response w s = (r, s', t)) :
    Closes w cfg permit k s r s' t ∧ ∀ c, r ≠ .ok (.retry c) := by
  unfold rejectMalformed at h
  have h := ask_run h
  obtain ⟨_, s₁, t₁, t₂, hclose, hk, rfl⟩ :=
    (closeResponse_spec (D := fun _ => True)).bind_run h
  obtain ⟨rfl, he⟩ := failAttempt_run hk
  exact ⟨.failed ((Silent.calm w).closeResponse nofun hclose) he rfl, nofun⟩

theorem handleResponse_run (ho : outcome.response = some response)
    (h : handleResponse cfg permit p k before committed response w s = (r, s', t)) :
    Judged w cfg permit p k before committed outcome s r s' t := by
  unfold handleResponse at h
  have h := ask_run h
  obtain ⟨_, s₁, t₁, t₂, hclose, hk, rfl⟩ :=
    (closeResponse_spec (D := fun _ => True)).bind_run h
  have hs := (Silent.calm w).closeResponse nofun hclose
  cases hv : validateAttemptResponse response p.eventType p.customerID p.timestamp with
  | error e =>
    simp only [hv] at hk
    obtain ⟨hcl, hr⟩ := retryOrFail_run (responseError_attemptCount.trans rfl) hk
    refine ⟨hcl.after hs, fun c hc => ⟨(hr c hc).2, _, ?_, (hr c hc).1⟩⟩
    simp only [attemptError, ho, hv]
  | ok result =>
    simp only [hv] at hk
    obtain ⟨terminal, s₂, t₃, t₄, hterminal, hnext, rfl⟩ :=
      (deadlineTerminal_spec (D := fun _ => True)).bind_run hk
    have hs' := (Silent.calm w).steady.deadlineTerminal hterminal
    rcases deadlineTerminal_run hterminal with ⟨now, hr, hn, rfl⟩ | ⟨e, hr, hc⟩
    · cases hr
      obtain ⟨_, s₃, t₅, t₆, he, hlast, rfl⟩ :=
        (endAttempt_spec (D := fun _ => True) trivial).bind_run hnext
      cases hlast
      refine ⟨?_, nofun⟩
      have haccepted : Closes w cfg permit k s₁ (.ok (.accepted result)) s'
          ([] ++ [.clock (some now)] ++ t₅) := .accepted hs' hn he
      rw [List.append_nil]
      exact haccepted.after hs
    · cases hr
      obtain ⟨rfl, he⟩ := failAttempt_run hnext
      exact ⟨(Closes.failed hs' he hc).after hs, nofun⟩

theorem classify_run
    (h : classify cfg permit p k before committed outcome w s = (r, s', t)) :
    Judged w cfg permit p k before committed outcome s r s' t := by
  have hmalformed : ∀ {response}, rejectMalformed cfg p k response w s = (r, s', t) →
      Judged w cfg permit p k before committed outcome s r s' t := by
    intro response hrun
    have hrejected : Closes w cfg permit k s r s' t ∧ ∀ c, r ≠ .ok (.retry c) :=
      rejectMalformed_run hrun
    exact ⟨hrejected.1, fun c hc => absurd hc (hrejected.2 c)⟩
  unfold classify at h
  split at h
  · exact hmalformed h
  · rcases hresponse : outcome.response with _ | response
    · rcases hfailure : outcome.failure with _ | f
      · simp only [hresponse, hfailure] at h
        exact hmalformed h
      · simp only [hresponse, hfailure] at h
        unfold handleFailure at h
        have h := ask_run h
        obtain ⟨hcl, hr⟩ := retryOrFail_run rfl h
        refine ⟨hcl, fun c hc => ⟨(hr c hc).2, _, ?_, (hr c hc).1⟩⟩
        simp only [attemptError, hresponse, hfailure]
    · simp only [hresponse] at h
      exact handleResponse_run hresponse h

theorem boundedAttemptCall_run (h : boundedAttemptCall request w s = (.ok a, s', t)) :
    t = [.beginCall, .send request, .endCall] ∨
      (t = [] ∨ t = [.beginCall, .send request]) ∧ a.completed = false ∧
        deadlineDone w s'.tick = true := by
  unfold boundedAttemptCall at h
  have h := ask_run h
  have h := observe_bind h
  split at h
  · rename_i hgone
    cases h
    exact .inr ⟨.inl rfl, rfl, deadlineDone_mono hgone (Nat.le_succ _)⟩
  · obtain ⟨t₁, hsend, rfl⟩ := emit_run h
    obtain ⟨t₂, hlook, rfl⟩ := emit_run hsend
    have hlook := observe_bind hlook
    split at hlook
    · rename_i hgone
      cases hlook
      rw [Bool.and_eq_true] at hgone
      exact .inr ⟨.inr rfl, rfl, deadlineDone_mono hgone.1 (Nat.le_succ _)⟩
    · obtain ⟨t₃, hend, rfl⟩ := emit_run hlook
      cases hend
      exact .inl rfl

def Fails (w : World) (cfg : RuntimeConfig) (k : Nat) (s : OpState) (x : Stop) (s' : OpState)
    (t : List Event) : Prop :=
  ∃ e s₁ t₁ t₂, x = .error e ∧ e.attemptCount = k ∧ Silent s s₁ t₁ ∧
    endAttempt cfg (some e) false w s₁ = (.ok (), s', t₂) ∧ t = t₁ ++ t₂

theorem Fails.closes (h : Fails w cfg k s x s' t) : Closes w cfg permit k s (.error x) s' t := by
  obtain ⟨e, s₁, t₁, t₂, rfl, hc, hs, he, rfl⟩ := h
  exact .failed hs he hc

theorem Fails.after (hs : Silent s s₁ t₁) (h : Fails w cfg k s₁ x s' t₂) :
    Fails w cfg k s x s' (t₁ ++ t₂) := by
  obtain ⟨e, s₂, t₃, t₄, hx, hc, hs', he, rfl⟩ := h
  exact ⟨e, s₂, t₁ ++ t₃, t₄, hx, hc, (Silent.calm w).trans hs hs', he,
    (List.append_assoc ..).symm⟩

theorem lateOutcome_run
    (h : lateOutcome cfg permit p request committed a w s = (r, s', t)) :
    (∃ outcome, r = .ok outcome ∧ deadlineDone w s.tick = false ∧ Silent s s' t) ∨
      ∃ x, r = .error x ∧ Fails w cfg request.attemptNumber s x s' t := by
  have hcalm := Silent.calm w
  obtain ⟨_, s₁, t₁, t₂, hclose, hk, rfl⟩ :=
    (closeResponse_spec (D := fun _ => True)).bind_run h
  have hs := hcalm.closeResponse nofun hclose
  obtain ⟨terminal, s₂, t₃, t₄, hterminal, hnext, rfl⟩ :=
    (preAttemptTerminal_spec (D := fun _ => True)).bind_run hk
  have hs' := hcalm.trans hs (hcalm.steady.preAttemptTerminal hterminal)
  rw [← List.append_assoc]
  rcases preAttemptTerminal_run hterminal with ⟨now, hr, hd, -⟩ | ⟨e, hr, hc⟩
  · cases hr
    cases hnext
    refine .inl ⟨_, rfl, ?_, by rwa [List.append_nil]⟩
    cases hdone : deadlineDone w s.tick with
    | false => rfl
    | true =>
      rw [deadlineDone_mono hdone hs.later] at hd
      cases hd
  · cases hr
    obtain ⟨t₅, hfail, rfl⟩ := emit_run hnext
    obtain ⟨rfl, he⟩ := failAttempt_run hfail
    refine .inr ⟨_, rfl, Fails.after hs' ⟨e, s₂, [_], t₅, rfl, hc, ?_, he, rfl⟩⟩
    exact hcalm.event s₂ _ nofun nofun

def Called (request : AttemptRequest) (t : List Event) : Prop :=
  (∀ e ∈ t, e.Idle) ∨ ∃ t', t = .beginCall :: .send request :: t' ∧ ∀ e ∈ t', e.Idle

structure SettledRun (request : AttemptRequest) (s : OpState) (st : Settled) (s' : OpState)
    (t : List Event) : Prop where
  same : st.request = request
  silent : Silent s s' t
  called : ∃ t₁, t = .beginCall :: .send request :: (t₁ ++ [.settled st]) ∧ ∀ e ∈ t₁, e.Idle

theorem settle_run (h : settle cfg permit p request committed w s = (r, s', t)) :
    (∃ st, r = .ok st ∧ SettledRun request s st s' t) ∨
      ∃ x, r = .error x ∧ Fails w cfg request.attemptNumber s x s' t ∧ Called request t := by
  have hcalm := Silent.calm w
  obtain ⟨a, s₁, t₁, t₂, hcall, hk, rfl⟩ :=
    (boundedAttemptCall_spec (D := fun _ => True)).bind_run h
  have hs := hcalm.boundedAttemptCall nofun nofun hcall
  have hrun := boundedAttemptCall_run hcall
  -- The rest of a settled attempt: nothing is called, and the record closes it.
  have hsettled : ∀ {outcome s₂ t₃ t₄}, Silent s₁ s₂ t₃ → (∀ e ∈ t₃, e.Idle) →
      t₁ = [.beginCall, .send request, .endCall] →
      (do
        countHeaderLimit outcome
        let settled : Settled :=
          { request := request, callEnd := a.callEnd, completed := a.completed,
            handed := a.outcome, effective := outcome, tracker := isCommitted a 2 }
        Prog.emit (.settled settled)
        pure settled : Op Settled) w s₂ = (r, s', t₄) →
      ∃ st, r = .ok st ∧ SettledRun request s st s' (t₁ ++ (t₃ ++ t₄)) := by
    rintro outcome s₂ t₃ t₄ hs' hidle rfl hrest
    obtain ⟨_, s₃, t₅, t₆, hcount, hemit, rfl⟩ :=
      (countHeaderLimit_spec (D := fun _ => True)).bind_run hrest
    obtain ⟨t₇, hlast, rfl⟩ := emit_run hemit
    cases hlast
    have hcounted := hcalm.countHeaderLimit nofun hcount
    refine ⟨_, rfl, rfl, ?_, .endCall :: (t₃ ++ t₅), by simp, ?_⟩
    · exact hcalm.trans hs (hcalm.trans hs' (hcalm.trans hcounted
        (hcalm.event _ _ nofun nofun)))
    · intro e he
      rcases List.mem_cons.1 he with rfl | he
      · exact ⟨nofun, nofun⟩
      · rcases List.mem_append.1 he with he | he
        · exact hidle e he
        · exact (idle_loose w).countHeaderLimit ⟨nofun, nofun⟩ hcount e he
  unfold attemptOutcome at hk
  cases hcompleted : a.completed with
  | true =>
    rw [if_pos hcompleted] at hk
    rcases hrun with ht | ⟨-, hc, -⟩
    · obtain ⟨st, hr, hst⟩ := hsettled (hcalm.refl s₁) (fun e he => by cases he) ht hk
      exact .inl ⟨st, hr, hst⟩
    · rw [hcompleted] at hc
      cases hc
  | false =>
    rw [if_neg (by rw [hcompleted]; nofun)] at hk
    rcases bind_run hk with ⟨x, hx, rfl⟩ | ⟨outcome, s₂, t₃, t₄, hlate, hrest, rfl⟩
    · have hidle := (idle_loose w).lateOutcome ⟨nofun, nofun⟩ ⟨nofun, nofun⟩ hx
      rcases lateOutcome_run hx with ⟨_, hr, -⟩ | ⟨y, hr, hfails⟩
      · cases hr
      · cases hr
        refine .inr ⟨x, rfl, hfails.after hs, ?_⟩
        rcases hrun with rfl | ⟨rfl | rfl, -⟩
        · refine .inr ⟨.endCall :: t₂, rfl, fun e he => ?_⟩
          rcases List.mem_cons.1 he with rfl | he
          · exact ⟨nofun, nofun⟩
          · exact hidle e he
        · exact .inl hidle
        · exact .inr ⟨t₂, rfl, hidle⟩
    · have hidle := (idle_loose w).lateOutcome ⟨nofun, nofun⟩ ⟨nofun, nofun⟩ hlate
      rcases lateOutcome_run hlate with ⟨_, -, hd, hs'⟩ | ⟨y, hr, -⟩
      · rcases hrun with ht | ⟨-, -, hdone⟩
        · exact .inl (hsettled hs' hidle ht hrest)
        · rw [hd] at hdone
          cases hdone
      · cases hr

/-- One attempt of the loop. It ends before it is started, or the clock is read three times, for
the budget between two checks, and then it is started, called and closed. -/
inductive AttemptRun (w : World) (cfg : RuntimeConfig) (permit : Permit) (p : Prepared) (k : Nat)
    (s : OpState) : Except Stop Verdict → OpState → List Event → Prop where
  | unstarted (hs : Silent s s' t) (hi : ∀ e ∈ t, e.Idle) (hx : Counts (k - 1) x) :
      AttemptRun w cfg permit p k s (.error x) s' t
  | started {before now after : Int} (hs : Silent s s₁ [.clock (some before), .clock (some now),
        .clock (some after)])
      (hb : before < permit.exclusiveDeadline) (ha : after < permit.exclusiveDeadline)
      (hstart : startAttempt cfg k w s₁ = (.ok headers, s₂, t₁))
      (hcl : Closes w cfg permit k s₂ r s' t₂)
      (hcall : Called (attemptRequest cfg permit p w.operationID k now headers) t₂)
      (hok : ∀ v, r = .ok v → ∃ st t₃ t₄,
        st.request = attemptRequest cfg permit p w.operationID k now headers ∧
        t₂ = .beginCall :: .send st.request :: (t₃ ++ .settled st :: t₄) ∧
        ∀ c, v = .retry c → k ≠ cfg.maxAttempts ∧ ∃ before committed e,
          attemptError cfg p w.operationID k before committed st.effective = some e ∧
            e.retryable = true) :
      AttemptRun w cfg permit p k s r s'
        ([.clock (some before), .clock (some now), .clock (some after)] ++ (t₁ ++ t₂))

theorem attemptOnce_run (h : attemptOnce cfg permit p k committed w s = (r, s', t)) :
    AttemptRun w cfg permit p k s r s' t := by
  have hcalm := Silent.calm w
  have hidle := (idle_loose w).toCalm
  unfold attemptOnce at h
  have h := ask_run h
  rcases bind_run h with ⟨x, hx, rfl⟩ | ⟨_, s₁, t₁, t₂, hfirst, hk, rfl⟩
  · exact .unstarted (hcalm.steady.checkTerminal hx) (hidle.steady.checkTerminal hx) (checkTerminal_stops hx)
  have hs := hcalm.steady.checkTerminal hfirst
  have hi := hidle.steady.checkTerminal hfirst
  obtain ⟨t₃, hbudget, rfl⟩ := clock_bind hk
  have hs := hcalm.trans hs (hcalm.clock s₁)
  have hi := hidle.trans hi (hidle.clock s₁)
  rw [List.append_cons]
  rcases bind_run hbudget with ⟨x, hx, rfl⟩ | ⟨_, s₂, t₄, t₅, hsecond, hrest, rfl⟩
  · exact .unstarted (hcalm.trans hs (hcalm.steady.checkTerminal hx))
      (hidle.trans hi (hidle.steady.checkTerminal hx)) (checkTerminal_stops hx)
  have hs := hcalm.trans hs (hcalm.steady.checkTerminal hsecond)
  have hi := hidle.trans hi (hidle.steady.checkTerminal hsecond)
  cases hreading : w.clock s₁.tick with
  | none =>
    rw [hreading] at hs hi hrest
    cases hrest
    rw [List.append_nil]
    exact .unstarted hs hi ⟨_, rfl, rfl⟩
  | some now =>
    rw [hreading] at hs hrest
    rcases checkTerminal_run hfirst with ⟨before, -, hb, rfl⟩ | ⟨_, hr, -⟩
    swap
    · cases hr
    rcases checkTerminal_run hsecond with ⟨after, -, ha, rfl⟩ | ⟨_, hr, -⟩
    swap
    · cases hr
    obtain ⟨headers, s₃, t₆, t₇, hstart, hsettle, rfl⟩ :=
      (startAttempt_spec (D := fun _ => True)).bind_run hrest
    rcases bind_run hsettle with ⟨x, hx, rfl⟩ | ⟨st, s₄, t₈, t₉, hst, hclass, rfl⟩
    · rcases settle_run hx with ⟨_, hr, -⟩ | ⟨y, hr, hfails, hcalled⟩
      · cases hr
      · cases hr
        exact .started hs hb ha hstart hfails.closes hcalled nofun
    · rcases settle_run hst with ⟨st', hr, hrun⟩ | ⟨_, hr, -⟩
      · cases hr
        obtain ⟨t₁₀, rfl, hidle'⟩ := hrun.called
        have hjudged := classify_run hclass
        have hlast := (idle_loose w).classify ⟨nofun, nofun⟩ ⟨nofun, nofun⟩ hclass
        refine .started hs hb ha hstart (hjudged.closes.after hrun.silent)
          (.inr ⟨t₁₀ ++ .settled st :: t₉, by simp, fun e he => ?_⟩) ?_
        · rcases List.mem_append.1 he with he | he
          · exact hidle' e he
          · rcases List.mem_cons.1 he with rfl | he
            · exact ⟨nofun, nofun⟩
            · exact hlast e he
        · intro v hv
          refine ⟨st, t₁₀, t₉, hrun.same, by simp [hrun.same], ?_⟩
          rintro c rfl
          obtain ⟨hmax, e, he, hretry⟩ := hjudged.retryable c hv
          exact ⟨hmax, _, _, e, he, hretry⟩
      · cases hr

/-- A whole operation. It ends before anything is reported, or it is reported from its start to its
end: the preparation fails, or the attempts decide. -/
inductive OperationRun (codec : Codec Schema Data Payload) (cfg : RuntimeConfig) (permit : Permit)
    (schema : Schema) (group member : Bytes) (input : SendInput Data) (w : World) :
    Except Stop SendResult → List Event → Prop where
  | refused (hcheck : checkTerminal permit false 0 [] w {} = (.error x, s', t)) :
      OperationRun codec cfg permit schema group member input w (.error x) t
  | unprepared (hs : Silent {} s₁ t₁) (hi : ∀ e ∈ t₁, e.Idle)
      (hstart : startObservability cfg permit w s₁ = (.ok (), s₂, t₂))
      (hprep : prepare codec cfg permit schema group member input w s₂ = (.error x, s₃, t₃))
      (hfinish : finish cfg (finalError (.error x : Except Stop SendResult)) w s₃ =
        (.ok (), s', t₄)) :
      OperationRun codec cfg permit schema group member input w (.error x)
        (t₁ ++ (t₂ ++ (t₃ ++ t₄)))
  | attempted (hs : Silent {} s₁ t₁) (hi : ∀ e ∈ t₁, e.Idle)
      (hstart : startObservability cfg permit w s₁ = (.ok (), s₂, t₂))
      (hprep : prepare codec cfg permit schema group member input w s₂ = (.ok p, s₃, t₃))
      (hloop : attemptLoop cfg permit p cfg.maxAttempts 1 false w s₃ = (r, s₄, t₄))
      (hfinish : finish cfg (finalError r) w s₄ = (.ok (), s', t₅)) :
      OperationRun codec cfg permit schema group member input w r
        (t₁ ++ (t₂ ++ (t₃ ++ t₄ ++ t₅)))

theorem finish_returns (cfg : RuntimeConfig) (err : Option Error) (w : World) (s : OpState) :
    ∃ s' t, finish cfg err w s = (.ok (), s', t) := by
  have hspec : Saying w (fun _ => True) (finish cfg err) (fun _ => True) := finish_spec trivial
  obtain ⟨_, s', t, he, -⟩ := hspec s
  exact ⟨s', t, he⟩

theorem sendAdmitted_run {codec : Codec Schema Data Payload}
    (h : sendAdmitted codec cfg permit schema group member input w {} = (r, s', t)) :
    OperationRun codec cfg permit schema group member input w r t := by
  have hcalm := Silent.calm w
  have hidle := (idle_loose w).toCalm
  rcases bind_run h with ⟨x, hx, rfl⟩ | ⟨_, s₁, t₁, t₂, hcheck, hk, rfl⟩
  · exact .refused hx
  have hs := hcalm.steady.checkTerminal hcheck
  have hi := hidle.steady.checkTerminal hcheck
  obtain ⟨_, s₂, t₃, t₄, hstart, hdefer, rfl⟩ :=
    (startObservability_spec (D := fun _ => True)).bind_run hk
  obtain ⟨s₃, t₅, r₂, t₆, hbody, hfinish, rfl⟩ := defer_run hdefer
  obtain ⟨s₄, t₇, hreturns⟩ := finish_returns cfg (finalError r) w s₃
  have hsame := hreturns.symm.trans hfinish
  simp only [Prod.mk.injEq] at hsame
  obtain ⟨rfl, rfl, rfl⟩ := hsame
  rcases bind_run hbody with ⟨x, hx, rfl⟩ | ⟨p, s₅, t₈, t₉, hprep, hloop, rfl⟩
  · exact .unprepared hs hi hstart hx hfinish
  · exact .attempted hs hi hstart hprep hloop hfinish

end Repost
