import Repost.DeliveryAttempts

namespace Repost
open GoText Traced
set_option autoImplicit true

theorem setAttemptCause_deliveryState : (setAttemptCause cfg e).deliveryState = e.deliveryState := rfl

/-- The error of a response has the code and state of its timeout marker, of an unusable success
or of its status. -/
theorem validateAttemptResponse_error (h : validateAttemptResponse r a b c = .error e) :
    if r.attemptFailureCode.isSome || (200 ≤ r.status && r.status < 300) then
      e.deliveryState = .possiblySent
    else (e.code, e.deliveryState) = ((statusVerdict r.status).1, (statusVerdict r.status).2.1) := by
  unfold validateAttemptResponse at h
  cases hf : r.attemptFailureCode with
  | some code =>
    simp only [hf, Except.error.injEq] at h
    subst h
    simp
  | none =>
    by_cases hs : r.status < 200 || r.status ≥ 300
    · have hn : ¬ (200 ≤ r.status && r.status < 300) = true := by
        simp only [Bool.or_eq_true, decide_eq_true_eq, Bool.and_eq_true] at hs ⊢
        omega
      simp only [hf, hs, if_true, Except.error.injEq] at h
      subst h
      simp [hn]
    · have hn : (200 ≤ r.status && r.status < 300) = true := by
        simp only [Bool.or_eq_true, decide_eq_true_eq, Bool.and_eq_true] at hs ⊢
        omega
      simp only [hf, hs, Bool.false_eq_true, if_false] at h
      simp only [hn, Bool.or_true, if_true]
      repeat' split at h
      all_goals first
        | (cases h; rfl)
        | cases h

theorem responseError_state (h : validateAttemptResponse r a b c = .error e)
    (hc : e'.code = e.code) (hd : e'.deliveryState = e.deliveryState) :
    (responseError cfg r committedBefore e').deliveryState = responseState committedBefore r := by
  have hv := validateAttemptResponse_error h
  have hcode : (if r.status = statusProxyAuthRequired then setAttemptCause cfg e' else e').code =
      e.code := by split <;> exact hc
  have hstate : (if r.status = statusProxyAuthRequired then setAttemptCause cfg e'
      else e').deliveryState = e.deliveryState := by split <;> exact hd
  simp only [responseError, hcode, hstate, responseState]
  by_cases hs : (r.attemptFailureCode.isSome || (200 ≤ r.status && r.status < 300)) = true
  · simp only [hs, if_true] at hv ⊢
    rw [hv, ite_self]
  · simp only [hs, Prod.mk.injEq] at hv ⊢
    rw [hv.1, hv.2]
    rfl

structure Settled.Accepts (p : Prepared) (s : Settled) (result : SendResult) : Prop where
  completed : s.completed = true
  failure : s.effective.failure = none
  response : ∃ r, s.effective.response = some r ∧ validAttemptResponseShape r = true ∧
    validateAttemptResponse r p.eventType p.customerID p.timestamp = .ok result
  body : s.request.body = p.body

def Verdict.After (p : Prepared) (S : List Settled) (s : Settled) : Verdict → Prop
  | .accepted result => s.Accepts p result
  | .retry committed => committed = floor (S ++ [s]) ∧ Clean (S ++ [s])

theorem wellFormed_cases (h : malformedOutcome o = false) :
    (∃ r, o.response = some r ∧ o.failure = none ∧ validAttemptResponseShape r = true) ∨
      ∃ f, o.response = none ∧ o.failure = some f ∧ validAttemptFailure f = true := by
  rcases o with ⟨_ | r, _ | f⟩ <;> simp_all [malformedOutcome]

theorem ownState_malformed (hm : s.malformed = true) : ownState before s = .possiblySent := by
  simp only [ownState, hm, if_true]

theorem ownState_response (hm : s.malformed = false) (hr : s.effective.response = some r) :
    ownState before s = responseState before r := by
  simp only [ownState, hm, hr, Bool.false_eq_true, if_false]

theorem ownState_failure (hm : s.malformed = false) (hr : s.effective.response = none)
    (hf : s.effective.failure = some f) :
    ownState before s = deliveryForCommit (before || s.raises || f.committed) := by
  simp only [ownState, hm, hr, hf, Bool.false_eq_true, if_false]

theorem Settled.From.completed {s : Settled} (hs : s.From w) (hr : s.effective.response = some r) :
    s.completed = true := by
  cases hc : s.completed with
  | true => rfl
  | false =>
    obtain ⟨c, he, -⟩ := hs.late hc
    rw [he] at hr
    cases hr

theorem handleResponse_triple (hc : Clean S) (hs : s.From w) (hb : s.request.body = p.body)
    (hm : s.malformed = false) (hr : s.effective.response = some r)
    (hf : s.effective.failure = none) (hv : validAttemptResponseShape r = true) :
    Triple w (fun _ h => Trail w (S ++ [s]) h)
      (handleResponse cfg permit p attempt (floor S) (floor (S ++ [s])) r)
      (fun v _ h => v.After p S s ∧ Trail w (S ++ [s]) h) (Ended w) := by
  have hcs := hc.append hm
  refine Saying.then (Q := fun _ => True) (Leaves.ask fun _ => trivial) fun id _ => ?_
  refine closeResponse_spec.then fun _ _ => ?_
  split
  · rename_i result hval
    refine deadlineTerminal_spec.then fun terminal ht => ?_
    cases terminal with
    | some e =>
      have hd := Reported.terminal hcs ht
      exact failAttempt_triple hd
    | none =>
      have hend : Saying w (· = .accepted) (endAttempt cfg none false) (fun _ => True) :=
        endAttempt_spec rfl
      refine Triple.bind (hend.triple fun _ h => .inl h) fun _ => Triple.pure fun _ _ hT => ?_
      exact ⟨⟨hs.completed hr, hf, ⟨r, hr, hv, hval⟩, hb⟩, hT.2⟩
  · rename_i e hval
    refine (retryOrFail_triple hcs ?_).post ?_
    · rw [responseError_state hval, ← ownState_response hm hr]
      · exact .own hc
      · rfl
      · rfl
    · rintro _ _ _ ⟨rfl, hT⟩
      exact ⟨⟨rfl, hcs⟩, hT⟩

theorem handleFailure_triple (hc : Clean S) (hm : s.malformed = false)
    (hr : s.effective.response = none) (hf : s.effective.failure = some f) :
    Triple w (fun _ h => Trail w (S ++ [s]) h)
      (handleFailure cfg permit p attempt (floor (S ++ [s])) f)
      (fun v _ h => v.After p S s ∧ Trail w (S ++ [s]) h) (Ended w) := by
  have hcs := hc.append hm
  refine Saying.then (Q := fun _ => True) (Leaves.ask fun _ => trivial) fun id _ => ?_
  refine (retryOrFail_triple hcs ?_).post ?_
  · have hown : ownState (floor S) s = deliveryForCommit (floor (S ++ [s]) || f.committed) := by
      rw [ownState_failure hm hr hf, floor_append, floor_singleton]
    simp only [setAttemptCause_deliveryState, classifyAttemptFailure, ← hown]
    exact .own hc
  · rintro _ _ _ ⟨rfl, hT⟩
    exact ⟨⟨rfl, hcs⟩, hT⟩

theorem rejectMalformed_triple (hc : Clean S) (hm : s.malformed = true) :
    Triple w (fun _ h => Trail w (S ++ [s]) h) (rejectMalformed cfg p attempt response)
      (fun v _ h => v.After p S s ∧ Trail w (S ++ [s]) h) (Ended w) := by
  refine Saying.then (Q := fun _ => True) (Leaves.ask fun _ => trivial) fun id _ => ?_
  refine closeResponse_spec.then fun _ _ => failAttempt_triple ?_
  have hown : Reported (S ++ [s]) (ownState (floor S) s) := .own hc
  rwa [ownState_malformed hm] at hown

theorem classify_triple (hc : Clean S) (hs : s.From w) (hb : s.request.body = p.body) :
    Triple w (fun _ h => Trail w (S ++ [s]) h)
      (classify cfg permit p attempt (floor S) (floor (S ++ [s])) s.effective)
      (fun v _ h => v.After p S s ∧ Trail w (S ++ [s]) h) (Ended w) := by
  refine Triple.ite (fun hm => rejectMalformed_triple hc hm) fun hm => ?_
  have hm : s.malformed = false := Bool.eq_false_iff.2 hm
  rcases wellFormed_cases hm with ⟨r, hr, hf, hv⟩ | ⟨f, hr, hf, -⟩
  · simp only [hr]
    exact handleResponse_triple hc hs hb hm hr hf hv
  · simp only [hr, hf]
    exact handleFailure_triple hc hm hr hf

theorem attemptOnce_triple (hc : Clean S) :
    Triple w (fun _ h => Trail w S h) (attemptOnce cfg permit p attempt (floor S))
      (fun v _ h => ∃ s, v.After p S s ∧ Trail w (S ++ [s]) h) (Ended w) := by
  refine Saying.then (Q := fun _ => True) (Leaves.ask fun _ => trivial) fun id _ => ?_
  refine Triple.bind (checkTerminal_triple hc) fun _ => ?_
  refine callMonotonicClock_spec.then fun reading _ => ?_
  refine Triple.bind (checkTerminal_triple hc) fun _ => ?_
  cases reading with
  | none => exact fail_triple (.commit hc)
  | some now =>
    refine startAttempt_spec.then fun propagation _ => ?_
    refine Triple.bind (settle_triple hc) fun s => Triple.assume fun hs => ?_
    have hfloor : (floor S || attemptCommitted s.effective s.tracker) = floor (S ++ [s]) := by
      rw [floor_append, floor_singleton, Settled.raises]
    rw [hfloor]
    refine (classify_triple hc hs.1 ?_).post fun _ _ _ h => ⟨s, h⟩
    rw [hs.2]
    rfl

def Accepted (w : World) (p : Prepared) (result : SendResult) (_ : OpState) (h : List Event) :
    Prop :=
  ∃ S s, Trail w (S ++ [s]) h ∧ s.Accepts p result

theorem attemptLoop_triple (hc : Clean S) :
    Triple w (fun _ h => Trail w S h) (attemptLoop cfg permit p left attempt (floor S))
      (Accepted w p) (Ended w) := by
  induction left generalizing S attempt with
  | zero => exact Triple.stop fun _ _ hT => ⟨S, hT, by rintro _ ⟨⟩⟩
  | succ left ih =>
    refine Triple.bind (attemptOnce_triple hc) fun verdict => ?_
    cases verdict with
    | accepted result =>
      refine Triple.pure fun _ _ h => ?_
      obtain ⟨s, ha, hT⟩ := h
      exact ⟨S, s, hT, ha⟩
    | retry committed =>
      intro st h hp
      obtain ⟨s, ⟨rfl, hcs⟩, hT⟩ := hp
      exact ih hcs st h hT

theorem finish_triple (cfg : RuntimeConfig) {R : Stop → OpState → List Event → Prop}
    (hd : reportedState err = .accepted ∨ Reported S (reportedState err)) :
    Triple w (fun _ h => Trail w S h) (finish cfg err) (fun _ _ h => Trail w S h) R := by
  have hs : Saying w (· = reportedState err) (finish cfg err) (fun _ => True) := finish_spec rfl
  exact (hs.triple fun d h => h ▸ hd).post fun _ _ _ h => h.2

theorem sendAdmitted_triple {codec : Codec Schema Data Payload} :
    Triple w (fun _ h => h = []) (sendAdmitted codec cfg permit schema group member input)
      (fun result s h => ∃ p : Prepared, p.Of w codec schema group member input ∧
        Accepted w p result s h) (Ended w) := by
  have hnil : Trail w [] [] := ⟨rfl, by simp, by simp⟩
  refine Triple.pre (P := Fresh w) ?_ (by rintro _ _ rfl; exact hnil)
  refine Triple.bind fresh_check fun _ => ?_
  refine startObservability_spec.then fun _ _ => ?_
  refine Triple.defer
    (M := fun result s h => ∃ p : Prepared, p.Of w codec schema group member input ∧
      Accepted w p result s h) (N := Ended w) ?_ (fun result => ?_) fun x => ?_
  · refine Triple.bind prepare_fresh fun p => Triple.assume fun hp => ?_
    exact (attemptLoop_triple clean_nil).post fun _ _ _ h => ⟨p, hp, h⟩
  · rintro s h ⟨p, hp, S, t, hT, ha⟩
    have hf : Triple w (fun _ h => Trail w (S ++ [t]) h) (finish cfg none)
        (fun _ _ h => Trail w (S ++ [t]) h) (fun _ _ h => Trail w (S ++ [t]) h) :=
      finish_triple cfg (.inl rfl)
    exact (hf.conseq (fun _ _ h => h) (fun _ _ _ h => ⟨p, hp, S, t, h, ha⟩)
      (fun _ _ _ h => ⟨p, hp, S, t, h, ha⟩)) s h hT
  · rintro s h ⟨S, hT, hd⟩
    have hr : reportedState (finalError (α := SendResult) (.error x)) = .accepted ∨
        Reported S (reportedState (finalError (α := SendResult) (.error x))) := by
      cases x with
      | error e => exact .inr (hd e rfl)
      | nilError => exact .inl rfl
      | panic => exact .inl rfl
    have hf := finish_triple (w := w) cfg hr (R := fun _ _ h => Trail w S h)
    exact (hf.conseq (fun _ _ h => h) (fun _ _ _ h => ⟨S, h, hd⟩)
      (fun _ _ _ h => ⟨S, h, hd⟩)) s h hT

/-- An operation: the runtime's configuration, its permit and what it is asked to send. -/
structure Operation (Schema Data Payload : Type) where
  codec : Codec Schema Data Payload
  cfg : RuntimeConfig
  permit : Permit
  schema : Schema
  group : Bytes
  member : Bytes
  input : SendInput Data

namespace Operation
variable {Schema Data Payload : Type} (o : Operation Schema Data Payload)

def run (w : World) : Except Stop SendResult × OpState × List Event :=
  sendAdmitted o.codec o.cfg o.permit o.schema o.group o.member o.input w {}

def result (w : World) : Except Stop SendResult := (o.run w).1

def error (w : World) : Option Error := finalError (o.result w)

def log (w : World) : List Event := (o.run w).2.2

def settled (w : World) : List Settled := settledOf (o.log w)

theorem post (w : World) :
    Post (fun result s h => ∃ p : Prepared, p.Of w o.codec o.schema o.group o.member o.input ∧
      Accepted w p result s h) (Ended w) [] (o.run w) :=
  sendAdmitted_triple {} [] rfl

theorem trail (w : World) : Trail w (o.settled w) (o.log w) := by
  have hp := o.post w
  unfold settled log
  rcases hr : o.run w with ⟨_ | sent, s, h⟩
  · rw [hr] at hp
    obtain ⟨S, hT, -⟩ := hp
    obtain rfl := hT.settled
    exact hT
  · rw [hr] at hp
    obtain ⟨p, -, S, t, hT, -⟩ := hp
    have he := hT.settled
    simp only [List.nil_append] at hT he
    rw [he]
    exact hT

theorem reported (w : World) (h : o.error w = some e) :
    Reported (o.settled w) e.deliveryState := by
  have hp := o.post w
  unfold settled log
  unfold error result at h
  rcases hr : o.run w with ⟨(e' | _ | _) | _, s, t⟩ <;> rw [hr] at hp h <;> cases h
  obtain ⟨S, hT, hd⟩ := hp
  obtain rfl := hT.settled
  exact hd e rfl

theorem accepted (w : World) (h : o.result w = .ok sent) :
    ∃ p : Prepared, p.Of w o.codec o.schema o.group o.member o.input ∧
      ∃ S s, o.settled w = S ++ [s] ∧ s.From w ∧ s.Accepts p sent := by
  have hp := o.post w
  unfold settled log
  unfold result at h
  rcases hr : o.run w with ⟨r, s, t⟩
  rw [hr] at hp h
  obtain rfl : r = .ok sent := h
  obtain ⟨p, hof, S, x, hT, ha⟩ := hp
  exact ⟨p, hof, S, x, hT.settled, hT.source x (by simp), ha⟩

end Operation

end Repost
