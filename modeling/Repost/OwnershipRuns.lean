import Repost.AttemptRuns
import Repost.ResponseDisposal

namespace Repost
open GoText Traced Runs
set_option autoImplicit true

def closesIn (t : List Event) : List Nat :=
  t.filterMap fun
    | .closeResponse id => some id
    | _ => none

def failuresIn (t : List Event) : Nat :=
  t.countP fun
    | .responseCloseFailure => true
    | _ => false

/-- The closers of the responses that the transport handed back. -/
def handedIn (t : List Event) : List Closer :=
  t.filterMap fun
    | .settled s => s.handed.closer
    | _ => none

def sendsIn (t : List Event) : Nat :=
  t.countP fun
    | .send _ => true
    | _ => false

@[simp] theorem closesIn_append : closesIn (t ++ t') = closesIn t ++ closesIn t' :=
  List.filterMap_append

@[simp] theorem failuresIn_append : failuresIn (t ++ t') = failuresIn t + failuresIn t' :=
  List.countP_append

@[simp] theorem handedIn_append : handedIn (t ++ t') = handedIn t ++ handedIn t' :=
  List.filterMap_append

@[simp] theorem sendsIn_append : sendsIn (t ++ t') = sendsIn t + sendsIn t' :=
  List.countP_append

/-- An identity stands for one closer. -/
def World.ClosersIdentified (w : World) : Prop :=
  ∀ q q' k k', (w.transport q).outcome.closer = some k → (w.transport q').outcome.closer = some k' →
    k.id = k'.id → k = k'

structure Follows (w : World) (s : OpState) (σ : Ownership) : Prop where
  reachable : ownership.Reachable System.Any σ
  unreleased : σ.tenure.permit.releaseRequested = false
  done : σ.operationDone = true → deadlineDone w s.tick = true
  ran : σ.ran = s.closed
  rejected : σ.rejected = []
  built : ∀ k ∈ σ.built, ∃ q, (w.transport q).outcome.closer = some k
  handled : ∀ c ∈ σ.calls, c.outcome.isSome = true → c.stage.busy = true ∨ c.stage.disposed = true

structure Logged (σ σ' : Ownership) (t : List Event) : Prop where
  closes : σ'.ran = (closesIn t).reverse ++ σ.ran
  failures : σ'.failures.length = σ.failures.length + failuresIn t
  handed : σ'.calls.filterMap (·.closer) = σ.calls.filterMap (·.closer) ++ handedIn t
  sends : σ'.calls.length = σ.calls.length + sendsIn t

theorem Logged.refl (σ : Ownership) : Logged σ σ [] := by
  refine ⟨rfl, rfl, ?_, rfl⟩
  exact (List.append_nil _).symm

theorem Logged.trans (h : Logged σ σ' t) (h' : Logged σ' σ'' t') : Logged σ σ'' (t ++ t') where
  closes := by
    rw [h'.closes, h.closes, closesIn_append, List.reverse_append, List.append_assoc]
  failures := by
    rw [h'.failures, h.failures, failuresIn_append, Nat.add_assoc]
  handed := by
    rw [h'.handed, h.handed, handedIn_append, List.append_assoc]
  sends := by
    rw [h'.sends, h.sends, sendsIn_append, Nat.add_assoc]

structure Apart (s s' : OpState) (t : List Event) : Prop where
  later : s.tick ≤ s'.tick
  closed : s'.closed = s.closed
  logged : ∀ σ, Logged σ σ t

theorem Apart.handed (h : Apart s s' t) (σ : Ownership) : handedIn t = [] :=
  List.append_right_eq_self.1 (h.logged σ).handed.symm

theorem Logged.aside (he : e.handling = false) (hs : e.kind ≠ .send) : Logged σ σ [e] := by
  cases e <;> first
    | exact ⟨rfl, rfl, (List.append_nil _).symm, rfl⟩
    | exact absurd rfl hs
    | cases he

theorem apart_mild (w : World) : Mild w (fun e => e.handling = false ∧ e.kind ≠ .send) Apart where
  refl := fun _ => ⟨le_refl _, rfl, .refl⟩
  trans := fun h h' => ⟨h.later.trans h'.later, h'.closed.trans h.closed,
    fun σ => (h.logged σ).trans (h'.logged σ)⟩
  tick := fun _ => ⟨Nat.le_succ _, rfl, .refl⟩
  clock := fun _ => ⟨Nat.le_succ _, rfl, fun _ => .aside rfl nofun⟩
  event := fun _ _ he => ⟨le_refl _, rfl, fun _ => .aside he.1 he.2⟩
  observability := fun _ _ ht hc => ⟨ht.ge, hc, .refl⟩

theorem Follows.later (h : Follows w s σ) (ht : s.tick ≤ s'.tick) (hc : s'.closed = s.closed) :
    Follows w s' σ :=
  ⟨h.reachable, h.unreleased, fun hd => deadlineDone_mono (h.done hd) ht, by rw [h.ran, hc],
    h.rejected, h.built, h.handled⟩

theorem apart_work (e : Event) (he : e.kind = .work) (hh : e.handling = false) :
    e.handling = false ∧ e.kind ≠ .send := by
  refine ⟨hh, ?_⟩
  rw [he]
  nofun

theorem apart_hook (e : Event) (he : e.kind = .hook) : e.handling = false ∧ e.kind ≠ .send := by
  cases e <;> cases he <;> exact ⟨rfl, nofun⟩

theorem apart_report (e : Event) (he : e.kind = .report) : e.handling = false ∧ e.kind ≠ .send := by
  cases e <;> cases he <;> exact ⟨rfl, nofun⟩

section Calls
variable {w : World} {s : OpState} {σ : Ownership}

structure Beside (σ σ' : Ownership) : Prop where
  ran : σ'.ran = σ.ran
  failures : σ'.failures = σ.failures

theorem ownership_step (σ : Ownership) (a : OwnershipAct) : ownership.step σ a = σ.step a := rfl

theorem step_last (a : CallAct) (σ' : Ownership) (c' : AttemptCall) (hc : σ.calls = l ++ [c])
    (hstep : σ.onCall c a = some (σ', c')) :
    ownership.step σ (.call l.length a) = some { σ' with calls := l ++ [c'] } := by
  have hlast : σ.calls[l.length]? = some c := by
    rw [hc, List.getElem?_append_right (le_refl _), Nat.sub_self]
    rfl
  simp only [ownership_step, Ownership.step, hlast, hstep, Option.map_some]
  rw [hc, List.set_append_right _ _ (le_refl _), Nat.sub_self]
  rfl

theorem Follows.begins (hf : Follows w s σ) (hb : σ.busy = false)
    (hd : deadlineDone w s.tick = false) :
    ∃ σ₁, Follows w s σ₁ ∧ σ₁.calls = σ.calls ++ [({} : AttemptCall)] ∧ Beside σ σ₁ := by
  have hdone : σ.operationDone = false := by
    cases ho : σ.operationDone with
    | false => rfl
    | true =>
      rw [hf.done ho] at hd
      cases hd
  have hstep : ownership.step σ .attempt = some { σ with
      tenure := { σ.tenure with permit := σ.tenure.permit.beginCall }, calls := σ.calls ++ [{}] } := by
    simp only [ownership_step, Ownership.step, hdone, hb, hf.unreleased, Bool.or_self, Bool.false_eq_true, if_false]
  refine ⟨_, ⟨hf.reachable.tail trivial hstep, hf.unreleased, hf.done, hf.ran, hf.rejected, hf.built,
    ?_⟩, rfl, rfl, rfl⟩
  exact forall_mem_append_one hf.handled fun h => by cases h

theorem Follows.givesUp (hf : Follows w s σ) (hc : σ.calls = l ++ [({} : AttemptCall)])
    (hd : deadlineDone w s.tick = true) :
    ∃ σ₁, Follows w s σ₁ ∧ σ₁.calls = l ++ [{ stage := .abandoned }] ∧ Beside σ σ₁ := by
  have hexpired : ownership.step σ .expireOperation = some { σ with operationDone := true } := rfl
  have hdone : ({ σ with operationDone := true } : Ownership).calls = l ++ [({} : AttemptCall)] := hc
  have hgive := step_last .giveUp _ { stage := .abandoned } hdone rfl
  refine ⟨_, ⟨(hf.reachable.tail trivial hexpired).tail trivial hgive, hf.unreleased, fun _ => hd,
    hf.ran, hf.rejected, hf.built, ?_⟩, rfl, rfl, rfl⟩
  refine forall_mem_append_one (fun c hmem => hf.handled c ?_) nofun
  rw [hc]
  exact List.mem_append_left _ hmem

theorem Follows.builds (hw : w.ClosersIdentified) (hf : Follows w s σ) (q : AttemptRequest) :
    ∃ σ₁, Follows w s σ₁ ∧ σ₁.calls = σ.calls ∧ Beside σ σ₁ ∧
      ∀ k, (w.transport q).outcome.closer = some k → k ∈ σ₁.built := by
  cases hq : (w.transport q).outcome.closer with
  | none => exact ⟨σ, hf, rfl, ⟨rfl, rfl⟩, fun k hk => nomatch hk⟩
  | some k =>
    by_cases hk : k ∈ σ.built
    · exact ⟨σ, hf, rfl, ⟨rfl, rfl⟩, fun k' hk' => by cases hk'; exact hk⟩
    · let arguments : Construction :=
        { gunzip := fun _ _ => none, wall := none, status := 204, headers := some [],
          wireBody := some [], closer := some k }
      have hfresh : σ.fresh k = true := by
        unfold Ownership.fresh
        rw [hf.rejected, List.append_nil, List.all_eq_true]
        intro k' hk'
        obtain ⟨q', hq'⟩ := hf.built k' hk'
        refine decide_eq_true fun hid => hk ?_
        rwa [← hw q' q k' k hq' hq hid]
      have hstep : ownership.step σ (.construct arguments) = some { σ with built := k :: σ.built } := by
        show σ.construct arguments = _
        simp only [Ownership.construct, arguments, hfresh, if_true]
        rfl
      refine ⟨_, ⟨hf.reachable.tail trivial hstep, hf.unreleased, hf.done, hf.ran, hf.rejected, ?_,
        hf.handled⟩, rfl, ⟨rfl, rfl⟩, fun k' hk' => by cases hk'; exact List.mem_cons_self⟩
      intro k' hk'
      rcases List.mem_cons.1 hk' with rfl | hk'
      · exact ⟨q, hq⟩
      · exact hf.built k' hk'

theorem Follows.receives (hw : w.ClosersIdentified) (hf : Follows w s σ) (hc : σ.calls = l ++ [({} : AttemptCall)])
    (q : AttemptRequest) (completed : Bool) :
    ∃ σ₁ c, Follows w s σ₁ ∧ σ₁.calls = l ++ [c] ∧ Beside σ σ₁ ∧
      c.closer = (w.transport q).outcome.closer ∧ c.stage = .held completed := by
  obtain ⟨σ₁, hf₁, hc₁, hbeside, hbuilt⟩ := hf.builds hw q
  rw [hc] at hc₁
  have hlate : ∃ σ₂, Follows w s σ₂ ∧ σ₂.calls = l ++ [{ attemptDone := !completed }] ∧
      Beside σ σ₂ ∧ σ₂.built = σ₁.built := by
    cases completed with
    | true => exact ⟨σ₁, hf₁, hc₁, hbeside, rfl⟩
    | false =>
      have hexpire := step_last .expire _ { attemptDone := true } hc₁ rfl
      refine ⟨_, ⟨hf₁.reachable.tail trivial hexpire, hf₁.unreleased, hf₁.done, hf₁.ran,
        hf₁.rejected, hf₁.built, ?_⟩, rfl, ⟨hbeside.ran, hbeside.failures⟩, rfl⟩
      refine forall_mem_append_one (fun c hmem => hf₁.handled c ?_) nofun
      rw [hc₁]
      exact List.mem_append_left _ hmem
  obtain ⟨σ₂, hf₂, hc₂, hbeside₂, hbuilt₂⟩ := hlate
  have hall : (w.transport q).outcome.closer.all (fun k => decide (k ∈ σ₂.built)) = true := by
    cases hk : (w.transport q).outcome.closer with
    | none => rfl
    | some k =>
      rw [hbuilt₂]
      exact decide_eq_true (hbuilt k hk)
  let c₂ : AttemptCall :=
    { attemptDone := !completed, outcome := some (w.transport q).outcome }
  have hreturns := step_last (.returns (w.transport q).outcome) σ₂ c₂ hc₂
    (by simp only [Ownership.onCall, Option.isNone_none, hall, Bool.and_self, if_true, c₂])
  let σ₃ : Ownership := { σ₂ with calls := l ++ [c₂] }
  have hreceive := step_last .receive σ₃.endCall { c₂ with stage := .held completed }
    (show σ₃.calls = l ++ [c₂] from rfl) (by simp only [Ownership.onCall, c₂, Bool.not_not])
  refine ⟨_, _, ⟨(hf₂.reachable.tail trivial hreturns).tail trivial hreceive, ?_, hf₂.done, hf₂.ran,
    hf₂.rejected, hf₂.built, ?_⟩, rfl, ⟨hbeside₂.ran, hbeside₂.failures⟩, rfl, rfl⟩
  · show (σ₂.tenure.finish σ₂.tenure.permit.endCall).permit.releaseRequested = false
    rw [Tenure.endCall_releaseRequested]
    exact hf₂.unreleased
  · refine forall_mem_append_one (fun c hmem => hf₂.handled c ?_) fun _ => .inl rfl
    rw [hc₂]
    exact List.mem_append_left _ hmem

def Owes (σ : Ownership) (k : Option Closer) : Prop :=
  σ.busy = false ∧ k = none ∨
    ∃ l c completed, σ.calls = l ++ [c] ∧ c.stage = .held completed ∧ c.closer = k ∧
      ∀ c ∈ l, c.stage.busy = false

theorem Closer.run_eq (k : Closer) (w : World) (s : OpState) :
    k.run w s = if k.id ∈ s.closed then (.ok (), s, [])
      else (.ok (), { s with closed := k.id :: s.closed }, [.closeResponse k.id]) := by
  show (if k.id ∈ s.closed then pure () else _ : Op Unit) w s = _
  split <;> rfl

theorem closeResponse_run {response : Option AttemptResponse}
    (h : closeResponse response w s = (r, s', t)) (σ : Ownership) (hran : σ.ran = s.closed) :
    let σ' := σ.closeResponse (response.bind (·.closer))
    r = .ok () ∧ s'.tick = s.tick ∧ s'.closed = σ'.ran ∧ σ'.ran = (closesIn t).reverse ++ σ.ran ∧
      σ'.failures.length = σ.failures.length + failuresIn t ∧ handedIn t = [] ∧ sendsIn t = 0 := by
  unfold closeResponse at h
  cases hk : response.bind (·.closer) with
  | none =>
    rw [hk] at h
    cases h
    exact ⟨rfl, rfl, hran.symm, rfl, rfl, rfl, rfl⟩
  | some k =>
    rw [hk] at h
    simp only [Bind.bind, Closer.run_eq] at h
    simp only [Ownership.closeResponse, Ownership.invoke, hran]
    -- The four cases: invoked before or now, with an error or without.
    by_cases hm : k.id ∈ s.closed <;> by_cases hf : k.fails = true
    · rw [if_pos hm, if_pos hf] at h
      cases h
      rw [if_pos hm, if_pos hf]
      exact ⟨rfl, rfl, rfl, rfl, rfl, rfl, rfl⟩
    · rw [if_pos hm, if_neg hf] at h
      cases h
      rw [if_pos hm, if_neg hf]
      exact ⟨rfl, rfl, rfl, rfl, rfl, rfl, rfl⟩
    · rw [if_neg hm, if_pos hf] at h
      cases h
      rw [if_neg hm, if_pos hf]
      exact ⟨rfl, rfl, rfl, rfl, rfl, rfl, rfl⟩
    · rw [if_neg hm, if_neg hf] at h
      cases h
      rw [if_neg hm, if_neg hf]
      exact ⟨rfl, rfl, rfl, rfl, rfl, rfl, rfl⟩

theorem Follows.closes (hf : Follows w s σ) (response : Option AttemptResponse)
    (ho : Owes σ (response.bind (·.closer))) (h : closeResponse response w s = (r, s', t)) :
    r = .ok () ∧ handedIn t = [] ∧ ∃ σ', Follows w s' σ' ∧ σ'.busy = false ∧ Logged σ σ' t := by
  obtain ⟨hr, htick, hclosed, hran, hfailures, hhanded, hsends⟩ := closeResponse_run h σ hf.ran
  refine ⟨hr, hhanded, ?_⟩
  rcases ho with ⟨hb, hk⟩ | ⟨l, c, completed, hc, hs, hk, hl⟩
  · rw [hk] at hclosed hran hfailures
    refine ⟨σ, hf.later htick.ge (hclosed.trans hf.ran), hb, hran, hfailures, ?_, ?_⟩
    · rw [hhanded, List.append_nil]
    · rw [hsends, Nat.add_zero]
  · rw [← hk] at hclosed hran hfailures
    have hstep := step_last .close (σ.closeResponse c.closer) { c with stage := .settled } hc
      (by simp only [Ownership.onCall, hs])
    obtain ⟨htenure, hbuilt, hrejected, hdone⟩ : (σ.closeResponse c.closer).tenure = σ.tenure ∧
        (σ.closeResponse c.closer).built = σ.built ∧
        (σ.closeResponse c.closer).rejected = σ.rejected ∧
        (σ.closeResponse c.closer).operationDone = σ.operationDone := by
      cases c.closer <;> exact ⟨rfl, rfl, rfl, rfl⟩
    refine ⟨_, ⟨hf.reachable.tail trivial hstep, ?_, ?_, hclosed.symm, ?_, ?_, ?_⟩, ?_, hran,
      hfailures, ?_, ?_⟩
    · show (σ.closeResponse c.closer).tenure.permit.releaseRequested = false
      rw [htenure]
      exact hf.unreleased
    · intro hd
      replace hd : (σ.closeResponse c.closer).operationDone = true := hd
      rw [hdone] at hd
      rw [htick]
      exact hf.done hd
    · exact hrejected.trans hf.rejected
    · show ∀ k ∈ (σ.closeResponse c.closer).built, _
      rw [hbuilt]
      exact hf.built
    · refine forall_mem_append_one (fun c' hmem => hf.handled c' ?_) fun _ => .inr rfl
      rw [hc]
      exact List.mem_append_left _ hmem
    · exact Ownership.busy_eq_false.2 (forall_mem_append_one hl rfl)
    · show (l ++ [{ c with stage := .settled }]).filterMap AttemptCall.closer = _
      rw [hc, hhanded, List.append_nil, List.filterMap_append, List.filterMap_append]
      rfl
    · show (l ++ [{ c with stage := .settled }]).length = _
      rw [hc, hsends, Nat.add_zero, List.length_append, List.length_append]
      rfl

def Discharges (w : World) (k : Option Closer) (s s' : OpState) (t : List Event) : Prop :=
  ∀ σ, Follows w s σ → Owes σ k → ∃ σ', Follows w s' σ' ∧ σ'.busy = false ∧ Logged σ σ' t

theorem closing_discharges (response : Option AttemptResponse) {f : Unit → Op α}
    (hf : ∀ a, Within w Apart (f a)) :
    Within w (Discharges w (response.bind (·.closer))) (closeResponse response >>= f) := by
  intro s r s' t h σ hσ ho
  rcases bind_run h with ⟨x, hx, -⟩ | ⟨a, s₁, t₁, t₂, h₁, h₂, rfl⟩
  · cases (hσ.closes _ ho hx).1
  · obtain ⟨-, -, σ₁, hσ₁, hb₁, hl₁⟩ := hσ.closes _ ho h₁
    have hapart := hf a h₂
    exact ⟨σ₁, hσ₁.later hapart.later hapart.closed, hb₁, hl₁.trans (hapart.logged σ₁)⟩

theorem apart_discharges {m : Op α} (hm : Within w Apart m) : Within w (Discharges w none) m := by
  intro s r s' t h σ hσ ho
  obtain ⟨-, -, σ₁, hσ₁, hb₁, hl₁⟩ := hσ.closes none ho rfl
  have hapart := hm h
  exact ⟨σ₁, hσ₁.later hapart.later hapart.closed, hb₁, hl₁.trans (hapart.logged σ₁)⟩

theorem rejectMalformed_discharges (response : Option AttemptResponse) :
    Within w (Discharges w (response.bind (·.closer))) (rejectMalformed cfg p attempt response) := by
  intro s r s' t h
  exact closing_discharges response (fun _ => (apart_mild w).failAttempt apart_report) (ask_run h)

theorem handleResponse_discharges : Within w (Discharges w (AttemptResponse.closer response))
    (handleResponse cfg permit p attempt before committed response) := by
  have hm := apart_mild w
  have hc := hm.toComposes
  intro s r s' t h
  have h := ask_run h
  refine closing_discharges (some response) ?_ h
  intro _
  cases validateAttemptResponse response p.eventType p.customerID p.timestamp with
  | error e => exact hm.retryOrFail apart_report apart_work
  | ok result =>
    apply Within.bind hc hm.deadlineTerminal
    intro terminal
    cases terminal with
    | some e => exact hm.failAttempt apart_report
    | none => exact .bind hc (hm.endAttempt apart_report) fun _ => .pure hc

theorem classify_discharges : Within w (Discharges w (AttemptOutcome.closer outcome))
    (classify cfg permit p attempt before committed outcome) := by
  refine .ite (rejectMalformed_discharges _) ?_
  rcases outcome with ⟨_ | response, _ | f⟩
  · exact rejectMalformed_discharges none
  · refine apart_discharges (.bind (apart_mild w).toComposes (.ask (apart_mild w).toComposes) fun _ => ?_)
    exact (apart_mild w).retryOrFail apart_report apart_work
  · exact handleResponse_discharges
  · exact handleResponse_discharges

theorem snapshotAttemptResponse_closer (response : AttemptResponse) :
    (snapshotAttemptResponse response).closer = response.closer := by
  have hheaders : (snapshotHeaders response).closer = response.closer := by
    unfold snapshotHeaders AttemptResponse.markResponseHeaderViolation
    split
    · split
      · rfl
      · split <;> rfl
    · rfl
  unfold snapshotAttemptResponse
  dsimp only
  split
  · split <;> exact hheaders
  · exact hheaders

theorem snapshotOutcome_closer (o : AttemptOutcome) :
    AttemptOutcome.closer { o with response := o.response.map snapshotAttemptResponse } =
      o.closer := by
  rcases o with ⟨_ | response, f⟩
  · rfl
  · exact snapshotAttemptResponse_closer response

theorem Logged.settledLast (h : Logged σ σ' (t ++ [.settled st])) (h' : Logged σ' σ'' t')
    (hn : handedIn t' = []) : Logged σ σ'' (t ++ (t' ++ [.settled st])) := by
  have hall := h.trans h'
  refine ⟨?_, ?_, ?_, ?_⟩
  · rw [hall.closes]
    simp only [closesIn_append]
    simp [closesIn]
  · rw [hall.failures]
    simp only [failuresIn_append]
    omega
  · rw [hall.handed]
    simp only [handedIn_append, hn, List.append_nil, List.nil_append]
  · rw [hall.sends]
    simp only [sendsIn_append]
    omega

theorem handedIn_settled : handedIn [.settled st] = st.handed.closer.toList := by
  unfold handedIn
  cases h : st.handed.closer <;> simp [h]

theorem Logged.called (h : Beside σ σ') (hc : σ'.calls = σ.calls ++ [c]) (hcl : closesIn t = [])
    (hfa : failuresIn t = 0) (hha : handedIn t = []) (hse : sendsIn t = 1)
    (hst : st.handed.closer = c.closer) : Logged σ σ' (t ++ [.settled st]) := by
  refine ⟨?_, ?_, ?_, ?_⟩
  · rw [h.ran, closesIn_append, hcl]
    rfl
  · rw [h.failures, failuresIn_append, hfa]
    rfl
  · rw [hc, List.filterMap_append, handedIn_append, hha, handedIn_settled, hst, List.nil_append]
    rw [List.filterMap_cons]
    cases c.closer <;> rfl
  · rw [hc, sendsIn_append, hse]
    exact List.length_append

theorem boundedAttemptCall_owes (hw : w.ClosersIdentified)
    (h : boundedAttemptCall request w s = (r, s', t)) (hf : Follows w s σ) (hb : σ.busy = false) :
    ∃ a σ', r = .ok a ∧ Follows w s' σ' ∧ Owes σ' a.outcome.closer ∧
      ∀ st : Settled, st.handed = a.outcome → Logged σ σ' (t ++ [.settled st]) := by
  unfold boundedAttemptCall at h
  have h := ask_run h
  have h := observe_bind h
  have hidle := Ownership.busy_eq_false.1 hb
  have hticks : s.tick ≤ s.tick + 1 + 1 := by omega
  split at h
  · cases h
    refine ⟨_, σ, rfl, hf.later (Nat.le_succ _) rfl, .inl ⟨hb, rfl⟩, fun st hst => ?_⟩
    refine ⟨rfl, rfl, ?_, rfl⟩
    rw [List.nil_append, handedIn_settled, hst]
    exact (List.append_nil _).symm
  · rename_i hgone
    obtain ⟨t₁, hsend, rfl⟩ := emit_run h
    obtain ⟨t₂, hlook, rfl⟩ := emit_run hsend
    have hlook := observe_bind hlook
    obtain ⟨σ₁, hf₁, hc₁, hbeside⟩ := hf.begins hb (Bool.not_eq_true _ ▸ hgone)
    split at hlook
    · rename_i hgone'
      rw [Bool.and_eq_true] at hgone'
      cases hlook
      have hlater : Follows w { s with tick := s.tick + 1 + 1 } σ₁ := hf₁.later hticks rfl
      obtain ⟨σ₂, hf₂, hc₂, hbeside₂⟩ := hlater.givesUp hc₁ (deadlineDone_mono hgone'.1 (Nat.le_succ _))
      refine ⟨_, σ₂, rfl, hf₂, .inl ⟨?_, rfl⟩, fun st hst => ?_⟩
      · rw [Ownership.busy_eq_false, hc₂]
        exact forall_mem_append_one hidle rfl
      · refine .called ⟨hbeside₂.ran.trans hbeside.ran, hbeside₂.failures.trans hbeside.failures⟩ hc₂
          rfl rfl rfl rfl ?_
        rw [hst]
        rfl
    · obtain ⟨t₃, hend, rfl⟩ := emit_run hlook
      cases hend
      have hlater : Follows w { s with tick := s.tick + 1 + 1 } σ₁ := hf₁.later hticks rfl
      obtain ⟨σ₂, c, hf₂, hc₂, hbeside₂, hcloser, hheld⟩ := hlater.receives hw hc₁ request
        (!((w.transport request).overruns || deadlineDone w (s.tick + 1)))
      refine ⟨_, σ₂, rfl, hf₂, .inr ⟨_, c, _, hc₂, hheld, hcloser, hidle⟩, fun st hst => ?_⟩
      refine .called ⟨hbeside₂.ran.trans hbeside.ran, hbeside₂.failures.trans hbeside.failures⟩ hc₂
        rfl rfl rfl rfl ?_
      rw [hst, hcloser]
      rfl

theorem record_run {st : Settled}
    (h : (countHeaderLimit o >>= fun _ => Prog.emit (.settled st) >>= fun _ => pure st : Op Settled)
      w s = (r, s', t)) : r = .ok st ∧ ∃ t', t = t' ++ [.settled st] ∧ Apart s s' t' := by
  have hcount : Within w Apart (countHeaderLimit o) := (apart_mild w).countHeaderLimit apart_work
  unfold countHeaderLimit at h hcount
  rcases bind_run h with ⟨x, hx, -⟩ | ⟨_, s₁, t₁, t₂, h₁, h₂, rfl⟩
  · split at hx <;> cases hx
  · obtain ⟨t₃, h₃, rfl⟩ := emit_run h₂
    cases h₃
    exact ⟨rfl, t₁, rfl, hcount h₁⟩

/-- Either the operation stops, with the attempt recorded, or the outcome has no response. -/
theorem lateOutcome_owes (h : lateOutcome cfg permit p request committed a w s = (r, s', t))
    (hf : Follows w s σ) (ho : Owes σ a.outcome.closer) :
    ∃ σ', Follows w s' σ' ∧ σ'.busy = false ∧
      ((∃ o, r = .ok o ∧ o.closer = none ∧ Logged σ σ' t ∧ handedIn t = []) ∨
        ∃ x st t₁ t₂, r = .error x ∧ st.handed = a.outcome ∧ t = t₁ ++ .settled st :: t₂ ∧
          Logged σ σ' t₁ ∧ handedIn t₁ = [] ∧ Logged σ' σ' t₂) := by
  have hm := apart_mild w
  rcases bind_run h with ⟨x, hx, -⟩ | ⟨_, s₁, t₁, t₂, h₁, h₂, rfl⟩
  · cases (hf.closes _ ho hx).1
  obtain ⟨-, hnone, σ₁, hf₁, hb₁, hl₁⟩ := hf.closes _ ho h₁
  rcases bind_run h₂ with ⟨x, hx, -⟩ | ⟨terminal, s₂, t₃, t₄, h₃, h₄, rfl⟩
  · rcases preAttemptTerminal_run hx with ⟨_, hr, -⟩ | ⟨_, hr, -⟩ <;> cases hr
  have hapart := hm.preAttemptTerminal h₃
  have hf₂ := hf₁.later hapart.later hapart.closed
  have hl₂ := hl₁.trans (hapart.logged σ₁)
  have hnone₂ : handedIn (t₁ ++ t₃) = [] := by rw [handedIn_append, hnone, hapart.handed σ₁]; rfl
  cases terminal with
  | none =>
    cases h₄
    rw [← List.append_assoc, List.append_nil]
    exact ⟨σ₁, hf₂, hb₁, .inl ⟨_, rfl, rfl, hl₂, hnone₂⟩⟩
  | some e =>
    obtain ⟨t₅, h₅, rfl⟩ := emit_run h₄
    have hend : Apart s₂ s' t₅ := hm.failAttempt apart_report h₅
    obtain ⟨_, s₃, t₆, t₇, h₆, h₇, rfl⟩ := (endAttempt_spec (D := fun _ => True) trivial).bind_run h₅
    cases h₇
    rw [← List.append_assoc]
    exact ⟨σ₁, hf₂.later hend.later hend.closed, hb₁,
      .inr ⟨_, _, _, _, rfl, rfl, rfl, hl₂, hnone₂, hend.logged σ₁⟩⟩

/-- A settled attempt: the operation owes what counts, or it has stopped and owes nothing. -/
theorem settle_owes (hw : w.ClosersIdentified)
    (h : settle cfg permit p request committed w s = (r, s', t)) (hf : Follows w s σ)
    (hb : σ.busy = false) :
    ∃ σ', Follows w s' σ' ∧ Logged σ σ' t ∧
      ((∃ st, r = .ok st ∧ Owes σ' st.effective.closer) ∨ (∃ x, r = .error x) ∧ σ'.busy = false) := by
  rcases bind_run h with ⟨x, hx, -⟩ | ⟨a, s₁, t₁, t₂, h₁, h₂, rfl⟩
  · obtain ⟨a, σ', hr, -⟩ := boundedAttemptCall_owes hw hx hf hb
    cases hr
  obtain ⟨a', σ₁, hr, hf₁, howes, hlogged⟩ := boundedAttemptCall_owes hw h₁ hf hb
  cases hr
  cases hcompleted : a.completed with
  | true =>
    unfold attemptOutcome at h₂
    rw [if_pos hcompleted] at h₂
    rcases bind_run h₂ with ⟨x, hx, -⟩ | ⟨o, s₂, t₃, t₄, h₃, h₄, rfl⟩
    · cases hx
    cases h₃
    obtain ⟨hr, t₅, rfl, hapart⟩ := record_run h₄
    refine ⟨σ₁, hf₁.later hapart.later hapart.closed, ?_, .inl ⟨_, hr, ?_⟩⟩
    · rw [List.nil_append]
      exact (hlogged _ rfl).settledLast (hapart.logged σ₁) (hapart.handed σ₁)
    · rwa [snapshotOutcome_closer]
  | false =>
    unfold attemptOutcome at h₂
    rw [if_neg (by rw [hcompleted]; nofun)] at h₂
    rcases bind_run h₂ with ⟨x, hx, hr⟩ | ⟨o, s₂, t₃, t₄, h₃, h₄, rfl⟩
    · obtain ⟨σ₂, hf₂, hb₂, hcase⟩ := lateOutcome_owes hx hf₁ howes
      refine ⟨σ₂, hf₂, ?_, .inr ⟨⟨x, hr⟩, hb₂⟩⟩
      rcases hcase with ⟨o, hok, -⟩ | ⟨_, st, t₃, t₄, -, hst, rfl, hl, hn, hl'⟩
      · cases hok
      · have hall := ((hlogged st hst).settledLast hl hn).trans hl'
        simpa only [List.append_assoc, List.singleton_append] using hall
    · obtain ⟨σ₂, hf₂, hb₂, hcase⟩ := lateOutcome_owes h₃ hf₁ howes
      rcases hcase with ⟨o', hok, hnone, hl, hn⟩ | ⟨_, _, _, _, herr, -⟩
      · cases hok
        obtain ⟨hr, t₅, rfl, hapart⟩ := record_run h₄
        refine ⟨σ₂, hf₂.later hapart.later hapart.closed, ?_, .inl ⟨_, hr, .inl ⟨hb₂, hnone⟩⟩⟩
        rw [← List.append_assoc t₃]
        refine (hlogged _ rfl).settledLast (hl.trans (hapart.logged σ₂)) ?_
        rw [handedIn_append, hn, hapart.handed σ₂]
        rfl
      · cases herr

def Drives (w : World) (s s' : OpState) (t : List Event) : Prop :=
  ∀ σ, Follows w s σ → σ.busy = false →
    ∃ σ', Follows w s' σ' ∧ σ'.busy = false ∧ Logged σ σ' t

theorem drives_composes (w : World) : Composes (Drives w) where
  refl := fun _ σ h hb => ⟨σ, h, hb, .refl σ⟩
  trans := by
    intro s s' s'' t t' h h' σ hσ hb
    obtain ⟨σ₁, hσ₁, hb₁, hl₁⟩ := h σ hσ hb
    obtain ⟨σ₂, hσ₂, hb₂, hl₂⟩ := h' σ₁ hσ₁ hb₁
    exact ⟨σ₂, hσ₂, hb₂, hl₁.trans hl₂⟩

theorem apart_drives {m : Op α} (hm : Within w Apart m) : Within w (Drives w) m := by
  intro s r s' t h σ hσ hb
  have hapart := hm h
  exact ⟨σ, hσ.later hapart.later hapart.closed, hb, hapart.logged σ⟩

theorem attempt_drives (hw : w.ClosersIdentified) : Within w (Drives w)
    (do
      let s ← settle cfg permit p request committed
      classify cfg permit p attempt committed
        (committed || attemptCommitted s.effective s.tracker) s.effective) := by
  intro s r s' t h σ hσ hb
  rcases bind_run h with ⟨x, hx, -⟩ | ⟨st, s₁, t₁, t₂, h₁, h₂, rfl⟩
  · obtain ⟨σ₁, hσ₁, hl₁, hcase⟩ := settle_owes hw hx hσ hb
    rcases hcase with ⟨st, hr, -⟩ | ⟨-, hb₁⟩
    · cases hr
    · exact ⟨σ₁, hσ₁, hb₁, hl₁⟩
  · obtain ⟨σ₁, hσ₁, hl₁, hcase⟩ := settle_owes hw h₁ hσ hb
    rcases hcase with ⟨st', hr, howes⟩ | ⟨⟨x, hr⟩, -⟩
    · cases hr
      obtain ⟨σ₂, hσ₂, hb₂, hl₂⟩ := classify_discharges h₂ σ₁ hσ₁ howes
      exact ⟨σ₂, hσ₂, hb₂, hl₁.trans hl₂⟩
    · cases hr

theorem attemptOnce_drives (hw : w.ClosersIdentified) :
    Within w (Drives w) (attemptOnce cfg permit p attempt committed) := by
  have hm := apart_mild w
  have hc := drives_composes w
  refine .bind hc (.ask hc) fun _ => .bind hc (apart_drives hm.checkTerminal) fun _ => ?_
  apply Within.bind hc (apart_drives hm.callMonotonicClock)
  intro reading
  refine .bind hc (apart_drives hm.checkTerminal) fun _ => ?_
  cases reading with
  | none => exact .stop hc
  | some now =>
    exact .bind hc (apart_drives (hm.startAttempt apart_report)) fun _ => attempt_drives hw

theorem attemptLoop_drives (hw : w.ClosersIdentified) :
    Within w (Drives w) (attemptLoop cfg permit p left attempt committed) := by
  have hc := drives_composes w
  induction left generalizing attempt committed with
  | zero => exact .stop hc
  | succ left ih =>
    apply Within.bind hc (attemptOnce_drives hw)
    intro verdict
    cases verdict with
    | accepted result => exact .pure hc
    | retry committed => exact ih

theorem sendAdmitted_drives {codec : Codec Schema Data Payload} (hw : w.ClosersIdentified) :
    Within w (Drives w) (sendAdmitted codec cfg permit schema group member input) := by
  have hm := apart_mild w
  have hc := drives_composes w
  refine .bind hc (apart_drives hm.checkTerminal) fun _ => ?_
  refine .bind hc (apart_drives (hm.startObservability apart_report)) fun _ => ?_
  refine .defer hc ?_ fun _ => apart_drives (hm.finish apart_report)
  exact .bind hc (apart_drives (hm.prepare apart_work apart_hook)) fun _ => attemptLoop_drives hw

end Calls

end Repost
