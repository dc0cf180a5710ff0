import Repost.CloseNeutral
import Repost.DeliveryFloor
import Repost.OwnershipRuns

namespace Repost
open GoText Traced Runs
set_option autoImplicit true

/-- What becomes of responses, in a state of an operation and from there on. -/
structure Ownership.Disposes (σ : Ownership) : Prop where
  atMostOnce : ∀ n, σ.ran.count n ≤ 1
  closed : ∀ c ∈ σ.calls, c.stage.disposed = true → ∀ k, c.closer = some k → σ.ran.count k.id = 1
  rejected : ∀ k ∈ σ.rejected, σ.ran.count k.id = 1 ∧
    ∀ c ∈ σ.calls, ∀ k', c.closer = some k' → k'.id ≠ k.id
  only : ∀ n ∈ σ.ran, (∃ k ∈ σ.rejected, k.id = n) ∨ ∃ c ∈ σ.calls, c.closes n = true
  progress : ∀ i c, σ.calls[i]? = some c → c.outcome.isSome = true → c.stage.disposed = false →
    ∃ a, a.handles = true ∧ (σ.step (.call i a)).isSome = true
  bounded : ∀ as σ', ownership.exec (fun _ a => a.begins = false) σ as = some σ' →
    as.countP (·.handles) + σ'.work ≤ σ.work
  finalised : 0 < σ.tenure.finalised →
    ∀ c ∈ σ.calls, c.outcome.isSome = true ∧ c.stage.disposed = true

/-- No closer that fails was in two of the responses that were closed. -/
def Ownership.FailuresApart (σ : Ownership) : Prop :=
  ∀ n, σ.calls.countP (·.countsFailure n) ≤ 1

theorem AttemptCall.closes_of {c : AttemptCall} (hd : c.stage.disposed = true)
    (hk : c.closer = some k) : c.closes k.id = true := by
  rw [AttemptCall.closes, hd, hk]
  exact decide_eq_true rfl

namespace Ownership
variable {σ : Ownership}

theorem Owned.ran_count (h : σ.Owned) (hn : n ∈ σ.ran) : σ.ran.count n = 1 :=
  List.count_eq_one_of_mem h.nodup hn

theorem Owned.disposes (h : σ.Owned) : σ.Disposes where
  atMostOnce := List.nodup_iff_count_le_one.1 h.nodup
  closed := by
    intro c hc hd k hk
    refine h.ran_count ((h.ran _).2 (.inr ?_))
    exact List.countP_pos_iff.2 ⟨c, hc, AttemptCall.closes_of hd hk⟩
  rejected := by
    intro k hk
    refine ⟨h.ran_count ((h.ran _).2 (.inl ⟨k, hk, rfl⟩)), fun c hc k' hk' hid => ?_⟩
    have hapart := h.distinct
    rw [List.map_append, List.nodup_append] at hapart
    exact hapart.2.2 k'.id (List.mem_map_of_mem (h.returned c hc k' hk')) k.id
      (List.mem_map_of_mem hk) hid
  only := by
    intro n hn
    rcases (h.ran n).1 hn with hr | hc
    · exact .inl hr
    · exact .inr (List.countP_pos_iff.1 hc)
  progress := fun _ _ => progress
  bounded := fun _ _ => handling_bounded
  finalised := h.finalised

end Ownership

/-- What the log of a run says of responses: it is the record of steps in which each response that
was handed back was closed by the operation, and the rest is left to the permit's last calls. -/
structure Operation.Accounts (o : Operation Schema Data Payload) (w : World) : Prop where
  nodup : (closesIn (o.log w)).Nodup
  closes : ∀ n, n ∈ closesIn (o.log w) ↔ ∃ k ∈ handedIn (o.log w), k.id = n
  failures : failuresIn (o.log w) = (handedIn (o.log w)).countP (·.fails)
  steps : ∃ σ₀ σ, ownership.Init σ₀ ∧ ownership.Reachable System.Any σ ∧ Logged σ₀ σ (o.log w) ∧
    σ.busy = false ∧ σ.tenure.permit.releaseRequested = false

theorem Operation.accounts (o : Operation Schema Data Payload) (hw : w.ClosersIdentified) :
    o.Accounts w := by
  let σ₀ : Ownership := { tenure := { permit :=
    { heldBytes := initialOperationReservationBytes, startedNanos := o.permit.startedNanos,
      exclusiveDeadline := o.permit.exclusiveDeadline } } }
  have hinit : ownership.Init σ₀ := ⟨_, _, rfl⟩
  have hfollows : Follows w {} σ₀ :=
    ⟨⟨σ₀, hinit, .refl σ₀⟩, rfl, fun h => Bool.noConfusion h, rfl, rfl,
      fun k hk => (List.not_mem_nil hk).elim, fun c hc => (List.not_mem_nil hc).elim⟩
  obtain ⟨σ, hf, hb, hl⟩ := sendAdmitted_drives hw
    (show o.run w = ((o.run w).1, (o.run w).2.1, o.log w) from rfl) σ₀ hfollows rfl
  have howned := Ownership.owned_invariant.reachable hf.reachable
  have hran : σ.ran = (closesIn (o.log w)).reverse := by
    rw [hl.closes]
    exact List.append_nil _
  have hhanded : σ.calls.filterMap (·.closer) = handedIn (o.log w) := hl.handed
  have hdisposed : ∀ c ∈ σ.calls, ∀ k, c.closer = some k → c.stage.disposed = true := by
    intro c hc k hk
    have hsome : c.outcome.isSome = true := by
      cases ho : c.outcome with
      | some _ => rfl
      | none =>
        rw [AttemptCall.closer, ho] at hk
        cases hk
    rcases hf.handled c hc hsome with hbusy | hd
    · rw [Ownership.busy_eq_false.1 hb c hc] at hbusy
      cases hbusy
    · exact hd
  refine ⟨?_, ?_, ?_, σ₀, σ, hinit, hf.reachable, hl, hb, hf.unreleased⟩
  · have hnodup := howned.nodup
    rwa [hran, List.nodup_reverse] at hnodup
  · intro n
    rw [← List.mem_reverse, ← hran, howned.ran n, hf.rejected, ← hhanded, List.countP_pos_iff]
    simp only [List.not_mem_nil, false_and, exists_false, false_or, List.mem_filterMap]
    constructor
    · rintro ⟨c, hc, hcloses⟩
      rw [AttemptCall.closes, Bool.and_eq_true, Option.any_eq_true] at hcloses
      obtain ⟨-, k, hk, hid⟩ := hcloses
      exact ⟨k, ⟨c, hc, hk⟩, of_decide_eq_true hid⟩
    · rintro ⟨k, ⟨c, hc, hk⟩, rfl⟩
      exact ⟨c, hc, AttemptCall.closes_of (hdisposed c hc k hk) hk⟩
  · have hfailures := hl.failures
    rw [howned.counted] at hfailures
    rw [← hhanded, List.countP_filterMap]
    refine Eq.trans (hfailures.trans (Nat.zero_add _)).symm (List.countP_congr fun c hc => ?_)
    cases hk : c.closer with
    | none => simp [AttemptCall.fails, hk]
    | some k => simp [AttemptCall.fails, hk, hdisposed c hc k hk]

theorem Operation.result_quiet (o : Operation Schema Data Payload) (w : World) :
    o.result w.quiet = o.result w := by
  have hrun := sendAdmitted_hushes.run (show o.run w = ((o.run w).1, (o.run w).2.1, o.log w) from rfl)
  have hresult : o.result w.quiet = (o.result w).map id := congrArg Prod.fst hrun
  rw [hresult]
  cases o.result w <;> rfl

/-- In every interleaving each response is closed once, before the permit is finalised, and each
rejected one by its constructor; a failure is counted at most once exactly when no failing response
was closed for two calls. Every run of an operation is such an interleaving, and its result does not
depend on which close functions fail. -/
theorem responses_closed_once (o : Operation Schema Data Payload) (w w' : World)
    (hw : w.ClosersIdentified) (hq : w'.quiet = w.quiet)
    (hσ : ownership.Reachable System.Any σ) :
    σ.Disposes ∧ ((∀ n, σ.failures.count n ≤ 1) ↔ σ.FailuresApart) ∧ o.Accounts w ∧
      o.result w' = o.result w := by
  have howned := Ownership.owned_invariant.reachable hσ
  refine ⟨howned.disposes, ?_, o.accounts hw, ?_⟩
  · simp only [howned.failures, Ownership.FailuresApart]
  · rw [← o.result_quiet w', hq, o.result_quiet]

namespace Sample

/-- A response that `NewAttemptResponse` built, with its close function. -/
def closable (status : Int) (id : Nat) (fails : Bool) : AttemptResponse :=
  { status := status, headers := some [], body := some [], normalized := true
    closer := some { id := id, fails := fails } }

def answers (r : AttemptResponse) : TransportCall := { outcome := { response := some r } }

/-- The operation gives a call up, releases its permit, and the response comes after that. -/
def givingUp : List OwnershipAct :=
  [.attempt, .expireOperation, .call 0 .giveUp, .release,
    .construct { gunzip := fun _ _ => none, wall := none, status := 503, headers := some [],
                 wireBody := some [], closer := some { id := 0, fails := true } },
    .call 0 (.returns { response := some (closable 503 0 true) }),
    .call 0 .collect, .call 0 .closeAbandoned, .call 0 .endCall, .finishRelease]

def permitted : Ownership :=
  { tenure := { permit := { heldBytes := initialOperationReservationBytes, startedNanos := 0,
                            exclusiveDeadline := 1 } } }

theorem world_identified (h : ∀ k k', r.closer = some k → r'.closer = some k' → k.id = k'.id → k = k') :
    (world (answers r) (answers r')).ClosersIdentified := by
  have hcloser : ∀ q, ((world (answers r) (answers r')).transport q).outcome.closer =
      if q.attemptNumber = 1 then r.closer else r'.closer := by
    intro q
    show (if q.attemptNumber = 1 then answers r else answers r').outcome.closer = _
    split <;> rfl
  intro q q' k k' hk hk' hid
  rw [hcloser] at hk hk'
  split at hk <;> split at hk'
  · exact Option.some.inj (hk.symm.trans hk')
  · exact h k k' hk hk' hid
  · exact (h k' k hk' hk hid.symm).symm
  · exact Option.some.inj (hk.symm.trans hk')

theorem world_quiet (h : first.quiet = first'.quiet) :
    (world first later).quiet = (world first' later).quiet := by
  have htransport : ∀ q, ((world first later).transport q).quiet =
      ((world first' later).transport q).quiet := by
    intro q
    show (if q.attemptNumber = 1 then first else later).quiet =
      (if q.attemptNumber = 1 then first' else later).quiet
    split
    · exact h
    · rfl
  exact congrArg (fun f => ({ world first later with transport := f } : World)) (funext htransport)

end Sample

theorem Sample.abandoned_response_closed :
    ∃ σ, ownership.exec System.Any Sample.permitted Sample.givingUp = some σ ∧
      0 < σ.tenure.finalised ∧ σ.Disposes ∧
      ((∀ n, σ.failures.count n ≤ 1) ↔ σ.FailuresApart) ∧
      Sample.operation.Accounts (Sample.world (Sample.answers (Sample.closable 503 0 true))
        (Sample.answers (Sample.closable 503 1 true))) ∧
      Sample.operation.result (Sample.world (Sample.answers (Sample.closable 503 0 false))
        (Sample.answers (Sample.closable 503 1 true))) =
      Sample.operation.result (Sample.world (Sample.answers (Sample.closable 503 0 true))
        (Sample.answers (Sample.closable 503 1 true))) := by
  obtain ⟨σ, hrun, hfinal⟩ : ∃ σ, ownership.exec System.Any Sample.permitted Sample.givingUp =
      some σ ∧ 0 < σ.tenure.finalised := ⟨_, rfl, by decide⟩
  refine ⟨σ, hrun, hfinal, responses_closed_once _ _ _ (Sample.world_identified ?_)
    (Sample.world_quiet rfl) (System.exec_reachable ⟨0, 1, rfl⟩ hrun)⟩
  rintro k k' ⟨⟩ ⟨⟩ hid
  cases hid

/-- One response with a failing close function, returned for two attempts: the function is invoked
once and its one failure is counted twice. -/
theorem Sample.failure_counted_twice :
    newAttemptResponse (fun _ _ => none) none 503 (some []) (some []) (some { id := 0, fails := true }) =
        some (Sample.closable 503 0 true) ∧
      (Sample.world (Sample.answers (Sample.closable 503 0 true))
        (Sample.answers (Sample.closable 503 0 true))).ClosersIdentified ∧
      closesIn (Sample.operation.log (Sample.world (Sample.answers (Sample.closable 503 0 true))
        (Sample.answers (Sample.closable 503 0 true)))) = [0] ∧
      failuresIn (Sample.operation.log (Sample.world (Sample.answers (Sample.closable 503 0 true))
        (Sample.answers (Sample.closable 503 0 true)))) = 2 := by
  refine ⟨?_, Sample.world_identified ?_, by decide +kernel, by decide +kernel⟩
  · rfl
  · rintro k k' ⟨⟩ ⟨⟩ _
    rfl

end Repost
