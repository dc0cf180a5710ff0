import Repost.ResponseOwnership

namespace Repost
open Runs
set_option autoImplicit true

/-- The response of the call was closed, and its closer has this identity. -/
def AttemptCall.closes (c : AttemptCall) (n : Nat) : Bool :=
  c.stage.disposed && c.closer.any fun k => k.id = n

/-- Closing the response of the call counted a failure of this closer. -/
def AttemptCall.countsFailure (c : AttemptCall) (n : Nat) : Bool :=
  c.stage.disposed && c.closer.any fun k => k.fails && k.id = n

def AttemptCall.fails (c : AttemptCall) : Bool := c.stage.disposed && c.closer.any (·.fails)

/-- The steps of those who wait for a call, which end with the response closed. -/
def CallAct.handles : CallAct → Bool
  | expire | returns _ => false
  | _ => true

def OwnershipAct.handles : OwnershipAct → Bool
  | call _ a => a.handles
  | _ => false

def OwnershipAct.begins : OwnershipAct → Bool
  | attempt => true
  | _ => false

def CallStage.rank : CallStage → Nat
  | waiting => 5
  | overdue => 4
  | abandoned => 3
  | collected => 2
  | held _ | closed => 1
  | settled | ended => 0

namespace Ownership

structure Owned (σ : Ownership) : Prop where
  tenure : σ.tenure.Sound
  active : σ.tenure.permit.activeCalls = σ.hooks + σ.calls.countP (·.stage.active)
  idle : σ.tenure.permit.releaseRequested = true → ∀ c ∈ σ.calls, c.stage.busy = false
  nodup : σ.ran.Nodup
  distinct : ((σ.built ++ σ.rejected).map (·.id)).Nodup
  ran : ∀ n, n ∈ σ.ran ↔ (∃ k ∈ σ.rejected, k.id = n) ∨ 0 < σ.calls.countP (·.closes n)
  returned : ∀ c ∈ σ.calls, ∀ k, c.closer = some k → k ∈ σ.built
  received : ∀ c ∈ σ.calls, c.stage.received = true → c.outcome.isSome = true
  failures : ∀ n, σ.failures.count n = σ.calls.countP (·.countsFailure n)
  counted : σ.failures.length = σ.calls.countP (·.fails)

end Ownership

theorem CallStage.disposed_received {s : CallStage} (h : s.disposed = true) :
    s.received = true := by
  cases s <;> first | rfl | cases h

variable {c c' : AttemptCall}

theorem AttemptCall.closer_congr (h : c'.outcome = c.outcome) :
    c'.closer = c.closer := by
  rw [AttemptCall.closer, h, AttemptCall.closer]

/-- The response of the call was closed, and its closer is one of these. -/
def AttemptCall.disposes (c : AttemptCall) (p : Closer → Bool) : Bool :=
  c.stage.disposed && c.closer.any p

theorem AttemptCall.disposes_congr (ho : c'.outcome = c.outcome)
    (hd : c'.stage.disposed = c.stage.disposed) : c'.disposes p = c.disposes p := by
  rw [AttemptCall.disposes, AttemptCall.closer_congr ho, hd, AttemptCall.disposes]

theorem AttemptCall.disposes_undisposed {c : AttemptCall} (h : c.stage.disposed = false) :
    c.disposes p = false := by
  rw [AttemptCall.disposes, h, Bool.false_and]

theorem countP_disposes {calls : List AttemptCall}
    (hi : calls[i]? = some c) (ho : c'.outcome = c.outcome) (hd : c.stage.disposed = false)
    (hd' : c'.stage.disposed = true) (p : Closer → Bool) :
    (calls.set i c').countP (·.disposes p) =
      calls.countP (·.disposes p) + if c.closer.any p then 1 else 0 := by
  have hcount := countP_set (p := fun c : AttemptCall => c.disposes p) (y := c') hi
  rw [AttemptCall.disposes_undisposed hd, AttemptCall.disposes, hd', AttemptCall.closer_congr ho,
    Bool.true_and] at hcount
  simpa using hcount

theorem Tenure.endCall_active (t : Tenure) :
    (t.finish t.permit.endCall).permit.activeCalls = t.permit.activeCalls - 1 := by
  unfold Tenure.finish OperationPermit.endCall
  dsimp only
  split <;> rfl

theorem Tenure.endCall_releaseRequested (t : Tenure) :
    (t.finish t.permit.endCall).permit.releaseRequested = t.permit.releaseRequested := by
  unfold Tenure.finish OperationPermit.endCall
  dsimp only
  split <;> rfl

theorem Tenure.release_active (t : Tenure) :
    (t.finish t.permit.release).permit.activeCalls = t.permit.activeCalls := by
  unfold Tenure.finish OperationPermit.release
  dsimp only
  split <;> rfl

namespace Ownership
variable {σ : Ownership}

theorem busy_eq_false : σ.busy = false ↔ ∀ c ∈ σ.calls, c.stage.busy = false := by
  unfold busy
  rw [List.any_eq_false]
  simp only [Bool.not_eq_true]

section Calls
variable {i : Nat} {c c' : AttemptCall} (h : σ.Owned) (hi : σ.calls[i]? = some c)
include h hi

theorem Owned.idle_set (hb : c'.stage.busy = true → c.stage.busy = true)
    (hrel : σ.tenure.permit.releaseRequested = true) :
    ∀ d ∈ σ.calls.set i c', d.stage.busy = false := by
  refine forall_mem_set (h.idle hrel) ?_
  cases hb' : c'.stage.busy with
  | false => rfl
  | true => rw [← hb hb', h.idle hrel c (List.mem_of_getElem? hi)]

theorem Owned.returned_set (ho : c'.outcome = c.outcome) :
    ∀ d ∈ σ.calls.set i c', ∀ k, d.closer = some k → k ∈ σ.built := by
  refine forall_mem_set h.returned fun k hk => h.returned c (List.mem_of_getElem? hi) k ?_
  rwa [AttemptCall.closer_congr ho] at hk

theorem Owned.received_set (ho : c'.outcome = c.outcome)
    (hr : c'.stage.received = true → c.outcome.isSome ∨ c.stage.received = true) :
    ∀ d ∈ σ.calls.set i c', d.stage.received = true → d.outcome.isSome = true := by
  refine forall_mem_set h.received fun hrec => ?_
  rw [ho]
  exact (hr hrec).elim id (h.received c (List.mem_of_getElem? hi))

/-- A call that disposes of nothing more leaves what was closed and counted as it is. -/
theorem Owned.counts_set (hsame : ∀ p, c'.disposes p = c.disposes p) :
    (∀ n, n ∈ σ.ran ↔ (∃ k ∈ σ.rejected, k.id = n) ∨
      0 < (σ.calls.set i c').countP (·.closes n)) ∧
    (∀ n, σ.failures.count n = (σ.calls.set i c').countP (·.countsFailure n)) ∧
    σ.failures.length = (σ.calls.set i c').countP (·.fails) := by
  refine ⟨fun n => ?_, fun n => ?_, ?_⟩
  · rw [countP_set_same hi (hsame _)]
    exact h.ran n
  · rw [countP_set_same hi (hsame _)]
    exact h.failures n
  · rw [countP_set_same hi (hsame _), h.counted]

theorem Owned.still (ho : c'.outcome = c.outcome) (ha : c'.stage.active = c.stage.active)
    (hd : c'.stage.disposed = c.stage.disposed) (hb : c'.stage.busy = true → c.stage.busy = true)
    (hr : c'.stage.received = true → c.outcome.isSome ∨ c.stage.received = true) :
    Owned { σ with calls := σ.calls.set i c' } := by
  obtain ⟨hran, hfailures, hcounted⟩ :=
    h.counts_set hi fun _ => AttemptCall.disposes_congr ho hd
  exact { h with
    active := by rw [h.active, countP_set_same hi ha]
    idle := h.idle_set hi hb
    ran := hran
    returned := h.returned_set hi ho
    received := h.received_set hi ho hr
    failures := hfailures
    counted := hcounted }

theorem Owned.returns (hn : c.outcome = none) (ho : c'.outcome = some outcome)
    (hs : c'.stage = c.stage) (hk : ∀ k, outcome.closer = some k → k ∈ σ.built) :
    Owned { σ with calls := σ.calls.set i c' } := by
  have hd : c.stage.disposed = false := by
    cases hd : c.stage.disposed with
    | false => rfl
    | true =>
      have hsome := h.received c (List.mem_of_getElem? hi) (CallStage.disposed_received hd)
      rw [hn] at hsome
      cases hsome
  have hd' : c'.stage.disposed = false := by rw [hs, hd]
  have hsame : ∀ p, c'.disposes p = c.disposes p := fun p =>
    (AttemptCall.disposes_undisposed hd').trans (AttemptCall.disposes_undisposed hd).symm
  obtain ⟨hran, hfailures, hcounted⟩ := h.counts_set hi hsame
  refine { h with
    active := by rw [h.active, countP_set_same hi (by rw [hs])]
    idle := h.idle_set hi (by rw [hs]; exact id)
    ran := hran
    returned := forall_mem_set h.returned fun k hclose => hk k ?_
    received := forall_mem_set h.received fun _ => by rw [ho]; rfl
    failures := hfailures
    counted := hcounted }
  rwa [AttemptCall.closer, ho] at hclose

theorem Owned.ends (ho : c'.outcome = c.outcome) (ha : c.stage.active = true)
    (ha' : c'.stage.active = false) (hd : c'.stage.disposed = c.stage.disposed)
    (hb : c'.stage.busy = true → c.stage.busy = true)
    (hr : c.outcome.isSome ∨ c.stage.received = true) :
    Owned { σ.endCall with calls := σ.calls.set i c' } := by
  have hcount := countP_set (p := fun c : AttemptCall => c.stage.active) (y := c') hi
  simp only [ha, ha', if_true, Bool.false_eq_true, if_false, Nat.add_zero] at hcount
  have hactive := h.active
  have hpos : σ.tenure.permit.activeCalls > 0 := by omega
  obtain ⟨hran, hfailures, hcounted⟩ :=
    h.counts_set hi fun _ => AttemptCall.disposes_congr ho hd
  refine { h with
    tenure := h.tenure.endCall hpos
    active := ?_
    idle := fun hrel => h.idle_set hi hb ?_
    ran := hran
    returned := h.returned_set hi ho
    received := h.received_set hi ho fun _ => hr
    failures := hfailures
    counted := hcounted }
  · show (σ.tenure.finish σ.tenure.permit.endCall).permit.activeCalls =
      σ.hooks + (σ.calls.set i c').countP fun c => c.stage.active
    rw [Tenure.endCall_active]
    omega
  · rw [← Tenure.endCall_releaseRequested]
    exact hrel

end Calls

theorem invoke_ran (k : Closer) (hn : σ.ran.Nodup) :
    (σ.invoke k).ran.Nodup ∧ ∀ n, n ∈ (σ.invoke k).ran ↔ n ∈ σ.ran ∨ k.id = n := by
  show (if k.id ∈ σ.ran then σ.ran else k.id :: σ.ran).Nodup ∧
    ∀ n, n ∈ (if k.id ∈ σ.ran then σ.ran else k.id :: σ.ran) ↔ _
  split
  · rename_i hk
    refine ⟨hn, fun n => ⟨.inl, ?_⟩⟩
    rintro (hid | rfl)
    · exact hid
    · exact hk
  · rename_i hk
    refine ⟨List.nodup_cons.2 ⟨hk, hn⟩, fun n => ?_⟩
    rw [List.mem_cons, or_comm, eq_comm (a := n)]

theorem Owned.closes {i : Nat} (h : σ.Owned)
    (hi : σ.calls[i]? = some c) (ho : c'.outcome = c.outcome)
    (ha : c'.stage.active = c.stage.active) (hd : c.stage.disposed = false)
    (hd' : c'.stage.disposed = true) (hb : c'.stage.busy = false)
    (hr : c.stage.received = true) :
    Owned { σ.closeResponse c.closer with calls := σ.calls.set i c' } := by
  have hcloses : ∀ n, (σ.calls.set i c').countP (·.closes n) =
      σ.calls.countP (·.closes n) + if c.closer.any fun k => k.id = n then 1 else 0 :=
    fun n => countP_disposes hi ho hd hd' _
  have hfails : ∀ n, (σ.calls.set i c').countP (·.countsFailure n) =
      σ.calls.countP (·.countsFailure n) +
        if c.closer.any fun k => k.fails && k.id = n then 1 else 0 :=
    fun n => countP_disposes hi ho hd hd' _
  have htotal : (σ.calls.set i c').countP (·.fails) =
      σ.calls.countP (·.fails) + if c.closer.any (·.fails) then 1 else 0 :=
    countP_disposes hi ho hd hd' _
  have hunbusy : c'.stage.busy = true → c.stage.busy = true :=
    fun hbusy => nomatch hb.symm.trans hbusy
  have hidle := h.idle_set hi hunbusy
  have hreturned := h.returned_set hi ho
  have hreceived := h.received_set hi ho fun _ => .inr hr
  have hactive : σ.tenure.permit.activeCalls =
      σ.hooks + (σ.calls.set i c').countP (·.stage.active) := by
    rw [h.active, countP_set_same hi ha]
  cases hk : c.closer with
  | none =>
    simp only [hk, Option.any_none, Bool.false_eq_true, if_false, Nat.add_zero] at hcloses hfails htotal
    exact { h with
      active := hactive
      idle := hidle
      ran := fun n => by rw [hcloses n]; exact h.ran n
      returned := hreturned
      received := hreceived
      failures := fun n => (h.failures n).trans (hfails n).symm
      counted := h.counted.trans htotal.symm }
  | some k =>
    simp only [hk, Option.any_some, decide_eq_true_eq] at hcloses hfails htotal
    obtain ⟨hnodup, hmem⟩ := invoke_ran k h.nodup
    refine { h with
      active := hactive
      idle := hidle
      nodup := hnodup
      ran := fun n => (hmem n).trans ?_
      returned := hreturned
      received := hreceived
      failures := fun n => (?_ : List.count n _ = _).trans (hfails n).symm
      counted := (?_ : List.length _ = _).trans htotal.symm }
    · rw [h.ran n, or_assoc]
      refine or_congr Iff.rfl ?_
      rw [hcloses n]
      by_cases hn : k.id = n <;> simp [hn]
    · show (if k.fails then k.id :: σ.failures else σ.failures).count n = _
      rw [← h.failures n]
      cases k.fails <;> simp [List.count_cons]
    · show (if k.fails then k.id :: σ.failures else σ.failures).length = _
      rw [← h.counted]
      split <;> rfl

theorem Owned.call {i : Nat} (h : σ.Owned) (hi : σ.calls[i]? = some c)
    (hm : σ.CallMove c σ' c') : Owned { σ' with calls := σ.calls.set i c' } := by
  cases hm with
  | still ho ha hd hb hr => exact h.still hi ho ha hd hb hr
  | returns outcome hn hk => exact h.returns hi hn rfl rfl hk
  | ends ho ha ha' hd hb hr => exact h.ends hi ho ha ha' hd hb hr
  | closes ho ha hd hd' hb hr => exact h.closes hi ho ha hd hd' hb hr

theorem Owned.construct (h : σ.Owned) (hs : σ.construct k = some σ') : σ'.Owned := by
  unfold Ownership.construct at hs
  split at hs
  · cases hs
    exact h
  · rename_i closer _
    split at hs
    · rename_i hfresh
      have hnew : ∀ k ∈ σ.built ++ σ.rejected, k.id ≠ closer.id := by
        intro k hk
        exact of_decide_eq_true (List.all_eq_true.1 hfresh k hk)
      have hid : closer.id ∉ (σ.built ++ σ.rejected).map (·.id) := by
        intro hmem
        obtain ⟨k, hk, he⟩ := List.mem_map.1 hmem
        exact hnew k hk he
      split at hs
      · cases hs
        exact { h with
          distinct := List.nodup_cons.2 ⟨hid, h.distinct⟩
          returned := fun c hc k hk => List.mem_cons_of_mem _ (h.returned c hc k hk) }
      · cases hs
        refine { h with nodup := (invoke_ran closer h.nodup).1, distinct := ?_, ran := ?_ }
        · show ((σ.built ++ closer :: σ.rejected).map (·.id)).Nodup
          rw [List.map_append, List.map_cons, List.nodup_middle, ← List.map_append]
          exact List.nodup_cons.2 ⟨hid, h.distinct⟩
        · intro n
          refine ((invoke_ran closer h.nodup).2 n).trans ?_
          rw [h.ran n]
          simp only [List.mem_cons, exists_eq_or_imp]
          exact or_comm.trans or_assoc.symm
    · cases hs

theorem Owned.attempt (h : σ.Owned) (hr : σ.tenure.permit.releaseRequested = false) :
    Owned { σ with tenure := { σ.tenure with permit := σ.tenure.permit.beginCall },
                   calls := σ.calls ++ [{}] } := by
  have hactive := h.active
  refine { h with
    tenure := h.tenure.beginCall hr
    active := ?_
    idle := fun hrel => nomatch hr.symm.trans hrel
    ran := fun n => ?_
    returned := forall_mem_append_one h.returned nofun
    received := forall_mem_append_one h.received nofun
    failures := fun n => ?_
    counted := ?_ }
  · show σ.tenure.permit.activeCalls + 1 =
      σ.hooks + (σ.calls ++ [({} : AttemptCall)]).countP fun c => c.stage.active
    rw [List.countP_append, List.countP_singleton, hactive]
    show (σ.hooks + σ.calls.countP _ + 1 : Int) = σ.hooks + ((σ.calls.countP _ + 1 : Nat) : Int)
    rw [Int.natCast_add, Int.natCast_one, Int.add_assoc]
  · rw [List.countP_append, List.countP_singleton]
    exact h.ran n
  · rw [List.countP_append, List.countP_singleton]
    exact h.failures n
  · rw [List.countP_append, List.countP_singleton]
    exact h.counted

theorem Owned.step (h : σ.Owned) (hs : σ.step a = some σ') : σ'.Owned := by
  have hactive := h.active
  cases a with
  | expireOperation =>
    cases hs
    exact { h with }
  | construct k => exact h.construct hs
  | attempt =>
    obtain ⟨hc, hs⟩ := Option.ite_none_left_eq_some.1 hs
    cases hs
    simp only [Bool.or_eq_true, not_or, Bool.not_eq_true] at hc
    exact h.attempt hc.2
  | call i a =>
    simp only [Ownership.step] at hs
    split at hs
    · cases hs
    · rename_i c hi
      obtain ⟨⟨σ₁, c₁⟩, hmove, rfl⟩ := Option.map_eq_some_iff.1 hs
      exact h.call hi (onCall_move hmove)
  | beginHook =>
    obtain ⟨hc, hs⟩ := Option.ite_none_left_eq_some.1 hs
    cases hs
    simp only [Bool.or_eq_true, not_or, Bool.not_eq_true] at hc
    refine { h with tenure := h.tenure.beginCall hc.2, active := ?_ }
    show σ.tenure.permit.activeCalls + 1 =
      ((σ.hooks + 1 : Nat) : Int) + σ.calls.countP fun c => c.stage.active
    omega
  | endHook =>
    obtain ⟨hc, hs⟩ := Option.ite_none_left_eq_some.1 hs
    cases hs
    refine { h with
      tenure := h.tenure.endCall (by omega)
      active := ?_
      idle := fun hrel => h.idle ((Tenure.endCall_releaseRequested _).symm.trans hrel) }
    show (σ.tenure.finish σ.tenure.permit.endCall).permit.activeCalls =
      ((σ.hooks - 1 : Nat) : Int) + σ.calls.countP fun c => c.stage.active
    rw [Tenure.endCall_active]
    omega
  | release =>
    obtain ⟨hc, hs⟩ := Option.ite_none_left_eq_some.1 hs
    cases hs
    simp only [Bool.or_eq_true, not_or, Bool.not_eq_true] at hc
    exact { h with
      tenure := h.tenure.release
      active := (Tenure.release_active _).trans hactive
      idle := fun _ => busy_eq_false.1 hc.1 }
  | finishRelease =>
    obtain ⟨hf, hs⟩ := Option.ite_none_right_eq_some.1 hs
    cases hs
    exact { h with tenure := h.tenure.finalise hf }

theorem owned_invariant : ownership.Invariant System.Any Owned where
  init := by
    rintro σ ⟨started, deadline, rfl⟩
    have hheld : responseWorkspaceBytes + parserScratchBytes ≤ initialOperationReservationBytes := by
      decide
    refine ⟨⟨le_refl _, ?_, rfl, ⟨hheld, le_refl _⟩, fun _ => rfl⟩, rfl, fun h => Bool.noConfusion h, .nil,
      .nil, ?_, fun c hc => (List.not_mem_nil hc).elim, fun c hc => (List.not_mem_nil hc).elim,
      fun _ => rfl, rfl⟩
    · exact ⟨fun h => Bool.noConfusion h, fun h => Bool.noConfusion h.1⟩
    · intro n
      simp only [List.not_mem_nil, false_and, exists_false, List.countP_nil, lt_irrefl, or_self]
  step := fun _ _ _ h _ hs => h.step hs

theorem Owned.finalised (h : σ.Owned) (hf : 0 < σ.tenure.finalised) :
    ∀ c ∈ σ.calls, c.outcome.isSome = true ∧ c.stage.disposed = true := by
  have hreleased : σ.tenure.permit.released = true := by
    have ho := h.tenure.once
    cases hc : σ.tenure.permit.released with
    | true => rfl
    | false =>
      rw [hc] at ho
      simp only [Bool.false_eq_true, if_false] at ho
      omega
  obtain ⟨hrequested, hzero⟩ := h.tenure.released.1 hreleased
  have hnone : σ.calls.countP (·.stage.active) = 0 := by
    have hactive := h.active
    omega
  intro c hc
  have hidle := h.idle hrequested c hc
  have hinactive := List.countP_eq_zero.1 hnone c hc
  have hdone : c.stage.disposed = true := by
    cases hs : c.stage with
    | settled | closed | ended => rfl
    | waiting | overdue | held =>
      rw [hs] at hidle
      cases hidle
    | abandoned | collected =>
      rw [hs] at hinactive
      exact absurd rfl hinactive
  exact ⟨h.received c hc (CallStage.disposed_received hdone), hdone⟩

theorem progress (hi : σ.calls[i]? = some c)
    (ho : c.outcome.isSome = true) (hd : c.stage.disposed = false) :
    ∃ a, a.handles = true ∧ (σ.step (.call i a)).isSome = true := by
  have hcan : ∀ a, (σ.onCall c a).isSome = true → (σ.step (.call i a)).isSome = true := by
    intro a ha
    simp only [Ownership.step, hi, Option.isSome_map, ha]
  obtain ⟨outcome, ho⟩ := Option.isSome_iff_exists.1 ho
  cases hs : c.stage with
  | waiting | overdue =>
    exact ⟨.receive, rfl, hcan _ (by simp only [onCall, ho, hs, Option.isSome_some])⟩
  | held => exact ⟨.close, rfl, hcan _ (by simp only [onCall, hs, Option.isSome_some])⟩
  | abandoned =>
    refine ⟨.collect, rfl, hcan _ ?_⟩
    simp only [onCall, hs, ho, Option.isSome_some, and_self, if_true]
  | collected =>
    exact ⟨.closeAbandoned, rfl, hcan _ (by simp only [onCall, hs, if_true, Option.isSome_some])⟩
  | settled | closed | ended =>
    rw [hs] at hd
    cases hd

/-- How many steps those who handle responses can still take for the calls so far. -/
def work (σ : Ownership) : Nat := (σ.calls.map (·.stage.rank)).sum

theorem onCall_rank {σ σ' : Ownership} (h : σ.onCall c a = some (σ', c')) :
    c'.stage.rank + (if a.handles then 1 else 0) ≤ c.stage.rank := by
  obtain ⟨done, outcome, stage⟩ := c
  cases a with
  | expire =>
    cases h
    exact le_refl _
  | giveUp =>
    simp only [onCall] at h
    split at h <;> cases h
    rename_i hs
    rcases hs.2 with rfl | rfl <;> exact Nat.le_of_ble_eq_true rfl
  | returns | overdue | collect | closeAbandoned | endCall =>
    simp only [onCall] at h
    split at h <;> cases h
    rename_i hs
    simp_all [CallStage.rank, CallAct.handles]
  | receive | close =>
    simp only [onCall] at h
    split at h <;> cases h <;> exact Nat.le_of_ble_eq_true rfl

theorem step_work (hs : σ.step a = some σ') (ha : a.begins = false) :
    σ'.work + (if a.handles then 1 else 0) ≤ σ.work := by
  cases a with
  | expireOperation =>
    cases hs
    exact le_refl _
  | construct k =>
    have hcalls : σ'.calls = σ.calls := by
      simp only [Ownership.step, Ownership.construct] at hs
      split at hs
      · cases hs
        rfl
      · split at hs
        · split at hs <;> cases hs <;> rfl
        · cases hs
    rw [work, work, hcalls]
    exact le_refl _
  | attempt => cases ha
  | call i a =>
    simp only [Ownership.step] at hs
    split at hs
    · cases hs
    · rename_i c hi
      obtain ⟨⟨σ₁, c₁⟩, hmove, rfl⟩ := Option.map_eq_some_iff.1 hs
      have hrank := onCall_rank hmove
      have hsum := sum_map_set_nat (f := fun c : AttemptCall => c.stage.rank) (y := c₁) hi
      show ((σ.calls.set i c₁).map (·.stage.rank)).sum + (if a.handles then 1 else 0) ≤
        (σ.calls.map (·.stage.rank)).sum
      omega
  | beginHook | endHook | release | finishRelease =>
    simp only [Ownership.step] at hs
    split at hs <;> cases hs
    exact le_refl _

theorem handling_bounded
    (h : ownership.exec (fun _ a => a.begins = false) σ as = some σ') :
    as.countP (·.handles) + σ'.work ≤ σ.work := by
  refine System.exec_countP_le _ work ?_ ?_ h
  · intro s a t hs ho
    have hbegins : a.begins = false := by
      cases a <;> first | rfl | cases ho
    have hwork := step_work hs hbegins
    rw [if_pos ho] at hwork
    omega
  · intro s a t hs ha ho
    have hwork := step_work hs ha
    omega

end Ownership

end Repost
