import Repost.PoolSafety

namespace Repost.Pool
open Runs
set_option autoImplicit true

theorem Drained.dial {w : World κ} (hd : Drained w) : Drained (w.dial i key result) := by
  unfold World.dial
  split <;> exact hd

section Steps
variable [DecidableEq κ] {options : Options} {w w' : World κ}

inductive Stepped (options : Options) (w : World κ) : Act κ → World κ → Prop
  | call (key : κ) : Stepped options w (.call key) { w with calls := w.calls ++ [⟨key, .entering⟩] }
  | cancel (hc : w.calls[i]? = some ⟨key, old⟩) (hr : old.resource = none) (hd : old.dials = false) :
      Stepped options w (.cancel i) (w.setCall i key (.returned (.error .context)))
  | acquire (hc : w.calls[i]? = some ⟨key, .entering⟩)
      (h : Acquired options (w.expireLocked options key) i key v) :
      Stepped options w (.acquire i) v
  | dial (hc : w.calls[i]? = some ⟨key, .dialing⟩) :
      Stepped options w (.dial i result) (w.dial i key result)
  | settle (hc : w.calls[i]? = some ⟨key, .dialed result⟩) :
      Stepped options w (.settle i) (w.settle i key result)
  | discard (hc : w.calls[i]? = some ⟨key, .discarding r⟩) :
      Stepped options w (.discard i)
        ((w.closeResource r).setCall i key (.returned (.error .closed)))
  | wake (hc : w.calls[i]? = some ⟨key, .waiting channel⟩) (hs : w.signalled channel = true) :
      Stepped options w (.wake i) (w.setCall i key .entering)
  | released (hl : w.leases[l]? = some lease) (hrel : lease.released = true) :
      Stepped options w (.release l reusable) w
  | release (hl : w.leases[l]? = some lease) (hrel : lease.released = false) :
      Stepped options w (.release l reusable) (w.release l lease reusable)
  | close : Stepped options w .close w.close
  | tick (now : Int) : Stepped options w (.tick now) { w with now := now }
  | turn (hr : (w.reusable r).isSome = true) (b : Bool) :
      Stepped options w (.turn r b)
        { w with reusable := Function.update w.reusable r (some b) }

theorem step_stepped (h : step options w a = some w') : Stepped options w a w' := by
  cases a with
  | call key =>
    cases h
    exact .call key
  | cancel i =>
    unfold step at h
    dsimp only at h
    split at h
    · rename_i hc
      cases h
      exact .cancel hc rfl rfl
    · rename_i hc
      cases h
      exact .cancel hc rfl rfl
    · cases h
  | acquire i =>
    unfold step at h
    dsimp only at h
    split at h
    · rename_i hc
      cases h
      exact .acquire hc (acquire_acquired ..)
    · cases h
  | dial i result =>
    unfold step at h
    dsimp only at h
    split at h
    · rename_i hc
      cases h
      exact .dial hc
    · cases h
  | settle i =>
    unfold step at h
    dsimp only at h
    split at h
    · rename_i hc
      cases h
      exact .settle hc
    · cases h
  | discard i =>
    unfold step at h
    dsimp only at h
    split at h
    · rename_i hc
      cases h
      exact .discard hc
    · cases h
  | wake i =>
    unfold step at h
    dsimp only at h
    split at h
    · rename_i hc
      split at h
      · rename_i hs
        cases h
        exact .wake hc hs
      · cases h
    · cases h
  | release l reusable =>
    unfold step at h
    dsimp only at h
    split at h
    · rename_i lease hl
      split at h
      · rename_i hrel
        cases h
        exact .released hl hrel
      · rename_i hrel
        cases h
        exact .release hl (Bool.eq_false_of_not_eq_true hrel)
    · cases h
  | close =>
    cases h
    exact .close
  | tick now =>
    cases h
    exact .tick now
  | turn r b =>
    unfold step at h
    dsimp only at h
    split at h
    · rename_i hr
      cases h
      exact .turn hr b
    · cases h

theorem Safe.call (hs : Safe options w) (key : κ) :
    Safe options { w with calls := w.calls ++ [⟨key, .entering⟩] } where
  cap := hs.cap
  pending key' := by
    refine (hs.pending key').trans ?_
    simp [World.dials, List.countP_append, Phase.dials]
  account r := by
    refine Eq.trans ?_ (hs.account r)
    simp [World.filed, World.held, List.countP_append, Phase.resource]
  active := hs.active
  filed := hs.filed
  exclusive := hs.exclusive

theorem Stepped.safe (h : Stepped options w a w') (hs : Safe options w) : Safe options w' := by
  cases h with
  | call key => exact hs.call key
  | cancel hc hr hd => exact hs.setCall hc hr.symm hd.symm
  | acquire hc h =>
    rw [← expireLocked_calls options w] at hc
    exact (hs.expireLocked _).acquired hc h
  | dial hc => exact hs.dial hc
  | settle hc => exact hs.settle hc
  | discard hc => exact hs.discard hc
  | wake hc _ => exact hs.setCall hc rfl rfl
  | released _ _ => exact hs
  | release hl hrel => exact hs.release hl hrel
  | close => exact hs.close
  | tick now | turn _ b => exact ⟨hs.cap, hs.pending, hs.account, hs.active, hs.filed, hs.exclusive⟩

theorem Drained.expireLocked (hd : Drained w) (key : κ) :
    Drained (w.expireLocked options key) :=
  hd.filterEntries (expired_steady options w.now) key

theorem Drained.acquired {u : World κ} (hd : Drained u) (h : Acquired options u i key w') :
    Drained w' := by
  cases h with
  | closed _ => exact hd
  | leased hopen hret _ _ n reused =>
    intro hclosed
    have hclosed : u.closed = true := by rwa [World.grant, World.setEntry, hret.rest] at hclosed
    rw [hopen] at hclosed
    cases hclosed
  | dials _ hret _ =>
    have hv := hd.retires hret
    exact hv
  | waits _ hnone _ =>
    have hv := hd.retires (available_none_retires hnone)
    exact hv

theorem Drained.settle (hd : Drained w) : Drained (w.settle i key result) := by
  obtain ⟨n, hn⟩ :=
    signalLocked_eq { w with pending := Function.update w.pending key (w.pending key - 1) }
  unfold World.settle
  rw [hn]
  dsimp only
  split
  · exact hd
  · split
    · exact hd
    · rename_i hopen
      exact fun hclosed => absurd hclosed hopen

theorem Stepped.drained (h : Stepped options w a w') (hs : Safe options w) (hd : Drained w) :
    Drained w' := by
  cases h with
  | call _ | cancel _ _ _ | discard _ | wake _ _ | released _ _ | tick _ | turn _ _ => exact hd
  | acquire _ h => exact (hd.expireLocked _).acquired h
  | dial _ => exact hd.dial
  | settle _ => exact hd.settle
  | release hl hrel => exact hd.release hs hl hrel
  | close => exact hd.close

theorem safe_invariant (hmax : 1 ≤ options.maxConnections) :
    (system κ options).Invariant System.Any fun w => Safe options w ∧ Drained w where
  init := by
    rintro w ⟨now, rfl⟩
    refine ⟨⟨fun key => ?_, fun key => rfl, fun r => ?_, fun r => rfl, fun l hl => ?_, fun r _ => ?_⟩,
      fun h => ?_⟩
    · show (0 : Int) + 0 ≤ options.maxConnections
      omega
    · rfl
    · cases hl
    · show (0 : Int) ≤ 1
      decide
    · cases h
  step := by
    rintro w a w' ⟨hs, hd⟩ - h
    exact ⟨(step_stepped h).safe hs, (step_stepped h).drained hs hd⟩

end Steps

end Repost.Pool
