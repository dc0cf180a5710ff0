import Repost.Admission

namespace Repost
open Runs
set_option autoImplicit true

structure Tenure.Sound (t : Tenure) : Prop where
  active : 0 ≤ t.permit.activeCalls
  released : t.permit.released = true ↔
    t.permit.releaseRequested = true ∧ t.permit.activeCalls = 0
  once : t.finishing + t.finalised = if t.permit.released then 1 else 0
  held : responseWorkspaceBytes + parserScratchBytes ≤ t.permit.heldBytes ∧
    t.permit.heldBytes ≤ initialOperationReservationBytes
  whole : t.shrinks = 0 → t.permit.heldBytes = initialOperationReservationBytes

def Tenure.units (t : Tenure) : Int := if t.finalised = 0 then 1 else 0

def Tenure.bytes (t : Tenure) : Int := if t.finalised = 0 then t.permit.heldBytes else 0

def Tenure.owed (t : Tenure) : Int := t.units + t.signalling

structure RuntimeState.Shift (s s' : RuntimeState) (t t' : Tenure) : Prop where
  sound : t'.Sound
  tenures : s'.tenures = s.tenures
  config : s'.config = s.config
  inFlight : s'.diagnostics.inFlightOperations =
    s.diagnostics.inFlightOperations + (t'.units - t.units)
  buffered : s'.diagnostics.bufferedBytes = s.diagnostics.bufferedBytes + (t'.bytes - t.bytes)
  wg : s'.wg = s.wg + (t'.owed - t.owed)
  units_le : t'.units ≤ t.units
  bytes_le : t'.bytes ≤ t.bytes
  finalises : t'.finalised ≠ t.finalised →
    t.finalised = 0 ∧ t.permit.releaseRequested = true ∧ t.permit.activeCalls = 0

variable {s : RuntimeState}

theorem RuntimeState.Shift.still {t t' : Tenure} (hs : t'.Sound)
    (hf : t'.finalised = t.finalised) (hh : t'.permit.heldBytes = t.permit.heldBytes)
    (hg : t'.signalling = t.signalling) : s.Shift s t t' := by
  have hu : t'.units = t.units := by rw [Tenure.units, hf, Tenure.units]
  have hb : t'.bytes = t.bytes := by rw [Tenure.bytes, hf, hh, Tenure.bytes]
  have ho : t'.owed = t.owed := by rw [Tenure.owed, hu, hg, Tenure.owed]
  refine ⟨hs, rfl, rfl, by omega, by omega, by omega, by omega, by omega, ?_⟩
  intro h
  exact absurd hf h

variable {t : Tenure}

theorem Tenure.Sound.beginCall (h : t.Sound) (hr : t.permit.releaseRequested = false) :
    Tenure.Sound { t with permit := t.permit.beginCall } := by
  have hrel : t.permit.released = false := by
    cases hc : t.permit.released with
    | false => rfl
    | true => rw [(h.released.1 hc).1] at hr; cases hr
  have ha := h.active
  refine ⟨?_, ?_, h.once, h.held, h.whole⟩
  · simp only [OperationPermit.beginCall]
    omega
  · simp only [OperationPermit.beginCall, hrel, hr]
    simp

theorem Tenure.Sound.release (h : t.Sound) :
    (t.finish t.permit.release).Sound := by
  have ha := h.active
  have ho := h.once
  have hrel := h.released
  unfold Tenure.finish OperationPermit.release
  by_cases hf : (decide (t.permit.activeCalls = 0) && !t.permit.released) = true
  · simp only [hf, if_true]
    simp only [Bool.and_eq_true, decide_eq_true_eq, Bool.not_eq_true'] at hf
    rw [hf.2] at ho
    refine ⟨ha, ?_, ?_, h.held, h.whole⟩
    · simp only [hf.1, and_self]
    · simp only [if_true]
      simp only [Bool.false_eq_true, if_false] at ho
      omega
  · simp only [hf, Bool.false_eq_true, if_false]
    simp only [Bool.and_eq_true, decide_eq_true_eq, Bool.not_eq_true', not_and,
      Bool.not_eq_false] at hf
    refine ⟨ha, ?_, ho, h.held, h.whole⟩
    constructor
    · intro hr
      exact ⟨rfl, (hrel.1 hr).2⟩
    · intro hr
      exact hf hr.2

theorem Tenure.Sound.endCall (h : t.Sound) (hpos : t.permit.activeCalls > 0) :
    (t.finish t.permit.endCall).Sound := by
  have ho := h.once
  have hrel : t.permit.released = false := by
    cases hc : t.permit.released with
    | false => rfl
    | true =>
      have := (h.released.1 hc).2
      omega
  rw [hrel] at ho
  simp only [Bool.false_eq_true, if_false] at ho
  unfold Tenure.finish OperationPermit.endCall
  by_cases hf : (decide (t.permit.activeCalls - 1 = 0) && t.permit.releaseRequested &&
      !t.permit.released) = true
  · simp only [hf, if_true]
    simp only [Bool.and_eq_true, decide_eq_true_eq, Bool.not_eq_true'] at hf
    refine ⟨?_, ?_, ?_, h.held, h.whole⟩
    · dsimp only
      omega
    · simp only [hf.1.1, hf.1.2, and_self]
    · simp only [if_true]
      omega
  · simp only [hf, Bool.false_eq_true, if_false]
    simp only [Bool.and_eq_true, decide_eq_true_eq, Bool.not_eq_true', hrel, and_true] at hf
    refine ⟨?_, ?_, ?_, h.held, h.whole⟩
    · dsimp only
      omega
    · simp only [hrel, Bool.false_eq_true, false_iff]
      intro hc
      exact hf ⟨hc.2, hc.1⟩
    · simp only [hrel, Bool.false_eq_true, if_false]
      omega

theorem RuntimeState.Shift.shrinkRequest (h : t.Sound) (n : Int)
    (hr : t.permit.releaseRequested = false) (hs : t.shrinks = 0) :
    s.Shift (s.shrinkRequest t.permit n).1 t
      { t with permit := (s.shrinkRequest t.permit n).2, shrinks := t.shrinks + 1 } := by
  have hrel : t.permit.released = false := by
    cases hc : t.permit.released with
    | false => rfl
    | true => rw [(h.released.1 hc).1] at hr; cases hr
  have hfin : t.finalised = 0 := by
    have ho := h.once
    simp only [hrel, Bool.false_eq_true, if_false] at ho
    omega
  have hwhole := h.whole hs
  unfold RuntimeState.shrinkRequest
  split
  · exact .still ⟨h.active, h.released, h.once, h.held, fun h => by cases h⟩ rfl rfl rfl
  · rename_i hn
    simp only [Bool.or_eq_true, decide_eq_true_eq, not_or] at hn
    have hi : initialOperationReservationBytes =
      requestWorkspaceBytes + responseWorkspaceBytes + parserScratchBytes := rfl
    refine ⟨⟨h.active, h.released, h.once, ?_, fun h => by cases h⟩, rfl, rfl, ?_, ?_, ?_, ?_,
      ?_, fun hne => absurd rfl hne⟩
    · dsimp only
      omega
    · simp only [Tenure.units, hfin]
      omega
    · simp only [Tenure.bytes, hfin, if_true]
      omega
    · simp only [Tenure.owed, Tenure.units, hfin]
      omega
    · exact Int.le_refl _
    · simp only [Tenure.bytes, hfin, if_true]
      omega

theorem Tenure.Sound.finishing (h : t.Sound) (hf : t.finishing > 0) :
    t.permit.released = true ∧ t.finalised = 0 := by
  have ho := h.once
  cases hc : t.permit.released with
  | true =>
    simp only [hc, if_true] at ho
    exact ⟨rfl, by omega⟩
  | false =>
    simp only [hc, Bool.false_eq_true, if_false] at ho
    omega

theorem Tenure.Sound.finalise (h : t.Sound) (hf : t.finishing > 0) : t.finalise.Sound := by
  have ho := h.once
  refine ⟨h.active, h.released, ?_, h.held, h.whole⟩
  rw [show t.finalise.permit = t.permit from rfl, ← ho]
  simp only [Tenure.finalise]
  omega

theorem RuntimeState.Shift.finishRelease (h : t.Sound) (hf : t.finishing > 0) :
    s.Shift (s.finishRelease t.permit) t t.finalise := by
  obtain ⟨hrel, hfin⟩ := h.finishing hf
  have hheld : (0 : Int) ≤ t.permit.heldBytes := by
    have hb := h.held.1
    have hc : (0 : Int) ≤ responseWorkspaceBytes + parserScratchBytes := by decide
    omega
  refine ⟨h.finalise hf, rfl, rfl, ?_, ?_, ?_, ?_, ?_, fun _ => ⟨hfin, h.released.1 hrel⟩⟩
  · simp only [Tenure.units, Tenure.finalise, hfin, RuntimeState.finishRelease]
    rfl
  · simp only [Tenure.bytes, Tenure.finalise, hfin, RuntimeState.finishRelease]
    simp only [Nat.zero_add, Nat.one_ne_zero, if_true, if_false]
    omega
  · simp only [Tenure.owed, Tenure.units, Tenure.finalise, hfin, RuntimeState.finishRelease]
    simp only [Nat.zero_add, Nat.one_ne_zero, if_true, if_false]
    omega
  · simp only [Tenure.units, Tenure.finalise, hfin]
    decide
  · simp only [Tenure.bytes, Tenure.finalise, hfin]
    simpa using hheld

/-- Every step on a permit is such a shift. -/
theorem RuntimeState.onTenure_shift {s s' : RuntimeState} {t t' : Tenure} (h : t.Sound)
    (hs : s.onTenure t a = some (s', t')) : s.Shift s' t t' := by
  cases a with
  | beginCall i =>
    simp only [RuntimeState.onTenure] at hs
    split at hs
    · cases hs
    · rename_i hr
      cases hs
      exact .still (h.beginCall (by simpa using hr)) rfl rfl rfl
  | endCall i =>
    simp only [RuntimeState.onTenure] at hs
    split at hs
    · rename_i hpos
      cases hs
      refine .still (h.endCall hpos) rfl ?_ rfl
      unfold Tenure.finish OperationPermit.endCall
      dsimp only
      split <;> rfl
    · cases hs
  | shrinkRequest i n =>
    simp only [RuntimeState.onTenure] at hs
    split at hs
    · cases hs
    · rename_i hg
      cases hs
      simp only [Bool.or_eq_true, decide_eq_true_eq, not_or, Bool.not_eq_true] at hg
      exact .shrinkRequest h n hg.1 (by omega)
  | release i =>
    cases hs
    refine .still h.release rfl ?_ rfl
    unfold Tenure.finish OperationPermit.release
    dsimp only
    split <;> rfl
  | finishRelease i =>
    simp only [RuntimeState.onTenure] at hs
    split at hs
    · rename_i hf
      cases hs
      exact .finishRelease h hf
    · cases hs
  | signal i =>
    simp only [RuntimeState.onTenure] at hs
    split at hs
    · rename_i hg
      cases hs
      refine ⟨⟨h.active, h.released, h.once, h.held, h.whole⟩, rfl, rfl, ?_, ?_, ?_, Int.le_refl _,
        Int.le_refl _, fun hne => absurd rfl hne⟩
      · simp only [Tenure.units]
        omega
      · simp only [Tenure.bytes]
        omega
      · simp only [Tenure.owed, Tenure.units]
        omega
    · cases hs
  | _ => cases hs

theorem onTenure_counters {s s' : RuntimeState} (h : s.onTenure t a = some (s', t')) :
    s'.diagnostics.counters = s.diagnostics.counters := by
  cases a <;> simp only [RuntimeState.onTenure] at h
  case shrinkRequest i n =>
    split at h
    · cases h
    · cases h
      unfold RuntimeState.shrinkRequest
      split <;> rfl
  case release i =>
    cases h
    rfl
  all_goals first | cases h | (split at h <;> cases h; rfl)

theorem le_saturatingAdd (counter delta : Int) : counter ≤ saturatingAdd counter delta := by
  unfold saturatingAdd
  split
  · exact le_refl _
  · rename_i hd
    simp only [Bool.or_eq_true, decide_eq_true_eq, not_or] at hd
    split <;> omega

theorem saturatingAdd_le (h : counter ≤ maximumDiagnosticCounter) :
    saturatingAdd counter delta ≤ maximumDiagnosticCounter := by
  unfold saturatingAdd
  split
  · exact h
  · split <;> omega

end Repost
