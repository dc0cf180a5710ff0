import Repost.AdmissionTenures

namespace Repost
open Runs
set_option autoImplicit true

structure RuntimeState.Balanced (s : RuntimeState) : Prop where
  sound : ∀ t ∈ s.tenures, t.Sound
  inFlight : s.diagnostics.inFlightOperations = (s.tenures.map Tenure.units).sum
  buffered : s.diagnostics.bufferedBytes = (s.tenures.map Tenure.bytes).sum
  wg : s.wg = (s.tenures.map Tenure.owed).sum
  inFlight_le : s.diagnostics.inFlightOperations ≤ s.config.maxInFlightOperations
  buffered_le : s.diagnostics.bufferedBytes ≤ s.config.maxBufferedBytes
  counters : ∀ c, 0 ≤ s.diagnostics.counters c ∧
    s.diagnostics.counters c ≤ maximumDiagnosticCounter

theorem RuntimeState.Balanced.init (config : AdmissionConfig) :
    (newRuntimeState config).Balanced := by
  obtain ⟨max, bytes, timeout, hmax, hbytes⟩ := config
  refine ⟨fun _ h => (nomatch h), rfl, rfl, rfl, ?_, ?_, fun _ => ⟨Int.le_refl 0, ?_⟩⟩
  · show 0 ≤ max
    omega
  · show 0 ≤ bytes
    omega
  · show (0 : Int) ≤ maximumDiagnosticCounter
    decide

theorem RuntimeState.Balanced.shift {s s' : RuntimeState} (h : s.Balanced)
    (hi : s.tenures[i]? = some t) (hs : s.Shift s' t t')
    (hc : s'.diagnostics.counters = s.diagnostics.counters) : (s'.put i t').Balanced := by
  have hunits := hs.units_le
  have hbytes := hs.bytes_le
  refine ⟨?_, ?_, ?_, ?_, ?_, ?_, ?_⟩
  · simp only [RuntimeState.put, hs.tenures]
    exact forall_mem_set h.sound hs.sound
  · simp only [RuntimeState.put, hs.tenures, sum_map_set hi]
    rw [hs.inFlight, h.inFlight]
  · simp only [RuntimeState.put, hs.tenures, sum_map_set hi]
    rw [hs.buffered, h.buffered]
  · simp only [RuntimeState.put, hs.tenures, sum_map_set hi]
    rw [hs.wg, h.wg]
  · have hle := h.inFlight_le
    simp only [RuntimeState.put, hs.config, hs.inFlight]
    omega
  · have hle := h.buffered_le
    simp only [RuntimeState.put, hs.config, hs.buffered]
    omega
  · simp only [RuntimeState.put, hc]
    exact h.counters

variable {s : RuntimeState}

theorem RuntimeState.Balanced.count (h : s.Balanced) (c : Counter)
    (delta : Int) : (s.count c delta).Balanced := by
  refine ⟨h.sound, h.inFlight, h.buffered, h.wg, h.inFlight_le, h.buffered_le, ?_⟩
  intro c'
  simp only [RuntimeState.count]
  by_cases hc : c' = c
  · subst hc
    rw [Function.update_self]
    obtain ⟨hlo, hhi⟩ := h.counters c'
    exact ⟨hlo.trans (le_saturatingAdd _ _), saturatingAdd_le hhi⟩
  · rw [Function.update_of_ne hc]
    exact h.counters c'

theorem Tenure.Sound.admitted (started deadline : Int) :
    Tenure.Sound
      { permit := { heldBytes := initialOperationReservationBytes, startedNanos := started
                    exclusiveDeadline := deadline } } := by
  refine ⟨Int.le_refl 0, ?_, rfl, ⟨?_, Int.le_refl _⟩, fun _ => rfl⟩
  · simp
  · show responseWorkspaceBytes + parserScratchBytes ≤ initialOperationReservationBytes
    decide

theorem RuntimeState.admitOperation_cases (s : RuntimeState) (call : AdmissionCall) :
    (∃ e, s.admitOperation call = (s, .error e)) ∨
    (∃ c e, s.admitOperation call = (s.count c 1, .error e)) ∨
    ∃ started, s.diagnostics.inFlightOperations < s.config.maxInFlightOperations ∧
      s.diagnostics.bufferedBytes + initialOperationReservationBytes ≤ s.config.maxBufferedBytes ∧
      s.admitOperation call =
        ({ s with
            diagnostics := { s.diagnostics with
              inFlightOperations := s.diagnostics.inFlightOperations + 1
              bufferedBytes := s.diagnostics.bufferedBytes + initialOperationReservationBytes }
            wg := s.wg + 1 },
          .ok { heldBytes := initialOperationReservationBytes, startedNanos := started
                exclusiveDeadline := call.deadline started s.config.operationTimeout }) := by
  unfold RuntimeState.admitOperation
  split
  · exact .inl ⟨_, rfl⟩
  · split
    · exact .inr (.inl ⟨_, _, rfl⟩)
    · split
      · exact .inr (.inl ⟨_, _, rfl⟩)
      · split
        · exact .inl ⟨_, rfl⟩
        · split
          · exact .inl ⟨_, rfl⟩
          · exact .inr (.inr ⟨_, by omega, by omega, rfl⟩)

theorem RuntimeState.Balanced.admitOperation (h : s.Balanced) (call : AdmissionCall)
    (hs : s.own (.admitOperation call) = some s') : s'.Balanced := by
  simp only [RuntimeState.own] at hs
  rcases s.admitOperation_cases call with ⟨e, he⟩ | ⟨c, e, he⟩ | ⟨started, hin, hby, he⟩
  · rw [he] at hs
    cases hs
    exact h
  · rw [he] at hs
    cases hs
    exact h.count c 1
  · rw [he] at hs
    cases hs
    refine ⟨forall_mem_append_one h.sound (.admitted _ _), ?_, ?_, ?_, ?_, hby, h.counters⟩
    · simp only [sum_map_append_one, h.inFlight]
      rfl
    · simp only [sum_map_append_one, h.buffered]
      rfl
    · simp only [sum_map_append_one, h.wg]
      rfl
    · dsimp only
      omega

theorem RuntimeState.Balanced.own (h : s.Balanced) (hs : s.own a = some s') :
    s'.Balanced := by
  cases a with
  | admitOperation call => exact h.admitOperation call hs
  | recordResponseHeaderLimitFailure | recordResponseCloseFailure
  | addDroppedObserverEvents delta | addObserverFailure | addTelemetryFailure =>
    cases hs; exact h.count _ _
  | beginClose =>
    cases hs
    unfold RuntimeState.beginClose
    split
    · exact h
    · exact ⟨h.sound, h.inFlight, h.buffered, h.wg, h.inFlight_le, h.buffered_le, h.counters⟩
  | finishClose =>
    cases hs
    exact ⟨h.sound, h.inFlight, h.buffered, h.wg, h.inFlight_le, h.buffered_le, h.counters⟩
  | _ => cases hs

theorem admissionStep_cases (hs : admissionStep s a = some s') :
    (a.permit = none ∧ s.own a = some s') ∨
    ∃ i t u t', a.permit = some i ∧ s.tenures[i]? = some t ∧ s.onTenure t a = some (u, t') ∧
      s' = u.put i t' := by
  unfold admissionStep at hs
  split at hs
  · rename_i i hi
    split at hs
    · rename_i t ht
      obtain ⟨⟨u, t'⟩, hu, rfl⟩ := Option.map_eq_some_iff.1 hs
      exact .inr ⟨i, t, u, t', hi, ht, hu, rfl⟩
    · cases hs
  · rename_i hn
    exact .inl ⟨hn, hs⟩

theorem balanced_invariant : admission.Invariant System.Any RuntimeState.Balanced := by
  constructor
  · rintro s ⟨config, rfl⟩
    exact .init config
  · intro s a s' h _ hs
    rcases admissionStep_cases hs with ⟨-, ho⟩ | ⟨i, t, u, t', -, ht, hu, rfl⟩
    · exact h.own ho
    · have hshift := RuntimeState.onTenure_shift (h.sound t (List.mem_of_getElem? ht)) hu
      exact h.shift ht hshift (onTenure_counters hu)

def RuntimeState.live (s : RuntimeState) : List Tenure :=
  s.tenures.filter fun t => t.finalised = 0

theorem RuntimeState.Balanced.inFlight_eq (h : s.Balanced) :
    s.diagnostics.inFlightOperations = s.live.length := by
  have hone : (s.live.map fun _ => (1 : Int)).sum = s.live.length := by simp
  rw [h.inFlight, ← hone, RuntimeState.live, sum_filter_map]
  simp only [decide_eq_true_eq]
  rfl

theorem RuntimeState.Balanced.buffered_eq (h : s.Balanced) :
    s.diagnostics.bufferedBytes = (s.live.map fun t => t.permit.heldBytes).sum := by
  rw [h.buffered, RuntimeState.live, sum_filter_map]
  simp only [decide_eq_true_eq]
  rfl

theorem Tenure.Sound.bytes_nonneg {t : Tenure} (h : t.Sound) : 0 ≤ t.bytes := by
  have hb := h.held.1
  have hc : (0 : Int) ≤ responseWorkspaceBytes + parserScratchBytes := by decide
  unfold Tenure.bytes
  split <;> omega

theorem Tenure.Sound.finalised_le {t : Tenure} (h : t.Sound) : t.finalised ≤ 1 := by
  have ho := h.once
  split at ho <;> omega

theorem Tenure.Sound.after {t : Tenure} (h : t.Sound) (hf : 0 < t.finalised) :
    t.permit.releaseRequested = true ∧ t.permit.activeCalls = 0 := by
  have ho := h.once
  split at ho
  · rename_i hr
    exact h.released.1 hr
  · omega

theorem counters_step (hs : admissionStep s a = some s') :
    s.diagnostics.counters ≤ s'.diagnostics.counters := by
  have hcount : ∀ c delta, s.diagnostics.counters ≤ (s.count c delta).diagnostics.counters := by
    intro c delta
    simp only [RuntimeState.count, le_update_self_iff]
    exact le_saturatingAdd _ _
  rcases admissionStep_cases hs with ⟨-, ho⟩ | ⟨i, t, u, t', -, ht, hu, rfl⟩
  · cases a with
    | admitOperation call =>
      simp only [RuntimeState.own] at ho
      rcases s.admitOperation_cases call with ⟨e, he⟩ | ⟨c, e, he⟩ | ⟨started, -, -, he⟩
      · rw [he] at ho
        cases ho
        exact le_refl _
      · rw [he] at ho
        cases ho
        exact hcount c 1
      · rw [he] at ho
        cases ho
        exact le_refl _
    | recordResponseHeaderLimitFailure | recordResponseCloseFailure
    | addDroppedObserverEvents delta | addObserverFailure | addTelemetryFailure =>
      cases ho; exact hcount _ _
    | beginClose =>
      cases ho
      unfold RuntimeState.beginClose
      split <;> exact le_refl _
    | finishClose =>
      cases ho
      exact le_refl _
    | _ => cases ho
  · exact le_of_eq (onTenure_counters hu).symm

theorem own_tenures {s s' : RuntimeState} (h : s.own a = some s') :
    ∃ l, s'.tenures = s.tenures ++ l := by
  cases a with
  | admitOperation call =>
    simp only [RuntimeState.own] at h
    rcases s.admitOperation_cases call with ⟨e, he⟩ | ⟨c, e, he⟩ | ⟨started, -, -, he⟩
    · rw [he] at h
      cases h
      exact ⟨[], (List.append_nil _).symm⟩
    · rw [he] at h
      cases h
      exact ⟨[], (List.append_nil _).symm⟩
    · rw [he] at h
      cases h
      exact ⟨_, rfl⟩
  | beginClose =>
    cases h
    refine ⟨[], ?_⟩
    unfold RuntimeState.beginClose
    split <;> exact (List.append_nil _).symm
  | _ => cases h <;> exact ⟨[], (List.append_nil _).symm⟩

/-- What the diagnostics and permits of a runtime satisfy at all times. -/
structure RuntimeState.Accounts (s : RuntimeState) : Prop where
  inFlight : s.diagnostics.inFlightOperations = s.live.length
  inFlight_le : s.diagnostics.inFlightOperations ≤ s.config.maxInFlightOperations
  buffered : s.diagnostics.bufferedBytes = (s.live.map fun t => t.permit.heldBytes).sum
  buffered_range : 0 ≤ s.diagnostics.bufferedBytes ∧
    s.diagnostics.bufferedBytes ≤ s.config.maxBufferedBytes
  atMostOnce : ∀ t ∈ s.tenures, t.finalised ≤ 1
  after : ∀ t ∈ s.tenures, 0 < t.finalised →
    t.permit.releaseRequested = true ∧ t.permit.activeCalls = 0
  finalised : ∀ i t, s.tenures[i]? = some t → t.permit.releaseRequested = true →
    t.permit.activeCalls = 0 → t.finalised = 1 ∨
      ∃ s' t', admissionStep s (.finishRelease i) = some s' ∧ s'.tenures[i]? = some t' ∧
        t'.finalised = 1
  counters : ∀ c, 0 ≤ s.diagnostics.counters c ∧ s.diagnostics.counters c ≤ 2 ^ 53 - 1

theorem RuntimeState.Balanced.accounts (h : s.Balanced) : s.Accounts := by
  constructor
  · exact h.inFlight_eq
  · exact h.inFlight_le
  · exact h.buffered_eq
  · refine ⟨?_, h.buffered_le⟩
    rw [h.buffered]
    exact sum_map_nonneg fun t ht => (h.sound t ht).bytes_nonneg
  · exact fun t ht => (h.sound t ht).finalised_le
  · exact fun t ht hf => (h.sound t ht).after hf
  · intro i t hi hr ha
    have hs := h.sound t (List.mem_of_getElem? hi)
    have ho := hs.once
    rw [hs.released.2 ⟨hr, ha⟩, if_pos rfl] at ho
    by_cases hf : t.finishing > 0
    · refine .inr ⟨(s.finishRelease t.permit).put i t.finalise, t.finalise, ?_, ?_, ?_⟩
      · simp only [admissionStep, AdmissionAct.permit, hi, RuntimeState.onTenure, hf, if_true,
          Option.map_some]
      · exact List.getElem?_set_self (List.getElem?_eq_some_iff.1 hi).1
      · unfold Tenure.finalise
        dsimp only
        omega
    · exact .inl (by omega)
  · exact h.counters

/-- Admission accounting: in every state of every interleaving the in-flight operations and the
buffered bytes are those of the permits not yet finalised and within their limits; a permit is
finalised at most once, never before its release was requested and its calls ended, and after that
it is finalised or its one finishing call is enabled; and the counters only grow. -/
theorem admission_accounting (h : admission.Reachable System.Any s)
    (hs : admission.Steps System.Any s s') :
    s'.Accounts ∧ s.diagnostics.counters ≤ s'.diagnostics.counters ∧
      ∀ a u (i : Nat) (t t' : Tenure), admissionStep s' a = some u → s'.tenures[i]? = some t →
        u.tenures[i]? = some t' → t'.finalised ≠ t.finalised →
          t.finalised = 0 ∧ t.permit.releaseRequested = true ∧ t.permit.activeCalls = 0 := by
  have hb := balanced_invariant.reachable (h.trans hs)
  have hm : s.diagnostics.counters ≤ s'.diagnostics.counters :=
    System.Steps.monotone (f := fun s : RuntimeState => s.diagnostics.counters)
      (fun _ _ _ => counters_step) hs
  refine ⟨hb.accounts, hm, ?_⟩
  intro a u i t t' hstep ht ht' hne
  rcases admissionStep_cases hstep with ⟨-, ho⟩ | ⟨j, r, v, r', -, hr, hv, rfl⟩
  · obtain ⟨l, hl⟩ := own_tenures ho
    rw [hl, List.getElem?_append_left (List.getElem?_eq_some_iff.1 ht).1, ht] at ht'
    cases ht'
    exact absurd rfl hne
  · have hshift := RuntimeState.onTenure_shift (hb.sound r (List.mem_of_getElem? hr)) hv
    simp only [RuntimeState.put, hshift.tenures] at ht'
    by_cases hij : j = i
    · subst hij
      rw [List.getElem?_set_self (List.getElem?_eq_some_iff.1 hr).1] at ht'
      cases ht'
      cases hr.symm.trans ht
      exact hshift.finalises hne
    · rw [List.getElem?_set_ne hij, ht] at ht'
      cases ht'
      exact absurd rfl hne

namespace Sample

def admissionConfig : AdmissionConfig where
  maxInFlightOperations := 1
  maxBufferedBytes := 4194304
  operationTimeout := 30000000000
  inFlight_range := by decide
  buffered_range := by decide

/-- A call is abandoned, the release comes first and the end of the call finishes the permit; a
second operation is turned away meanwhile and a third is admitted. -/
def abandoning : List AdmissionAct :=
  [.admitOperation {}, .beginCall 0, .shrinkRequest 0 104, .release 0, .admitOperation {}, .endCall 0,
    .finishRelease 0, .admitOperation {}, .signal 0]

end Sample

theorem Sample.abandoning_accounts :
    ∃ s : RuntimeState, s.Accounts ∧ s.diagnostics.inFlightOperations = 1 ∧
      s.diagnostics.counters .concurrencyOverloadRejections = 1 := by
  obtain ⟨s, hs, hin, hc⟩ : ∃ s ∈ admission.exec System.Any (newRuntimeState Sample.admissionConfig)
      Sample.abandoning, s.diagnostics.inFlightOperations = 1 ∧
        s.diagnostics.counters .concurrencyOverloadRejections = 1 := by
    exact ⟨_, rfl, by decide, by decide⟩
  have hr : admission.Reachable System.Any s := System.exec_reachable ⟨_, rfl⟩ hs
  exact ⟨s, (admission_accounting hr (.refl s)).1, hin, hc⟩

end Repost
