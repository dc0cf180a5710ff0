import Repost.Shutdown

namespace Repost
open Runs
set_option autoImplicit true

namespace Shutdown

/-- What one step of a call of `Close` can be. -/
inductive Advances (s : Shutdown α) (c : CloseCall) : Shutdown α → CloseCall → Prop where
  | begins (hp : c.phase = .beginning) (hc : s.state.closing = false)
    (hd : s.state.diagnostics.closed = false) :
    Advances s c { s with state := { s.state with closing := true } }
      { c with owner := true, phase := .awaitingOperations }
  | refused (hp : c.phase = .beginning) (hself : c.self = true) :
    Advances s c s { c with phase := .returned }
  | follows (hp : c.phase = .beginning) (hself : c.self = false) :
    Advances s c s { c with phase := .awaitingClosed }
  | closed (hp : c.phase = .awaitingClosed) (hd : 0 < s.closeDone) :
    Advances s c s { c with phase := .callingObserver }
  | drained (hp : c.phase = .awaitingOperations) (hw : s.state.wg = 0) :
    Advances s c s { c with phase := .callingObserver }
  | absent (hp : c.phase = .callingObserver) (hd : s.dispatcher = none) :
    Advances s c s c.afterObserver
  | calls (hp : c.phase = .callingObserver) (hd : s.dispatcher = some d)
    (hc : d.close c.gid = some d') :
    Advances s c { s with dispatcher := some d' } { c with phase := .inObserver d.closes.length }
  | called (hp : c.phase = .callingObserver) (hd : s.dispatcher = some d)
    (hc : d.close c.gid = some d') (hn : ¬ d.closes.length < d'.closes.length) :
    Advances s c { s with dispatcher := some d' } c.afterObserver
  | waits (hp : c.phase = .inObserver k) (hd : s.dispatcher = some d) (hr : d.resume k = some d') :
    Advances s c { s with dispatcher := some d' } c
  | leaves (hp : c.phase = .inObserver k) (hd : s.dispatcher = some d) (hr : d.resume k = some d')
    (he : d'.closes[k]? = some .returned) :
    Advances s c { s with dispatcher := some d' } c.afterObserver
  | finishes (hp : c.phase = .finishing) : Advances s c s.finishClose { c with phase := .returned }

theorem advance_advances {s : Shutdown α} (h : s.advance c = some (s', c')) : s.Advances c s' c' := by
  unfold Shutdown.advance at h
  split at h
  · rename_i hp
    unfold RuntimeState.beginClose at h
    by_cases hc : (s.state.closing || s.state.diagnostics.closed) = true
    · rw [if_pos hc] at h
      cases h
      by_cases hself : c.self = true
      · rw [if_pos hself]
        exact .refused hp hself
      · rw [if_neg hself]
        exact .follows hp (Bool.not_eq_true _ ▸ hself)
    · rw [if_neg hc] at h
      simp only [Bool.or_eq_true, not_or, Bool.not_eq_true] at hc
      cases h
      exact .begins hp hc.1 hc.2
  · rename_i hp
    split at h
    · rename_i hd
      cases h
      exact .closed hp hd
    · cases h
  · rename_i hp
    split at h
    · rename_i hw
      cases h
      exact .drained hp hw
    · cases h
  · rename_i hp
    split at h
    · rename_i hd
      cases h
      exact .absent hp hd
    · rename_i d hd
      obtain ⟨d', hc, he⟩ := Option.map_eq_some_iff.1 h
      cases he
      split
      · exact .calls hp hd hc
      · rename_i hn
        exact .called hp hd hc hn
  · rename_i hp
    split at h
    · cases h
    · rename_i d hd
      obtain ⟨d', hr, he⟩ := Option.map_eq_some_iff.1 h
      cases he
      split
      · rename_i hret
        exact .leaves hp hd hr hret
      · exact .waits hp hd hr
  · rename_i hp
    cases h
    exact .finishes hp
  · cases h

inductive Stepped (s : Shutdown α) : Shutdown α → Prop where
  | runtime (ha : a.closes = false) (hd : a.dispatchers = false)
    (hs : admissionStep s.state a = some r) : Stepped s { s with state := r }
  | dispatcher (hd : s.dispatcher = some d) (hs : d.step a = some (d', tally)) :
    Stepped s { s with dispatcher := some d', state := s.state.tally tally }
  | arrives (gid : Nat) :
    Stepped s { s with closers := s.closers ++ [{ gid := gid, self := s.isCurrentCallback gid }] }
  | advances (hi : s.closers[i]? = some c) (h : s.Advances c s' c') :
    Stepped s { s' with closers := s'.closers.set i c' }

theorem step_stepped {s : Shutdown α} (h : s.step a = some s') : s.Stepped s' := by
  cases a with
  | runtime a =>
    simp only [Shutdown.step] at h
    split at h
    · cases h
    · rename_i ha
      simp only [Bool.or_eq_true, not_or, Bool.not_eq_true] at ha
      obtain ⟨state, hs, rfl⟩ := Option.map_eq_some_iff.1 h
      exact .runtime ha.1 ha.2 hs
  | dispatcher a =>
    simp only [Shutdown.step] at h
    split at h
    · cases h
    · rename_i d hd
      split at h
      · cases h
      · obtain ⟨⟨d', tally⟩, hs, rfl⟩ := Option.map_eq_some_iff.1 h
        exact .dispatcher hd hs
  | close gid =>
    simp only [Shutdown.step] at h
    split at h
    · cases h
    · cases h
      exact .arrives gid
  | advance i =>
    simp only [Shutdown.step] at h
    split at h
    · cases h
    · rename_i c hc
      obtain ⟨⟨s', c'⟩, hs, rfl⟩ := Option.map_eq_some_iff.1 h
      exact .advances hc (advance_advances hs)

end Shutdown

structure Shutdown.Core (s : Shutdown α) : Prop where
  observed : ∀ d ∈ s.dispatcher, (observing α).Reachable System.Any ⟨d, s.state⟩
  balanced : s.state.Balanced
  closed : s.state.diagnostics.closed = true → s.state.closing = true ∧ s.state.wg = 0
  closeDone : s.closeDone = if s.state.diagnostics.closed then 1 else 0

theorem Shutdown.Core.guarded {s : Shutdown α} (h : s.Core) (hd : s.dispatcher = some d) :
    d.Guarded :=
  (observing_sound.reachable (h.observed d hd)).dispatcher.guarded

theorem Observing.reaches {s s' : Observing α} (h : (observing α).Reachable System.Any s)
    (hs : s.step a = some s') : (observing α).Reachable System.Any s' :=
  h.trans (.tail (.refl s) trivial hs)

theorem Shutdown.Core.dispatched {s : Shutdown α} (h : s.Core) (hd : s.dispatcher = some d)
    (hs : d.step a = some (d', tally)) :
    Core { s with dispatcher := some d', state := s.state.tally tally } := by
  obtain ⟨hclosing, hwg, hclosed⟩ := tally_frame s.state tally
  refine ⟨?_, ?_, ?_, ?_⟩
  · rintro _ ⟨⟩
    refine Observing.reaches (a := .dispatcher a) (h.observed d hd) ?_
    simp only [Observing.step, hs, Option.map_some]
  · rcases tally with _ | ⟨c, n⟩
    · exact h.balanced
    · exact h.balanced.count c n
  · dsimp only
    rw [hclosing, hwg, hclosed]
    exact h.closed
  · dsimp only
    rw [hclosed]
    exact h.closeDone

theorem Shutdown.Core.runtime {s : Shutdown α} (h : s.Core) (ha : a.dispatchers = false)
    (hs : admissionStep s.state a = some r)
    (hc : r.diagnostics.closed = true → r.closing = true ∧ r.wg = 0)
    (hn : n = if r.diagnostics.closed then 1 else 0) :
    Core { s with state := r, closeDone := n } := by
  refine ⟨?_, balanced_invariant.step _ _ _ h.balanced trivial hs, hc, hn⟩
  intro d hd
  refine Observing.reaches (a := .runtime a) (h.observed d hd) ?_
  simp only [Observing.step, ha, Bool.false_eq_true, if_false, hs, Option.map_some]

theorem Shutdown.Later.refl (s : Shutdown α) : s.Later s := ⟨id, fun _ => id, id, id, id⟩

theorem Shutdown.Core.later_runtime {s : Shutdown α} (h : s.Core) (ha : a.closes = false)
    (hs : admissionStep s.state a = some r) : s.Later { s with state := r } := by
  obtain ⟨hclosing, hclosed⟩ := admissionStep_frame hs ha
  refine ⟨?_, ?_, ?_, id, id⟩
  · exact fun hc => hclosing.trans hc
  · intro hc hw
    have hle := admissionStep_wg hs hc
    have hnonneg := (balanced_invariant.step _ _ _ h.balanced trivial hs).wg_nonneg
    dsimp only
    omega
  · exact fun hc => hclosed.trans hc

theorem Shutdown.later_dispatched {s : Shutdown α} (hd : s.dispatcher = some d)
    (hs : d.step a = some (d', tally)) :
    s.Later { s with dispatcher := some d', state := s.state.tally tally } := by
  have hquiet : s.Quiet → ∀ e, some d' = some e → e.done = true := by
    rintro hq _ ⟨⟩
    exact Dispatcher.step_done hs (hq d hd)
  have houtside : ∀ {gid}, (∀ e, some d' = some e → gid ≠ e.goroutine) → s.Outside gid := by
    intro gid ho e he
    rw [hd] at he
    cases he
    rw [← Dispatcher.step_goroutine hs]
    exact ho d' rfl
  obtain ⟨hclosing, hwg, hclosed⟩ := tally_frame s.state tally
  exact ⟨fun hc => hclosing.trans hc, fun _ hw => hwg.trans hw, fun hc => hclosed.trans hc, hquiet,
    houtside⟩

theorem CloseCall.Sound.afterObserver {s : Shutdown α} {c : CloseCall} (h : c.Sound s)
    (hp : c.phase.past = true) (hq : s.Outside c.gid → s.Quiet) : c.afterObserver.Sound s := by
  unfold CloseCall.afterObserver
  cases ho : c.owner with
  | true =>
    have hw := h.drained ho hp
    exact ⟨fun _ => h.owner ho, nofun, fun _ => rfl, fun _ _ => hw, nofun, nofun, h.self,
      fun hout _ => hq hout, nofun⟩
  | false =>
    have hclosed := h.follows ho hp
    exact ⟨nofun, fun _ => rfl, nofun, nofun, nofun, nofun, h.self, fun hout _ => hq hout,
      fun _ _ => hclosed⟩

namespace Shutdown

variable {d : Dispatcher α}

theorem close_waits (hg : d.Guarded) (hout : gid ≠ d.goroutine)
    (hc : d.close gid = some d') : d.closes.length < d'.closes.length := by
  have hself := hg.isCurrentCallback hout
  rcases Dispatcher.close_cases hc with
    ⟨-, ⟨-, h⟩ | ⟨rfl, -⟩⟩ | ⟨-, ⟨-, h⟩ | ⟨-, ⟨-, rfl⟩ | rfl⟩⟩
  · rw [hself] at h
    cases h
  · simp
  · rw [hself] at h
    cases h
  · simp
  · simp

structure Keeps (s s' : Shutdown α) (c' : CloseCall) : Prop where
  later : s.Later s'
  core : s'.Core
  sound : c'.Sound s'
  closers : s'.closers = s.closers

theorem Keeps.still {s : Shutdown α} (h : s.Core) (hc : c'.Sound s) : s.Keeps s c' :=
  ⟨.refl s, h, hc, rfl⟩

theorem close_step (h : d.close gid = some d') :
    d.step (.close gid) = some (d', none) := by
  simp only [Dispatcher.step, h, Option.map_some]

theorem resume_step (h : d.resume k = some d') :
    d.step (.resume k) = some (d', none) := by
  simp only [Dispatcher.step, h, Option.map_some]

theorem Core.called {s : Shutdown α} (h : s.Core) (hc : CloseCall.Sound s c)
    (hd : s.dispatcher = some d) (hs : d.step a = some (d', none)) :
    s.Keeps { s with dispatcher := some d' } c := by
  have hlater := later_dispatched hd hs
  exact ⟨hlater, h.dispatched hd hs, hc.later hlater, rfl⟩

theorem Core.finishClose {s : Shutdown α} (h : s.Core) (hc : s.state.closing = true)
    (hw : s.state.wg = 0) : s.finishClose.Core ∧ s.Later s.finishClose ∧
      s.finishClose.state.diagnostics.closed = true := by
  unfold Shutdown.finishClose
  by_cases hd : s.state.diagnostics.closed = true
  · rw [if_pos hd]
    exact ⟨h, .refl s, hd⟩
  · rw [if_neg hd]
    have hone := h.closeDone
    rw [if_neg hd] at hone
    refine ⟨h.runtime (a := .finishClose) rfl rfl (fun _ => ⟨hc, hw⟩) ?_, ?_, rfl⟩
    · rw [hone]
      rfl
    · exact ⟨id, fun _ => id, fun _ => rfl, id, id⟩

theorem Advances.keeps {s : Shutdown α} (h : s.Core) (hc : c.Sound s) (ha : s.Advances c s' c') :
    s.Keeps s' c' := by
  cases ha with
  | begins hp hclosing hd =>
    refine ⟨⟨fun _ => rfl, ?_, id, id, id⟩, ?_, ?_, rfl⟩
    · intro hno
      rw [hclosing] at hno
      cases hno
    · refine h.runtime (a := .beginClose) rfl ?_ ?_ h.closeDone
      · show some s.state.beginClose.1 = _
        unfold RuntimeState.beginClose
        rw [hclosing, hd]
        rfl
      · intro hno
        rw [hd] at hno
        cases hno
    · exact ⟨fun _ => rfl, nofun, fun _ => rfl, nofun, nofun, nofun, hc.self, nofun, nofun⟩
  | refused hp hself =>
    have howner := hc.waiting (.inl hp)
    have hin : ¬ s'.Outside c.gid := by
      intro hout
      rw [hc.self hout] at hself
      cases hself
    refine .still h ⟨hc.owner, fun _ => howner, nofun, nofun, nofun, ?_, hc.self, ?_, ?_⟩
    · intro hno
      rw [howner] at hno
      cases hno
    · exact fun hout => absurd hout hin
    · exact fun hout => absurd hout hin
  | follows hp hself =>
    have howner := hc.waiting (.inl hp)
    exact .still h ⟨hc.owner, fun _ => howner, nofun, nofun, nofun, nofun, hc.self, nofun, nofun⟩
  | closed hp hd =>
    have howner := hc.waiting (.inr hp)
    have hclosed : s'.state.diagnostics.closed = true := by
      have hone := h.closeDone
      split at hone
      · assumption
      · omega
    refine .still h ⟨hc.owner, fun _ => howner, nofun, ?_, fun _ _ => hclosed, nofun, hc.self, nofun,
      nofun⟩
    intro hno
    rw [howner] at hno
    cases hno
  | drained hp hw =>
    have howner := hc.operating (.inl hp)
    refine .still h ⟨hc.owner, nofun, nofun, fun _ _ => hw, ?_, nofun, hc.self, nofun, nofun⟩
    intro hno
    rw [howner] at hno
    cases hno
  | absent hp hd =>
    refine .still h (hc.afterObserver (by rw [hp]; rfl) ?_)
    intro _ d hsome
    rw [hd] at hsome
    cases hsome
  | calls hp hd hclose =>
    have hkeeps := h.called hc hd (close_step hclose)
    have hc' := hkeeps.sound
    have hpast : c.phase.past = true := by
      rw [hp]
      rfl
    exact ⟨hkeeps.later, hkeeps.core, ⟨hc'.owner, nofun, nofun, fun ho _ => hc'.drained ho hpast,
      fun ho _ => hc'.follows ho hpast, nofun, hc'.self, nofun, nofun⟩, rfl⟩
  | @called d d' hp hd hclose hn =>
    have hkeeps := h.called hc hd (close_step hclose)
    refine ⟨hkeeps.later, hkeeps.core, hkeeps.sound.afterObserver (by rw [hp]; rfl) ?_, rfl⟩
    intro hout
    exact absurd (close_waits (h.guarded hd) (hkeeps.later.outside hout d hd) hclose) hn
  | waits hp hd hr => exact h.called hc hd (resume_step hr)
  | leaves hp hd hr he =>
    have hkeeps := h.called hc hd (resume_step hr)
    refine ⟨hkeeps.later, hkeeps.core, hkeeps.sound.afterObserver (by rw [hp]; rfl) ?_, rfl⟩
    rintro - d ⟨⟩
    exact (hkeeps.core.guarded rfl).returned (List.mem_of_getElem? he)
  | finishes hp =>
    have howner := hc.operating (.inr hp)
    obtain ⟨hcore, hlater, hclosed⟩ := h.finishClose (hc.owner howner)
      (hc.drained howner (by rw [hp]; rfl))
    refine ⟨hlater, hcore, ?_, ?_⟩
    · have hc' := hc.later hlater
      exact ⟨hc'.owner, nofun, nofun, nofun, nofun, fun _ _ => hclosed, hc'.self,
        fun hout _ => hc'.quiet hout (.inl hp), fun _ _ => hclosed⟩
    · unfold Shutdown.finishClose
      split <;> rfl

end Shutdown

structure Shutdown.Draining (s : Shutdown α) : Prop where
  core : s.Core
  owners : s.closers.countP (·.owner) = if s.state.closing then 1 else 0
  calls : ∀ c ∈ s.closers, c.Sound s

namespace Shutdown

theorem Advances.owners {s : Shutdown α} (hc : c.Sound s) (ha : s.Advances c s' c')
    (ho : s.closers.countP (·.owner) = if s.state.closing then 1 else 0)
    (hi : s.closers[i]? = some c) :
    (s.closers.set i c').countP (·.owner) = if s'.state.closing then 1 else 0 := by
  have hset := countP_set (p := fun c : CloseCall => c.owner) (y := c') hi
  have hsame : c'.owner = c.owner → s'.state.closing = s.state.closing →
      (s.closers.set i c').countP (·.owner) = if s'.state.closing then 1 else 0 := by
    intro howner hclosing
    rw [howner] at hset
    rw [hclosing, ← ho]
    omega
  cases ha with
  | begins hp hclosing hd =>
    rw [hc.waiting (.inl hp)] at hset
    rw [hclosing] at ho
    simp only [Bool.false_eq_true, if_false, if_true] at hset ho ⊢
    omega
  | finishes hp =>
    refine hsame rfl ?_
    unfold Shutdown.finishClose
    split <;> rfl
  | _ => exact hsame rfl rfl

variable {s s' : Shutdown α}

theorem Draining.keep (h : s.Draining) (hl : s.Later s') (hcore : s'.Core)
    (hclosing : s'.state.closing = s.state.closing) (hc : s'.closers = s.closers) : s'.Draining := by
  refine ⟨hcore, ?_, ?_⟩
  · rw [hc, hclosing]
    exact h.owners
  · rw [hc]
    exact fun c hm => (h.calls c hm).later hl

theorem Draining.stepped (h : s.Draining) (hs : s.Stepped s') :
    s'.Draining ∧ s.Later s' := by
  cases hs with
  | runtime ha hd hs =>
    have hl := h.core.later_runtime ha hs
    obtain ⟨hclosing, hclosed⟩ := admissionStep_frame hs ha
    refine ⟨h.keep hl (h.core.runtime hd hs ?_ ?_) hclosing rfl, hl⟩
    · intro hc
      obtain ⟨hcl, hw⟩ := h.core.closed (hclosed.symm.trans hc)
      exact ⟨hclosing.trans hcl, hl.drained hcl hw⟩
    · rw [hclosed]
      exact h.core.closeDone
  | dispatcher hd hs =>
    have hl := later_dispatched hd hs
    exact ⟨h.keep hl (h.core.dispatched hd hs) (tally_frame _ _).1 rfl, hl⟩
  | arrives gid =>
    have hl : s.Later { s with
        closers := s.closers ++ [{ gid := gid, self := s.isCurrentCallback gid }] } :=
      ⟨id, fun _ => id, id, id, id⟩
    have hself : s.Outside gid → s.isCurrentCallback gid = false := by
      intro hout
      unfold Shutdown.isCurrentCallback
      split
      · rename_i d hd
        exact (h.core.guarded hd).isCurrentCallback (hout d hd)
      · rfl
    have hcore := h.core
    refine ⟨⟨⟨hcore.observed, hcore.balanced, hcore.closed, hcore.closeDone⟩, ?_, ?_⟩, hl⟩
    · rw [List.countP_append, h.owners]
      rfl
    · refine forall_mem_append_one (fun c hm => (h.calls c hm).later hl) ?_
      exact ⟨nofun, fun _ => rfl, nofun, nofun, nofun, nofun, hself, nofun, nofun⟩
  | @advances i c s' c' hi ha =>
    have hc := h.calls c (List.mem_of_getElem? hi)
    have hk := ha.keeps h.core hc
    have hl : s.Later { s' with closers := s'.closers.set i c' } :=
      ⟨hk.later.closing, hk.later.drained, hk.later.closed, hk.later.quiet, hk.later.outside⟩
    have hcore := hk.core
    refine ⟨⟨⟨hcore.observed, hcore.balanced, hcore.closed, hcore.closeDone⟩, ?_, ?_⟩, hl⟩
    · dsimp only
      rw [hk.closers]
      exact ha.owners hc h.owners hi
    · have hs := hk.sound
      refine forall_mem_set (fun c hm => ?_) ?_
      · rw [hk.closers] at hm
        exact (h.calls c hm).later hl
      exact ⟨hs.owner, hs.waiting, hs.operating, hs.drained, hs.follows, hs.finished, hs.self, hs.quiet,
        hs.closed⟩

end Shutdown

theorem shutdown_draining : (shutdown α).Invariant System.Any Shutdown.Draining := by
  constructor
  · rintro s ⟨config, hstate, hdone, hclosers, hd⟩
    refine ⟨⟨?_, ?_, ?_, ?_⟩, ?_, ?_⟩
    · intro d hsome
      obtain ⟨g, hg, rfl⟩ := hd d hsome
      rw [hstate]
      exact ⟨_, ⟨g, hg, config, rfl⟩, .refl _⟩
    · rw [hstate]
      exact .init config
    · rw [hstate]
      nofun
    · rw [hstate, hdone]
      rfl
    · rw [hstate, hclosers]
      rfl
    · rw [hclosers]
      nofun
  · intro s a s' h _ hs
    exact (h.stepped (Shutdown.step_stepped hs)).1

theorem Shutdown.Draining.later (h : s.Draining)
    (hs : (shutdown α).Steps System.Any s s') : s.Later s' := by
  induction hs with
  | refl => exact .refl s
  | tail hsteps _ hstep ih =>
    have hmid := shutdown_draining.steps hsteps h
    have hl := (hmid.stepped (Shutdown.step_stepped hstep)).2
    exact ⟨fun hc => hl.closing (ih.closing hc),
      fun hc hw => hl.drained (ih.closing hc) (ih.drained hc hw), fun hc => hl.closed (ih.closed hc),
      fun hq => hl.quiet (ih.quiet hq), fun ho => ih.outside (hl.outside ho)⟩

/-- What `Close` guarantees at all times. -/
structure Shutdown.Drains (s : Shutdown α) : Prop where
  oneOwner : s.closers.countP (·.owner) ≤ 1
  closeDone : s.closeDone = if s.state.diagnostics.closed then 1 else 0
  ownerCloses : ∀ c ∈ s.closers, c.owner = true → c.phase = .returned →
    s.state.diagnostics.closed = true
  refuses : (∃ c ∈ s.closers, c.owner = true) → ∀ call,
    s.state.admitOperation call = (s.state, .error (operationError .closed))
  snapshot : s.state.diagnostics.closed = true →
    s.state.diagnostics.inFlightOperations = 0 ∧ s.state.diagnostics.bufferedBytes = 0

/-- Close drains: in every state of every interleaving at most one call runs the shutdown and the
channel `closeDone` is closed once; nothing is admitted after that call began; a closed runtime has
nothing in flight; and when a call from outside has returned, the runtime is and stays closed and no
callback is running or starts. -/
theorem close_drains (h : (shutdown α).Reachable System.Any s) :
    s.Drains ∧ ∀ c ∈ s.closers, s.Outside c.gid → c.phase = .returned →
      ∀ s', (shutdown α).Steps System.Any s s' →
        s'.state.diagnostics.closed = true ∧ ∀ d ∈ s'.dispatcher, d.inCallback = false := by
  have hdraining := shutdown_draining.reachable h
  constructor
  · refine ⟨?_, hdraining.core.closeDone, fun c hm ho hp => (hdraining.calls c hm).finished ho hp, ?_,
      ?_⟩
    · rw [hdraining.owners]
      split <;> decide
    · rintro ⟨c, hm, ho⟩ call
      exact RuntimeState.admitOperation_closing ((hdraining.calls c hm).owner ho) call
    · intro hc
      exact hdraining.core.balanced.empty (hdraining.core.closed hc).2
  · intro c hm hout hp s' hsteps
    have hlater := hdraining.later hsteps
    have hs' := shutdown_draining.steps hsteps hdraining
    refine ⟨hlater.closed ((hdraining.calls c hm).closed hout hp), ?_⟩
    intro d hd
    have hdone := hlater.quiet ((hdraining.calls c hm).quiet hout (.inr hp)) d hd
    unfold Dispatcher.inCallback
    rw [(hs'.core.guarded hd).done.1 hdone]

namespace Sample

def shutdownStart : Shutdown Nat where
  state := newRuntimeState admissionConfig
  dispatcher := some observingStart.dispatcher

def closingTwice : List (ShutdownAct Nat) :=
  [.runtime (.admitOperation {}), .dispatcher (.emit 1), .dispatcher (.loop .next),
    .dispatcher (.loop .next), .dispatcher (.loop .next), .dispatcher (.loop .next), .close 4,
    .advance 0, .close 7, .advance 1, .runtime (.release 0), .runtime (.finishRelease 0),
    .runtime (.signal 0), .advance 0, .advance 0, .advance 0, .advance 1, .advance 1,
    .dispatcher (.loop .next), .dispatcher (.loop .next), .dispatcher (.loop .next),
    .dispatcher (.loop .next), .dispatcher (.loop .next), .advance 1]

end Sample

theorem Sample.closing_twice_drains :
    ∃ s : Shutdown Nat, s.Drains ∧ (s.closers.map fun c => (c.gid, c.owner, c.phase)) =
        [(4, true, .returned), (7, false, .returned)] ∧
      s.state.diagnostics.closed = true ∧ ∀ d ∈ s.dispatcher, d.inCallback = false := by
  obtain ⟨s, hs, hclosers, hgoroutine⟩ :
      ∃ s ∈ (shutdown Nat).exec System.Any Sample.shutdownStart Sample.closingTwice,
        s.closers = [{ gid := 4, self := true, owner := true, phase := .returned },
          { gid := 7, self := false, owner := false, phase := .returned }] ∧
        s.dispatcher.map (·.goroutine) = some 4 :=
    ⟨_, rfl, rfl, rfl⟩
  have hr : (shutdown Nat).Reachable System.Any s := by
    refine System.exec_reachable ⟨Sample.admissionConfig, rfl, rfl, rfl, ?_⟩ hs
    rintro d ⟨⟩
    exact ⟨4, by decide, rfl⟩
  obtain ⟨hdrains, houtside⟩ := close_drains hr
  have hout : s.Outside 7 := by
    intro d hd
    rw [show s.dispatcher = some d from hd, Option.map_some, Option.some.injEq] at hgoroutine
    omega
  refine ⟨s, hdrains, by rw [hclosers]; rfl, ?_⟩
  refine houtside { gid := 7, self := false, owner := false, phase := .returned } ?_ hout rfl s (.refl s)
  rw [hclosers]
  simp

end Repost
