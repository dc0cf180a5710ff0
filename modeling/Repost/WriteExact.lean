import Repost.WriteLoop

namespace Repost.H2
open Runs
set_option autoImplicit true

def LoopPoint.active : LoopPoint → Option Nat
  | .ready w | .running w | .wrote w _ | .unblocking w _ => some w
  | _ => none

def LoopPoint.opened : LoopPoint → Option Nat
  | .checking w | .arming w | .ready w | .running w | .wrote w _ | .unblocking w _
  | .reporting w _ => some w
  | _ => none

def LoopPoint.passed : LoopPoint → Option Nat
  | .arming w | .ready w | .running w => some w
  | _ => none

/-- The call that the loop has taken and whose frame function has not returned. -/
def LoopPoint.holding : LoopPoint → List Nat
  | .received w | .checking w | .arming w | .ready w | .running w => [w]
  | _ => []

def LoopPoint.begun : LoopPoint → List WriteEvent
  | .running w => [.began w]
  | _ => []

def LoopPoint.ended : LoopPoint → Option (Nat × Option Nat)
  | .wrote w err | .unblocking w err | .reporting w err => some (w, err)
  | _ => none

def serial (runs : List (Nat × Option Nat)) : List WriteEvent :=
  runs.flatMap fun run => [.began run.1, .ended run.1 run.2]

namespace Writing

structure Unblocked (s : Writing) : Prop where
  deadline : ∀ v, s.deadline = some v → s.loop.active = some v
  pending : ∀ v, (s.callers v).cancellation ≠ .unset → (s.callers v).settled = false →
    s.loop.active = some v

structure Ordered (s : Writing) : Prop where
  nodup : s.enqueued.Nodup
  fresh : ∀ i ∈ s.enqueued, (s.callers i).point ∉ [.absent, .check, .enqueue]
  serial : ∃ taken runs, s.enqueued = taken ++ s.queue ∧ s.log = serial runs ++ s.loop.begun ∧
    List.Sublist (runs.map Prod.fst ++ s.loop.holding) taken

end Writing

structure Caller.Faithful (log : List WriteEvent) (w : Nat) (c : Caller) : Prop where
  done : c.done = some none → .ended w none ∈ log
  doneContext : ∀ e, c.done = some (some (.context e)) → c.ctx = some e
  returned : c.point = .returned none → .ended w none ∈ log
  returnedContext : ∀ e, c.point = .returned (some (.context e)) → c.ctx = some e

theorem Caller.Faithful.mono {c : Caller} (h : c.Faithful log w)
    (hlog : ∀ event ∈ log, event ∈ log') : c.Faithful log' w :=
  ⟨fun hd => hlog _ (h.done hd), h.doneContext, fun hp => hlog _ (h.returned hp), h.returnedContext⟩

theorem Caller.Faithful.same {c c' : Caller} (h : c.Faithful log w)
    (hd : c'.done = c.done) (hc : c'.ctx = c.ctx) (hp : c'.point = c.point) :
    c'.Faithful log w := by
  constructor
  · rw [hd]
    exact h.done
  · rw [hd, hc]
    exact h.doneContext
  · rw [hp]
    exact h.returned
  · rw [hp, hc]
    exact h.returnedContext

namespace Writing

structure Faithful (s : Writing) : Prop where
  callers : ∀ w, (s.callers w).Faithful s.log w
  opened : ∀ w, s.loop.opened = some w → (s.callers w).started = true
  began : ∀ w, .began w ∈ s.log → (s.callers w).started = true
  ended : ∀ w err, s.loop.ended = some (w, err) → .ended w err ∈ s.log
  done : ∀ w, (s.callers w).done ≠ none → w ∈ s.enqueued

structure Silent (i : Nat) (s : Writing) : Prop where
  gone : (s.callers i).point ≠ .absent
  ctx : (s.callers i).ctx ≠ none
  loop : s.loop.passed ≠ some i
  log : .began i ∉ s.log

section
variable {s s' : Writing}

theorem Unblocked.keep (h : s.Unblocked) (hl : s'.loop.active = s.loop.active)
    (hc : ∀ v, (s'.callers v).cancellation = (s.callers v).cancellation := by exact fun _ => rfl)
    (hs : ∀ v, (s'.callers v).settled = (s.callers v).settled := by exact fun _ => rfl)
    (hd : s'.deadline = s.deadline := by rfl) : s'.Unblocked := by
  constructor
  · rw [hl, hd]
    exact h.deadline
  · intro v
    rw [hl, hc, hs]
    exact h.pending v

theorem Unblocked.clear (h : s.Unblocked) (hl : s.loop.active = none) :
    s.deadline = none ∧
      ∀ v, (s.callers v).cancellation ≠ .unset → (s.callers v).settled = true := by
  constructor
  · cases hd : s.deadline with
    | none => rfl
    | some v => cases hl.symm.trans (h.deadline v hd)
  · intro v hc
    cases hs : (s.callers v).settled with
    | true => rfl
    | false => cases hl.symm.trans (h.pending v hc hs)

variable {t : Writing}

theorem Unblocked.update (h : s.Unblocked) (hl : t.loop.active = s.loop.active)
    (hc : ∀ c, (f c).cancellation = c.cancellation := by intro c; rfl)
    (hs : ∀ c, (f c).settled = c.settled := by intro c; rfl)
    (ht : t.callers = s.callers := by rfl) (hd : t.deadline = s.deadline := by rfl) :
    (t.update i f).Unblocked := by
  refine h.keep hl (fun v => ?_) (fun v => ?_) hd
  · rw [update_keeps Caller.cancellation v hc, ht]
  · rw [update_keeps Caller.settled v hs, ht]

theorem Unblocked.step (h : s.Unblocked) (hm : s.Moves s') : s'.Unblocked := by
  cases hm with
  | begin | cancel | turn | send => exact h.update rfl
  | receive hl hq | exit hl | pass hl hc | run hl | finish hl err | shut hl =>
    exact h.keep (by rw [hl]; rfl)
  | start hl | skip hl hc => exact h.update (by rw [hl]; rfl)
  | report hl =>
    refine h.update ?_
    rw [hl]
    dsimp only
    split <;> rfl
  | close => exact h.keep rfl
  | arm hl =>
    rename_i w
    obtain ⟨hnone, hsettled⟩ := h.clear (by rw [hl]; rfl)
    constructor
    · intro v hv
      cases hnone.symm.trans hv
    · intro v hc hs
      by_cases hv : v = w
      · exact congrArg some hv.symm
      · rw [update_other hv] at hc hs
        cases hs.symm.trans (hsettled v hc)
  | stop hl =>
    rename_i w err
    have hactive : s.loop.active = some w := by rw [hl]; rfl
    constructor
    · intro v hv
      exact hactive.symm.trans (h.deadline v hv)
    · intro v hc hs
      by_cases hv : v = w
      · exact congrArg some hv.symm
      · rw [update_other hv] at hc hs
        exact hactive.symm.trans (h.pending v hc hs)
  | settle hl =>
    rename_i w err
    have hactive : s.loop.active = some w := by rw [hl]; rfl
    constructor
    · exact nofun
    · intro v hc hs
      by_cases hv : v = w
      · rw [hv, update_self] at hs
        cases hs
      · rw [update_other hv] at hc hs
        have hw := hactive.symm.trans (h.pending v hc hs)
        exact absurd (Option.some.inj hw).symm hv
  | launch i hc =>
    constructor
    · exact h.deadline
    · intro v hcv hs
      by_cases hv : v = i
      · subst hv
        rw [update_self] at hs
        exact h.pending v (by rw [hc]; exact nofun) hs
      · rw [update_other hv] at hcv hs
        exact h.pending v hcv hs
  | callback i hc =>
    have hunset : (s.callers i).cancellation ≠ .unset := by rw [hc]; exact nofun
    constructor
    · intro v hv
      have hset : (if (s.callers i).settled then s.deadline else some i) = some v := hv
      split at hset
      · exact h.deadline v hset
      · rename_i hs
        cases hset
        exact h.pending i hunset (Bool.eq_false_of_not_eq_true hs)
    · intro v hcv hs
      by_cases hv : v = i
      · subst hv
        rw [update_self] at hs
        exact h.pending v hunset hs
      · rw [update_other hv] at hcv hs
        exact h.pending v hcv hs

abbrev early : List CallerPoint := [.absent, .check, .enqueue]

theorem Ordered.keep (h : s.Ordered) (he : s'.enqueued = s.enqueued) (hq : s'.queue = s.queue)
    (hlog : s'.log = s.log) (hb : s'.loop.begun = s.loop.begun)
    (hh : List.Sublist s'.loop.holding s.loop.holding)
    (hp : ∀ i ∈ s.enqueued, (s'.callers i).point ∉ early) : s'.Ordered := by
  obtain ⟨taken, runs, hsplit, hruns, hsub⟩ := h.serial
  refine ⟨he ▸ h.nodup, ?_, taken, runs, ?_, ?_, ?_⟩
  · rw [he]
    exact hp
  · rw [he, hq]
    exact hsplit
  · rw [hlog, hb]
    exact hruns
  · exact (List.Sublist.append_left hh _).trans hsub

theorem Ordered.update (h : s.Ordered) (ht : t.callers = s.callers)
    (hf : i ∈ s.enqueued → (f (s.callers i)).point ∉ early) :
    ∀ j ∈ s.enqueued, ((t.update i f).callers j).point ∉ early := by
  intro j hj
  by_cases hji : j = i
  · subst hji
    rw [update_self, ht]
    exact hf hj
  · rw [update_other hji, ht]
    exact h.fresh j hj

theorem Ordered.step (h : s.Ordered) (hm : s.Moves s') : s'.Ordered := by
  have hearly : ∀ {i : Nat}, (s.callers i).point ∈ early → i ∉ s.enqueued :=
    fun hp hi => h.fresh _ hi hp
  cases hm with
  | begin i queued hp =>
    exact h.keep rfl rfl rfl rfl (List.Sublist.refl _)
      (h.update rfl fun hi => absurd hi (hearly (hp ▸ by decide)))
  | cancel i cause hc | launch i hc | callback i hc =>
    exact h.keep rfl rfl rfl rfl (List.Sublist.refl _) (h.update rfl fun hi => h.fresh i hi)
  | turn i ht =>
    refine h.keep rfl rfl rfl rfl (List.Sublist.refl _) (h.update rfl fun hi => ?_)
    cases ht with
    | enqueue hp hc => exact absurd hi (hearly (hp ▸ by decide))
    | _ => exact fun hm => by simp at hm
  | send i hp point hq =>
    have hi : i ∉ s.enqueued := hearly (hp ▸ by decide)
    obtain ⟨taken, runs, hsplit, hruns, hsub⟩ := h.serial
    refine ⟨?_, ?_, taken, runs, ?_, hruns, hsub⟩
    · exact List.nodup_append.2 ⟨h.nodup, List.nodup_singleton i, fun a ha b hb heq =>
        hi (List.mem_singleton.1 hb ▸ heq ▸ ha)⟩
    · intro j hj
      rcases List.mem_append.1 hj with hj | hj
      · exact h.update (f := fun c => { c with point := point }) rfl
          (fun hmem => absurd hmem hi) j hj
      · rw [List.mem_singleton.1 hj, update_self]
        rcases hq with rfl | rfl
        · exact fun hm => by simp at hm
        · exact fun hm => by simp at hm
    · exact (congrArg (· ++ [i]) hsplit).trans (List.append_assoc ..)
  | receive hl hq =>
    rename_i w rest
    obtain ⟨taken, runs, hsplit, hruns, hsub⟩ := h.serial
    rw [hl] at hruns hsub
    refine ⟨h.nodup, h.fresh, taken ++ [w], runs, ?_, hruns, ?_⟩
    · rw [hsplit, hq, List.append_assoc]
      rfl
    · have hbefore : List.Sublist (runs.map Prod.fst) taken :=
        List.append_nil (runs.map Prod.fst) ▸ hsub
      exact hbefore.append (List.Sublist.refl [w])
  | exit hl | pass hl hc | shut hl =>
    exact h.keep rfl rfl rfl (by rw [hl]; rfl) (by rw [hl]; exact .refl _) h.fresh
  | start hl | arm hl | stop hl | settle hl =>
    exact h.keep rfl rfl rfl (by rw [hl]; rfl) (by rw [hl]; exact .refl _)
      (h.update rfl fun hi => h.fresh _ hi)
  | skip hl hc =>
    exact h.keep rfl rfl rfl (by rw [hl]; rfl) (List.nil_sublist _)
      (h.update rfl fun hi => h.fresh _ hi)
  | run hl =>
    obtain ⟨taken, runs, hsplit, hruns, hsub⟩ := h.serial
    rw [hl] at hruns hsub
    refine ⟨h.nodup, h.fresh, taken, runs, hsplit, ?_, hsub⟩
    rw [hruns]
    exact List.append_assoc ..
  | finish hl err =>
    rename_i w
    obtain ⟨taken, runs, hsplit, hruns, hsub⟩ := h.serial
    rw [hl] at hruns hsub
    refine ⟨h.nodup, h.fresh, taken, runs ++ [(w, err)], hsplit, ?_, ?_⟩
    · rw [hruns, H2.serial, H2.serial, List.flatMap_append]
      simp [LoopPoint.begun]
    · rw [List.map_append]
      exact (List.append_nil _).symm ▸ hsub
  | report hl =>
    refine h.keep rfl rfl rfl ?_ ?_ (h.update rfl fun hi => h.fresh _ hi)
    · rw [hl, Writing.update]
      dsimp only
      split <;> rfl
    · rw [Writing.update]
      dsimp only
      split <;> exact List.nil_sublist _
  | close => exact h.keep rfl rfl rfl rfl (List.Sublist.refl _) h.fresh

theorem mem_serial : .ended w err ∈ H2.serial runs → (w, err) ∈ runs := by
  intro h
  obtain ⟨run, hrun, h⟩ := List.mem_flatMap.1 h
  rcases List.mem_cons.1 h with h | h
  · cases h
  · cases List.mem_singleton.1 h
    exact hrun

theorem Ordered.held (h : s.Ordered) (hw : w ∈ s.loop.holding) : w ∈ s.enqueued := by
  obtain ⟨taken, runs, hsplit, -, hsub⟩ := h.serial
  rw [hsplit]
  exact List.mem_append_left _ (hsub.subset (List.mem_append_right _ hw))

theorem Ordered.ended (h : s.Ordered) (hw : .ended w err ∈ s.log) : w ∈ s.enqueued := by
  obtain ⟨taken, runs, hsplit, hruns, hsub⟩ := h.serial
  have hrun : (w, err) ∈ runs := by
    rw [hruns] at hw
    rcases List.mem_append.1 hw with hw | hw
    · exact mem_serial hw
    · generalize s.loop = loop at hw
      cases loop <;> simp [LoopPoint.begun] at hw
  rw [hsplit]
  exact List.mem_append_left _
    (hsub.subset (List.mem_append_left _ (List.mem_map_of_mem (f := Prod.fst) hrun)))

theorem Faithful.update (h : s.Faithful) (ht : t.callers = s.callers)
    (hf : (f (s.callers i)).Faithful s.log i) :
    ∀ w, ((t.update i f).callers w).Faithful s.log w := by
  intro w
  by_cases hw : w = i
  · subst hw
    rw [update_self, ht]
    exact hf
  · rw [update_other hw, ht]
    exact h.callers w

theorem Faithful.keep (h : s.Faithful) (hc : ∀ w, (s'.callers w).Faithful s.log w)
    (hopened : ∀ w, s'.loop.opened = some w → s.loop.opened = some w)
    (hended : ∀ w err, s'.loop.ended = some (w, err) → s.loop.ended = some (w, err))
    (henq : ∀ i ∈ s.enqueued, i ∈ s'.enqueued := by exact fun _ hi => hi)
    (hstarted : ∀ w, (s'.callers w).started = (s.callers w).started := by exact fun _ => rfl)
    (hdone : ∀ w, (s'.callers w).done = (s.callers w).done := by exact fun _ => rfl)
    (hlog : s'.log = s.log := by rfl) : s'.Faithful := by
  constructor
  · rw [hlog]
    exact hc
  · intro w hw
    rw [hstarted]
    exact h.opened w (hopened w hw)
  · intro w hw
    rw [hstarted]
    exact h.began w (hlog ▸ hw)
  · intro w err hw
    rw [hlog]
    exact h.ended w err (hended w err hw)
  · intro w hw
    rw [hdone] at hw
    exact henq w (h.done w hw)

/-- A change of one caller that neither starts its write nor reports it. -/
theorem Faithful.change (h : s.Faithful)
    (hc : (f (s.callers i)).Faithful s.log i)
    (hopened : ∀ w, t.loop.opened = some w → s.loop.opened = some w)
    (hended : ∀ w err, t.loop.ended = some (w, err) → s.loop.ended = some (w, err))
    (henq : ∀ i ∈ s.enqueued, i ∈ t.enqueued := by exact fun _ hi => hi)
    (hstarted : ∀ c, (f c).started = c.started := by intro c; rfl)
    (hdone : ∀ c, (f c).done = c.done := by intro c; rfl)
    (ht : t.callers = s.callers := by rfl) (hlog : t.log = s.log := by rfl) :
    (t.update i f).Faithful := by
  refine h.keep (h.update ht hc) hopened hended henq (fun v => ?_) (fun v => ?_) hlog
  · rw [update_keeps Caller.started v hstarted, ht]
  · rw [update_keeps Caller.done v hdone, ht]

theorem Faithful.settle (h : s.Faithful) (ht : t.callers = s.callers)
    (hlog : t.log = s.log) (henq : t.enqueued = s.enqueued) (hw : w ∈ s.enqueued)
    (hopened : t.loop.opened = none) (hended : t.loop.ended = none)
    (hnone : err = none → .ended w none ∈ s.log)
    (hcontext : ∀ e, err = some (.context e) → (s.callers w).ctx = some e) :
    (t.update w fun c => { c with done := some err }).Faithful := by
  constructor
  · have hold := h.callers w
    have hkept := h.update ht (i := w) (f := fun c => { c with done := some err })
      ⟨fun hd => hnone (Option.some.inj hd), fun e hd => hcontext e (Option.some.inj hd),
        hold.returned, hold.returnedContext⟩
    intro v
    exact (hkept v).mono fun event hevent => hlog.symm ▸ hevent
  · intro v hv
    cases hopened.symm.trans hv
  · intro v hv
    rw [update_keeps Caller.started v, ht]
    exact h.began v (hlog ▸ hv)
  · intro v err hv
    cases hended.symm.trans hv
  · intro v hv
    rcases Decidable.em (v = w) with rfl | hne
    · exact henq ▸ hw
    · rw [update_other hne, ht] at hv
      exact henq ▸ h.done v hv

theorem Faithful.step (h : s.Faithful) (ho : s.Ordered) (hm : s.Moves s') : s'.Faithful := by
  cases hm with
  | begin i queued hp =>
    have hdone : (s.callers i).done = none := by
      cases hd : (s.callers i).done with
      | none => rfl
      | some err =>
        have hi : i ∈ s.enqueued := h.done i (hd ▸ nofun)
        exact absurd (by rw [hp]; decide) (ho.fresh i hi)
    refine h.change ⟨?_, ?_, ?_, ?_⟩ (fun _ hw => hw) fun _ _ hw => hw
    · exact fun hd => nomatch hdone.symm.trans hd
    · exact fun e hd => nomatch hdone.symm.trans hd
    · cases queued <;> exact nofun
    · cases queued <;> exact nofun
  | cancel i cause hc =>
    have hold := h.callers i
    refine h.change ⟨hold.done, ?_, hold.returned, ?_⟩ (fun _ hw => hw) fun _ _ hw => hw
    · exact fun e hd => nomatch hc.symm.trans (hold.doneContext e hd)
    · exact fun e hp => nomatch hc.symm.trans (hold.returnedContext e hp)
  | turn i ht =>
    have hold := h.callers i
    refine h.change ⟨hold.done, hold.doneContext, ?_, ?_⟩ (fun _ hw => hw) fun _ _ hw => hw
    · intro hp
      cases ht with
      | done _ hd =>
        cases hp
        exact hold.done hd
      | _ => cases hp
    · intro e hp
      cases ht with
      | ended hc _ =>
        cases hp
        exact hc
      | done _ hd =>
        cases hp
        exact hold.doneContext e hd
      | _ => cases hp
  | send i hp point hq =>
    have hold := h.callers i
    refine h.change ⟨hold.done, hold.doneContext, ?_, ?_⟩ (fun _ hw => hw) (fun _ _ hw => hw)
      fun _ hi => List.mem_append_left _ hi
    · rcases hq with rfl | rfl <;> exact nofun
    · rcases hq with rfl | rfl <;> exact nofun
  | receive hl hq | exit hl | shut hl => exact h.keep h.callers nofun nofun
  | start hl =>
    rename_i w
    have hstarted : ∀ v, (s.callers v).started = true → (({ s with loop := .checking w }.update w
        fun c => { c with started := true }).callers v).started = true := by
      intro v hv
      rcases Decidable.em (v = w) with rfl | hne
      · rw [update_self]
      · rw [update_other hne]
        exact hv
    constructor
    · exact h.update rfl ((h.callers w).same rfl rfl rfl)
    · intro v hv
      cases hv
      rw [update_self]
    · exact fun v hv => hstarted v (h.began v hv)
    · exact nofun
    · intro v hv
      rw [update_keeps Caller.done v] at hv
      exact h.done v hv
  | skip hl hc =>
    refine h.settle rfl rfl rfl (ho.held (hl ▸ List.mem_singleton_self _)) rfl rfl nofun ?_
    intro e he
    cases he
    exact hc
  | pass hl hc => exact h.keep h.callers (fun _ hw => hl ▸ hw) nofun
  | arm hl => exact h.change ((h.callers _).same rfl rfl rfl) (fun _ hw => hl ▸ hw) nofun
  | run hl =>
    rename_i w
    have hw : (s.callers w).started = true := h.opened w (hl ▸ rfl)
    constructor
    · exact fun v => (h.callers v).mono fun _ hevent => List.mem_append_left _ hevent
    · intro v hv
      cases hv
      exact hw
    · intro v hv
      rcases List.mem_append.1 hv with hv | hv
      · exact h.began v hv
      · cases List.mem_singleton.1 hv
        exact hw
    · exact nofun
    · exact h.done
  | finish hl err =>
    rename_i w
    constructor
    · exact fun v => (h.callers v).mono fun _ hevent => List.mem_append_left _ hevent
    · exact fun v hv => h.opened v (hl ▸ hv)
    · intro v hv
      rcases List.mem_append.1 hv with hv | hv
      · exact h.began v hv
      · cases List.mem_singleton.1 hv
    · intro v err hv
      cases hv
      exact List.mem_append_right _ (List.mem_singleton_self _)
    · exact h.done
  | stop hl | settle hl =>
    exact h.change ((h.callers _).same rfl rfl rfl) (fun _ hw => hl ▸ hw) fun _ _ hw => hl ▸ hw
  | report hl =>
    rename_i w err
    have hended : .ended w err ∈ s.log := h.ended w err (hl ▸ rfl)
    refine h.settle rfl rfl rfl (ho.ended hended) ?_ ?_ ?_ ?_
    · dsimp only
      split <;> rfl
    · dsimp only
      split <;> rfl
    · intro hnone
      cases err with
      | none => exact hended
      | some code => cases hnone
    · intro e he
      obtain ⟨code, -, hcode⟩ := Option.map_eq_some_iff.1 he
      split at hcode
      · rename_i hc
        cases hcode
        exact hc
      · cases hcode
  | launch i hc | callback i hc =>
    exact h.change ((h.callers i).same rfl rfl rfl) (fun _ hw => hw) fun _ _ hw => hw
  | close => exact h.keep h.callers (fun _ hw => hw) fun _ _ hw => hw

theorem Silent.keep (h : s.Silent i) (hp : (s'.callers i).point ≠ .absent)
    (hc : (s'.callers i).ctx = (s.callers i).ctx)
    (hl : s'.loop.passed = some i → s.loop.passed = some i) (hlog : s'.log = s.log) :
    s'.Silent i :=
  ⟨hp, hc ▸ h.ctx, fun hpassed => h.loop (hl hpassed), hlog ▸ h.log⟩

theorem Silent.update (h : s.Silent i) {f : Caller → Caller}
    (ht : t.callers = s.callers) (hf : ∀ c, (f c).point = c.point := by intro c; rfl) :
    ((t.update j f).callers i).point ≠ .absent := by
  rw [update_keeps Caller.point i hf, ht]
  exact h.gone

theorem Silent.goTo (h : s.Silent i) (ht : t.callers = s.callers)
    (hp : point ≠ .absent) : ((t.goTo j point).callers i).point ≠ .absent := by
  rcases Decidable.em (i = j) with rfl | hne
  · rw [Writing.goTo, update_self]
    exact hp
  · rw [Writing.goTo, update_other hne, ht]
    exact h.gone

theorem Silent.step (h : s.Silent i) (hm : s.Moves s') : s'.Silent i := by
  cases hm with
  | begin j queued hp =>
    have hne : i ≠ j := by
      rintro rfl
      exact h.gone hp
    exact h.keep (by rw [update_other hne]; exact h.gone) (by rw [update_other hne]) (fun hw => hw) rfl
  | cancel j cause hc =>
    have hne : i ≠ j := by
      rintro rfl
      exact h.ctx hc
    exact h.keep (h.update rfl) (by rw [update_other hne]) (fun hw => hw) rfl
  | turn j ht =>
    refine h.keep (h.goTo rfl ?_) (update_keeps Caller.ctx i) (fun hw => hw) rfl
    cases ht <;> exact nofun
  | send j hp point hq =>
    refine h.keep (h.goTo rfl ?_) (update_keeps Caller.ctx i) (fun hw => hw) rfl
    rcases hq with rfl | rfl <;> exact nofun
  | receive hl hq | exit hl | shut hl => exact h.keep h.gone rfl nofun rfl
  | start hl | skip hl hc | stop hl | settle hl =>
    exact h.keep (h.update rfl) (update_keeps Caller.ctx i) nofun rfl
  | pass hl hc =>
    -- The loop looks at the context once more after it has closed `started`.
    refine h.keep h.gone rfl ?_ rfl
    intro hw
    cases hw
    exact absurd hc h.ctx
  | arm hl => exact h.keep (h.update rfl) (update_keeps Caller.ctx i) (fun hw => hl ▸ hw) rfl
  | run hl =>
    refine ⟨h.gone, h.ctx, fun hw => h.loop (hl ▸ hw), fun hlog => ?_⟩
    rcases List.mem_append.1 hlog with hlog | hlog
    · exact h.log hlog
    · cases List.mem_singleton.1 hlog
      exact h.loop (hl ▸ rfl)
  | finish hl err =>
    refine ⟨h.gone, h.ctx, nofun, fun hlog => ?_⟩
    rcases List.mem_append.1 hlog with hlog | hlog
    · exact h.log hlog
    · cases List.mem_singleton.1 hlog
  | report hl =>
    refine h.keep (h.update rfl) (update_keeps Caller.ctx i) ?_ rfl
    rw [Writing.update]
    dsimp only
    split <;> exact nofun
  | launch j hc | callback j hc =>
    exact h.keep (h.update rfl) (update_keeps Caller.ctx i) (fun hw => hw) rfl
  | close => exact h.keep h.gone rfl (fun hw => hw) rfl

theorem Silent.steps (h : s.Silent i) (hs : writing.Steps System.Any s s') : s'.Silent i := by
  induction hs with
  | refl => exact h
  | tail _ _ hstep ih => exact ih.step (writeStep_moves hstep)

theorem Faithful.silent (h : s.Faithful)
    (hp : (s.callers i).point = .returned (some (.context e)))
    (hs : (s.callers i).started = false) : s.Silent i := by
  have hstarted : (s.callers i).started ≠ true := hs ▸ nofun
  constructor
  · exact hp ▸ nofun
  · rw [(h.callers i).returnedContext e hp]
    exact nofun
  · intro hpassed
    refine hstarted (h.opened i ?_)
    generalize s.loop = loop at hpassed
    cases loop <;> first | exact hpassed | cases hpassed
  · exact fun hlog => hstarted (h.began i hlog)

theorem count_serial (runs : List (Nat × Option Nat)) (w : Nat) :
    (H2.serial runs).count (.began w) = (runs.map Prod.fst).count w := by
  induction runs with
  | nil => rfl
  | cons run runs ih =>
    have hcons : H2.serial (run :: runs) = .began run.1 :: .ended run.1 run.2 :: H2.serial runs := rfl
    rw [hcons, List.map_cons, List.count_cons, List.count_cons, List.count_cons, ih]
    by_cases hw : run.1 = w <;> simp [hw]

theorem Ordered.once (h : s.Ordered) (hw : .ended w err ∈ s.log) :
    s.log.count (.began w) = 1 := by
  obtain ⟨taken, runs, hsplit, hruns, hsub⟩ := h.serial
  have hnodup : (runs.map Prod.fst ++ s.loop.holding).Nodup := by
    have htaken := h.nodup
    rw [hsplit] at htaken
    exact hsub.nodup (List.nodup_append.1 htaken).1
  have hlast : s.loop.begun.count (.began w) ≤ s.loop.holding.count w ∧
      .ended w err ∉ s.loop.begun := by
    generalize s.loop = loop
    cases loop <;> simp [LoopPoint.begun, LoopPoint.holding, List.count_singleton]
  have hrun : w ∈ runs.map Prod.fst := by
    rw [hruns] at hw
    rcases List.mem_append.1 hw with hw | hw
    · exact List.mem_map_of_mem (f := Prod.fst) (mem_serial hw)
    · exact absurd hw hlast.2
  have hone := List.nodup_iff_count_le_one.1 hnodup w
  have hpos := List.count_pos_iff.2 hrun
  rw [List.count_append] at hone
  rw [hruns, List.count_append, count_serial]
  omega

end

structure Sound (s : Writing) : Prop where
  unblocked : s.Unblocked
  ordered : s.Ordered
  faithful : s.Faithful

theorem sound_init : Sound {} := by
  refine ⟨⟨nofun, fun _ h => absurd rfl h⟩, ⟨List.nodup_nil, nofun, [], [], rfl, rfl, ?_⟩,
    ⟨fun w => ⟨nofun, nofun, nofun, nofun⟩, nofun, nofun, nofun, fun _ h => absurd rfl h⟩⟩
  exact List.Sublist.refl []

theorem sound_invariant : writing.Invariant System.Any Sound where
  init := by
    rintro s rfl
    exact sound_init
  step := by
    intro s a t h _ hstep
    have hm := writeStep_moves hstep
    exact ⟨h.unblocked.step hm, h.ordered.step hm, h.faithful.step h.ordered hm⟩

end Writing

/-- In every run of any number of writes with any cancellations: the frame functions run one after
the other in the order of the channel; a write that returns without an error has had its frame
function run once, without an error; one that returns its context's error before it was started
never has it run; and the deadline that is set while a frame function is about to run or runs is
that of its own cancellation. -/
theorem writes_exact (hr : writing.Reachable System.Any s) :
    (∃ runs, s.log = serial runs ++ s.loop.begun ∧
      List.Sublist (runs.map Prod.fst ++ s.loop.holding) s.enqueued) ∧
    (∀ i, (s.callers i).point = .returned none →
      .ended i none ∈ s.log ∧ s.log.count (.began i) = 1) ∧
    (∀ i e, (s.callers i).point = .returned (some (.context e)) →
      (s.callers i).started = false →
        ∀ s', writing.Steps System.Any s s' → .began i ∉ s'.log) ∧
    (∀ w v, s.loop = .ready w ∨ s.loop = .running w → s.deadline = some v → v = w) := by
  have hs := Writing.sound_invariant.reachable hr
  refine ⟨?_, ?_, ?_, ?_⟩
  · obtain ⟨taken, runs, hsplit, hruns, hsub⟩ := hs.ordered.serial
    refine ⟨runs, hruns, hsub.trans ?_⟩
    rw [hsplit]
    exact List.sublist_append_left taken s.queue
  · intro i hp
    have hended := (hs.faithful.callers i).returned hp
    exact ⟨hended, hs.ordered.once hended⟩
  · intro i e hp hstarted s' hsteps
    exact ((hs.faithful.silent hp hstarted).steps hsteps).log
  · intro w v hl hd
    have hactive := hs.unblocked.deadline v hd
    have hloop : s.loop.active = some w := by
      rcases hl with hl | hl <;> rw [hl] <;> rfl
    exact Option.some.inj (hactive.symm.trans hloop)

namespace Sample

def overlapping : List WriteAct :=
  [.begin 0 false, .caller 0 .go, .caller 0 .go, .begin 1 false, .caller 1 .go, .caller 1 .go,
    .loop .go, .loop .go, .loop .go, .loop .go, .loop .go, .cancel 0 .canceled, .launch 0,
    .cancel 1 .canceled, .caller 1 .context, .callback 0, .loop (.returns none), .loop .go, .loop .go,
    .loop .go, .caller 0 .go, .begin 2 false, .caller 2 .go, .caller 2 .go, .loop .go, .loop .go,
    .loop .go, .loop .go, .loop .go, .loop .go, .loop .go, .loop .go]

end Sample

/-- The first write returns without an error, the second never runs, and the third runs with no
deadline set. -/
theorem overlapping_writes_exact : ∃ s : Writing,
    writing.Reachable System.Any s ∧ s.enqueued = [0, 1, 2] ∧ s.loop = .running 2 ∧
      (s.log.count (.began 0) = 1 ∧ .ended 0 none ∈ s.log) ∧
      (s.callers 1).point = .returned (some (.context .canceled)) ∧ s.deadline = none ∧
      ∀ v, s.deadline = some v → v = 2 := by
  obtain ⟨s, hs, henq, hl, hreturned, hgone, hd⟩ :
      ∃ s ∈ writing.exec System.Any {} Sample.overlapping, s.enqueued = [0, 1, 2] ∧
        s.loop = .running 2 ∧ (s.callers 0).point = .returned none ∧
        (s.callers 1).point = .returned (some (.context .canceled)) ∧ s.deadline = none :=
    ⟨_, rfl, rfl, rfl, rfl, rfl, rfl⟩
  have hreach : writing.Reachable System.Any s := System.exec_reachable rfl hs
  have hexact := writes_exact hreach
  obtain ⟨hended, honce⟩ := hexact.2.1 0 hreturned
  exact ⟨s, hreach, henq, hl, ⟨honce, hended⟩, hgone, hd, fun v => hexact.2.2.2 2 v (.inr hl)⟩

end Repost.H2
