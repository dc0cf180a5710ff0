import Repost.DispatcherLoop

namespace Repost
open Runs
set_option autoImplicit true

namespace Dispatcher

inductive Stepped (d : Dispatcher α) : DispatcherAct α → Dispatcher α → Tally → Prop where
  | emit (e : α) : Stepped d (.emit e) (d.emit e) none
  | reject (he : d.dropping[i]? = some e) :
    Stepped d (.countDropped i) (d.reject i e) (some (.droppedObserverEvents, 1))
  | moves (h : d.Moves d' tally) : Stepped d (.loop a) d' tally
  | called (ha : ∀ e, a ≠ .emit e) (hu : d.Untouched d') (hg : d.Guarded → d'.Guarded) :
    Stepped d a d' none

theorem step_stepped {d : Dispatcher α} (hs : d.step a = some (d', tally)) : d.Stepped a d' tally := by
  cases a with
  | emit e =>
    cases hs
    exact .emit e
  | countDropped i =>
    simp only [Dispatcher.step, Dispatcher.countDropped] at hs
    split at hs
    · rename_i he
      cases hs
      exact .reject he
    · cases hs
  | loop a => exact .moves (run_moves hs)
  | flush =>
    simp only [Dispatcher.step] at hs
    split at hs
    · cases hs
    · cases hs
      exact .called (fun _ h => by cases h) ⟨rfl, rfl, rfl, rfl, rfl, rfl, rfl, rfl, rfl, rfl, rfl⟩ id
  | close gid =>
    obtain ⟨d', hc, he⟩ := Option.map_eq_some_iff.1 hs
    cases he
    exact .called (fun _ h => by cases h) (close_untouched hc) fun hg => hg.close hc
  | resume i =>
    obtain ⟨d', hr, he⟩ := Option.map_eq_some_iff.1 hs
    cases he
    exact .called (fun _ h => by cases h) (resume_untouched hr) fun hg => hg.resume hr

theorem step_goroutine {d : Dispatcher α} (hs : d.step a = some (d', tally)) :
    d'.goroutine = d.goroutine := by
  cases step_stepped hs with
  | emit e =>
    unfold Dispatcher.emit
    dsimp only
    split
    · rfl
    · split <;> rfl
  | reject he => rfl
  | moves hm =>
    cases hm with
    | claim hl =>
      unfold Dispatcher.claimDelivery
      split <;> rfl
    | _ => rfl
  | called _ hu _ => exact hu.goroutine

theorem step_done {d : Dispatcher α} (hs : d.step a = some (d', tally)) (hd : d.done = true) :
    d'.done = true := by
  cases step_stepped hs with
  | emit e =>
    unfold Dispatcher.emit
    dsimp only
    split
    · exact hd
    · split <;> exact hd
  | reject he => exact hd
  | moves hm =>
    cases hm with
    | claim hl =>
      unfold Dispatcher.claimDelivery
      split <;> exact hd
    | finish hl => rfl
    | _ => exact hd
  | called _ hu _ =>
    rw [hu.done]
    exact hd

structure Sound (d : Dispatcher α) : Prop where
  kept : d.Kept
  guarded : d.Guarded

theorem Sound.step {d : Dispatcher α} (h : d.Sound) (hs : d.step a = some (d', tally)) :
    d'.Sound := by
  obtain ⟨hk, hg⟩ := h
  cases step_stepped hs with
  | emit e => exact ⟨hk.emit e, hg.emit e⟩
  | reject he => exact ⟨hk.reject he, hg.reject⟩
  | moves hm => exact ⟨hk.moves hm, hg.moves hm⟩
  | called _ hu hg' => exact ⟨hk.untouched hu, hg' hg⟩

end Dispatcher

def droppedBy : Tally → Int
  | some (.droppedObserverEvents, n) => n
  | _ => 0

theorem saturatingAdd_zero (n : Int) : saturatingAdd n 0 = n := by
  unfold saturatingAdd
  simp

theorem saturatingAdd_min (hk : 0 ≤ k) :
    saturatingAdd (min maximumDiagnosticCounter n) k = min maximumDiagnosticCounter (n + k) := by
  unfold saturatingAdd
  split
  · rename_i hd
    simp only [Bool.or_eq_true, decide_eq_true_eq] at hd
    omega
  · rename_i hd
    simp only [Bool.or_eq_true, decide_eq_true_eq, not_or] at hd
    split <;> omega

theorem tally_dropped (s : RuntimeState) (t : Tally) :
    (s.tally t).diagnostics.counters .droppedObserverEvents =
      saturatingAdd (s.diagnostics.counters .droppedObserverEvents) (droppedBy t) := by
  match t with
  | none => exact (saturatingAdd_zero _).symm
  | some (c, n) =>
    simp only [RuntimeState.tally, RuntimeState.count]
    by_cases hc : Counter.droppedObserverEvents = c
    · subst hc
      rw [Function.update_self]
      rfl
    · rw [Function.update_of_ne hc]
      have hnone : droppedBy (some (c, n)) = 0 := by
        unfold droppedBy
        split
        · rename_i he
          cases he
          exact absurd rfl hc
        · rfl
      rw [hnone, saturatingAdd_zero]

namespace Dispatcher

theorem dropped_length (d : Dispatcher α) : (d.dropped.length : Int) =
    d.rejected.length + (settledAs .dropped d.settled).length + d.loop.noted.length := by
  unfold Dispatcher.dropped Dispatcher.discarded
  simp only [List.length_append, Nat.cast_add]

variable {d : Dispatcher α}

theorem Moves.dropped (h : d.Moves d' tally) :
    (d'.dropped.length : Int) = d.dropped.length + droppedBy tally := by
  rw [dropped_length, dropped_length]
  cases h with
  | stop hl _ => rcases hl with hl | hl <;> simp [hl, LoopAt.noted, droppedBy]
  | claim hl =>
    unfold Dispatcher.claimDelivery
    split <;> simp [hl, LoopAt.noted, droppedBy]
  | deliver hl => simp [hl, Dispatcher.deliver, LoopAt.noted, droppedBy, settledAs]
  | completeRefused hl =>
    simp [hl, Dispatcher.complete, LoopAt.noted, droppedBy, settledAs]
    omega
  | completeDrained hl =>
    simp [hl, Dispatcher.complete, LoopAt.noted, droppedBy, settledAs_map]
    omega
  | start hl | look hl _ | receive hl _ | callbackReturns hl | callbackPanics hl | fail hl
  | refuse hl | drain hl _ | drained hl _ | idle hl _ | finish hl =>
    simp [hl, LoopAt.noted, droppedBy]

theorem Moves.droppedBy_nonneg (h : d.Moves d' tally) : 0 ≤ droppedBy tally := by
  cases h <;> simp [droppedBy]

theorem step_dropped (hs : d.step a = some (d', tally)) :
    0 ≤ droppedBy tally ∧ (d'.dropped.length : Int) = d.dropped.length + droppedBy tally := by
  cases step_stepped hs with
  | emit e =>
    refine ⟨Int.le_refl _, ?_⟩
    rw [dropped_length, dropped_length]
    unfold Dispatcher.emit
    dsimp only
    split
    · exact (Int.add_zero _).symm
    · split <;> exact (Int.add_zero _).symm
  | reject he =>
    refine ⟨Int.one_nonneg, ?_⟩
    rw [dropped_length, dropped_length]
    simp only [Dispatcher.reject, droppedBy, List.length_append, List.length_singleton, Nat.cast_add]
    omega
  | moves hm => exact ⟨hm.droppedBy_nonneg, hm.dropped⟩
  | called _ hu _ =>
    refine ⟨Int.le_refl _, ?_⟩
    rw [dropped_length, dropped_length, hu.rejected, hu.settled, hu.loop]
    exact (Int.add_zero _).symm

theorem step_work (hs : d.step a = some (d', tally)) (ha : ∀ e, a ≠ .emit e) :
    d'.work ≤ d.work := by
  cases step_stepped hs with
  | emit e => exact absurd rfl (ha e)
  | reject he => exact Nat.le_refl _
  | moves hm => exact hm.work_lt.le
  | called _ hu _ =>
    unfold Dispatcher.work
    rw [hu.events, hu.loop]

theorem Kept.accounted (h : d.Kept) :
    d.emitted.Perm (d.began ++ d.dropped ++ d.unsettled) := by
  have hsettled : (d.settled.map Prod.fst).Perm (d.delivered ++ d.discarded) := by
    unfold Dispatcher.delivered Dispatcher.discarded
    generalize d.settled = l
    induction l with
    | nil => exact .refl _
    | cons x l ih =>
      obtain ⟨e, k⟩ := x
      cases k with
      | delivered => exact ih.cons e
      | dropped => exact (ih.cons e).trans List.perm_middle.symm
  classical
  rw [List.perm_iff_count] at hsettled ⊢
  intro e
  have hemitted := List.perm_iff_count.1 h.emitted e
  have hcount := hsettled e
  rw [h.enqueued] at hemitted
  rw [h.began]
  unfold Dispatcher.dropped Dispatcher.unsettled
  simp only [LoopAt.hand, List.count_append] at hemitted hcount ⊢
  omega

theorem Kept.inOrder (h : d.Kept) : d.began.Sublist d.enqueued := by
  have hdelivered : d.delivered.Sublist (d.settled.map Prod.fst) := List.filter_sublist.map _
  have hcurrent : d.loop.current.Sublist (d.loop.hand ++ d.events) := by
    unfold LoopAt.hand
    simp only [List.append_assoc]
    exact List.sublist_append_left _ _
  rw [h.began, h.enqueued, List.append_assoc]
  exact hdelivered.append hcurrent

end Dispatcher

/-- The dispatcher with the runtime whose counters it adds to. -/
structure Observing (α : Type) where
  dispatcher : Dispatcher α
  state : RuntimeState

inductive ObservingAct (α : Type) where
  | dispatcher (a : DispatcherAct α)
  | runtime (a : AdmissionAct)

/-- Only the dispatcher counts dropped events and failures of the observer. -/
def AdmissionAct.dispatchers : AdmissionAct → Bool
  | addDroppedObserverEvents _ | addObserverFailure => true
  | _ => false

def Observing.step (s : Observing α) : ObservingAct α → Option (Observing α)
  | .dispatcher a => (s.dispatcher.step a).map fun (d, tally) => ⟨d, s.state.tally tally⟩
  | .runtime a =>
    if a.dispatchers then none else (admissionStep s.state a).map fun t => { s with state := t }

def observing (α : Type) : System (Observing α) (ObservingAct α) where
  Init s := ∃ g, ∃ hg : g ≠ 0, ∃ config,
    s = ⟨{ goroutine := g, goroutine_ne := hg }, newRuntimeState config⟩
  step := Observing.step

theorem count_other (s : RuntimeState) (hc : Counter.droppedObserverEvents ≠ c) :
    (s.count c n).diagnostics.counters .droppedObserverEvents =
      s.diagnostics.counters .droppedObserverEvents := by
  unfold RuntimeState.count
  exact Function.update_of_ne hc _ _

theorem admitOperation_dropped (s : RuntimeState) (call : AdmissionCall) :
    (s.admitOperation call).1.diagnostics.counters .droppedObserverEvents =
      s.diagnostics.counters .droppedObserverEvents := by
  unfold RuntimeState.admitOperation
  split
  · rfl
  split
  · exact count_other s nofun
  split
  · exact count_other s nofun
  split
  · rfl
  split <;> rfl

theorem admissionStep_dropped (hs : admissionStep s a = some s') (ha : a.dispatchers = false) :
    s'.diagnostics.counters .droppedObserverEvents =
      s.diagnostics.counters .droppedObserverEvents := by
  rcases admissionStep_cases hs with ⟨-, ho⟩ | ⟨i, t, u, t', -, -, hu, rfl⟩
  · cases a with
    | admitOperation call =>
      have hsame := admitOperation_dropped s call
      simp only [RuntimeState.own] at ho
      split at ho
      · rename_i he
        cases ho
        rwa [he] at hsame
      · rename_i he
        cases ho
        rwa [he] at hsame
    | recordResponseHeaderLimitFailure | recordResponseCloseFailure | addTelemetryFailure =>
      cases ho
      exact count_other s (by decide)
    | beginClose =>
      cases ho
      unfold RuntimeState.beginClose
      split <;> rfl
    | finishClose =>
      cases ho
      rfl
    | addDroppedObserverEvents n => cases ha
    | addObserverFailure => cases ha
    | _ => cases ho
  · exact congrFun (onTenure_counters hu) _

structure Observing.Sound (s : Observing α) : Prop where
  dispatcher : s.dispatcher.Sound
  counter : s.state.diagnostics.counters .droppedObserverEvents =
    min maximumDiagnosticCounter s.dispatcher.dropped.length

theorem Observing.step_cases {s : Observing α} (hs : s.step a = some s') :
    (∃ b d tally, a = .dispatcher b ∧ s.dispatcher.step b = some (d, tally) ∧
      s' = ⟨d, s.state.tally tally⟩) ∨
    ∃ b t, a = .runtime b ∧ b.dispatchers = false ∧ admissionStep s.state b = some t ∧
      s' = { s with state := t } := by
  cases a with
  | dispatcher b =>
    obtain ⟨⟨d, tally⟩, hd, rfl⟩ := Option.map_eq_some_iff.1 hs
    exact .inl ⟨b, d, tally, rfl, hd, rfl⟩
  | runtime b =>
    simp only [Observing.step] at hs
    split at hs
    · cases hs
    · rename_i hb
      obtain ⟨t, ht, rfl⟩ := Option.map_eq_some_iff.1 hs
      exact .inr ⟨b, t, rfl, Bool.not_eq_true _ ▸ hb, ht, rfl⟩

theorem Dispatcher.Sound.start (g : Nat) (hg : g ≠ 0) :
    Dispatcher.Sound ({ goroutine := g, goroutine_ne := hg } : Dispatcher α) := by
  refine ⟨⟨.refl _, rfl, rfl, rfl, Nat.zero_le _⟩, ?_⟩
  exact ⟨.inr ⟨rfl, rfl⟩, rfl, rfl, nofun, nofun, ⟨nofun, nofun⟩, nofun⟩

theorem observing_sound : (observing α).Invariant System.Any Observing.Sound := by
  constructor
  · rintro s ⟨g, hg, config, rfl⟩
    exact ⟨.start g hg, rfl⟩
  · intro s a s' h _ hs
    rcases Observing.step_cases hs with ⟨b, d, tally, -, hd, rfl⟩ | ⟨b, t, -, hb, ht, rfl⟩
    · obtain ⟨hnonneg, hdropped⟩ := Dispatcher.step_dropped hd
      refine ⟨h.dispatcher.step hd, ?_⟩
      dsimp only
      rw [tally_dropped, h.counter, saturatingAdd_min hnonneg, hdropped]
    · refine ⟨h.dispatcher, ?_⟩
      dsimp only
      rw [admissionStep_dropped ht hb]
      exact h.counter

/-- A step of the dispatcher's goroutine, and a step that emits nothing. -/
def ObservingAct.isLoop : ObservingAct α → Bool
  | dispatcher (.loop _) => true
  | _ => false

def ObservingAct.isEmit : ObservingAct α → Bool
  | dispatcher (.emit _) => true
  | _ => false

structure Observing.Exact (s : Observing α) : Prop where
  accounted : s.dispatcher.emitted.Perm
    (s.dispatcher.began ++ s.dispatcher.dropped ++ s.dispatcher.unsettled)
  counter : s.state.diagnostics.counters .droppedObserverEvents =
    min (2 ^ 53 - 1 : Int) (s.dispatcher.dropped.length : Int)
  oneByOne : s.dispatcher.began = s.dispatcher.delivered ++ s.dispatcher.loop.current ∧
    s.dispatcher.loop.current.length ≤ 1
  inOrder : s.dispatcher.began.Sublist s.dispatcher.enqueued
  pending : s.dispatcher.pending + s.dispatcher.settled.length = s.dispatcher.enqueued.length
  idle : (∀ a, s.dispatcher.run a = none) →
    s.dispatcher.pending = 0 ∧ s.dispatcher.unsettled = s.dispatcher.dropping
  capacity : s.dispatcher.events.length ≤ 1024
  stopOnce : s.dispatcher.stops ≤ 1
  stopped : s.dispatcher.closing = true →
    s.dispatcher.stops = 1 ∨ CloseAt.awaitingIdle ∈ s.dispatcher.closes
  returned : CloseAt.returned ∈ s.dispatcher.closes → s.dispatcher.stops = 1

theorem LoopAt.current_length (l : LoopAt α) : l.current.length ≤ 1 := by
  cases l <;> simp [LoopAt.current]

theorem Observing.Sound.exact {s : Observing α} (h : s.Sound) : s.Exact := by
  obtain ⟨⟨hk, hg⟩, hcounter⟩ := h
  have hstops := hg.stops
  refine ⟨hk.accounted, hcounter, ⟨hk.began, LoopAt.current_length _⟩, hk.inOrder, ?_, ?_,
    hk.capacity, ?_, ?_, ?_⟩
  · rw [hk.pending, hk.enqueued]
    simp only [List.length_append, List.length_map]
    omega
  · intro hidle
    obtain ⟨hhand, hevents⟩ := hg.idle hidle
    refine ⟨?_, ?_⟩
    · rw [hk.pending, hhand, hevents]
      rfl
    · have hundecided : s.dispatcher.loop.undecided = [] := (List.append_eq_nil_iff.1 hhand).2
      rw [Dispatcher.unsettled, hundecided, hevents, List.append_nil, List.append_nil]
  · split at hstops <;> omega
  · intro hc
    rw [hc, if_pos rfl] at hstops
    by_cases hone : s.dispatcher.stops = 1
    · exact .inl hone
    · refine .inr (List.count_pos_iff.1 ?_)
      omega
  · intro hr
    refine hg.stopping ?_
    rw [hg.done.1 (hg.returned hr)]
    rfl

/-- Observer events are neither lost nor duplicated: in every state of every interleaving each
emitted event has been passed to the observer, counted as dropped, or is still open; events are
passed one by one in the order of the queue, which stays within its capacity; `pending` counts the
events of the queue that are not settled, and is 0 whenever the dispatcher's goroutine waits, which
it does after a bounded number of its own steps; and the stop channel is closed once. -/
theorem observer_events_exact (h : (observing α).Reachable System.Any s) :
    s.Exact ∧ ∀ as t, (observing α).exec (fun _ a => a.isEmit = false) s as = some t →
      as.countP ObservingAct.isLoop ≤ s.dispatcher.work := by
  refine ⟨(observing_sound.reachable h).exact, ?_⟩
  intro as t hexec
  have hwork := System.exec_countP_le ObservingAct.isLoop (fun s => s.dispatcher.work) ?_ ?_ hexec
  · omega
  · intro s a t hs ho
    rcases Observing.step_cases hs with ⟨b, d, tally, rfl, hd, rfl⟩ | ⟨b, t, rfl, -, -, rfl⟩
    · cases b with
      | loop b => exact (Dispatcher.run_moves hd).work_lt
      | _ => cases ho
    · cases ho
  · intro s a t hs ha _
    rcases Observing.step_cases hs with ⟨b, d, tally, rfl, hd, rfl⟩ | ⟨b, t, rfl, -, -, rfl⟩
    · refine Dispatcher.step_work hd ?_
      rintro e rfl
      cases ha
    · exact Nat.le_refl _

namespace Sample

def closingInCallback : List (ObservingAct Nat) :=
  [.dispatcher (.emit 1), .dispatcher (.emit 2), .dispatcher (.loop .next), .dispatcher (.loop .next),
    .dispatcher (.loop .next), .dispatcher (.loop .next), .dispatcher (.close 7),
    .dispatcher (.loop .panicked), .dispatcher (.emit 3), .dispatcher (.loop .next),
    .dispatcher (.loop .next), .dispatcher (.loop .next), .dispatcher (.loop .next),
    .dispatcher (.loop .next), .dispatcher (.resume 0), .dispatcher (.loop .next),
    .dispatcher (.countDropped 0), .dispatcher (.loop .next), .dispatcher (.loop .next),
    .dispatcher (.loop .next), .dispatcher (.loop .next), .dispatcher (.resume 0),
    .dispatcher .flush]

def observingStart : Observing Nat where
  dispatcher := { goroutine := 4, goroutine_ne := by decide }
  state := newRuntimeState admissionConfig

end Sample

theorem Sample.closing_in_callback_exact :
    ∃ s : Observing Nat, s.Exact ∧ s.dispatcher.began = [1] ∧ s.dispatcher.dropped = [3, 2] ∧
      s.dispatcher.closes = [.returned] ∧ s.dispatcher.unsettled = [] := by
  obtain ⟨s, hs, hbegan, hdropped, hcloses, hopen⟩ :
      ∃ s ∈ (observing Nat).exec System.Any Sample.observingStart Sample.closingInCallback,
        s.dispatcher.began = [1] ∧ s.dispatcher.dropped = [3, 2] ∧
          s.dispatcher.closes = [.returned] ∧ s.dispatcher.unsettled = [] :=
    ⟨_, rfl, rfl, rfl, rfl, rfl⟩
  have hr : (observing Nat).Reachable System.Any s :=
    System.exec_reachable ⟨4, by decide, Sample.admissionConfig, rfl⟩ hs
  exact ⟨s, (observer_events_exact hr).1, hbegan, hdropped, hcloses, hopen⟩

end Repost
