import Repost.DispatcherCalls

namespace Repost
open Runs
set_option autoImplicit true

@[simp] theorem settledAs_append (k : Settlement) (l m : List (α × Settlement)) :
    settledAs k (l ++ m) = settledAs k l ++ settledAs k m := by
  unfold settledAs
  rw [List.filter_append, List.map_append]

theorem settledAs_map (k k' : Settlement) (es : List α) :
    settledAs k (es.map fun e => (e, k')) = if k' = k then es else [] := by
  induction es with
  | nil => simp [settledAs]
  | cons e es ih =>
    unfold settledAs at ih ⊢
    rw [List.map_cons, List.filter_cons]
    split
    · rename_i hk
      rw [decide_eq_true_eq] at hk
      rw [if_pos hk] at ih ⊢
      rw [List.map_cons, ih]
    · rename_i hk
      rw [decide_eq_true_eq] at hk
      rw [if_neg hk] at ih ⊢
      exact ih

theorem map_fst_tagged (es : List α) (k : Settlement) :
    (es.map fun e => (e, k)).map Prod.fst = es := by
  rw [List.map_map]
  exact List.map_id es

namespace Dispatcher

variable {d : Dispatcher α}

theorem Kept.move (h : d.Kept) (hl : d.loop = l₀) (hh : l.hand = l₀.hand)
    (hc : l.current = l₀.current) : Kept { d with loop := l } := by
  rw [← hl] at hh hc
  refine ⟨h.emitted, ?_, ?_, ?_, h.capacity⟩
  · dsimp only
    rw [hh]
    exact h.enqueued
  · show d.began = d.delivered ++ l.current
    rw [hc]
    exact h.began
  · dsimp only
    rw [hh]
    exact h.pending

theorem Kept.complete (h : d.Kept) (hl : d.loop = l₀) (hc : l₀.current = [])
    (hn : l₀.hand = es) (hl' : l.hand = []) (hc' : l.current = []) : (d.complete es l).Kept := by
  rw [← hl] at hc hn
  refine ⟨h.emitted, ?_, ?_, ?_, h.capacity⟩
  · have henqueued := h.enqueued
    rw [hn] at henqueued
    unfold Dispatcher.complete
    dsimp only
    rw [henqueued, List.map_append, map_fst_tagged, hl', List.append_nil]
  · unfold Dispatcher.complete Dispatcher.delivered
    dsimp only
    rw [settledAs_append, settledAs_map, if_neg nofun, hc', List.append_nil, List.append_nil, h.began,
      hc, List.append_nil]
    rfl
  · have hp := h.pending
    rw [hn, List.length_append] at hp
    unfold Dispatcher.complete
    dsimp only
    rw [hl', List.nil_append]
    omega

theorem Kept.deliver (h : d.Kept) (hl : d.loop = .returning e) :
    (d.deliver e).Kept := by
  have hhand : d.loop.hand = [e] := by
    rw [hl]
    rfl
  have hcurrent : d.loop.current = [e] := by
    rw [hl]
    rfl
  refine ⟨h.emitted, ?_, ?_, ?_, h.capacity⟩
  · have henqueued := h.enqueued
    rw [hhand] at henqueued
    unfold Dispatcher.deliver
    dsimp only
    rw [henqueued, List.map_append]
    exact congrArg (· ++ d.events) (List.append_nil _).symm
  · unfold Dispatcher.deliver Dispatcher.delivered
    dsimp only
    rw [settledAs_append, h.began, hcurrent]
    exact (List.append_nil _).symm
  · have hp := h.pending
    rw [hhand, List.length_append, List.length_singleton] at hp
    show d.pending - 1 = (d.events.length : Int)
    omega

theorem Kept.claimDelivery (h : d.Kept) (hl : d.loop = .claiming e) :
    (d.claimDelivery e).Kept := by
  have hhand : d.loop.hand = [e] := by rw [hl]; rfl
  have hcurrent : d.loop.current = [] := by rw [hl]; rfl
  unfold Dispatcher.claimDelivery
  split
  · exact h.move hl rfl rfl
  · refine ⟨h.emitted, ?_, ?_, ?_, h.capacity⟩
    · have henqueued := h.enqueued
      rw [hhand] at henqueued
      exact henqueued
    · show d.began ++ [e] = d.delivered ++ [e]
      rw [h.began, hcurrent, List.append_nil]
    · have hp := h.pending
      rw [hhand] at hp
      exact hp

theorem Kept.take (h : d.Kept) (hl : d.loop = l₀) (he : d.events = e :: rest)
    (hh : l.hand = l₀.hand ++ [e]) (hc : l.current = l₀.current) :
    Kept { d with events := rest, loop := l } := by
  rw [← hl] at hh hc
  refine ⟨h.emitted, ?_, ?_, ?_, ?_⟩
  · dsimp only
    rw [hh, h.enqueued, he]
    simp only [List.append_assoc, List.cons_append, List.nil_append]
  · show d.began = d.delivered ++ l.current
    rw [hc]
    exact h.began
  · have hp := h.pending
    rw [he] at hp
    dsimp only
    rw [hh, hp]
    simp only [List.append_assoc, List.cons_append, List.nil_append]
  · have hcap := h.capacity
    rw [he, List.length_cons] at hcap
    dsimp only
    omega

inductive Moves (d : Dispatcher α) : Dispatcher α → Tally → Prop where
  | start (hl : d.loop = .starting) :
    Moves d { d with runGID := d.goroutine, loop := .looking } none
  | look (hl : d.loop = .looking) (hs : d.stops = 0) : Moves d { d with loop := .selecting } none
  | stop (hl : d.loop = .looking ∨ d.loop = .selecting) (hs : 0 < d.stops) :
    Moves d { d with loop := .draining [] } none
  | receive (hl : d.loop = .selecting) (he : d.events = e :: rest) :
    Moves d { d with events := rest, loop := .claiming e } none
  | claim (hl : d.loop = .claiming e) : Moves d (d.claimDelivery e) none
  | callbackReturns (hl : d.loop = .calling e) : Moves d { d with loop := .returning e } none
  | callbackPanics (hl : d.loop = .calling e) : Moves d { d with loop := .failing e } none
  | fail (hl : d.loop = .failing e) :
    Moves d { d with loop := .returning e } (some (.observerFailures, 1))
  | deliver (hl : d.loop = .returning e) : Moves d (d.deliver e) none
  | refuse (hl : d.loop = .refusing e) :
    Moves d { d with loop := .refused e } (some (.droppedObserverEvents, 1))
  | completeRefused (hl : d.loop = .refused e) : Moves d (d.complete [e] .looking) none
  | drain (hl : d.loop = .draining es) (he : d.events = e :: rest) :
    Moves d { d with events := rest, loop := .draining (es ++ [e]) } none
  | drained (hl : d.loop = .draining es) (he : d.events = []) :
    Moves d { d with loop := .drained es } (some (.droppedObserverEvents, es.length))
  | idle (hl : d.loop = .draining []) (he : d.events = []) : Moves d { d with loop := .ending } none
  | completeDrained (hl : d.loop = .drained es) : Moves d (d.complete es .ending) none
  | finish (hl : d.loop = .ending) : Moves d { d with done := true, loop := .ended } none

theorem run_moves (hs : d.run a = some (d', tally)) : d.Moves d' tally := by
  unfold Dispatcher.run at hs
  split at hs
  · rename_i hl
    cases hs
    exact .start hl
  · rename_i hl
    cases hs
    split
    · rename_i hstops
      exact .stop (.inl hl) hstops
    · exact .look hl (by omega)
  · rename_i hl
    split at hs
    · rename_i he
      cases hs
      exact .receive hl he
    · cases hs
  · rename_i hl
    split at hs
    · rename_i hstops
      cases hs
      exact .stop (.inr hl) hstops
    · cases hs
  · rename_i hl
    cases hs
    exact .claim hl
  · rename_i hl
    cases hs
    exact .callbackReturns hl
  · rename_i hl
    cases hs
    exact .callbackPanics hl
  · rename_i hl
    cases hs
    exact .fail hl
  · rename_i hl
    cases hs
    exact .deliver hl
  · rename_i hl
    cases hs
    exact .refuse hl
  · rename_i hl
    cases hs
    exact .completeRefused hl
  · rename_i es hl
    split at hs
    · rename_i he
      cases hs
      exact .drain hl he
    · rename_i he
      split at hs
      · cases hs
        exact .drained hl he
      · rename_i hlen
        cases hs
        cases es with
        | nil => exact .idle hl he
        | cons e es => simp at hlen
  · rename_i hl
    cases hs
    exact .completeDrained hl
  · rename_i hl
    cases hs
    exact .finish hl
  · cases hs

theorem Kept.moves (h : d.Kept) (hs : d.Moves d' tally) : d'.Kept := by
  cases hs with
  | start hl =>
    have hmoved : Kept { d with loop := .looking } := h.move hl rfl rfl
    exact ⟨hmoved.emitted, hmoved.enqueued, hmoved.began, hmoved.pending, hmoved.capacity⟩
  | look hl _ | callbackReturns hl | callbackPanics hl | fail hl | refuse hl | idle hl _ =>
    exact h.move hl rfl rfl
  | stop hl _ =>
    rcases hl with hl | hl
    · exact h.move hl rfl rfl
    · exact h.move hl rfl rfl
  | receive hl he | drain hl he => exact h.take hl he rfl rfl
  | claim hl => exact h.claimDelivery hl
  | deliver hl => exact h.deliver hl
  | completeRefused hl => exact h.complete hl rfl rfl rfl rfl
  | drained hl _ => exact h.move hl (List.append_nil _) rfl
  | completeDrained hl => exact h.complete hl rfl (List.append_nil _) rfl rfl
  | finish hl =>
    have hmoved : Kept { d with loop := .ended } := h.move hl rfl rfl
    exact ⟨hmoved.emitted, hmoved.enqueued, hmoved.began, hmoved.pending, hmoved.capacity⟩

theorem Guarded.stopping_at (h : d.Guarded) (hl : d.loop = l)
    (hs : l.stopping = true) : d.stops = 1 := by
  rw [← hl] at hs
  exact h.stopping hs

structure Aside (d d' : Dispatcher α) : Prop where
  goroutine : d'.goroutine = d.goroutine
  runGID : d'.runGID = d.runGID
  stops : d'.stops = d.stops
  closes : d'.closes = d.closes
  closing : d'.closing = d.closing
  done : d'.done = d.done

theorem Guarded.goesOn {d d' : Dispatcher α} {l₀ l : LoopAt α} (h : d.Guarded) (hl : d.loop = l₀)
    (hl' : d'.loop = l) (ha : d.Aside d')
    (hact : d.active = !l₀.current.isEmpty → d'.active = !l.current.isEmpty)
    (hs : l.stopping = true → d.stops = 1 := by intro h; cases h)
    (he : l.emptied = true → d'.events = [] := by intro h; cases h)
    (hne : l₀ ≠ .starting := by intro h; cases h) (hne₀ : l₀ ≠ .ended := by intro h; cases h)
    (hne₁ : l ≠ .ended := by intro h; cases h) : d'.Guarded := by
  subst hl hl'
  refine ⟨?_, hact h.active, ?_, ?_, he, ?_, ?_⟩
  · rw [ha.runGID, ha.goroutine]
    exact .inl (h.identity.resolve_right fun hg => hne hg.2)
  · rw [ha.stops, ha.closes, ha.closing]
    exact h.stops
  · rw [ha.stops]
    exact hs
  · rw [ha.done, h.done]
    exact ⟨fun hd => absurd hd hne₀, fun hd => absurd hd hne₁⟩
  · rw [ha.closes, ha.done]
    exact h.returned

theorem Guarded.moves (h : d.Guarded) (hs : d.Moves d' tally) : d'.Guarded := by
  have hone : 0 < d.stops → d.stops = 1 := by
    intro hpos
    have hstops := h.stops
    split at hstops <;> omega
  cases hs with
  | start hl =>
    refine ⟨.inl rfl, ?_, h.stops, fun h => (by cases h), fun h => (by cases h), ?_, h.returned⟩
    · rw [h.active, hl]
      rfl
    · rw [h.done, hl]
      exact ⟨fun h => (by cases h), fun h => (by cases h)⟩
  | look hl _ | receive hl _ | callbackReturns hl | callbackPanics hl | fail hl | refuse hl
  | completeRefused hl =>
    exact h.goesOn hl rfl ⟨rfl, rfl, rfl, rfl, rfl, rfl⟩ id
  | stop hl hstops =>
    rcases hl with hl | hl
    · exact h.goesOn hl rfl ⟨rfl, rfl, rfl, rfl, rfl, rfl⟩ id (fun _ => hone hstops)
    · exact h.goesOn hl rfl ⟨rfl, rfl, rfl, rfl, rfl, rfl⟩ id (fun _ => hone hstops)
  | claim hl =>
    unfold Dispatcher.claimDelivery
    split
    · exact h.goesOn hl rfl ⟨rfl, rfl, rfl, rfl, rfl, rfl⟩ id
    · exact h.goesOn hl rfl ⟨rfl, rfl, rfl, rfl, rfl, rfl⟩ (fun _ => rfl)
  | deliver hl =>
    exact h.goesOn hl rfl ⟨rfl, rfl, rfl, rfl, rfl, rfl⟩ (fun _ => rfl)
  | drain hl _ =>
    exact h.goesOn hl rfl ⟨rfl, rfl, rfl, rfl, rfl, rfl⟩ id (fun _ => h.stopping_at hl rfl)
  | drained hl he | idle hl he =>
    exact h.goesOn hl rfl ⟨rfl, rfl, rfl, rfl, rfl, rfl⟩ id (fun _ => h.stopping_at hl rfl)
      (fun _ => he)
  | completeDrained hl =>
    have he : d.events = [] := h.emptied (by rw [hl]; rfl)
    exact h.goesOn hl rfl ⟨rfl, rfl, rfl, rfl, rfl, rfl⟩ id (fun _ => h.stopping_at hl rfl)
      (fun _ => he)
  | finish hl =>
    refine ⟨h.identity.imp_right fun hg => ?_, ?_, h.stops, fun _ => h.stopping_at hl rfl,
      fun _ => h.emptied (by rw [hl]; rfl), ⟨fun _ => rfl, fun _ => rfl⟩, fun _ => rfl⟩
    · rw [hl] at hg
      cases hg.2
    · rw [h.active, hl]
      rfl

end Dispatcher

def LoopAt.rank : LoopAt α → Nat
  | ended => 0
  | ending => 1
  | drained _ => 2
  | draining _ => 3
  | selecting => 4
  | looking => 5
  | starting | returning _ | refused _ => 6
  | failing _ | refusing _ => 7
  | calling _ => 8
  | claiming _ => 9

namespace Dispatcher

/-- A bound on the steps that the goroutine can take before it has to wait. -/
def work (d : Dispatcher α) : Nat := 6 * d.events.length + d.loop.rank

theorem Moves.work_lt {d : Dispatcher α} (h : d.Moves d' tally) : d'.work < d.work := by
  unfold Dispatcher.work
  cases h with
  | start hl | look hl _ | callbackReturns hl | callbackPanics hl | fail hl | refuse hl
  | drained hl _ | idle hl _ | finish hl =>
    simp only [hl, LoopAt.rank]; omega
  | stop hl _ => rcases hl with hl | hl <;> simp only [hl, LoopAt.rank] <;> omega
  | receive hl he | drain hl he => simp only [hl, he, LoopAt.rank, List.length_cons]; omega
  | claim hl =>
    unfold Dispatcher.claimDelivery
    split <;> simp only [hl, LoopAt.rank] <;> omega
  | deliver hl => simp only [hl, Dispatcher.deliver, LoopAt.rank]; omega
  | completeRefused hl | completeDrained hl =>
    simp only [hl, Dispatcher.complete, LoopAt.rank]; omega

theorem Guarded.idle {d : Dispatcher α} (h : d.Guarded) (hs : ∀ a, d.run a = none) :
    d.loop.hand = [] ∧ d.events = [] := by
  have hnext := hs .next
  unfold Dispatcher.run at hnext
  cases hl : d.loop with
  | selecting =>
    cases he : d.events with
    | nil => exact ⟨rfl, rfl⟩
    | cons e rest => simp [hl, he] at hnext
  | ended => exact ⟨rfl, h.emptied (by rw [hl]; rfl)⟩
  | draining es =>
    cases he : d.events with
    | nil =>
      simp only [hl, he] at hnext
      split at hnext <;> cases hnext
    | cons e rest => simp [hl, he] at hnext
  | _ => simp [hl] at hnext

end Dispatcher

end Repost
