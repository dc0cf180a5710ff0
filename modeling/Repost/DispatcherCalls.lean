import Repost.Dispatcher

namespace Repost
open Runs
set_option autoImplicit true

structure Dispatcher.Kept (d : Dispatcher α) : Prop where
  emitted : d.emitted.Perm (d.enqueued ++ d.rejected ++ d.dropping)
  enqueued : d.enqueued = d.settled.map Prod.fst ++ d.loop.hand ++ d.events
  began : d.began = d.delivered ++ d.loop.current
  pending : d.pending = (d.loop.hand ++ d.events).length
  capacity : d.events.length ≤ observerQueueCapacity

structure Dispatcher.Guarded (d : Dispatcher α) : Prop where
  identity : d.runGID = d.goroutine ∨ d.runGID = 0 ∧ d.loop = .starting
  active : d.active = !d.loop.current.isEmpty
  stops : d.stops + d.closes.count .awaitingIdle = if d.closing then 1 else 0
  stopping : d.loop.stopping = true → d.stops = 1
  emptied : d.loop.emptied = true → d.events = []
  done : d.done = true ↔ d.loop = .ended
  returned : CloseAt.returned ∈ d.closes → d.done = true

theorem LoopAt.stopping_of_emptied {l : LoopAt α} (h : l.emptied = true) : l.stopping = true := by
  cases l with
  | drained es => rfl
  | ending => rfl
  | ended => rfl
  | _ => cases h

namespace Dispatcher

variable {d : Dispatcher α}

theorem Guarded.closing (h : d.Guarded) (hs : d.loop.stopping = true) :
    d.closing = true := by
  have hstops := h.stops
  rw [h.stopping hs] at hstops
  cases hc : d.closing with
  | true => rfl
  | false =>
    rw [hc] at hstops
    simp at hstops

theorem Kept.emit (h : d.Kept) (e : α) : (d.emit e).Kept := by
  have hperm : (d.emitted ++ [e]).Perm (d.enqueued ++ d.rejected ++ (d.dropping ++ [e])) := by
    rw [← List.append_assoc]
    exact h.emitted.append_right [e]
  unfold Dispatcher.emit
  dsimp only
  split
  · exact ⟨hperm, h.enqueued, h.began, h.pending, h.capacity⟩
  split
  · rename_i hlen
    refine ⟨?_, ?_, h.began, ?_, ?_⟩
    · have hswap : (d.enqueued ++ [e] ++ d.rejected ++ d.dropping).Perm
          (d.enqueued ++ d.rejected ++ d.dropping ++ [e]) := by
        simp only [List.append_assoc]
        apply List.Perm.append_left
        rw [← List.append_assoc, ← List.append_assoc]
        rw [List.append_assoc]
        exact List.perm_append_comm
      exact (h.emitted.append_right [e]).trans hswap.symm
    · simp only [h.enqueued, List.append_assoc]
    · have hp := h.pending
      simp only [List.length_append, List.length_cons, List.length_nil] at hp ⊢
      omega
    · simp only [List.length_append, List.length_cons, List.length_nil]
      omega
  · exact ⟨hperm, h.enqueued, h.began, h.pending, h.capacity⟩

theorem Guarded.emit (h : d.Guarded) (e : α) : (d.emit e).Guarded := by
  unfold Dispatcher.emit
  dsimp only
  split
  · exact ⟨h.identity, h.active, h.stops, h.stopping, h.emptied, h.done, h.returned⟩
  rename_i hc
  split
  · refine ⟨h.identity, h.active, h.stops, h.stopping, ?_, h.done, h.returned⟩
    intro he
    exact absurd (h.closing (LoopAt.stopping_of_emptied he)) hc
  · exact ⟨h.identity, h.active, h.stops, h.stopping, h.emptied, h.done, h.returned⟩

def reject (d : Dispatcher α) (i : Nat) (e : α) : Dispatcher α :=
  { d with dropping := d.dropping.eraseIdx i, rejected := d.rejected ++ [e] }

theorem Kept.reject (h : d.Kept) (he : d.dropping[i]? = some e) :
    (d.reject i e).Kept := by
  refine ⟨?_, h.enqueued, h.began, h.pending, h.capacity⟩
  obtain ⟨hi, rfl⟩ := List.getElem?_eq_some_iff.1 he
  have htake : (d.dropping[i] :: d.dropping.eraseIdx i).Perm d.dropping :=
    List.getElem_cons_eraseIdx_perm hi
  refine h.emitted.trans ?_
  unfold Dispatcher.reject
  simp only [List.append_assoc]
  apply List.Perm.append_left
  apply List.Perm.append_left
  exact htake.symm

theorem Guarded.reject (h : d.Guarded) : (d.reject i e).Guarded :=
  ⟨h.identity, h.active, h.stops, h.stopping, h.emptied, h.done, h.returned⟩

theorem Guarded.isCurrentCallback (h : d.Guarded) (hg : gid ≠ d.goroutine) :
    d.isCurrentCallback gid = false := by
  unfold Dispatcher.isCurrentCallback sameNonzeroGoroutine
  rcases h.identity with he | ⟨he, -⟩
  · rw [he]
    simp [hg]
  · rw [he]
    simp

theorem close_cases (hs : d.close gid = some d') :
    (d.closing = true ∧ (d' = d ∧ d.isCurrentCallback gid = true ∨
      d' = { d with closes := d.closes ++ [.awaitingDone] } ∧ d.isCurrentCallback gid = false)) ∨
    d.closing = false ∧
      (d' = { d with closing := true, stops := d.stops + 1 } ∧ d.isCurrentCallback gid = true ∨
        d.isCurrentCallback gid = false ∧ (d.active = true ∧
            d' = { d with closing := true, closes := d.closes ++ [.awaitingIdle] } ∨
          d' = { d with closing := true, stops := d.stops + 1
                        closes := d.closes ++ [.awaitingDone] })) := by
  unfold Dispatcher.close at hs
  dsimp only at hs
  split at hs
  · cases hs
  split at hs
  · rename_i hc
    cases hs
    cases d.isCurrentCallback gid with
    | true => exact .inl ⟨hc, .inl ⟨rfl, rfl⟩⟩
    | false => exact .inl ⟨hc, .inr ⟨rfl, rfl⟩⟩
  · rename_i hc
    refine .inr ⟨Bool.not_eq_true _ ▸ hc, ?_⟩
    split at hs
    · rename_i hself
      cases hs
      exact .inl ⟨rfl, hself⟩
    · rename_i hself
      refine .inr ⟨Bool.not_eq_true _ ▸ hself, ?_⟩
      split at hs
      · rename_i ha
        cases hs
        exact .inl ⟨ha, rfl⟩
      · cases hs
        exact .inr rfl

structure Untouched (d d' : Dispatcher α) : Prop where
  goroutine : d'.goroutine = d.goroutine
  events : d'.events = d.events
  pending : d'.pending = d.pending
  loop : d'.loop = d.loop
  done : d'.done = d.done
  dropping : d'.dropping = d.dropping
  emitted : d'.emitted = d.emitted
  enqueued : d'.enqueued = d.enqueued
  rejected : d'.rejected = d.rejected
  began : d'.began = d.began
  settled : d'.settled = d.settled

theorem close_untouched (hs : d.close gid = some d') : d.Untouched d' := by
  obtain ⟨-, ⟨rfl, -⟩ | ⟨rfl, -⟩⟩ | ⟨-, ⟨rfl, -⟩ | ⟨-, ⟨-, rfl⟩ | rfl⟩⟩ := close_cases hs
  all_goals exact ⟨rfl, rfl, rfl, rfl, rfl, rfl, rfl, rfl, rfl, rfl, rfl⟩

theorem Kept.untouched {d d' : Dispatcher α} (h : d.Kept) (hu : d.Untouched d') : d'.Kept := by
  refine ⟨?_, ?_, ?_, ?_, ?_⟩
  · rw [hu.emitted, hu.enqueued, hu.rejected, hu.dropping]
    exact h.emitted
  · rw [hu.enqueued, hu.settled, hu.loop, hu.events]
    exact h.enqueued
  · rw [Dispatcher.delivered, hu.began, hu.settled, hu.loop]
    exact h.began
  · rw [hu.pending, hu.loop, hu.events]
    exact h.pending
  · rw [hu.events]
    exact h.capacity

theorem Guarded.close (h : d.Guarded) (hs : d.close gid = some d') :
    d'.Guarded := by
  have hreturned : ∀ c, c ≠ .returned → CloseAt.returned ∈ d.closes ++ [c] → d.done = true := by
    intro c hc hm
    rcases List.mem_append.1 hm with hm | hm
    · exact h.returned hm
    · exact absurd (List.mem_singleton.1 hm).symm hc
  have hstops := h.stops
  have hstopping : d.closing = false → d.loop.stopping = true → d.stops + 1 = 1 := by
    intro hc hl
    rw [h.closing hl] at hc
    cases hc
  obtain ⟨hc, ⟨rfl, -⟩ | ⟨rfl, -⟩⟩ | ⟨hc, ⟨rfl, -⟩ | ⟨-, ⟨-, rfl⟩ | rfl⟩⟩ := close_cases hs
  · exact h
  · refine ⟨h.identity, h.active, ?_, h.stopping, h.emptied, h.done, hreturned _ nofun⟩
    simpa [List.count_append] using hstops
  · refine ⟨h.identity, h.active, ?_, hstopping hc, h.emptied, h.done, h.returned⟩
    rw [hc] at hstops
    simp only [Bool.false_eq_true, if_false, if_true] at hstops ⊢
    omega
  · refine ⟨h.identity, h.active, ?_, h.stopping, h.emptied, h.done, hreturned _ nofun⟩
    rw [hc] at hstops
    simp only [Bool.false_eq_true, if_false] at hstops
    simp only [List.count_append, List.count_singleton_self, if_true]
    omega
  · refine ⟨h.identity, h.active, ?_, hstopping hc, h.emptied, h.done, hreturned _ nofun⟩
    rw [hc] at hstops
    simp only [Bool.false_eq_true, if_false] at hstops
    have hnone : [CloseAt.awaitingDone].count CloseAt.awaitingIdle = 0 := by decide
    simp only [List.count_append, hnone, if_true]
    omega

theorem resume_cases (hs : d.resume i = some d') :
    (d.closes[i]? = some .awaitingIdle ∧ d.active = false ∧
      d' = { d with stops := d.stops + 1, closes := d.closes.set i .awaitingDone }) ∨
    (d.closes[i]? = some .awaitingDone ∧ d.done = true ∧
      d' = { d with closes := d.closes.set i .returned }) := by
  unfold Dispatcher.resume at hs
  split at hs
  · rename_i hi
    split at hs
    · cases hs
    · rename_i ha
      cases hs
      exact .inl ⟨hi, Bool.not_eq_true _ ▸ ha, rfl⟩
  · rename_i hi
    split at hs
    · rename_i hd
      cases hs
      exact .inr ⟨hi, hd, rfl⟩
    · cases hs
  · cases hs

theorem resume_untouched (hs : d.resume i = some d') : d.Untouched d' := by
  obtain ⟨-, -, rfl⟩ | ⟨-, -, rfl⟩ := resume_cases hs
  all_goals exact ⟨rfl, rfl, rfl, rfl, rfl, rfl, rfl, rfl, rfl, rfl, rfl⟩

theorem Guarded.resume (h : d.Guarded) (hs : d.resume i = some d') :
    d'.Guarded := by
  have hstops := h.stops
  obtain ⟨hi, -, rfl⟩ | ⟨hi, hd, rfl⟩ := resume_cases hs
  · have hcount := countP_set (p := (· == CloseAt.awaitingIdle)) (y := .awaitingDone) hi
    simp only [beq_self_eq_true, if_true] at hcount
    have hzero : (CloseAt.awaitingDone == CloseAt.awaitingIdle) = false := rfl
    simp only [hzero, Bool.false_eq_true, if_false] at hcount
    have hone : d.closing = true := by
      cases hc : d.closing with
      | true => rfl
      | false =>
        rw [hc] at hstops
        simp only [Bool.false_eq_true, if_false, List.count] at hstops
        omega
    rw [hone] at hstops
    simp only [if_true, List.count] at hstops
    refine ⟨h.identity, h.active, ?_, ?_, h.emptied, h.done, ?_⟩
    · simp only [List.count, hone, if_true]
      omega
    · intro hl
      have hsome := h.stopping hl
      omega
    · intro hm
      rcases List.mem_or_eq_of_mem_set hm with hm | hm
      · exact h.returned hm
      · cases hm
  · have hcount := countP_set (p := (· == CloseAt.awaitingIdle)) (y := .returned) hi
    have hzero : (CloseAt.awaitingDone == CloseAt.awaitingIdle) = false := rfl
    have hzero' : (CloseAt.returned == CloseAt.awaitingIdle) = false := rfl
    simp only [hzero, hzero', Bool.false_eq_true, if_false] at hcount
    refine ⟨h.identity, h.active, ?_, h.stopping, h.emptied, h.done, fun _ => hd⟩
    simp only [List.count] at hstops ⊢
    omega

end Dispatcher

end Repost
