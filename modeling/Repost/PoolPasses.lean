import Repost.Pool

namespace Repost.Pool
open Runs
set_option autoImplicit true

section Passes

def gone (stale : Entry → Bool) (c : Entry) : Bool := (c.retiring || stale c) && c.active == 0

def passed (stale : Entry → Bool) (c : Entry) : Entry :=
  { c with retiring := c.retiring || stale c }

def Steady (stale : Entry → Bool) : Prop := ∀ c b, stale { c with retiring := b } = stale c

variable {stale : Entry → Bool}

theorem Steady.passed_passed (h : Steady stale) (c : Entry) :
    passed stale (passed stale c) = passed stale c := by
  simp [passed, h c]

theorem Steady.gone_passed (h : Steady stale) (c : Entry) :
    gone stale (passed stale c) = gone stale c := by
  simp [gone, passed, h c]

theorem sweep_cons (e : Nat) (rest : List Nat) (w : World κ) :
    World.sweep stale (e :: rest) w =
      if gone stale (w.heap e) then
        World.sweep stale rest ((w.setEntry e (passed stale (w.heap e))).closeResource e)
      else
        (e :: (World.sweep stale rest (w.setEntry e (passed stale (w.heap e)))).1,
          (World.sweep stale rest (w.setEntry e (passed stale (w.heap e)))).2) := by
  have hw : (if stale (w.heap e) then w.retire e else w) =
      w.setEntry e (passed stale (w.heap e)) := by
    cases h : stale (w.heap e) with
    | true => simp [World.retire, passed, h]
    | false => simp [World.setEntry, passed, h]
  rw [World.sweep, hw]
  simp only [World.setEntry, Function.update_self]
  rfl

def passedHeap (stale : Entry → Bool) (l : List Nat) (heap : Nat → Entry) (r : Nat) : Entry :=
  if r ∈ l then passed stale (heap r) else heap r

theorem passedHeap_nil (stale : Entry → Bool) (heap : Nat → Entry) :
    passedHeap stale [] heap = heap := rfl

theorem Steady.passedHeap_cons (h : Steady stale) (e : Nat) (rest : List Nat) (heap : Nat → Entry) :
    passedHeap stale rest (Function.update heap e (passed stale (heap e))) =
      passedHeap stale (e :: rest) heap := by
  funext r
  unfold passedHeap
  by_cases hr : r = e
  · subst hr
    simp [h.passed_passed]
  · simp [hr]

theorem Steady.gone_update (h : Steady stale) (e x : Nat) (heap : Nat → Entry) :
    gone stale (Function.update heap e (passed stale (heap e)) x) = gone stale (heap x) := by
  by_cases hx : x = e
  · subst hx
    rw [Function.update_self, h.gone_passed]
  · rw [Function.update_of_ne hx]

/-- A pass keeps the entries that are not gone, and closes the others once for each time that they
stand in the list. -/
theorem Steady.sweep_eq (h : Steady stale) (l : List Nat) (w : World κ) :
    World.sweep stale l w =
      (l.filter fun e => !gone stale (w.heap e),
        { w with
          heap := passedHeap stale l w.heap
          closes := fun r => w.closes r + (l.filter fun e => gone stale (w.heap e)).count r }) := by
  induction l generalizing w with
  | nil => simp [World.sweep, passedHeap_nil]
  | cons e rest ih =>
    rw [sweep_cons]
    cases hg : gone stale (w.heap e) with
    | true =>
      rw [if_pos rfl, ih]
      simp only [World.closeResource, World.setEntry, h.passedHeap_cons, h.gone_update,
        List.filter_cons, hg, Bool.not_true, Bool.false_eq_true, if_false, if_true]
      congr 2
      funext r
      by_cases hr : r = e
      · subst hr
        rw [Function.update_self, List.count_cons_self]
        omega
      · rw [Function.update_of_ne hr, List.count_cons_of_ne (Ne.symm hr)]
    | false =>
      rw [if_neg Bool.false_ne_true, ih]
      simp only [World.setEntry, h.passedHeap_cons, h.gone_update, List.filter_cons, hg,
        Bool.not_false, Bool.false_eq_true, if_false, if_true]

theorem passedHeap_active (l : List Nat) (heap : Nat → Entry) (r : Nat) :
    (passedHeap stale l heap r).active = (heap r).active := by
  unfold passedHeap
  split <;> rfl

theorem passedHeap_mode (l : List Nat) (heap : Nat → Entry) (r : Nat) :
    (passedHeap stale l heap r).mode = (heap r).mode := by
  unfold passedHeap
  split <;> rfl

theorem passedHeap_retiring {heap : Nat → Entry} (h : (heap r).retiring = true) :
    (passedHeap stale l heap r).retiring = true := by
  unfold passedHeap
  split
  · simp [passed, h]
  · exact h

structure Retires (w w' : World κ) : Prop where
  rest : w' = { w with heap := w'.heap }
  entry : ∀ r, w'.heap r = { w.heap r with retiring := (w'.heap r).retiring }
  retiring : ∀ r, (w.heap r).retiring = true → (w'.heap r).retiring = true

namespace Retires

theorem refl (w : World κ) : Retires w w := ⟨rfl, fun _ => rfl, fun _ h => h⟩

theorem retire (w : World κ) (e : Nat) : Retires w (w.retire e) := by
  refine ⟨rfl, fun r => ?_, fun r h => ?_⟩
  all_goals
    by_cases hr : r = e
    · subst hr
      simp [World.retire, World.setEntry]
    · simp_all [World.retire, World.setEntry]

theorem trans {u v w : World κ} (h : Retires u v) (h' : Retires v w) : Retires u w := by
  refine ⟨?_, fun r => ?_, fun r hr => h'.retiring r (h.retiring r hr)⟩
  · rw [h'.rest, h.rest]
  · rw [h'.entry r, h.entry r]

variable {w w' : World κ}

theorem active (h : Retires w w') (r : Nat) :
    (w'.heap r).active = (w.heap r).active := by rw [h.entry r]

theorem calls (h : Retires w w') : w'.calls = w.calls := by
  rw [h.rest]

theorem mode (h : Retires w w') (r : Nat) : (w'.heap r).mode = (w.heap r).mode := by
  rw [h.entry r]

end Retires

def World.probe (w : World κ) (e : Nat) : World κ :=
  if w.reusable e = some false then w.retire e else w

theorem Retires.probe (w : World κ) (e : Nat) : Retires w (w.probe e) := by
  unfold World.probe
  split
  · exact .retire w e
  · exact .refl w

theorem probe_reusable (w : World κ) (e : Nat) : (w.probe e).reusable = w.reusable := by
  unfold World.probe
  split <;> rfl

def Entry.free (c : Entry) : Bool := !c.retiring && (c.mode = .shared || c.active == 0)

theorem available_cons (e : Nat) (rest : List Nat) (w : World κ) :
    World.available (e :: rest) w =
      if ((w.probe e).heap e).free then (some e, w.probe e) else World.available rest (w.probe e) := by
  rw [World.available]
  rfl

theorem available_retires (l : List Nat) (w : World κ) : Retires w (World.available l w).2 := by
  induction l generalizing w with
  | nil => exact .refl w
  | cons e rest ih =>
    rw [available_cons]
    split
    · exact .probe w e
    · exact (Retires.probe w e).trans (ih _)

theorem available_some (h : World.available l w = (some e, w')) :
    e ∈ l ∧ (w'.heap e).free = true := by
  induction l generalizing w with
  | nil => cases h
  | cons x rest ih =>
    rw [available_cons] at h
    split at h
    · rename_i hfree
      cases h
      exact ⟨List.mem_cons_self, hfree⟩
    · exact ⟨List.mem_cons_of_mem _ (ih h).1, (ih h).2⟩

theorem probe_retiring {w : World κ} (h : ((w.probe x).heap e).retiring = true) :
    (w.heap e).retiring = true ∨ w.reusable e = some false := by
  unfold World.probe at h
  split at h
  · rename_i hx
    by_cases he : e = x
    · exact .inr (he ▸ hx)
    · simp only [World.retire, World.setEntry, Function.update_of_ne he] at h
      exact .inl h
  · exact .inl h

theorem available_none (h : World.available l w = (none, w')) :
    ∀ e ∈ l, (w.heap e).active = 0 → (w.heap e).retiring = true ∨ w.reusable e = some false := by
  induction l generalizing w with
  | nil => simp
  | cons x rest ih =>
    rw [available_cons] at h
    split at h
    · cases h
    · rename_i hfree
      intro e he hidle
      have hactive : ((w.probe x).heap e).active = 0 := ((Retires.probe w x).active e).trans hidle
      rcases List.mem_cons.1 he with rfl | he
      · apply probe_retiring (x := e)
        simpa [Entry.free, hactive] using hfree
      · have := ih h e he hactive
        rw [probe_reusable] at this
        rcases this with hr | hr
        · exact probe_retiring hr
        · exact .inr hr

end Passes

def Phase.resource : Phase → Option Nat
  | .dialed (some (r, _)) => some r
  | .discarding r => some r
  | _ => none

def Phase.dials : Phase → Bool
  | .dialing => true
  | .dialed _ => true
  | _ => false

namespace World

def filed (w : World κ) (r : Nat) : Nat := (w.entries.map Prod.snd).count r

def held (w : World κ) (r : Nat) : Nat := w.calls.countP fun c => c.phase.resource = some r

def dials [DecidableEq κ] (w : World κ) (key : κ) : Nat :=
  w.calls.countP fun c => c.key = key && c.phase.dials

def leased (w : World κ) (r : Nat) : Nat := w.leases.countP fun l => l.entry = r && !l.released

end World

structure Safe [DecidableEq κ] (options : Options) (w : World κ) : Prop where
  cap : ∀ key, (w.entriesOf key).length + w.pending key ≤ options.maxConnections
  pending : ∀ key, w.pending key = w.dials key
  account : ∀ r, w.closes r + w.filed r + w.held r = if r < w.dialed then 1 else 0
  active : ∀ r, (w.heap r).active = w.leased r
  filed : ∀ l ∈ w.leases, l.released = false → (l.key, l.entry) ∈ w.entries
  exclusive : ∀ r, (w.heap r).mode = .exclusive → (w.heap r).active ≤ 1

def Drained (w : World κ) : Prop :=
  w.closed = true → ∀ p ∈ w.entries, (w.heap p.2).active ≠ 0 ∧ (w.heap p.2).retiring = true

section Entries
variable [DecidableEq κ]

theorem mem_entriesOf {w : World κ} : e ∈ w.entriesOf key ↔ (key, e) ∈ w.entries := by
  simp [World.entriesOf]

theorem entriesOf_setEntries (w : World κ) (key key' : κ) (kept : List Nat) :
    (w.setEntries key kept).entriesOf key' = if key' = key then kept else w.entriesOf key' := by
  unfold World.entriesOf World.setEntries
  rw [List.filter_append, List.filter_filter, List.filter_map, List.map_append, List.map_map]
  by_cases h : key' = key
  · subst h
    simp [Function.comp_def]
  · have hne : key ≠ key' := Ne.symm h
    simp only [Function.comp_def, hne, decide_false, List.filter_false, List.map_nil,
      List.append_nil, if_neg h]
    congr 1
    apply List.filter_congr
    grind

theorem filed_setEntries (w : World κ) (key : κ) (kept : List Nat) (r : Nat) :
    (w.setEntries key kept).filed r + (w.entriesOf key).count r = w.filed r + kept.count r := by
  have hperm := (List.filter_append_perm (fun p => decide (p.1 = key)) w.entries).map Prod.snd
  have hcount := hperm.count_eq r
  unfold World.filed World.entriesOf World.setEntries
  simp only [List.map_append, List.count_append, List.map_map, Function.comp_def, List.map_id',
    ← decide_not, ne_eq] at hcount ⊢
  omega

theorem mem_setEntries {w : World κ} (hk : ∀ e ∈ kept, e ∈ w.entriesOf key) :
    p ∈ (w.setEntries key kept).entries ↔ p ∈ w.entries ∧ (p.1 = key → p.2 ∈ kept) := by
  obtain ⟨k, e⟩ := p
  simp only [World.setEntries, List.mem_append, List.mem_filter, decide_eq_true_eq, List.mem_map,
    Prod.mk.injEq]
  constructor
  · rintro (⟨hmem, hne⟩ | ⟨e', hmem, rfl, rfl⟩)
    · exact ⟨hmem, fun h => absurd h hne⟩
    · exact ⟨mem_entriesOf.1 (hk _ hmem), fun _ => hmem⟩
  · rintro ⟨hmem, himp⟩
    by_cases h : k = key
    · exact .inr ⟨e, himp h, h.symm, rfl⟩
    · exact .inl ⟨hmem, h⟩

end Entries

section Filtering
variable [DecidableEq κ] {stale : Entry → Bool}

theorem Steady.filterEntries_eq (h : Steady stale) (w : World κ) (key : κ) :
    w.filterEntries stale key =
      { w.setEntries key ((w.entriesOf key).filter fun e => !gone stale (w.heap e)) with
        heap := passedHeap stale (w.entriesOf key) w.heap
        closes := fun r =>
          w.closes r + ((w.entriesOf key).filter fun e => gone stale (w.heap e)).count r } := by
  unfold World.filterEntries
  rw [h.sweep_eq]
  rfl

theorem Steady.filterEntries_account (h : Steady stale) (w : World κ) (key : κ) (r : Nat) :
    (w.filterEntries stale key).closes r + (w.filterEntries stale key).filed r =
      w.closes r + w.filed r := by
  rw [h.filterEntries_eq]
  have hfiled := filed_setEntries w key ((w.entriesOf key).filter fun e => !gone stale (w.heap e)) r
  have hsplit := (List.filter_append_perm (fun e => gone stale (w.heap e)) (w.entriesOf key)).count_eq r
  rw [List.count_append] at hsplit
  show w.closes r + _ + (w.setEntries key _).filed r = _
  omega

theorem Steady.mem_filterEntries (h : Steady stale) {w : World κ} :
    p ∈ (w.filterEntries stale key).entries ↔
      p ∈ w.entries ∧ (p.1 = key → gone stale (w.heap p.2) = false) := by
  rw [h.filterEntries_eq]
  show p ∈ (w.setEntries key _).entries ↔ _
  rw [mem_setEntries fun e he => (List.mem_filter.1 he).1]
  obtain ⟨k, e⟩ := p
  constructor
  · rintro ⟨hmem, himp⟩
    exact ⟨hmem, fun hk => by simpa using (List.mem_filter.1 (himp hk)).2⟩
  · rintro ⟨hmem, himp⟩
    refine ⟨hmem, fun hk => List.mem_filter.2 ⟨mem_entriesOf.2 (hk ▸ hmem), ?_⟩⟩
    simpa using himp hk

theorem Steady.filterEntries_length (h : Steady stale) (w : World κ) (key key' : κ) :
    ((w.filterEntries stale key).entriesOf key').length ≤ (w.entriesOf key').length := by
  rw [h.filterEntries_eq]
  show ((w.setEntries key _).entriesOf key').length ≤ _
  rw [entriesOf_setEntries]
  split
  · rename_i hk
    rw [hk]
    exact List.length_filter_le _ _
  · exact Nat.le_refl _

variable {options : Options} {w : World κ}

theorem Safe.filterEntries (hs : Safe options w) (h : Steady stale) (key : κ) :
    Safe options (w.filterEntries stale key) where
  cap key' := by
    have hlen := h.filterEntries_length w key key'
    have hcap := hs.cap key'
    have hpending : (w.filterEntries stale key).pending key' = w.pending key' := by
      rw [h.filterEntries_eq]
      rfl
    omega
  pending key' := by
    rw [h.filterEntries_eq]
    exact hs.pending key'
  account r := by
    have haccount := hs.account r
    rw [h.filterEntries_account w key r]
    rw [h.filterEntries_eq]
    exact haccount
  active r := by
    rw [h.filterEntries_eq]
    exact (passedHeap_active ..).trans (hs.active r)
  filed l hl hrel := by
    have hl : l ∈ w.leases := by rwa [h.filterEntries_eq] at hl
    have hactive := hs.active l.entry
    have hpos : 0 < w.leased l.entry := List.countP_pos_iff.2 ⟨l, hl, by simp [hrel]⟩
    refine h.mem_filterEntries.2 ⟨hs.filed l hl hrel, fun _ => ?_⟩
    have hne : (w.heap l.entry).active ≠ 0 := by omega
    simp [gone, hne]
  exclusive r := by
    rw [h.filterEntries_eq]
    show (passedHeap stale _ w.heap r).mode = _ → (passedHeap stale _ w.heap r).active ≤ 1
    rw [passedHeap_mode, passedHeap_active]
    exact hs.exclusive r

theorem Steady.filterEntries_busy (h : Steady stale) (key : κ) {e : Nat}
    (he : (w.heap e).active ≠ 0 ∧ (w.heap e).retiring = true) :
    ((w.filterEntries stale key).heap e).active ≠ 0 ∧
      ((w.filterEntries stale key).heap e).retiring = true := by
  rw [h.filterEntries_eq]
  refine ⟨?_, passedHeap_retiring he.2⟩
  show (passedHeap stale _ w.heap e).active ≠ 0
  rw [passedHeap_active]
  exact he.1

theorem Drained.filterEntries (hd : Drained w) (h : Steady stale) (key : κ) :
    Drained (w.filterEntries stale key) := by
  intro hclosed p hp
  have hclosed : w.closed = true := by rwa [h.filterEntries_eq] at hclosed
  exact h.filterEntries_busy key (hd hclosed p (h.mem_filterEntries.1 hp).1)

end Filtering

end Repost.Pool
