import Repost.PoolRuns

namespace Repost.Pool
open Runs
set_option autoImplicit true

/-- The call of this action closes the resource that its dial returned too late. -/
def Discards (w : World κ) (a : Act κ) (r : Nat) : Prop :=
  ∃ i key, a = .discard i ∧ w.calls[i]? = some ⟨key, .discarding r⟩

structure ClosesLeavers (w w' : World κ) : Prop where
  account : ∀ r, w'.closes r + w'.filed r = w.closes r + w.filed r
  leaves : ∀ r, w'.filed r ≤ w.filed r

namespace ClosesLeavers

theorem refl (w : World κ) : ClosesLeavers w w := ⟨fun _ => rfl, fun _ => Nat.le_refl _⟩

theorem trans {u v w : World κ} (h : ClosesLeavers u v) (h' : ClosesLeavers v w) :
    ClosesLeavers u w :=
  ⟨fun r => (h'.account r).trans (h.account r), fun r => (h'.leaves r).trans (h.leaves r)⟩

end ClosesLeavers

structure ClosesNothing (w w' : World κ) : Prop where
  closes : w'.closes = w.closes
  stays : ∀ r, w.filed r ≤ w'.filed r

theorem ClosesNothing.dial (w : World κ) (i : Nat) (key : κ)
    (result : Option (Mode × Option Bool)) : ClosesNothing w (w.dial i key result) := by
  unfold World.dial
  split <;> exact ⟨rfl, fun _ => Nat.le_refl _⟩

section Steps
variable [DecidableEq κ] {options : Options} {w w' : World κ}

def World.Pooled (w : World κ) (r : Nat) : Prop := ∃ key, r ∈ w.entriesOf key

theorem pooled_iff : w.Pooled r ↔ 0 < w.filed r := by
  unfold World.filed
  rw [List.count_pos_iff, List.mem_map]
  constructor
  · rintro ⟨key, h⟩
    exact ⟨_, mem_entriesOf.1 h, rfl⟩
  · rintro ⟨⟨key, e⟩, h, rfl⟩
    exact ⟨key, mem_entriesOf.2 h⟩

namespace ClosesLeavers

theorem filterEntries {stale : Entry → Bool} (h : Steady stale) (w : World κ) (key : κ) :
    ClosesLeavers w (w.filterEntries stale key) := by
  refine ⟨h.filterEntries_account w key, fun r => ?_⟩
  have haccount := h.filterEntries_account w key r
  have hcloses : w.closes r ≤ (w.filterEntries stale key).closes r := by
    rw [h.filterEntries_eq]
    exact Nat.le_add_right _ _
  omega

theorem acquired {u : World κ} (h : Acquired options u i key w') : ClosesLeavers u w' := by
  cases h with
  | closed _ => exact ⟨fun _ => rfl, fun _ => Nat.le_refl _⟩
  | leased _ hret _ _ n reused | dials _ hret _ =>
    rw [hret.rest]
    exact ⟨fun _ => rfl, fun _ => Nat.le_refl _⟩
  | waits _ hnone _ =>
    rw [(available_none_retires hnone).rest]
    exact ⟨fun _ => rfl, fun _ => Nat.le_refl _⟩

theorem release (hs : Safe options w) (hl : w.leases[l]? = some lease)
    (hrel : lease.released = false) : ClosesLeavers w (w.release l lease reusable) := by
  obtain ⟨n, entry, -, -, -, ⟨-, hw⟩ | ⟨-, -, hw⟩⟩ := release_cases w l lease reusable
  · rw [hw]
    exact ⟨fun _ => rfl, fun _ => Nat.le_refl _⟩
  · have hfile := hs.filed lease (List.mem_of_getElem? hl) hrel
    have hfiled : ∀ r, (w.release l lease reusable).filed r + (if lease.entry = r then 1 else 0) =
        w.filed r := by
      rw [hw]
      exact removeLocked_filed hfile
    have hcloses : (w.release l lease reusable).closes =
        Function.update w.closes lease.entry (w.closes lease.entry + 1) := by
      rw [hw]
      rfl
    refine ⟨fun r => ?_, fun r => ?_⟩
    · have hr := hfiled r
      rw [hcloses]
      by_cases he : r = lease.entry
      · subst he
        rw [if_pos rfl] at hr
        rw [Function.update_self]
        omega
      · rw [if_neg (Ne.symm he)] at hr
        rw [Function.update_of_ne he]
        omega
    · have hr := hfiled r
      omega

theorem close (w : World κ) : ClosesLeavers w w.close := by
  have hfold : ∀ (ks : List κ) (u : World κ),
      ClosesLeavers u (ks.foldl (World.filterEntries fun _ => true) u) := by
    intro ks
    induction ks with
    | nil => exact fun u => .refl u
    | cons key ks ih => exact fun u => (filterEntries always_steady u key).trans (ih _)
  unfold World.close
  split
  · exact .refl w
  · exact ⟨(hfold w.keys { w with closed := true }).account,
      (hfold w.keys { w with closed := true }).leaves⟩

end ClosesLeavers

theorem ClosesNothing.settle (w : World κ) (i : Nat) (key : κ) (result : Option (Nat × Mode)) :
    ClosesNothing w (w.settle i key result) := by
  obtain ⟨n, hn⟩ :=
    signalLocked_eq { w with pending := Function.update w.pending key (w.pending key - 1) }
  unfold World.settle
  rw [hn]
  dsimp only
  split
  · exact ⟨rfl, fun _ => Nat.le_refl _⟩
  · split
    · exact ⟨rfl, fun _ => Nat.le_refl _⟩
    · rename_i r mode _
      exact ⟨rfl, fun x => (filed_append w key r x).symm ▸ Nat.le_add_right _ _⟩

theorem Stepped.effect (h : Stepped options w a w') (hs : Safe options w)
    (ha : ∀ i, a ≠ .discard i) : ClosesNothing w w' ∨ ClosesLeavers w w' := by
  cases h with
  | call _ | cancel _ _ _ | wake _ _ | released _ _ | tick _ | turn _ _ =>
    exact .inl ⟨rfl, fun _ => Nat.le_refl _⟩
  | acquire _ h =>
    have hexpire := ClosesLeavers.filterEntries (expired_steady options w.now) w
    exact .inr ((hexpire _).trans (.acquired h))
  | dial _ => exact .inl (.dial ..)
  | settle _ => exact .inl (.settle ..)
  | discard _ => exact absurd rfl (ha _)
  | release hl hrel => exact .inr (.release hs hl hrel)
  | close => exact .inr (.close w)

/-- The entry of the resource leaves the pool, or the call that dialed it discards it. -/
def Leaves (w : World κ) (a : Act κ) (w' : World κ) (r : Nat) : Prop :=
  (w.Pooled r ∧ ¬ w'.Pooled r) ∨ Discards w a r

theorem Stepped.closes (h : Stepped options w a w') (hs : Safe options w) (r : Nat) :
    (Leaves w a w' r ∧ w'.closes r = w.closes r + 1) ∨
      (¬ Leaves w a w' r ∧ w'.closes r = w.closes r) := by
  have hone := hs.filed_le r
  unfold Leaves
  rw [pooled_iff, pooled_iff]
  by_cases ha : ∃ i, a = .discard i
  · obtain ⟨i, rfl⟩ := ha
    cases h with
    | discard hc =>
      rename_i x key
      by_cases hr : r = x
      · subst hr
        exact .inl ⟨.inr ⟨i, key, rfl, hc⟩, Function.update_self ..⟩
      · refine .inr ⟨?_, Function.update_of_ne hr ..⟩
        rintro (⟨hin, hout⟩ | ⟨j, key', ha, hc'⟩)
        · exact hout hin
        · cases ha
          rw [hc] at hc'
          cases hc'
          exact hr rfl
  · have hno : ¬ Discards w a r := fun ⟨i, _, hi, _⟩ => ha ⟨i, hi⟩
    rcases h.effect hs fun i hi => ha ⟨i, hi⟩ with hc | hc
    · have hstays := hc.stays r
      refine .inr ⟨?_, congrFun hc.closes r⟩
      rintro (⟨hin, hout⟩ | hd)
      · omega
      · exact hno hd
    · have haccount := hc.account r
      have hleaves := hc.leaves r
      by_cases hgone : 0 < w.filed r ∧ ¬ 0 < w'.filed r
      · exact .inl ⟨.inl hgone, by omega⟩
      · refine .inr ⟨?_, by omega⟩
        rintro (h | hd)
        · exact hgone h
        · exact hno hd

theorem filterEntries_leases {stale : Entry → Bool} (h : Steady stale) (w : World κ) (key : κ) :
    (w.filterEntries stale key).leases = w.leases ∧
      (w.filterEntries stale key).closed = w.closed := by
  rw [h.filterEntries_eq]
  exact ⟨rfl, rfl⟩

theorem close_leases (w : World κ) : w.close.leases = w.leases := by
  have hfold : ∀ (ks : List κ) (u : World κ),
      (ks.foldl (World.filterEntries fun _ => true) u).leases = u.leases := by
    intro ks
    induction ks with
    | nil => exact fun u => rfl
    | cons key ks ih => exact fun u => (ih _).trans (filterEntries_leases always_steady u key).1
  unfold World.close
  split
  · rfl
  · exact hfold _ _

theorem release_leases (w : World κ) (l : Nat) (lease : Lease κ) (reusable : Bool) :
    (w.release l lease reusable).leases.length = w.leases.length := by
  obtain ⟨n, entry, -, -, -, ⟨-, hw⟩ | ⟨-, -, hw⟩⟩ := release_cases w l lease reusable
  · rw [hw]
    exact List.length_set
  · rw [hw]
    exact List.length_set

theorem getElem?_ne_of_le {l : List α} (h : l.length ≤ j) : l[j]? ≠ some x := by
  rw [List.getElem?_eq_none h]
  rintro ⟨⟩

/-- The step grants a lease on an entry that does not retire, in a pool that is open. -/
def GrantsOpen (w w' : World κ) (lease : Lease κ) : Prop :=
  w.closed = false ∧ w'.closed = false ∧ (w'.heap lease.entry).retiring = false

theorem Acquired.granted {u : World κ} (h : Acquired options u i key w')
    (hj : u.leases.length ≤ j) (hl : w'.leases[j]? = some lease) : GrantsOpen u w' lease := by
  have hold : u.leases[j]? ≠ some lease := getElem?_ne_of_le hj
  cases h with
  | closed _ => exact absurd hl hold
  | leased hopen hret he hfree n reused =>
    rename_i v e
    have hv : v.leases = u.leases := by rw [hret.rest]
    rcases getElem?_append_one_cases hl with ⟨-, rfl⟩ | hl
    · have hclosed : v.closed = u.closed := by rw [hret.rest]
      refine ⟨hopen, hclosed.trans hopen, ?_⟩
      simp only [Entry.free, Bool.and_eq_true, Bool.not_eq_true'] at hfree
      simp [World.grant, World.setEntry, hfree.1]
    · exact absurd (hv ▸ hl) hold
  | dials _ hret _ =>
    rw [hret.rest] at hl
    exact absurd hl hold
  | waits _ hnone _ =>
    rw [(available_none_retires hnone).rest] at hl
    exact absurd hl hold

theorem settle_granted (hj : w.leases.length ≤ j)
    (hl : (w.settle i key result).leases[j]? = some lease) :
    GrantsOpen w (w.settle i key result) lease := by
  have hold : w.leases[j]? ≠ some lease := getElem?_ne_of_le hj
  obtain ⟨n, hn⟩ :=
    signalLocked_eq { w with pending := Function.update w.pending key (w.pending key - 1) }
  unfold World.settle at hl ⊢
  rw [hn] at hl ⊢
  dsimp only at hl ⊢
  split at hl
  · exact absurd hl hold
  · split at hl
    · exact absurd hl hold
    · rename_i r mode hopen
      rcases getElem?_append_one_cases hl with ⟨-, rfl⟩ | hl
      · rw [if_neg hopen]
        have hopen : w.closed = false := Bool.eq_false_of_not_eq_true hopen
        exact ⟨hopen, hopen, by simp [World.grant, World.setEntry]⟩
      · exact absurd hl hold

theorem Stepped.granted (h : Stepped options w a w') (hj : w.leases.length ≤ j)
    (hl : w'.leases[j]? = some lease) : GrantsOpen w w' lease := by
  have hnew : w'.leases.length ≠ w.leases.length := by
    have := (List.getElem?_eq_some_iff.1 hl).1
    omega
  cases h with
  | call _ | cancel _ _ _ | discard _ | wake _ _ | released _ _ | tick _ | turn _ _ =>
    exact absurd rfl hnew
  | acquire _ h =>
    obtain ⟨hleases, hclosed⟩ := filterEntries_leases (expired_steady options w.now) w _
    obtain ⟨hopen, hrest⟩ := h.granted (hleases.symm ▸ hj) hl
    exact ⟨hclosed.symm.trans hopen, hrest⟩
  | dial _ =>
    rename_i i key result _
    unfold World.dial at hnew
    split at hnew <;> exact absurd rfl hnew
  | settle _ => exact settle_granted hj hl
  | release _ _ => exact absurd (release_leases ..) hnew
  | close => exact absurd (congrArg List.length (close_leases w)) hnew

structure Guaranteed (options : Options) (w : World κ) : Prop where
  cap : ∀ key, (w.entriesOf key).length + w.pending key ≤ options.maxConnections
  counted : ∀ r, (w.heap r).active = w.leased r
  exclusive : ∀ r, (w.heap r).mode = .exclusive → w.leased r ≤ 1
  closed_once : ∀ r, w.closes r ≤ 1
  open_leased : ∀ r, 0 < w.leased r → w.closes r = 0
  drained : w.closed = true → (∀ l ∈ w.leases, l.released = true) →
    (∀ c ∈ w.calls, c.phase.dials = false ∧ c.phase.resource = none) →
    (∀ key, w.entriesOf key = []) ∧ ∀ r < w.dialed, w.closes r = 1

/-- What the pool guarantees of a step: each lease that it grants, and each resource. -/
structure GuaranteedStep (w : World κ) (a : Act κ) (w' : World κ) : Prop where
  granted : ∀ j lease, w.leases.length ≤ j → w'.leases[j]? = some lease → GrantsOpen w w' lease
  closes : ∀ r, (Leaves w a w' r ∧ w'.closes r = w.closes r + 1) ∨
    (¬ Leaves w a w' r ∧ w'.closes r = w.closes r)

theorem Safe.leased_filed (hs : Safe options w) (h : 0 < w.leased r) : 0 < w.filed r := by
  obtain ⟨l, hl, hp⟩ := List.countP_pos_iff.1 h
  simp only [Bool.and_eq_true, decide_eq_true_eq, Bool.not_eq_true'] at hp
  exact hp.1 ▸ filed_pos (hs.filed l hl hp.2)

theorem Safe.guaranteed (hs : Safe options w) (hd : Drained w) : Guaranteed options w where
  cap := hs.cap
  counted := hs.active
  exclusive r hmode := by
    have hactive := hs.active r
    have hle := hs.exclusive r hmode
    omega
  closed_once r := by
    have haccount := hs.account r
    split at haccount <;> omega
  open_leased r h := by
    have hfiled := hs.leased_filed h
    have haccount := hs.account r
    split at haccount <;> omega
  drained hclosed hleases hcalls := by
    have hempty : w.entries = [] := by
      apply List.eq_nil_iff_forall_not_mem.2
      intro p hp
      have hzero : w.leased p.2 = 0 := by
        apply List.countP_eq_zero.2
        intro l hl
        simp [hleases l hl]
      have hactive := hs.active p.2
      exact (hd hclosed p hp).1 (by omega)
    refine ⟨fun key => by simp [World.entriesOf, hempty], fun r hr => ?_⟩
    have haccount := hs.account r
    have hheld : w.held r = 0 := by
      apply List.countP_eq_zero.2
      intro c hc
      simp [(hcalls c hc).2]
    have hfiled : w.filed r = 0 := by simp [World.filed, hempty]
    rw [if_pos hr] at haccount
    omega

end Steps

/-- The pool is safe in every state that any interleaving reaches, and in every step from there. -/
theorem pool_safe [DecidableEq κ] {options : Options} (hmax : 1 ≤ options.maxConnections)
    (hr : (system κ options).Reachable System.Any w) :
    Guaranteed options w ∧ ∀ a w', step options w a = some w' → GuaranteedStep w a w' := by
  obtain ⟨hs, hd⟩ := (safe_invariant hmax).reachable hr
  refine ⟨hs.guaranteed hd, fun a w' h => ⟨fun j lease => ?_, (step_stepped h).closes hs⟩⟩
  exact (step_stepped h).granted

namespace Sample

def options : Options := { maxConnections := 1, lifetime := 100, idleTimeout := 10 }

def closing : List (Act Nat) :=
  [.call 7, .acquire 0, .dial 0 (some (.shared, some true)), .settle 0, .close, .release 0 true]

end Sample

theorem pool_safe_on_closing :
    ∃ w, (system Nat Sample.options).exec System.Any { now := 0 } Sample.closing = some w ∧
      Guaranteed Sample.options w ∧ w.closes 0 = 1 := by
  refine ⟨_, rfl, ?_⟩
  have hinit : (system Nat Sample.options).Init { now := 0 } := ⟨0, rfl⟩
  have hreach := System.exec_reachable hinit
    (show (system Nat Sample.options).exec System.Any _ Sample.closing = some _ from rfl)
  have hsafe := (pool_safe (by decide) hreach).1
  refine ⟨hsafe, (hsafe.drained rfl ?_ ?_).2 0 (by decide)⟩
  · show ∀ l ∈ [({ key := 7, entry := 0, reused := false, released := true } : Lease Nat)], _
    simp
  · show ∀ c ∈ [(⟨7, .returned (.ok 0)⟩ : Call Nat)], _
    simp [Phase.dials, Phase.resource]

end Repost.Pool
