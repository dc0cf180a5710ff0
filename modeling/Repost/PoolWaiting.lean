import Repost.PoolGuarantees

namespace Repost.Pool
open Runs
set_option autoImplicit true

section Waiting
variable [DecidableEq κ] {options : Options} {w w' : World κ} {key : κ}

/-- Every place of the key is taken by a pending dial or by an entry with a lease. -/
structure Full (options : Options) (w : World κ) (key : κ) : Prop where
  places : (w.entriesOf key).length + w.dials key = options.maxConnections
  leased : ∀ e ∈ w.entriesOf key, 0 < w.leased e

/-- The entry is idle and would be leased again, but its resource reports not to be reusable. -/
structure Spent (options : Options) (w : World κ) (e : Nat) : Prop where
  idle : (w.heap e).active = 0
  kept : (w.heap e).retiring = false
  fresh : expired options w.now (w.heap e) = false
  reusable : w.reusable e = some false

theorem mem_expireLocked :
    e ∈ (w.expireLocked options key).entriesOf key ↔
      e ∈ w.entriesOf key ∧
        ((w.heap e).active = 0 → (w.heap e).retiring = false ∧
          expired options w.now (w.heap e) = false) := by
  rw [mem_entriesOf, World.expireLocked, (expired_steady options w.now).mem_filterEntries,
    mem_entriesOf]
  by_cases hidle : (w.heap e).active = 0
  · simp [gone, hidle]
  · simp [gone, hidle]

theorem expireLocked_entry (options : Options) (he : e ∈ w.entriesOf key) :
    (w.expireLocked options key).heap e = passed (expired options w.now) (w.heap e) := by
  rw [World.expireLocked, (expired_steady options w.now).filterEntries_eq]
  exact if_pos he

theorem expireLocked_rest (options : Options) (w : World κ) (key : κ) :
    (w.expireLocked options key).reusable = w.reusable ∧
      (w.expireLocked options key).leases = w.leases := by
  rw [World.expireLocked, (expired_steady options w.now).filterEntries_eq]
  exact ⟨rfl, rfl⟩

theorem waits_found (h : Acquired options u i key w') (hw : w'.calls[i]? = some ⟨key, .waiting c⟩) :
    ∃ v, u.availableLocked key = (none, v) ∧
      ¬ (v.entriesOf key).length + v.pending key < options.maxConnections ∧
      w' = v.setCall i key (.waiting v.notify) := by
  have hphase : ∀ v : World κ, ∀ phase,
      (v.setCall i key phase).calls[i]? = some ⟨key, .waiting c⟩ → phase = .waiting c := by
    intro v phase h
    rcases getElem?_set_cases h with ⟨-, h⟩ | ⟨hne, -⟩
    · cases h
      rfl
    · exact absurd rfl hne
  cases h with
  | closed _ => cases hphase _ _ hw
  | leased _ _ _ _ n reused =>
    rcases getElem?_set_cases hw with ⟨-, h⟩ | ⟨hne, -⟩
    · cases h
    · exact absurd rfl hne
  | dials _ _ _ => cases hphase _ _ hw
  | waits _ hnone hfull => exact ⟨_, hnone, hfull, rfl⟩

theorem waits_entries (hnone : (w.expireLocked options key).availableLocked key = (none, v)) (i : Nat)
    (phase : Phase) :
    (World.setCall v i key phase).entriesOf key = (w.expireLocked options key).entriesOf key ∧
      ∀ e, (World.setCall v i key phase).leased e = w.leased e := by
  have hret := available_none_retires hnone
  have hleases : v.leases = w.leases := by
    rw [hret.rest]
    exact (expireLocked_rest options w key).2
  refine ⟨?_, fun e => congrArg (List.countP _) hleases⟩
  show v.entriesOf key = _
  rw [hret.rest]
  rfl

theorem waits_idle_iff (hs : Safe options w)
    (hnone : (w.expireLocked options key).availableLocked key = (none, v)) :
    (e ∈ (w.expireLocked options key).entriesOf key ∧ w.leased e = 0) ↔
      e ∈ w.entriesOf key ∧ Spent options w e := by
  have hactive := hs.active e
  rw [mem_expireLocked]
  constructor
  · rintro ⟨⟨hmem, hkept⟩, hfree⟩
    have hidle : (w.heap e).active = 0 := by omega
    obtain ⟨hretiring, hfresh⟩ := hkept hidle
    have hentry := expireLocked_entry options hmem
    refine ⟨hmem, hidle, hretiring, hfresh, ?_⟩
    rcases available_none hnone e (mem_expireLocked.2 ⟨hmem, hkept⟩) (by rw [hentry]; exact hidle)
      with hr | hr
    · rw [hentry] at hr
      simp [passed, hretiring, hfresh] at hr
    · rwa [(expireLocked_rest options w key).1] at hr
  · rintro ⟨hmem, hspent⟩
    have hidle := hspent.idle
    exact ⟨⟨hmem, fun _ => ⟨hspent.kept, hspent.fresh⟩⟩, by omega⟩

end Waiting

/-- A call that goes to wait has found the origin full if and only if no idle entry of the key that
would be leased again has a resource that is no longer reusable. -/
theorem waits_when_full_iff [DecidableEq κ] {options : Options} {w w' : World κ} {key : κ}
    (hmax : 1 ≤ options.maxConnections) (hr : (system κ options).Reachable System.Any w)
    (hc : w.calls[i]? = some ⟨key, .entering⟩) (h : step options w (.acquire i) = some w')
    (hw : w'.calls[i]? = some ⟨key, .waiting c⟩) :
    Full options w' key ↔ ∀ e ∈ w.entriesOf key, ¬ Spent options w e := by
  have hs := ((safe_invariant hmax).reachable hr).1
  have hs' := (step_stepped h).safe hs
  cases step_stepped h with
  | acquire hc' hacq =>
    rw [hc] at hc'
    cases hc'
    obtain ⟨v, hnone, hroom, rfl⟩ := waits_found hacq hw
    obtain ⟨hentries, hleased⟩ := waits_entries hnone i (.waiting v.notify)
    constructor
    · intro hfull e he hspent
      obtain ⟨hmem, hzero⟩ := (waits_idle_iff hs hnone).2 ⟨he, hspent⟩
      have hpos := hfull.leased e (hentries ▸ hmem)
      rw [hleased, hzero] at hpos
      exact absurd hpos (Nat.lt_irrefl 0)
    · intro hclean
      refine ⟨?_, fun e he => ?_⟩
      · have hcap := hs'.cap key
        have hpending := hs'.pending key
        have hroom : ¬ ((v.setCall i key (.waiting v.notify)).entriesOf key).length +
            (v.setCall i key (.waiting v.notify)).pending key < options.maxConnections := hroom
        omega
      · rw [hleased]
        apply Nat.pos_of_ne_zero
        intro hzero
        obtain ⟨hmem, hspent⟩ := (waits_idle_iff hs hnone).1 ⟨hentries ▸ he, hzero⟩
        exact hclean e hmem hspent

namespace Sample

def stalling : List (Act Nat) :=
  [.call 7, .acquire 0, .dial 0 (some (.shared, some true)), .settle 0, .release 0 true,
    .turn 0 false, .call 7]

end Sample

/-- The only place of the origin is taken by an idle session, and the call waits for it. -/
theorem waits_for_idle_session :
    ∃ w w' : World Nat, (system Nat Sample.options).Reachable System.Any w ∧
      w.calls[1]?.map Call.key = some 7 ∧ step Sample.options w (.acquire 1) = some w' ∧
      (∃ c, w'.calls[1]? = some ⟨7, .waiting c⟩) ∧ w'.entriesOf 7 = [0] ∧ w'.leased 0 = 0 ∧
      w'.reusable 0 = some false := by
  have hinit : (system Nat Sample.options).Init { now := 0 } := ⟨0, rfl⟩
  have hreach := System.exec_reachable hinit
    (show (system Nat Sample.options).exec System.Any _ Sample.stalling = some _ from rfl)
  exact ⟨_, _, hreach, rfl, rfl, ⟨_, rfl⟩, rfl, rfl, rfl⟩

namespace Sample

/-- A session with one lease is busy when the next call comes. -/
def busy : List (Act Nat) :=
  [.call 7, .acquire 0, .dial 0 (some (.exclusive, none)), .settle 0, .call 7]

end Sample

theorem waits_when_busy :
    ∃ w w' : World Nat, (system Nat Sample.options).Reachable System.Any w ∧
      step Sample.options w (.acquire 1) = some w' ∧ Full Sample.options w' 7 := by
  have hinit : (system Nat Sample.options).Init { now := 0 } := ⟨0, rfl⟩
  have hreach := System.exec_reachable hinit
    (show (system Nat Sample.options).exec System.Any _ Sample.busy = some _ from rfl)
  refine ⟨_, _, hreach, rfl, ?_⟩
  refine (waits_when_full_iff (i := 1) (c := 1) (by decide) hreach rfl rfl rfl).2 ?_
  show ∀ e ∈ [0], _
  rintro e he hspent
  rw [List.mem_singleton.1 he] at hspent
  cases hspent.idle

end Repost.Pool
