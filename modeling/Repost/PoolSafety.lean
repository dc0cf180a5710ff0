import Repost.PoolPasses

namespace Repost.Pool
open Runs
set_option autoImplicit true

section Counting
variable {w w' : World κ} {i : Nat} {key : κ} {old new : Phase}

theorem held_setCall (hc : w.calls[i]? = some ⟨key, old⟩) (new : Phase) (r : Nat) :
    (w.setCall i key new).held r + (if old.resource = some r then 1 else 0) =
      w.held r + if new.resource = some r then 1 else 0 := by
  simpa [World.held, World.setCall] using
    countP_set (p := fun c : Call κ => decide (c.phase.resource = some r)) (y := ⟨key, new⟩) hc

theorem dials_setCall [DecidableEq κ] (hc : w.calls[i]? = some ⟨key, old⟩) (new : Phase) (key' : κ) :
    (w.setCall i key new).dials key' + (if key = key' ∧ old.dials = true then 1 else 0) =
      w.dials key' + if key = key' ∧ new.dials = true then 1 else 0 := by
  simpa [World.dials, World.setCall] using
    countP_set (p := fun c : Call κ => decide (c.key = key') && c.phase.dials) (y := ⟨key, new⟩) hc

theorem held_same (hc : w.calls[i]? = some ⟨key, old⟩) (hr : new.resource = old.resource) (r : Nat) :
    (w.setCall i key new).held r = w.held r :=
  Nat.add_right_cancel (hr ▸ held_setCall hc new r)

theorem dials_same [DecidableEq κ] (hc : w.calls[i]? = some ⟨key, old⟩) (new : Phase)
    (hd : new.dials = old.dials) (key' : κ) : (w.setCall i key new).dials key' = w.dials key' :=
  Nat.add_right_cancel (hd ▸ dials_setCall hc new key')

theorem Drained.retires (hd : Drained w) (h : Retires w w') : Drained w' := by
  intro hclosed p hp
  rw [h.rest] at hclosed hp
  obtain ⟨hactive, hretiring⟩ := hd hclosed p hp
  exact ⟨h.active p.2 ▸ hactive, h.retiring p.2 hretiring⟩

theorem leased_append (w : World κ) (l : Lease κ) (hl : l.released = false) (r : Nat) :
    (World.leased { w with leases := w.leases ++ [l] } r) =
      w.leased r + if l.entry = r then 1 else 0 := by
  simp [World.leased, List.countP_append, List.countP_cons, hl]

theorem leased_pos (hl : l ∈ w.leases) (hrel : l.released = false) : 0 < w.leased l.entry :=
  List.countP_pos_iff.2 ⟨l, hl, by simp [hrel]⟩

theorem filed_pos (h : (key, e) ∈ w.entries) : 0 < w.filed e :=
  List.count_pos_iff.2 (List.mem_map.2 ⟨_, h, rfl⟩)

theorem filed_append (w : World κ) (key : κ) (e r : Nat) :
    World.filed { w with entries := w.entries ++ [(key, e)] } r = w.filed r + if e = r then 1 else 0 := by
  simp [World.filed, List.count_append, List.count_singleton]

theorem signalLocked_eq (w : World κ) : ∃ n, w.signalLocked = { w with notify := n } := by
  unfold World.signalLocked
  split
  · exact ⟨w.notify, rfl⟩
  · exact ⟨w.notify + 1, rfl⟩

theorem leased_set {lease : Lease κ} (hl : w.leases[l]? = some lease)
    (hrel : lease.released = false) (r : Nat) :
    World.leased { w with leases := w.leases.set l { lease with released := true } } r +
        (if lease.entry = r then 1 else 0) = w.leased r := by
  simpa [World.leased, hrel] using
    countP_set (p := fun l : Lease κ => decide (l.entry = r) && !l.released)
      (y := { lease with released := true }) hl

end Counting

section Sections
variable [DecidableEq κ] {options : Options} {w w' : World κ} {i : Nat} {key : κ} {old new : Phase}

theorem Safe.retires (hs : Safe options w) (h : Retires w w') : Safe options w' where
  cap key := by
    rw [h.rest]
    exact hs.cap key
  pending key := by
    rw [h.rest]
    exact hs.pending key
  account r := by
    rw [h.rest]
    exact hs.account r
  active r := by
    rw [h.active r, h.rest]
    exact hs.active r
  filed l hl := by
    rw [h.rest] at hl ⊢
    exact hs.filed l hl
  exclusive r := by
    rw [h.mode r, h.active r]
    exact hs.exclusive r

theorem Safe.setCall (hs : Safe options w) (hc : w.calls[i]? = some ⟨key, old⟩)
    (hr : new.resource = old.resource) (hd : new.dials = old.dials) :
    Safe options (w.setCall i key new) :=
  { hs with
    pending key' := by
      rw [dials_same hc new hd]
      exact hs.pending key'
    account r := by
      rw [held_same hc hr]
      exact hs.account r }

theorem Safe.grant (hs : Safe options w) (hc : w.calls[i]? = some ⟨key, .entering⟩)
    (he : (key, e) ∈ w.entries) (hfree : (w.heap e).free = true) (n : UInt64) :
    Safe options
      ((w.setEntry e { w.heap e with active := (w.heap e).active + 1, acquisitions := n }).grant i
        key e reused) := by
  have hcall : Safe options (w.setCall i key (.returned (.ok w.leases.length))) :=
    hs.setCall hc rfl rfl
  refine ⟨hs.cap, hcall.pending, hcall.account, fun r => ?_, fun l hl hrel => ?_, fun r hmode => ?_⟩
  · have hleased := leased_append w { key := key, entry := e, reused := reused } rfl r
    have hactive := hs.active r
    refine Eq.trans ?_ (congrArg Nat.cast hleased).symm
    by_cases hr : r = e
    · subst hr
      simp [World.grant, World.setEntry, hactive]
    · simp [World.grant, World.setEntry, hr, Ne.symm hr, hactive]
  · rcases List.mem_append.1 hl with hl | hl
    · exact hs.filed l hl hrel
    · rw [List.mem_singleton.1 hl]
      exact he
  · by_cases hr : r = e
    · subst hr
      simp only [World.grant, World.setEntry, Function.update_self] at hmode ⊢
      simp [Entry.free, hmode] at hfree
      omega
    · simp only [World.grant, World.setEntry, Function.update_of_ne hr] at hmode ⊢
      exact hs.exclusive r hmode

theorem expired_steady (options : Options) (now : Int) : Steady (expired options now) :=
  fun _ _ => rfl

theorem Safe.expireLocked (hs : Safe options w) (key : κ) :
    Safe options (w.expireLocked options key) :=
  hs.filterEntries (expired_steady options w.now) key

theorem expireLocked_calls (options : Options) (w : World κ) (key : κ) :
    (w.expireLocked options key).calls = w.calls := by
  rw [World.expireLocked, (expired_steady options w.now).filterEntries_eq]
  rfl

theorem update_add (f : κ → Int) (key key' : κ) (d : Int) :
    Function.update f key (f key + d) key' = f key' + if key = key' then d else 0 := by
  by_cases hk : key' = key
  · subst hk
    rw [Function.update_self, if_pos rfl]
  · rw [Function.update_of_ne hk, if_neg (Ne.symm hk), Int.add_zero]

theorem Safe.pending_setCall (hs : Safe options w) (hc : w.calls[i]? = some ⟨key, old⟩) (new : Phase)
    (key' : κ) :
    Function.update w.pending key
        (w.pending key + ((if new.dials then 1 else 0) - (if old.dials then 1 else 0))) key' =
      (w.setCall i key new).dials key' := by
  have hdials := dials_setCall hc new key'
  rw [update_add, hs.pending key']
  by_cases hk : key = key'
  · cases ho : old.dials
    all_goals
      cases hn : new.dials
      all_goals
        simp only [hk, ho, hn, true_and, if_true, if_false, Bool.false_eq_true] at hdials ⊢
        omega
  · simp only [hk, false_and, if_false] at hdials ⊢
    omega

theorem Safe.setPending (hs : Safe options w) (hc : w.calls[i]? = some ⟨key, old⟩)
    (hr : new.resource = old.resource)
    (hroom : (w.entriesOf key).length + (w.pending key + d) ≤ options.maxConnections)
    (hd : d = (if new.dials then 1 else 0) - (if old.dials then 1 else 0)) :
    Safe options
      (World.setCall { w with pending := Function.update w.pending key (w.pending key + d) } i key
        new) :=
  { hs with
    cap key' := by
      have hcap := hs.cap key'
      show ((w.entriesOf key').length : Int) + Function.update w.pending key _ key' ≤ _
      rw [update_add]
      split
      · rename_i hk
        subst hk
        omega
      · omega
    pending key' := by
      subst hd
      exact hs.pending_setCall hc new key'
    account r := (congrArg (w.closes r + w.filed r + ·) (held_same hc hr r)).trans (hs.account r) }

/-- What the first section of `Acquire` can do after it has removed the expired entries: find the
pool closed, lease an entry, start a dial or go to wait. -/
inductive Acquired (options : Options) (u : World κ) (i : Nat) (key : κ) : World κ → Prop
  | closed (hclosed : u.closed = true) :
      Acquired options u i key (u.setCall i key (.returned (.error .closed)))
  | leased (hopen : u.closed = false) (hret : Retires u v) (he : (key, e) ∈ v.entries)
      (hfree : (v.heap e).free = true) (n : UInt64) (reused : Bool) :
      Acquired options u i key
        ((v.setEntry e { v.heap e with active := (v.heap e).active + 1, acquisitions := n }).grant i
          key e reused)
  | dials (hopen : u.closed = false) (hret : Retires u v)
      (hroom : (v.entriesOf key).length + v.pending key < options.maxConnections) :
      Acquired options u i key
        (World.setCall { v with pending := Function.update v.pending key (v.pending key + 1) } i key
          .dialing)
  | waits (hopen : u.closed = false) (hnone : u.availableLocked key = (none, v))
      (hfull : ¬ (v.entriesOf key).length + v.pending key < options.maxConnections) :
      Acquired options u i key (v.setCall i key (.waiting v.notify))

theorem acquire_acquired (options : Options) (w : World κ) (i : Nat) (key : κ) :
    Acquired options (w.expireLocked options key) i key (w.acquire options i key) := by
  unfold World.acquire
  dsimp only
  split
  · rename_i hclosed
    exact .closed hclosed
  · rename_i hopen
    have hopen := Bool.eq_false_of_not_eq_true hopen
    have hret : Retires _ ((w.expireLocked options key).availableLocked key).2 :=
      available_retires _ _
    split
    · rename_i e u ha
      rw [ha] at hret
      obtain ⟨hmem, hfree⟩ := available_some ha
      refine .leased hopen hret ?_ hfree _ _
      rw [hret.rest]
      exact mem_entriesOf.1 hmem
    · rename_i u ha
      rw [ha] at hret
      split
      · rename_i hroom
        exact .dials hopen hret hroom
      · rename_i hfull
        exact .waits hopen ha hfull

theorem available_none_retires (h : w.availableLocked key = (none, w')) : Retires w w' := by
  have hret := available_retires (w.entriesOf key) w
  rwa [show World.available (w.entriesOf key) w = (none, w') from h] at hret

theorem Safe.acquired {u : World κ} (hs : Safe options u) (hc : u.calls[i]? = some ⟨key, .entering⟩)
    (h : Acquired options u i key w') : Safe options w' := by
  cases h with
  | closed _ => exact hs.setCall hc rfl rfl
  | leased _ hret he hfree n reused => exact (hs.retires hret).grant (hret.calls ▸ hc) he hfree n
  | dials _ hret hroom =>
    rw [← hret.calls] at hc
    exact (hs.retires hret).setPending (d := 1) hc rfl (by omega) rfl
  | waits _ hnone _ =>
    have hret := available_none_retires hnone
    rw [← hret.calls] at hc
    exact (hs.retires hret).setCall hc rfl rfl

theorem Safe.dial (hs : Safe options w) (hc : w.calls[i]? = some ⟨key, .dialing⟩) :
    Safe options (w.dial i key result) := by
  unfold World.dial
  split
  · exact hs.setCall hc rfl rfl
  · rename_i mode reusable
    refine ⟨hs.cap, fun key' => ?_, fun r => ?_, hs.active, hs.filed, hs.exclusive⟩
    · exact (hs.pending key').trans (congrArg Nat.cast (dials_same hc (.dialed _) rfl key').symm)
    · have hheld := held_setCall hc (.dialed (some (w.dialed, mode))) r
      have haccount := hs.account r
      show w.closes r + w.filed r + (w.setCall i key _).held r = if r < w.dialed + 1 then 1 else 0
      simp only [Phase.resource, Option.some.injEq, reduceCtorEq, if_false] at hheld
      split at haccount <;> split at hheld <;> split <;> omega

theorem Safe.notify (hs : Safe options w) (n : Nat) : Safe options { w with notify := n } :=
  { hs with }

theorem Safe.held_free (hs : Safe options w) (hc : w.calls[i]? = some ⟨key, old⟩)
    (hr : old.resource = some r) : r < w.dialed ∧ w.closes r = 0 ∧ w.filed r = 0 ∧ w.held r = 1 ∧
      w.leased r = 0 := by
  have hheld : 0 < w.held r := List.countP_pos_iff.2 ⟨_, List.mem_of_getElem? hc, by simpa using hr⟩
  have haccount := hs.account r
  have hlt : r < w.dialed := by
    by_contra hge
    rw [if_neg hge] at haccount
    omega
  rw [if_pos hlt] at haccount
  refine ⟨hlt, by omega, by omega, by omega, ?_⟩
  by_contra hpos
  obtain ⟨l, hl, hp⟩ := List.countP_pos_iff.1 (Nat.pos_of_ne_zero hpos)
  simp only [Bool.and_eq_true, decide_eq_true_eq, Bool.not_eq_true'] at hp
  have hfiled := filed_pos (hs.filed l hl hp.2)
  rw [hp.1] at hfiled
  omega

theorem Safe.enter (hs : Safe options w) (hc : w.calls[i]? = some ⟨key, .dialed (some (r, mode))⟩) :
    Safe options
      (World.grant
        { World.setEntry
            { w with pending := Function.update w.pending key (w.pending key - 1) } r
            { mode := mode, createdAt := w.now, lastIdleAt := w.now, active := 1, acquisitions := 1 }
          with entries := w.entries ++ [(key, r)] }
        i key r false) := by
  obtain ⟨hlt, hcloses, hfiled, hheld, hleased⟩ := hs.held_free hc rfl
  refine ⟨fun key' => ?_, fun key' => ?_, fun x => ?_, fun x => ?_, fun l hl hrel => ?_, fun x => ?_⟩
  · -- the new entry takes the place of the pending dial
    have hcap := hs.cap key'
    have hlen : ((World.entriesOf { w with entries := w.entries ++ [(key, r)] } key').length : Int) =
        (w.entriesOf key').length + if key = key' then 1 else 0 := by
      simp only [World.entriesOf, List.filter_append, List.map_append, List.length_append]
      by_cases hk : key = key' <;> simp [hk]
    show ((World.entriesOf { w with entries := w.entries ++ [(key, r)] } key').length : Int) +
      Function.update w.pending key (w.pending key + -1) key' ≤ _
    rw [hlen, update_add]
    split <;> omega
  · exact hs.pending_setCall hc (.returned (.ok w.leases.length)) key'
  · have hmoved := held_setCall hc (.returned (.ok w.leases.length)) x
    have hadded := filed_append w key r x
    simp only [Phase.resource, Option.some.injEq, reduceCtorEq, if_false] at hmoved
    refine Eq.trans ?_ (hs.account x)
    show w.closes x + World.filed { w with entries := w.entries ++ [(key, r)] } x +
      (w.setCall i key (.returned (.ok w.leases.length))).held x = _
    omega
  · have hadded := leased_append w { key := key, entry := r, reused := false } rfl x
    have hactive := hs.active x
    refine Eq.trans ?_ (congrArg Nat.cast hadded).symm
    by_cases hx : x = r
    · subst hx
      simp [World.grant, World.setEntry, hleased]
    · simp [World.grant, World.setEntry, hx, Ne.symm hx, hactive]
  · rcases List.mem_append.1 hl with hl | hl
    · exact List.mem_append_left _ (hs.filed l hl hrel)
    · rw [List.mem_singleton.1 hl]
      exact List.mem_append_right _ (List.mem_singleton.2 rfl)
  · have hexcl := hs.exclusive x
    by_cases hx : x = r
    · subst hx
      simp [World.grant, World.setEntry]
    · simpa [World.grant, World.setEntry, hx] using hexcl

theorem Safe.endDial (hs : Safe options w) (hc : w.calls[i]? = some ⟨key, .dialed result⟩)
    (hr : new.resource = (Phase.dialed result).resource) (hd : new.dials = false) :
    Safe options
      (World.setCall { w with pending := Function.update w.pending key (w.pending key - 1) } i key
        new) := by
  have hcap := hs.cap key
  exact hs.setPending (d := -1) hc hr (by omega) (by rw [hd]; rfl)

theorem Safe.settle (hs : Safe options w) (hc : w.calls[i]? = some ⟨key, .dialed result⟩) :
    Safe options (w.settle i key result) := by
  obtain ⟨n, hn⟩ :=
    signalLocked_eq { w with pending := Function.update w.pending key (w.pending key - 1) }
  unfold World.settle
  rw [hn]
  dsimp only
  split
  · exact (hs.notify n).endDial hc rfl rfl
  · split
    · exact (hs.notify n).endDial hc rfl rfl
    · exact (hs.notify n).enter hc

theorem Safe.discard (hs : Safe options w) (hc : w.calls[i]? = some ⟨key, .discarding r⟩) :
    Safe options ((w.closeResource r).setCall i key (.returned (.error .closed))) :=
  { hs with
    pending key' := (hs.pending key').trans (congrArg Nat.cast (dials_same hc (.returned _) rfl key').symm)
    account x := by
      have hmoved := held_setCall hc (.returned (.error .closed)) x
      simp only [Phase.resource, Option.some.injEq, reduceCtorEq, if_false] at hmoved
      refine Eq.trans ?_ (hs.account x)
      show Function.update w.closes r (w.closes r + 1) x + w.filed x +
        (w.setCall i key (.returned (.error .closed))).held x = _
      by_cases hx : x = r
      · subst hx
        rw [Function.update_self]
        rw [if_pos rfl] at hmoved
        omega
      · rw [Function.update_of_ne hx]
        rw [if_neg (Ne.symm hx)] at hmoved
        omega }

variable {lease : Lease κ}

theorem Safe.giveBack (hs : Safe options w) (hl : w.leases[l]? = some lease)
    (hrel : lease.released = false) (hactive : entry.active = (w.heap lease.entry).active - 1)
    (hmode : entry.mode = (w.heap lease.entry).mode) :
    Safe options
      { w.setEntry lease.entry entry with
        leases := w.leases.set l { lease with released := true } } where
  cap := hs.cap
  pending := hs.pending
  account := hs.account
  active r := by
    have hless := leased_set hl hrel r
    have hr := hs.active r
    show (Function.update w.heap lease.entry entry r).active = _
    by_cases he : r = lease.entry
    · subst he
      rw [Function.update_self, hactive, hr, ← hless, if_pos rfl]
      show _ = ((World.leased { w with leases := _ } lease.entry : Nat) : Int)
      omega
    · rw [Function.update_of_ne he, hr, ← hless, if_neg (Ne.symm he)]
      rfl
  filed x hx hxrel := by
    rcases List.mem_or_eq_of_mem_set hx with hx | rfl
    · exact hs.filed x hx hxrel
    · cases hxrel
  exclusive r := by
    have hr := hs.exclusive r
    show (Function.update w.heap lease.entry entry r).mode = _ →
      (Function.update w.heap lease.entry entry r).active ≤ 1
    by_cases he : r = lease.entry
    · subst he
      rw [Function.update_self, hactive, hmode]
      intro h
      have := hr h
      omega
    · rw [Function.update_of_ne he]
      exact hr

theorem removeLocked_filed (h : (key, e) ∈ w.entries) (r : Nat) :
    (w.removeLocked key e).filed r + (if e = r then 1 else 0) = w.filed r := by
  have hset := filed_setEntries w key ((w.entriesOf key).erase e) r
  have hmem : e ∈ w.entriesOf key := mem_entriesOf.2 h
  have hpos : 0 < (w.entriesOf key).count e := List.count_pos_iff.2 hmem
  rw [List.count_erase] at hset
  simp only [World.removeLocked]
  by_cases he : e = r
  · subst he
    simp only [beq_self_eq_true, if_true] at hset ⊢
    omega
  · have hne : (e == r) = false := by simpa using he
    simp only [hne, he, if_false, Bool.false_eq_true] at hset ⊢
    omega

theorem Safe.remove (hs : Safe options w) (h : (key, e) ∈ w.entries)
    (hidle : (w.heap e).active = 0) : Safe options ((w.removeLocked key e).closeResource e) where
  cap key' := by
    have hcap := hs.cap key'
    show (((w.setEntries key _).entriesOf key').length : Int) + w.pending key' ≤ _
    rw [entriesOf_setEntries]
    split
    · rename_i hk
      rw [hk] at hcap ⊢
      have := List.length_erase_le (a := e) (l := w.entriesOf key)
      omega
    · exact hcap
  pending := hs.pending
  account r := by
    have hfiled := removeLocked_filed h r
    refine Eq.trans ?_ (hs.account r)
    show Function.update w.closes e (w.closes e + 1) r + (w.removeLocked key e).filed r + w.held r = _
    by_cases he : r = e
    · subst he
      rw [if_pos rfl] at hfiled
      rw [Function.update_self]
      omega
    · rw [if_neg (Ne.symm he)] at hfiled
      rw [Function.update_of_ne he]
      omega
  active := hs.active
  filed l hl hrel := by
    have hpos : 0 < w.leased l.entry := leased_pos hl hrel
    have hactive := hs.active l.entry
    have hne : l.entry ≠ e := by
      intro he
      rw [he] at hactive hpos
      omega
    refine (mem_setEntries fun x hx => List.mem_of_mem_erase hx).2 ⟨hs.filed l hl hrel, fun hk => ?_⟩
    rw [List.mem_erase_of_ne hne, mem_entriesOf]
    exact hk ▸ hs.filed l hl hrel
  exclusive := hs.exclusive

def Entry.returned (c : Entry) (reusable closed : Bool) : Entry :=
  { c with active := c.active - 1, retiring := c.retiring || !reusable || closed }

def World.handed (w : World κ) (l : Nat) (lease : Lease κ) (entry : Entry) (n : Nat) : World κ :=
  { w.setEntry lease.entry entry with
    notify := n
    leases := w.leases.set l { lease with released := true } }

theorem release_cases (w : World κ) (l : Nat) (lease : Lease κ) (reusable : Bool) :
    ∃ n : Nat, ∃ entry : Entry,
      entry.active = (w.heap lease.entry).active - 1 ∧
      entry.mode = (w.heap lease.entry).mode ∧
      entry.retiring = ((w.heap lease.entry).retiring || !reusable || w.closed) ∧
      ((entry.active = 0 → entry.retiring = false) ∧
          w.release l lease reusable = w.handed l lease entry n ∨
        entry.active = 0 ∧ entry.retiring = true ∧
          w.release l lease reusable =
            ((w.handed l lease entry n).removeLocked lease.key lease.entry).closeResource
              lease.entry) := by
  unfold World.release
  simp only [World.setEntry, Function.update_self, Function.update_idem]
  split
  · rename_i hidle
    split
    · rename_i hretiring
      obtain ⟨n, hn⟩ := signalLocked_eq _
      exact ⟨n, { (w.heap lease.entry).returned reusable w.closed with lastIdleAt := w.now }, rfl, rfl,
        rfl, .inr ⟨hidle, hretiring, hn⟩⟩
    · rename_i hretiring
      obtain ⟨n, hn⟩ := signalLocked_eq _
      exact ⟨n, { (w.heap lease.entry).returned reusable w.closed with lastIdleAt := w.now }, rfl, rfl,
        rfl, .inl ⟨fun _ => Bool.eq_false_of_not_eq_true hretiring, hn⟩⟩
  · rename_i hbusy
    obtain ⟨n, hn⟩ := signalLocked_eq _
    exact ⟨n, (w.heap lease.entry).returned reusable w.closed, rfl, rfl, rfl,
      .inl ⟨fun h => absurd h hbusy, hn⟩⟩

theorem Safe.release (hs : Safe options w) (hl : w.leases[l]? = some lease)
    (hrel : lease.released = false) : Safe options (w.release l lease reusable) := by
  obtain ⟨n, entry, hactive, hmode, -, ⟨-, hw⟩ | ⟨hidle, -, hw⟩⟩ := release_cases w l lease reusable
  · rw [hw]
    exact (hs.giveBack hl hrel hactive hmode).notify n
  · rw [hw]
    refine ((hs.giveBack hl hrel hactive hmode).notify n).remove ?_ ?_
    · exact hs.filed lease (List.mem_of_getElem? hl) hrel
    · show (Function.update w.heap lease.entry entry lease.entry).active = 0
      rw [Function.update_self]
      exact hidle

theorem Safe.filed_le (hs : Safe options w) (r : Nat) : w.filed r ≤ 1 := by
  have haccount := hs.account r
  split at haccount <;> omega

theorem Drained.release (hd : Drained w) (hs : Safe options w) (hl : w.leases[l]? = some lease)
    (hrel : lease.released = false) : Drained (w.release l lease reusable) := by
  obtain ⟨n, entry, -, -, hretiring, ⟨hbusy, hw⟩ | ⟨-, -, hw⟩⟩ := release_cases w l lease reusable
  · rw [hw]
    intro hclosed p hp
    have hclosed : w.closed = true := hclosed
    rw [hclosed, Bool.or_true] at hretiring
    show (Function.update w.heap lease.entry entry p.2).active ≠ 0 ∧
      (Function.update w.heap lease.entry entry p.2).retiring = true
    by_cases he : p.2 = lease.entry
    · rw [he, Function.update_self]
      refine ⟨fun h => ?_, hretiring⟩
      rw [hbusy h] at hretiring
      cases hretiring
    · rw [Function.update_of_ne he]
      exact hd hclosed p hp
  · rw [hw]
    intro hclosed p hp
    have hfile := hs.filed lease (List.mem_of_getElem? hl) hrel
    have hone := hs.filed_le lease.entry
    have hgone := removeLocked_filed hfile lease.entry
    rw [if_pos rfl] at hgone
    have hp' : p ∈ (w.removeLocked lease.key lease.entry).entries := hp
    have hne : p.2 ≠ lease.entry := by
      intro he
      have hpos := filed_pos hp'
      rw [he] at hpos
      omega
    have hmem := ((mem_setEntries fun x hx => List.mem_of_mem_erase hx).1 hp').1
    show (Function.update w.heap lease.entry entry p.2).active ≠ 0 ∧
      (Function.update w.heap lease.entry entry p.2).retiring = true
    rw [Function.update_of_ne hne]
    exact hd hclosed p hmem

theorem always_steady : Steady fun _ => true := fun _ _ => rfl

theorem Safe.foldl_filterEntries (hs : Safe options w) (ks : List κ) :
    Safe options (ks.foldl (World.filterEntries fun _ => true) w) := by
  induction ks generalizing w with
  | nil => exact hs
  | cons key ks ih => exact ih (hs.filterEntries always_steady key)

theorem foldl_filterEntries_mem (ks : List κ)
    (h : p ∈ (ks.foldl (World.filterEntries fun _ => true) w).entries) : p ∈ w.entries := by
  induction ks generalizing w with
  | nil => exact h
  | cons key ks ih => exact (always_steady.mem_filterEntries.1 (ih h)).1

theorem foldl_filterEntries_busy (ks : List κ) {e : Nat}
    (h : (w.heap e).active ≠ 0 ∧ (w.heap e).retiring = true) :
    ((ks.foldl (World.filterEntries fun _ => true) w).heap e).active ≠ 0 ∧
      ((ks.foldl (World.filterEntries fun _ => true) w).heap e).retiring = true := by
  induction ks generalizing w with
  | nil => exact h
  | cons key ks ih => exact ih (always_steady.filterEntries_busy key h)

theorem foldl_filterEntries_drained (ks : List κ)
    (h : p ∈ (ks.foldl (World.filterEntries fun _ => true) w).entries) (hk : p.1 ∈ ks) :
    ((ks.foldl (World.filterEntries fun _ => true) w).heap p.2).active ≠ 0 ∧
      ((ks.foldl (World.filterEntries fun _ => true) w).heap p.2).retiring = true := by
  induction ks generalizing w with
  | nil => cases hk
  | cons key ks ih =>
    rcases List.mem_cons.1 hk with hk | hk
    · obtain ⟨hmem, hleft⟩ := always_steady.mem_filterEntries.1 (foldl_filterEntries_mem ks h)
      have hactive : (w.heap p.2).active ≠ 0 := by simpa [gone] using hleft hk
      refine foldl_filterEntries_busy ks ?_
      rw [always_steady.filterEntries_eq]
      have hin : p.2 ∈ w.entriesOf key := mem_entriesOf.2 (hk ▸ hmem)
      show (passedHeap _ _ w.heap p.2).active ≠ 0 ∧ (passedHeap _ _ w.heap p.2).retiring = true
      rw [passedHeap, if_pos hin]
      exact ⟨hactive, by simp [passed]⟩
    · exact ih h hk

theorem Safe.close (hs : Safe options w) : Safe options w.close := by
  unfold World.close
  split
  · exact hs
  · apply Safe.foldl_filterEntries
    exact { hs with }

theorem Drained.close (hd : Drained w) : Drained w.close := by
  unfold World.close
  split
  · exact hd
  · intro _ p hp
    have hmem : p ∈ w.entries := foldl_filterEntries_mem (w := { w with closed := true }) w.keys hp
    exact foldl_filterEntries_drained w.keys hp
      (List.mem_dedup.2 (List.mem_map.2 ⟨p, hmem, rfl⟩))

end Sections

end Repost.Pool
