import Repost.PoolRuns

namespace Repost.Pool
open Runs
set_option autoImplicit true

def Phase.occupies : Phase → Bool
  | .dialing | .dialed _ | .discarding _ => true
  | _ => false

def Phase.isDialing : Phase → Bool
  | .dialing => true
  | _ => false

def Prompt (w : World κ) : Prop :=
  w.closed = false → ∀ c ∈ w.calls, ∀ r, c.phase ≠ .discarding r

/-- The key and the mode of the resource that an action makes. -/
def madeBy (w : World κ) : Act κ → List (κ × Mode)
  | .dial i (some (mode, _)) =>
    match w.calls[i]? with
    | some ⟨key, .dialing⟩ => [(key, mode)]
    | _ => []
  | _ => []

structure Linked (made : List (κ × Mode)) (w : World κ) : Prop where
  length : made.length = w.dialed
  filed : ∀ key r, (key, r) ∈ w.entries → ∃ mode, made[r]? = some (key, mode)
  held : ∀ c ∈ w.calls, ∀ r, c.phase.resource = some r → ∃ mode, made[r]? = some (c.key, mode)

section
variable {w w' : World κ} {made : List (κ × Mode)}

inductive CallsMoved (w : World κ) (a : Act κ) (w' : World κ) : Prop
  | same (h : w'.calls = w.calls)
  | added (key : κ) (h : w'.calls = w.calls ++ [⟨key, .entering⟩])
  | moved (hc : w.calls[i]? = some ⟨key, old⟩) (h : w'.calls = w.calls.set i ⟨key, new⟩)
      (hlate : ∀ r, new = .discarding r → w.closed = true)
      (hr : ∀ r, new.resource = some r → old.resource = some r)
  | dialed (i : Nat) (key : κ) (mode : Mode) (reusable : Option Bool)
      (hc : w.calls[i]? = some ⟨key, .dialing⟩) (ha : a = .dial i (some (mode, reusable)))
      (h : w'.calls = w.calls.set i ⟨key, .dialed (some (w.dialed, mode))⟩)

structure Placed (w : World κ) (a : Act κ) (w' : World κ) : Prop where
  calls : CallsMoved w a w'
  filed : ∀ p ∈ w'.entries, p ∈ w.entries ∨
    ∃ c ∈ w.calls, c.key = p.1 ∧ c.phase.resource = some p.2
  closed : w'.closed = false → w.closed = false
  dialed : w'.dialed = w.dialed + (madeBy w a).length

theorem Placed.still (hcalls : CallsMoved w a w') (he : w'.entries = w.entries)
    (hclosed : w'.closed = w.closed) (hd : w'.dialed = w.dialed) (ha : madeBy w a = []) :
    Placed w a w' := by
  refine ⟨hcalls, ?_, ?_, ?_⟩
  · rw [he]
    exact fun p hp => .inl hp
  · rw [hclosed]
    exact id
  · rw [ha]
    exact hd

theorem Prompt.placed (h : Prompt w) (hp : Placed w a w') : Prompt w' := by
  intro hclosed c hc r hr
  have hopen := hp.closed hclosed
  have hold := h hopen
  cases hp.calls with
  | same hcalls => exact hold c (hcalls ▸ hc) r hr
  | added key hcalls =>
    rw [hcalls] at hc
    rcases List.mem_append.1 hc with hc | hc
    · exact hold c hc r hr
    · cases List.mem_singleton.1 hc
      cases hr
  | moved _ hcalls hlate _ =>
    rw [hcalls] at hc
    rcases List.mem_or_eq_of_mem_set hc with hc | rfl
    · exact hold c hc r hr
    · cases hopen.symm.trans (hlate r hr)
  | dialed _ _ _ _ _ _ hcalls =>
    rw [hcalls] at hc
    rcases List.mem_or_eq_of_mem_set hc with hc | rfl
    · exact hold c hc r hr
    · cases hr

theorem Linked.placed (h : Linked made w) (hp : Placed w a w') :
    Linked (made ++ madeBy w a) w' := by
  have hold : ∀ {r : Nat} {key : κ}, (∃ mode, made[r]? = some (key, mode)) →
      ∃ mode, (made ++ madeBy w a)[r]? = some (key, mode) := by
    rintro r key ⟨mode, hr⟩
    exact ⟨mode, List.getElem?_append_left (List.getElem?_eq_some_iff.1 hr).1 ▸ hr⟩
  constructor
  · rw [List.length_append, h.length, hp.dialed]
  · intro key r hr
    rcases hp.filed _ hr with hr | ⟨c, hc, rfl, hres⟩
    · exact hold (h.filed key r hr)
    · exact hold (h.held c hc r hres)
  · intro c hc r hr
    cases hp.calls with
    | same hcalls => exact hold (h.held c (hcalls ▸ hc) r hr)
    | added key hcalls =>
      rw [hcalls] at hc
      rcases List.mem_append.1 hc with hc | hc
      · exact hold (h.held c hc r hr)
      · cases List.mem_singleton.1 hc
        cases hr
    | moved hi hcalls _ hres =>
      rw [hcalls] at hc
      rcases List.mem_or_eq_of_mem_set hc with hc | rfl
      · exact hold (h.held c hc r hr)
      · exact hold (h.held _ (List.mem_of_getElem? hi) r (hres r hr))
    | dialed i key mode reusable hi ha hcalls =>
      rw [hcalls] at hc
      rcases List.mem_or_eq_of_mem_set hc with hc | rfl
      · exact hold (h.held c hc r hr)
      · have hr : w.dialed = r := Option.some.inj hr
        have hmade : madeBy w a = [(key, mode)] := by rw [ha, madeBy, hi]
        refine ⟨mode, ?_⟩
        rw [hmade, ← hr, ← h.length]
        exact List.getElem?_concat_length

end

theorem countP_add_le {p q occupies : α → Bool} (l : List α)
    (hp : ∀ x, p x = true → occupies x = true) (hq : ∀ x, q x = true → occupies x = true)
    (hpq : ∀ x, p x = true → q x = false) :
    l.countP p + l.countP q ≤ l.countP occupies := by
  induction l with
  | nil => exact Nat.le_refl _
  | cons x l ih =>
    rw [List.countP_cons, List.countP_cons, List.countP_cons]
    have hx := hp x
    have hx' := hq x
    have hx'' := hpq x
    cases hpx : p x <;> cases hqx : q x <;> simp_all <;> omega

section
variable [DecidableEq κ] {options : Options} {w w' : World κ} {made : List (κ × Mode)}

def World.busy (w : World κ) (key : κ) : Nat :=
  w.calls.countP fun c => c.key = key && c.phase.occupies

/-- The places that a key takes: those of its entries and of its busy calls. -/
def World.occupied (w : World κ) (key : κ) : Nat := (w.entriesOf key).length + w.busy key

/-- The connections of a key that were dialed for one exchange at a time and are not closed. -/
def World.opened (made : List (κ × Mode)) (w : World κ) (key : κ) : Nat :=
  (List.range w.dialed).countP fun r => made[r]? = some (key, .exclusive) ∧ w.closes r = 0

def World.dialing (w : World κ) (key : κ) : Nat :=
  w.calls.countP fun c => c.key = key && c.phase.isDialing

theorem busy_set (hc : w.calls[i]? = some ⟨k, old⟩) (hcalls : w'.calls = w.calls.set i ⟨k, new⟩)
    (key : κ) : w'.busy key + (if k = key ∧ old.occupies = true then 1 else 0) =
      w.busy key + if k = key ∧ new.occupies = true then 1 else 0 := by
  have hcount := countP_set (p := fun c : Call κ => decide (c.key = key) && c.phase.occupies)
    (y := ⟨k, new⟩) hc
  rw [World.busy, World.busy, hcalls]
  simpa using hcount

theorem occupied_le_of_set (hc : w.calls[i]? = some ⟨k, old⟩)
    (hcalls : w'.calls = w.calls.set i ⟨k, new⟩)
    (hnew : new.occupies = true → old.occupies = true)
    (he : (w'.entriesOf key).length ≤ (w.entriesOf key).length) :
    w'.occupied key ≤ w.occupied key := by
  have hbusy := busy_set hc hcalls key
  have hle : w'.busy key ≤ w.busy key := by
    by_cases hn : k = key ∧ new.occupies = true
    · rw [if_pos hn, if_pos ⟨hn.1, hnew hn.2⟩] at hbusy
      omega
    · rw [if_neg hn] at hbusy
      omega
  exact Nat.add_le_add he hle

theorem occupied_le (he : (w'.entriesOf key).length ≤ (w.entriesOf key).length)
    (hc : w'.calls = w.calls) : w'.occupied key ≤ w.occupied key := by
  rw [World.occupied, World.occupied, World.busy, World.busy, hc]
  exact Nat.add_le_add_right he _

theorem expireLocked_occupied (options : Options) (w : World κ) (key key' : κ) :
    (w.expireLocked options key).occupied key' ≤ w.occupied key' :=
  occupied_le ((expired_steady options w.now).filterEntries_length w key key')
    (expireLocked_calls options w key)

theorem close_occupied (w : World κ) (key : κ) : w.close.occupied key ≤ w.occupied key := by
  have hfold : ∀ (ks : List κ) (u : World κ),
      (ks.foldl (World.filterEntries fun _ => true) u).occupied key ≤ u.occupied key := by
    intro ks
    induction ks with
    | nil => exact fun u => Nat.le_refl _
    | cons k ks ih =>
      intro u
      apply (ih _).trans
      apply occupied_le (always_steady.filterEntries_length u k key)
      rw [always_steady.filterEntries_eq]
      rfl
  unfold World.close
  split
  · exact Nat.le_refl _
  · exact hfold w.keys { w with closed := true }

theorem removeLocked_length (w : World κ) (key : κ) (e : Nat) (key' : κ) :
    ((w.removeLocked key e).entriesOf key').length ≤ (w.entriesOf key').length := by
  rw [World.removeLocked, entriesOf_setEntries]
  split
  · rename_i hk
    rw [hk]
    exact List.length_erase_le
  · exact Nat.le_refl _

theorem release_occupied (w : World κ) (l : Nat) (lease : Lease κ) (reusable : Bool) (key : κ) :
    (w.release l lease reusable).occupied key ≤ w.occupied key := by
  obtain ⟨n, entry, -, -, -, ⟨-, hw⟩ | ⟨-, -, hw⟩⟩ := release_cases w l lease reusable
  · rw [hw]
    exact Nat.le_refl _
  · rw [hw]
    exact occupied_le (removeLocked_length (w.handed l lease entry n) lease.key lease.entry key) rfl

theorem entriesOf_append (w : World κ) (key : κ) (r : Nat) (key' : κ) :
    (World.entriesOf { w with entries := w.entries ++ [(key, r)] } key').length =
      (w.entriesOf key').length + if key = key' then 1 else 0 := by
  simp only [World.entriesOf, List.filter_append, List.map_append, List.length_append]
  by_cases hk : key = key' <;> simp [hk]

theorem settle_occupied (hc : w.calls[i]? = some ⟨k, .dialed result⟩) (key : κ) :
    (w.settle i k result).occupied key ≤ w.occupied key := by
  obtain ⟨n, hn⟩ :=
    signalLocked_eq { w with pending := Function.update w.pending k (w.pending k - 1) }
  unfold World.settle
  rw [hn]
  dsimp only
  split
  · exact occupied_le_of_set hc rfl (fun _ => rfl) (Nat.le_refl _)
  · split
    · exact occupied_le_of_set hc rfl (fun _ => rfl) (Nat.le_refl _)
    · rename_i r mode _
      -- The new entry takes the place of the dial.
      have hentry := entriesOf_append w k r key
      have hbusy : (w.setCall i k (.returned (.ok w.leases.length))).busy key + _ = _ :=
        busy_set hc rfl key
      simp only [Phase.occupies, and_true, Bool.false_eq_true, and_false, if_false] at hbusy
      have hplaces : (World.entriesOf { w with entries := w.entries ++ [(k, r)] } key).length +
          (w.setCall i k (.returned (.ok w.leases.length))).busy key ≤ w.occupied key := by
        rw [World.occupied]
        omega
      exact hplaces

theorem Acquired.occupied {u : World κ} (h : Acquired options u i k w')
    (hc : u.calls[i]? = some ⟨k, .entering⟩) (key : κ) :
    w'.occupied key ≤ u.occupied key ∨
      k = key ∧ w'.closed = false ∧ w'.occupied key ≤ u.occupied key + 1 := by
  have hretired : ∀ {v : World κ}, Retires u v →
      v.occupied key = u.occupied key ∧ v.calls[i]? = some ⟨k, .entering⟩ := by
    intro v hret
    rw [hret.rest]
    exact ⟨rfl, hc⟩
  cases h with
  | closed _ => exact .inl (occupied_le_of_set hc rfl nofun (Nat.le_refl _))
  | leased _ hret _ _ n reused =>
    obtain ⟨hsame, hv⟩ := hretired hret
    rw [← hsame]
    exact .inl (occupied_le_of_set hv rfl nofun (Nat.le_refl _))
  | dials hopen hret hroom =>
    rename_i v
    obtain ⟨hsame, hv⟩ := hretired hret
    rw [← hsame]
    have hbusy : (v.setCall i k .dialing).busy key + _ = _ := busy_set hv rfl key
    simp only [Phase.occupies, Bool.false_eq_true, and_false, if_false, and_true] at hbusy
    have hplaces : (v.entriesOf key).length + (v.setCall i k .dialing).busy key =
        v.occupied key + if k = key then 1 else 0 := by
      rw [World.occupied]
      omega
    by_cases hk : k = key
    · rw [if_pos hk] at hplaces
      have hclosed : v.closed = false := by
        rw [hret.rest]
        exact hopen
      exact .inr ⟨hk, hclosed, hplaces.le⟩
    · rw [if_neg hk] at hplaces
      exact .inl hplaces.le
  | waits _ hnone _ =>
    obtain ⟨hsame, hv⟩ := hretired (available_none_retires hnone)
    rw [← hsame]
    exact .inl (occupied_le_of_set hv rfl nofun (Nat.le_refl _))

theorem Stepped.occupied (h : Stepped options w a w') (key : κ) :
    w'.occupied key ≤ w.occupied key ∨
      ∃ i, a = .acquire i ∧ w.calls[i]? = some ⟨key, .entering⟩ ∧ w'.closed = false ∧
        w'.occupied key ≤ w.occupied key + 1 := by
  cases h with
  | call k =>
    left
    simp [World.occupied, World.entriesOf, World.busy, List.countP_append, Phase.occupies]
  | cancel hc hr hd | discard hc | wake hc _ =>
    exact .inl (occupied_le_of_set hc rfl (fun h => by cases h) (Nat.le_refl _))
  | acquire hc h =>
    rename_i i k
    have hexpire := expireLocked_occupied options w k key
    have hcalls := expireLocked_calls options w k
    rcases h.occupied (hcalls ▸ hc) key with hle | ⟨rfl, hopen, hle⟩
    · exact .inl (hle.trans hexpire)
    · exact .inr ⟨i, rfl, hc, hopen, hle.trans (Nat.add_le_add_right hexpire 1)⟩
  | dial hc =>
    left
    unfold World.dial
    split
    · exact occupied_le_of_set hc rfl (fun _ => rfl) (Nat.le_refl _)
    · exact occupied_le_of_set hc rfl (fun _ => rfl) (Nat.le_refl _)
  | settle hc => exact .inl (settle_occupied hc key)
  | released _ _ | tick _ | turn _ _ => exact .inl (Nat.le_refl _)
  | release _ _ => exact .inl (release_occupied ..)
  | close => exact .inl (close_occupied w key)

theorem close_closed (w : World κ) : w.close.closed = true ∧ w.close.calls = w.calls := by
  have hfold : ∀ (ks : List κ) (u : World κ),
      (ks.foldl (World.filterEntries fun _ => true) u).closed = u.closed ∧
        (ks.foldl (World.filterEntries fun _ => true) u).calls = u.calls := by
    intro ks
    induction ks with
    | nil => exact fun u => ⟨rfl, rfl⟩
    | cons k ks ih =>
      intro u
      obtain ⟨hclosed, hcalls⟩ := ih (u.filterEntries (fun _ => true) k)
      rw [List.foldl_cons, hclosed, hcalls, always_steady.filterEntries_eq]
      exact ⟨rfl, rfl⟩
  unfold World.close
  split
  · rename_i h
    exact ⟨h, rfl⟩
  · exact hfold w.keys { w with closed := true }

theorem settle_moved (hc : w.calls[i]? = some ⟨key, .dialed result⟩) :
    CallsMoved w a (w.settle i key result) ∧
      ((w.settle i key result).entries = w.entries ∨
        ∃ r, (Phase.dialed result).resource = some r ∧
          (w.settle i key result).entries = w.entries ++ [(key, r)]) ∧
      (w.settle i key result).closed = w.closed ∧ (w.settle i key result).dialed = w.dialed := by
  obtain ⟨n, hn⟩ :=
    signalLocked_eq { w with pending := Function.update w.pending key (w.pending key - 1) }
  unfold World.settle
  rw [hn]
  dsimp only
  split
  · exact ⟨.moved hc rfl nofun nofun, .inl rfl, rfl, rfl⟩
  · split
    · rename_i hclosed
      exact ⟨.moved hc rfl (fun _ _ => hclosed) (fun _ hr => hr), .inl rfl, rfl, rfl⟩
    · exact ⟨.moved hc rfl nofun nofun, .inr ⟨_, rfl, rfl⟩, rfl, rfl⟩

theorem Acquired.moved {u : World κ} (h : Acquired options u i key w') :
    (∃ new : Phase, w'.calls = u.calls.set i ⟨key, new⟩ ∧ (∀ r, new ≠ .discarding r) ∧
      new.resource = none) ∧
      w'.entries = u.entries ∧ w'.closed = u.closed ∧ w'.dialed = u.dialed := by
  cases h with
  | closed _ => exact ⟨⟨_, rfl, nofun, rfl⟩, rfl, rfl, rfl⟩
  | leased _ hret _ _ n reused | dials _ hret _ =>
    rw [hret.rest]
    exact ⟨⟨_, rfl, nofun, rfl⟩, rfl, rfl, rfl⟩
  | waits _ hnone _ =>
    rw [(available_none_retires hnone).rest]
    exact ⟨⟨_, rfl, nofun, rfl⟩, rfl, rfl, rfl⟩

theorem foldl_filterEntries_dialed (ks : List κ) (u : World κ) :
    (ks.foldl (World.filterEntries fun _ => true) u).dialed = u.dialed := by
  induction ks generalizing u with
  | nil => rfl
  | cons k ks ih =>
    rw [List.foldl_cons, ih, always_steady.filterEntries_eq]
    rfl

theorem Placed.close (w : World κ) : Placed w .close w.close := by
  obtain ⟨hclosed, hcalls⟩ := close_closed w
  refine ⟨.same hcalls, ?_, ?_, ?_⟩
  · intro p hp
    unfold World.close at hp
    split at hp
    · exact .inl hp
    · exact .inl (foldl_filterEntries_mem (w := { w with closed := true }) w.keys hp)
  · rw [hclosed]
    exact nofun
  · unfold World.close
    split
    · rfl
    · exact foldl_filterEntries_dialed w.keys { w with closed := true }

theorem Placed.release (w : World κ) (l : Nat) (lease : Lease κ) (reusable b : Bool) :
    Placed w (.release l b) (w.release l lease reusable) := by
  obtain ⟨n, entry, -, -, -, ⟨-, hw⟩ | ⟨-, -, hw⟩⟩ := release_cases w l lease reusable
  · rw [hw]
    exact .still (.same rfl) rfl rfl rfl rfl
  · rw [hw]
    refine ⟨.same rfl, ?_, id, rfl⟩
    intro p hp
    exact .inl ((mem_setEntries fun x hx => List.mem_of_mem_erase hx).1 hp).1

theorem Stepped.placed (h : Stepped options w a w') : Placed w a w' := by
  cases h with
  | call k => exact .still (.added k rfl) rfl rfl rfl rfl
  | cancel hc hr hd | discard hc | wake hc _ =>
    exact .still (.moved hc rfl (fun _ h => by cases h) fun _ h => by cases h) rfl rfl rfl rfl
  | acquire hc h =>
    rename_i i k
    have hsteady := expired_steady options w.now
    obtain ⟨⟨new, hnew, hlate, hr⟩, he, hclosed, hd⟩ := h.moved
    rw [expireLocked_calls] at hnew
    rw [World.expireLocked] at he
    rw [World.expireLocked, hsteady.filterEntries_eq] at hclosed hd
    refine ⟨.moved hc hnew (fun r hr => absurd hr (hlate r)) ?_, ?_, ?_, hd⟩
    · intro r hres
      rw [hr] at hres
      cases hres
    · intro p hp
      rw [he] at hp
      exact .inl (hsteady.mem_filterEntries.1 hp).1
    · rw [hclosed]
      exact id
  | dial hc =>
    rename_i i result k
    cases result with
    | none => exact .still (.moved hc rfl (fun _ h => by cases h) fun _ h => by cases h) rfl rfl rfl rfl
    | some made =>
      refine ⟨.dialed i k made.1 made.2 hc rfl rfl, fun p hp => .inl hp, id, ?_⟩
      rw [madeBy, hc]
      rfl
  | settle hc =>
    obtain ⟨hcalls, hentries, hclosed, hd⟩ := settle_moved (a := .settle _) hc
    rcases hentries with he | ⟨r, hr, he⟩
    · exact .still hcalls he hclosed hd rfl
    · refine ⟨hcalls, ?_, ?_, hd⟩
      · intro p hp
        rw [he] at hp
        rcases List.mem_append.1 hp with hp | hp
        · exact .inl hp
        · cases List.mem_singleton.1 hp
          exact .inr ⟨_, List.mem_of_getElem? hc, rfl, hr⟩
      · rw [hclosed]
        exact id
  | released _ _ | tick _ | turn _ _ => exact .still (.same rfl) rfl rfl rfl rfl
  | release _ _ => exact .release ..
  | close => exact .close w

theorem opened_le (hs : Safe options w) (h : Linked made w) (key : κ) :
    w.opened made key + w.dialing key ≤ w.occupied key := by
  let holders := w.calls.filter fun c => decide (c.key = key) && c.phase.resource.isSome
  let open' := (List.range w.dialed).filter fun r =>
    decide (made[r]? = some (key, .exclusive) ∧ w.closes r = 0)
  have hsub : open' ⊆ w.entriesOf key ++ holders.filterMap fun c => c.phase.resource := by
    intro r hr
    obtain ⟨hlt, hr⟩ := List.mem_filter.1 hr
    obtain ⟨hmade, hopen⟩ := of_decide_eq_true hr
    have haccount := hs.account r
    rw [if_pos (List.mem_range.1 hlt), hopen] at haccount
    apply List.mem_append.2
    by_cases hfiled : 0 < w.filed r
    · obtain ⟨⟨k, e⟩, hp, rfl⟩ := List.mem_map.1 (List.count_pos_iff.1 hfiled)
      obtain ⟨mode, hmode⟩ := h.filed k e hp
      cases hmade.symm.trans hmode
      exact .inl (mem_entriesOf.2 hp)
    · have hheld : 0 < w.held r := by omega
      obtain ⟨c, hc, hres⟩ := List.countP_pos_iff.1 hheld
      have hres : c.phase.resource = some r := of_decide_eq_true hres
      obtain ⟨mode, hmode⟩ := h.held c hc r hres
      have hkey : c.key = key := by
        have heq := hmode.symm.trans hmade
        simp only [Option.some.injEq, Prod.mk.injEq] at heq
        exact heq.1
      refine .inr (List.mem_filterMap.2 ⟨c, List.mem_filter.2 ⟨hc, ?_⟩, hres⟩)
      simp [hkey, hres]
  have hnodup : open'.Nodup := List.Nodup.filter _ List.nodup_range
  have hlen := (hnodup.subperm hsub).length_le
  rw [List.length_append] at hlen
  have hholders : (holders.filterMap fun c => c.phase.resource).length ≤
      w.calls.countP fun c => decide (c.key = key) && c.phase.resource.isSome := by
    rw [List.countP_eq_length_filter]
    exact List.length_filterMap_le _ _
  have hopened : w.opened made key = open'.length := List.countP_eq_length_filter
  have hbusy : (w.calls.countP fun c => decide (c.key = key) && c.phase.resource.isSome) +
      w.dialing key ≤ w.busy key := by
    apply countP_add_le
    · rintro ⟨k, phase⟩ hc
      cases phase <;> simp_all [Phase.resource, Phase.occupies]
    · rintro ⟨k, phase⟩ hc
      cases phase <;> simp_all [Phase.isDialing, Phase.occupies]
    · rintro ⟨k, phase⟩ hc
      cases phase <;> simp_all [Phase.isDialing, Phase.resource]
  rw [World.occupied]
  omega

theorem occupied_capped (hs : Safe options w) (hp : Prompt w) (hclosed : w.closed = false)
    (key : κ) : w.occupied key ≤ options.maxConnections := by
  have hcap := hs.cap key
  have hbusy : w.busy key = w.dials key := by
    apply List.countP_congr
    intro c hc
    have hlate := hp hclosed c hc
    cases hphase : c.phase with
    | discarding r => exact absurd hphase (hlate r)
    | _ => simp [Phase.occupies, Phase.dials]
  rw [hs.pending key] at hcap
  rw [World.occupied, hbusy]
  push_cast
  exact hcap

end

end Repost.Pool
