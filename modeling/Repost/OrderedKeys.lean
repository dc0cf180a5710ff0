import Repost.Serializer

namespace Repost.Serialize
open GoText
set_option autoImplicit true

/-- `OrderedObject`: the map holds exactly the listed keys, and none is listed twice. -/
structure OrderedObject (β : Type u) where
  keys : List Bytes
  values : Bytes → Option β
  nodup : keys.Nodup
  listed : ∀ key, key ∈ keys ↔ (values key).isSome

namespace OrderedObject

/-- `NewOrderedObject`. -/
def new : OrderedObject β := ⟨[], fun _ => none, List.nodup_nil, by simp⟩

theorem set_nodup (o : OrderedObject β) :
    (if (o.values key).isSome then o.keys else o.keys ++ [key]).Nodup := by
  have h := o.listed key
  have hn := o.nodup
  grind

theorem set_listed (o : OrderedObject β) (value : β) (k : Bytes) :
    (k ∈ if (o.values key).isSome then o.keys else o.keys ++ [key]) ↔
      (if k = key then some value else o.values k).isSome := by
  have h := o.listed k
  grind

/-- `OrderedObject.Set`. -/
def set (key : Bytes) (value : β) (o : OrderedObject β) : OrderedObject β where
  keys := if (o.values key).isSome then o.keys else o.keys ++ [key]
  values k := if k = key then some value else o.values k
  nodup := o.set_nodup
  listed := o.set_listed value

/-- The members that `MarshalJSON` ranges over. -/
def members (o : OrderedObject β) : List (Bytes × β) :=
  o.keys.filterMap fun key => (o.values key).map (key, ·)

end OrderedObject

theorem filterMap_set {f : Bytes → Option β} {keys : List Bytes} (hn : keys.Nodup)
    (hf : ∀ k ∈ keys, (f k).isSome) :
    (if key ∈ keys then keys else keys ++ [key]).filterMap
        (fun k => (if k = key then some x else f k).map (k, ·)) =
      setMember key x (keys.filterMap fun k => (f k).map (k, ·)) := by
  induction keys with
  | nil => simp [setMember]
  | cons k keys ih =>
    obtain ⟨hk, hn⟩ := List.nodup_cons.1 hn
    obtain ⟨y, hy⟩ := Option.isSome_iff_exists.1 (hf k List.mem_cons_self)
    have ih := ih hn fun k' hk' => hf k' (List.mem_cons_of_mem _ hk')
    by_cases h : k = key
    · subst h
      have hrest : keys.filterMap (fun k' => (if k' = k then some x else f k').map (k', ·)) =
          keys.filterMap fun k' => (f k').map (k', ·) := by
        apply List.filterMap_congr
        intro k' hk'
        rw [if_neg (ne_of_mem_of_not_mem hk' hk)]
      simp [hy, hrest, setMember]
    · simp only [List.filterMap_cons, hy, Option.map_some, setMember, if_neg h, ← ih]
      have hmem : key ∈ k :: keys ↔ key ∈ keys := by simp [Ne.symm h]
      by_cases hkey : key ∈ keys <;> simp [hmem, hkey, h, hy]

theorem members_set (o : OrderedObject β) :
    (o.set key x).members = setMember key x o.members := by
  rw [OrderedObject.members, OrderedObject.members, ← filterMap_set o.nodup
    fun k hk => (o.listed k).1 hk]
  simp only [OrderedObject.set, o.listed]

/-- Whatever is set, the last call first: an object has the members of the list model, its keys
once each in the order in which they were first set, and the last value set for each. -/
theorem ordered_object_exact (sets : List (Bytes × β)) :
    let o := sets.foldr (fun s => OrderedObject.set s.1 s.2) .new
    o.members = sets.foldr (fun s => setMember s.1 s.2) [] ∧
      o.keys = (sets.map Prod.fst).dedup.reverse ∧ ∀ key, o.values key = lookup key sets := by
  induction sets with
  | nil => exact ⟨rfl, rfl, fun _ => rfl⟩
  | cons s sets ih =>
    obtain ⟨hmembers, hkeys, hvalues⟩ := ih
    refine ⟨?_, ?_, fun key => ?_⟩
    · rw [List.foldr_cons, members_set, hmembers, List.foldr_cons]
    · have hmem := OrderedObject.listed (sets.foldr (fun s => OrderedObject.set s.1 s.2) .new) s.1
      rw [hkeys, List.mem_reverse, List.mem_dedup] at hmem
      by_cases h : s.1 ∈ sets.map Prod.fst
      · rw [List.map_cons, List.dedup_cons_of_mem h, ← hkeys]
        exact if_pos (hmem.1 h)
      · rw [List.map_cons, List.dedup_cons_of_notMem h, List.reverse_cons, ← hkeys]
        exact if_neg (mt hmem.2 h)
    · simp only [List.foldr_cons, OrderedObject.set, hvalues]
      by_cases hk : key = s.1 <;> simp [lookup, hk, eq_comm]

end Repost.Serialize
