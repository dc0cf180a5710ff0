import Repost.JsonWriting

namespace Repost.Ordered
open GoText Serialize StrictJson
set_option autoImplicit true

section
variable (nilList : Option Json) (read : β → Option Json)

mutual

/-- The JSON value of a tree, given what a nil list stands for and how other values are read. -/
def Tree.json : Tree β → Option Json
  | .nilObject => none
  | .object members => (membersJson members).map .object
  | .nilList => nilList
  | .list items => (itemsJson items).map .array
  | .string s => some (.string s)
  | .value v => read v

def membersJson : List (Bytes × Tree β) → Option (List (Bytes × Json))
  | [] => some []
  | (key, value) :: rest => do
    let j ← value.json
    let ms ← membersJson rest
    return (key, j) :: ms

def itemsJson : List (Tree β) → Option (List Json)
  | [] => some []
  | item :: rest => do
    let j ← item.json
    let js ← itemsJson rest
    return j :: js

end

end

section
variable {nl nl' : Option Json} {read read' : β → Option Json}

theorem membersJson_cons {value : Tree β} (h : membersJson nl read ((key, value) :: rest) = some ms) :
    ∃ j ms', value.json nl read = some j ∧ membersJson nl read rest = some ms' ∧
      ms = (key, j) :: ms' := by
  obtain ⟨j, hj, h⟩ := Option.bind_eq_some_iff.mp h
  obtain ⟨ms', hms, h⟩ := Option.bind_eq_some_iff.mp h
  cases h
  exact ⟨j, ms', hj, hms, rfl⟩

theorem itemsJson_cons (h : itemsJson nl read (item :: rest) = some js) :
    ∃ j js', item.json nl read = some j ∧ itemsJson nl read rest = some js' ∧ js = j :: js' := by
  obtain ⟨j, hj, h⟩ := Option.bind_eq_some_iff.mp h
  obtain ⟨js', hjs, h⟩ := Option.bind_eq_some_iff.mp h
  cases h
  exact ⟨j, js', hj, hjs, rfl⟩

mutual

theorem Tree.json_mono (hnl : ∀ j, nl = some j → nl' = some j)
    (hread : ∀ v j, read v = some j → read' v = some j) :
    ∀ (t : Tree β) {j : Json}, t.json nl read = some j → t.json nl' read' = some j
  | .nilObject, _, h => nomatch h
  | .object members, _, h => by
    obtain ⟨ms, hms, rfl⟩ := Option.map_eq_some_iff.mp h
    rw [Tree.json, membersJson_mono hnl hread members hms]
    rfl
  | .nilList, j, h => hnl j h
  | .list items, _, h => by
    obtain ⟨js, hjs, rfl⟩ := Option.map_eq_some_iff.mp h
    rw [Tree.json, itemsJson_mono hnl hread items hjs]
    rfl
  | .string _, _, h => h
  | .value v, j, h => hread v j h

theorem membersJson_mono (hnl : ∀ j, nl = some j → nl' = some j)
    (hread : ∀ v j, read v = some j → read' v = some j) :
    ∀ (members : List (Bytes × Tree β)) {ms : List (Bytes × Json)},
      membersJson nl read members = some ms → membersJson nl' read' members = some ms
  | [], _, h => h
  | (key, value) :: rest, _, h => by
    obtain ⟨j, ms', hj, hms, rfl⟩ := membersJson_cons h
    rw [membersJson, Tree.json_mono hnl hread value hj, membersJson_mono hnl hread rest hms]
    rfl

theorem itemsJson_mono (hnl : ∀ j, nl = some j → nl' = some j)
    (hread : ∀ v j, read v = some j → read' v = some j) :
    ∀ (items : List (Tree β)) {js : List Json},
      itemsJson nl read items = some js → itemsJson nl' read' items = some js
  | [], _, h => h
  | item :: rest, _, h => by
    obtain ⟨j, js', hj, hjs, rfl⟩ := itemsJson_cons h
    rw [itemsJson, Tree.json_mono hnl hread item hj, itemsJson_mono hnl hread rest hjs]
    rfl

end

mutual

/-- The encoder with a limit reaches the text of the value in which a nil list is empty. -/
theorem Tree.reach_of_json : ∀ (t : Tree β) {j : Json}, t.json (some (.array [])) read = some j →
    t.reach (fun v => (read v).map writeJson) = (writeJson j, none)
  | .nilObject, _, h => nomatch h
  | .object members, _, h => by
    obtain ⟨ms, hms, rfl⟩ := Option.map_eq_some_iff.mp h
    rw [Tree.reach, membersReach_of_json true members hms]
    simp [writeJson]
  | .nilList, _, h => by
    cases h
    rfl
  | .list items, _, h => by
    obtain ⟨js, hjs, rfl⟩ := Option.map_eq_some_iff.mp h
    rw [Tree.reach, itemsReach_of_json true items hjs]
    simp [writeJson]
  | .string s, _, h => by
    cases h
    rfl
  | .value v, j, h => by
    have hv : read v = some j := h
    rw [Tree.reach, hv]
    rfl

theorem membersReach_of_json (first : Bool) :
    ∀ (members : List (Bytes × Tree β)) {ms : List (Bytes × Json)},
      membersJson (some (.array [])) read members = some ms →
        membersReach (fun v => (read v).map writeJson) first members = (writeMembers first ms, none)
  | [], _, h => by
    cases h
    rfl
  | (key, value) :: rest, _, h => by
    obtain ⟨j, ms', hj, hms, rfl⟩ := membersJson_cons h
    rw [membersReach, Tree.reach_of_json value hj, membersReach_of_json false rest hms]
    simp [writeMembers]

theorem itemsReach_of_json (first : Bool) : ∀ (items : List (Tree β)) {js : List Json},
    itemsJson (some (.array [])) read items = some js →
      itemsReach (fun v => (read v).map writeJson) first items = (writeItems first js, none)
  | [], _, h => by
    cases h
    rfl
  | item :: rest, _, h => by
    obtain ⟨j, js', hj, hjs, rfl⟩ := itemsJson_cons h
    rw [itemsReach, Tree.reach_of_json item hj, itemsReach_of_json false rest hjs]
    simp [writeItems]

end

mutual

/-- What is sent of a tree that means something. If it is read back as it was meant, there is no nil
list in it, which means null and is sent as an empty one, and no string has changed. -/
theorem Tree.sent_of_meant (hread : ∀ v j, read v = some j → read' v = some j ∧ Numeric j) :
    ∀ (t : Tree β) {a : Json}, t.json (some .null) read = some a →
      ∃ j, t.json (some (.array [])) read' = some j ∧ Numeric j ∧
        (received j = a → t.json none read = some a ∧ Unicode a)
  | .nilObject, _, h => nomatch h
  | .object members, _, h => by
    obtain ⟨ms, hms, rfl⟩ := Option.map_eq_some_iff.mp h
    obtain ⟨js, hjs, hnum, hexact⟩ := membersSent_of_meant hread members hms
    refine ⟨.object js, by rw [Tree.json, hjs]; rfl, hnum, ?_⟩
    intro heq
    obtain ⟨hnone, huni⟩ := hexact (Json.object.inj heq)
    exact ⟨by rw [Tree.json, hnone]; rfl, huni⟩
  | .nilList, _, h => by
    cases h
    exact ⟨.array [], rfl, trivial, nofun⟩
  | .list items, _, h => by
    obtain ⟨as, has, rfl⟩ := Option.map_eq_some_iff.mp h
    obtain ⟨js, hjs, hnum, hexact⟩ := itemsSent_of_meant hread items has
    refine ⟨.array js, by rw [Tree.json, hjs]; rfl, hnum, ?_⟩
    intro heq
    obtain ⟨hnone, huni⟩ := hexact (Json.array.inj heq)
    exact ⟨by rw [Tree.json, hnone]; rfl, huni⟩
  | .string s, _, h => by
    cases h
    refine ⟨.string s, rfl, trivial, ?_⟩
    intro heq
    exact ⟨rfl, (received_eq_iff _).mp heq⟩
  | .value v, a, h => by
    obtain ⟨hv, hnum⟩ := hread v a h
    refine ⟨a, hv, hnum, ?_⟩
    intro heq
    exact ⟨h, (received_eq_iff a).mp heq⟩

theorem membersSent_of_meant (hread : ∀ v j, read v = some j → read' v = some j ∧ Numeric j) :
    ∀ (members : List (Bytes × Tree β)) {as : List (Bytes × Json)},
      membersJson (some .null) read members = some as →
        ∃ js, membersJson (some (.array [])) read' members = some js ∧ NumericMembers js ∧
          (receivedMembers js = as → membersJson none read members = some as ∧ UnicodeMembers as)
  | [], _, h => by
    cases h
    exact ⟨[], rfl, trivial, fun _ => ⟨rfl, trivial⟩⟩
  | (key, value) :: rest, _, h => by
    obtain ⟨a, as, ha, has, rfl⟩ := membersJson_cons h
    obtain ⟨j, hj, hnum, hexact⟩ := Tree.sent_of_meant hread value ha
    obtain ⟨js, hjs, hnums, hexacts⟩ := membersSent_of_meant hread rest has
    refine ⟨(key, j) :: js, by rw [membersJson, hj, hjs]; rfl, ⟨hnum, hnums⟩, ?_⟩
    intro heq
    rw [receivedMembers, List.cons.injEq, Prod.mk.injEq] at heq
    obtain ⟨⟨hkey, hhead⟩, htail⟩ := heq
    obtain ⟨hnone, huni⟩ := hexact hhead
    obtain ⟨hnones, hunis⟩ := hexacts htail
    exact ⟨by rw [membersJson, hnone, hnones]; rfl, (sanitize_eq_iff key).mp hkey, huni, hunis⟩

theorem itemsSent_of_meant (hread : ∀ v j, read v = some j → read' v = some j ∧ Numeric j) :
    ∀ (items : List (Tree β)) {as : List Json}, itemsJson (some .null) read items = some as →
      ∃ js, itemsJson (some (.array [])) read' items = some js ∧ NumericItems js ∧
        (receivedItems js = as → itemsJson none read items = some as ∧ UnicodeItems as)
  | [], _, h => by
    cases h
    exact ⟨[], rfl, trivial, fun _ => ⟨rfl, trivial⟩⟩
  | item :: rest, _, h => by
    obtain ⟨a, as, ha, has, rfl⟩ := itemsJson_cons h
    obtain ⟨j, hj, hnum, hexact⟩ := Tree.sent_of_meant hread item ha
    obtain ⟨js, hjs, hnums, hexacts⟩ := itemsSent_of_meant hread rest has
    refine ⟨j :: js, by rw [itemsJson, hj, hjs]; rfl, ⟨hnum, hnums⟩, ?_⟩
    intro heq
    rw [receivedItems, List.cons.injEq] at heq
    obtain ⟨hnone, huni⟩ := hexact heq.1
    obtain ⟨hnones, hunis⟩ := hexacts heq.2
    exact ⟨by rw [itemsJson, hnone, hnones]; rfl, huni, hunis⟩

end

end

end Repost.Ordered
