import Repost.GoJson
import Repost.LimitAgreement
import Repost.TreeJson

namespace Repost.Ordered
open GoText Serialize StrictJson
set_option autoImplicit true

/-- A value in a payload that is encoded by `encoding/json`: nil, one of the caller's, or a `[]any`
below the depth to which the model follows it. -/
inductive Leaf (α : Type) where
  | nil
  | value (v : α)
  | beyond

section
variable (view : α → Node α) [Marshalers α]

def Leaf.json (c : Conventions α) (n : Nat) : Leaf α → Option Json
  | .nil => some .null
  | .value v => goJson view c n v
  | .beyond => none

/-- A value as the type switch of the encoder with a limit takes it. -/
def nodeTree (tree : α → Tree (Leaf α)) (v : α) : Node α → Tree (Leaf α)
  | .string s => .string s
  | .slice .any none => .nilList
  | .slice .any (some items) => .list (items.map tree)
  | _ => .value (.value v)

def valueTree : Nat → α → Tree (Leaf α)
  | 0, _ => .value .beyond
  | n + 1, v =>
    match Marshalers.own v with
    | some _ => .value (.value v)
    | none => nodeTree (valueTree n) v (view v)

mutual

def payloadTree (n : Nat) : Payload α → Tree (Leaf α)
  | .nil => .value .nil
  | .object members => .object (payloadMembers n members)
  | .list items => .list (payloadItems n items)
  | .string s => .string s
  | .value v => valueTree view n v

def payloadMembers (n : Nat) : List (Bytes × Payload α) → List (Bytes × Tree (Leaf α))
  | [] => []
  | (key, value) :: rest => (key, payloadTree n value) :: payloadMembers n rest

def payloadItems (n : Nat) : List (Payload α) → List (Tree (Leaf α))
  | [] => []
  | item :: rest => payloadTree n item :: payloadItems n rest

end

structure Envelope (α : Type) where
  type : Bytes
  customerID : Bytes
  timestamp : Bytes
  data : Payload α

def Envelope.fields (e : Envelope α) : List (Bytes × Payload α) :=
  [(lit "type", .string e.type), (lit "customerId", .string e.customerID),
    (lit "timestamp", .string e.timestamp), (lit "data", e.data)]

def Envelope.members (e : Envelope α) (n : Nat) : List (Bytes × Tree (Leaf α)) :=
  payloadMembers view n e.fields

variable (foreign : α → Option Json)

/-- `encodeJSONValue` of a value that is neither an object, nor a `[]any`, nor a string. -/
def encodeLeaf (n : Nat) (leaf : Leaf α) : Option Bytes :=
  (leaf.json view (encodingJson foreign) n).map writeJson

def marshalEnvelope (n : Nat) (e : Envelope α) : Except Stop Bytes :=
  marshalJSONLimit (encodeLeaf view foreign n) maxPayloadBytes (e.members view n)

def Envelope.meant (e : Envelope α) (n : Nat) : Option Json :=
  (Tree.object (e.members view n)).json (some .null) (Leaf.json view strict n)

/-- The body is made, and if it is not too large it is read back as what the caller means. -/
def FaithfulAt (n : Nat) (e : Envelope α) : Prop :=
  ∃ body, marshalEnvelope view foreign n e = .ok body ∧
    (body.length ≤ maxPayloadBytes → ∃ a, e.meant view n = some a ∧ decode body = some a)

def TooLargeAt (n : Nat) (e : Envelope α) : Prop :=
  maxPayloadBytes < reachLength (encodeLeaf view foreign n) (e.members view n)

/-- Every value is one of JSON, no `[]any` is nil, and every string is valid UTF-8. -/
def CleanAt (n : Nat) (e : Envelope α) : Prop :=
  ∃ a, (Tree.object (e.members view n)).json none (Leaf.json view strict n) = some a ∧ Unicode a

end

section
variable {view : α → Node α} {foreign : α → Option Json} [Marshalers α]

theorem leaf_json_strict (leaf : Leaf α) (j : Json) (h : leaf.json view strict n = some j) :
    leaf.json view (encodingJson foreign) n = some j ∧ Numeric j := by
  cases leaf with
  | nil =>
    cases h
    exact ⟨rfl, trivial⟩
  | value v => exact ⟨goJson_mono (strict_below _) (Nat.le_refl n) h, goJson_numeric h⟩
  | beyond => cases h

variable {e : Envelope α}

theorem faithfulAt_of_tooLarge (h : TooLargeAt view foreign n e) :
    FaithfulAt view foreign n e := by
  obtain ⟨full, hrun, hfull⟩ := overflow_run (by decide) h
  refine ⟨full, congrArg forgiven hrun, ?_⟩
  intro hle
  rw [hfull] at hle
  exact absurd hle (Nat.not_succ_le_self _)

theorem marshalEnvelope_of_json (h : ¬ TooLargeAt view foreign n e)
    (hj : (Tree.object (e.members view n)).json (some (.array []))
      (Leaf.json view (encodingJson foreign) n) = some j) :
    marshalEnvelope view foreign n e = .ok (writeJson j) := by
  have hr : (Tree.object (e.members view n)).reach (encodeLeaf view foreign n) = (writeJson j, none) :=
    Tree.reach_of_json _ hj
  have hlen : (writeJson j).length ≤ maxPayloadBytes := by
    have hle := Nat.not_lt.mp h
    rwa [reachLength, hr] at hle
  exact congrArg forgiven (reach_run (by decide) hlen hr)

theorem marshalEnvelope_length (h : ¬ TooLargeAt view foreign n e)
    (hm : marshalEnvelope view foreign n e = .ok body) : body.length ≤ maxPayloadBytes := by
  have hle := Nat.not_lt.mp h
  unfold reachLength at hle
  cases hr : (Tree.object (e.members view n)).reach (encodeLeaf view foreign n) with
  | mk bytes stop =>
  rw [hr] at hle
  have hrun : marshalEnvelope view foreign n e = forgiven (ended bytes stop) :=
    congrArg forgiven (reach_run (by decide) hle hr)
  rw [hrun] at hm
  cases stop with
  | none =>
    cases hm
    exact hle
  | some stop =>
    cases stop with
    | limit =>
      cases hm
      exact hle
    | failed | panicked => cases hm

theorem cleanAt_of_faithfulAt (h : ¬ TooLargeAt view foreign n e)
    (hf : FaithfulAt view foreign n e) : CleanAt view n e := by
  obtain ⟨body, hm, hread⟩ := hf
  obtain ⟨a, ha, hdecode⟩ := hread (marshalEnvelope_length h hm)
  obtain ⟨j, hj, hnum, hexact⟩ := Tree.sent_of_meant leaf_json_strict _ ha
  rw [marshalEnvelope_of_json h hj] at hm
  cases hm
  rw [decode_writeJson hnum] at hdecode
  exact ⟨a, hexact (Option.some.inj hdecode)⟩

theorem clean_sent (h : ¬ TooLargeAt view foreign n e)
    (hc : (Tree.object (e.members view n)).json none (Leaf.json view strict n) = some a)
    (hu : Unicode a) :
    marshalEnvelope view foreign n e = .ok (writeJson a) ∧ e.meant view n = some a ∧
      decode (writeJson a) = some a := by
  have hnil : ∀ (nl : Option Json) j, none = some j → nl = some j := nofun
  have hmeant : e.meant view n = some a := Tree.json_mono (hnil _) (fun _ _ h => h) _ hc
  have hsent : (Tree.object (e.members view n)).json (some (.array []))
      (Leaf.json view (encodingJson foreign) n) = some a :=
    Tree.json_mono (hnil _) (fun leaf j hj => (leaf_json_strict leaf j hj).1) _ hc
  obtain ⟨j, hj, hnum, -⟩ := Tree.sent_of_meant leaf_json_strict _ hmeant
  rw [hsent] at hj
  cases hj
  have hdecode := decode_writeJson hnum
  rw [(received_eq_iff a).mpr hu] at hdecode
  exact ⟨marshalEnvelope_of_json h hsent, hmeant, hdecode⟩

theorem faithfulAt_iff (n : Nat) (e : Envelope α) :
    FaithfulAt view foreign n e ↔ TooLargeAt view foreign n e ∨ CleanAt view n e := by
  by_cases h : TooLargeAt view foreign n e
  · exact ⟨fun _ => .inl h, fun _ => faithfulAt_of_tooLarge h⟩
  · constructor
    · intro hf
      exact .inr (cleanAt_of_faithfulAt h hf)
    · rintro (hlarge | ⟨a, ha, hu⟩)
      · exact absurd hlarge h
      · obtain ⟨hm, hmeant, hdecode⟩ := clean_sent h ha hu
        exact ⟨_, hm, fun _ => ⟨a, hmeant, hdecode⟩⟩

omit [Marshalers α] in
theorem itemsJson_map {read read' : β → Option Json} {f g : α → Tree β} {items : List α}
    (h : ∀ w ∈ items, ∀ j, (f w).json nl read = some j → (g w).json nl read' = some j)
    (hj : itemsJson nl read (items.map f) = some js) :
    itemsJson nl read' (items.map g) = some js := by
  induction items generalizing js with
  | nil => exact hj
  | cons w items ih =>
    obtain ⟨j, js', hhead, htail, rfl⟩ := itemsJson_cons hj
    have hrest := ih (fun w' hw' => h w' (List.mem_cons_of_mem w hw')) htail
    rw [List.map_cons, itemsJson, h w List.mem_cons_self j hhead, hrest]
    rfl

theorem leaf_json_mono (hnm : n ≤ m) (leaf : Leaf α) (j : Json)
    (h : leaf.json view strict n = some j) : leaf.json view strict m = some j := by
  cases leaf with
  | nil => exact h
  | value v => exact goJson_mono (.refl _) hnm h
  | beyond => cases h

theorem nodeTree_mono {f g : α → Tree (Leaf α)} (hnm : n ≤ m)
    (hfg : ∀ w j, (f w).json none (Leaf.json view strict n) = some j →
      (g w).json none (Leaf.json view strict m) = some j) (node : Node α)
    (h : (nodeTree f v node).json none (Leaf.json view strict n) = some a) :
    (nodeTree g v node).json none (Leaf.json view strict m) = some a := by
  have hleaf : Leaf.json view strict n (.value v) = some a → Leaf.json view strict m (.value v) = some a :=
    leaf_json_mono hnm (.value v) a
  cases node with
  | string s => exact h
  | slice type items =>
    cases type with
    | any =>
      cases items with
      | none => cases h
      | some items =>
        obtain ⟨js, hjs, rfl⟩ := Option.map_eq_some_iff.mp h
        have hrest := itemsJson_map (fun w _ => hfg w) hjs
        rw [nodeTree, Tree.json, hrest]
        rfl
    | bytes | other => exact hleaf h
  | _ => exact hleaf h

theorem valueTree_mono (hnm : n ≤ m) (hk : k ≤ l)
    (h : (valueTree view k v).json none (Leaf.json view strict n) = some a) :
    (valueTree view l v).json none (Leaf.json view strict m) = some a := by
  induction k generalizing l v a with
  | zero => cases h
  | succ k ih =>
    obtain ⟨l, rfl⟩ : ∃ i, l = i + 1 := ⟨l - 1, by omega⟩
    unfold valueTree at h ⊢
    cases hown : Marshalers.own v with
    | some own =>
      simp only [hown] at h ⊢
      exact leaf_json_mono hnm (.value v) a h
    | none =>
      simp only [hown] at h ⊢
      exact nodeTree_mono hnm (fun w j => ih (Nat.le_of_succ_le_succ hk)) (view v) h

mutual

theorem payloadTree_mono (hnm : n ≤ m) : ∀ (p : Payload α) {a : Json},
    (payloadTree view n p).json none (Leaf.json view strict n) = some a →
      (payloadTree view m p).json none (Leaf.json view strict m) = some a
  | .nil, _, h => h
  | .object members, _, h => by
    obtain ⟨ms, hms, rfl⟩ := Option.map_eq_some_iff.mp h
    rw [payloadTree, Tree.json, payloadMembers_mono hnm members hms]
    rfl
  | .list items, _, h => by
    obtain ⟨js, hjs, rfl⟩ := Option.map_eq_some_iff.mp h
    rw [payloadTree, Tree.json, payloadItems_mono hnm items hjs]
    rfl
  | .string _, _, h => h
  | .value _, _, h => valueTree_mono hnm hnm h

theorem payloadMembers_mono (hnm : n ≤ m) : ∀ (members : List (Bytes × Payload α))
    {ms : List (Bytes × Json)},
    membersJson none (Leaf.json view strict n) (payloadMembers view n members) = some ms →
      membersJson none (Leaf.json view strict m) (payloadMembers view m members) = some ms
  | [], _, h => h
  | (key, value) :: rest, _, h => by
    obtain ⟨j, ms', hj, hms, rfl⟩ := membersJson_cons h
    rw [payloadMembers, membersJson, payloadTree_mono hnm value hj, payloadMembers_mono hnm rest hms]
    rfl

theorem payloadItems_mono (hnm : n ≤ m) : ∀ (items : List (Payload α)) {js : List Json},
    itemsJson none (Leaf.json view strict n) (payloadItems view n items) = some js →
      itemsJson none (Leaf.json view strict m) (payloadItems view m items) = some js
  | [], _, h => h
  | item :: rest, _, h => by
    obtain ⟨j, js', hj, hjs, rfl⟩ := itemsJson_cons h
    rw [payloadItems, itemsJson, payloadTree_mono hnm item hj, payloadItems_mono hnm rest hjs]
    rfl

end

theorem CleanAt.mono {e : Envelope α} (hnm : n ≤ m) (h : CleanAt view n e) : CleanAt view m e := by
  obtain ⟨a, ha, hu⟩ := h
  exact ⟨a, payloadTree_mono hnm (.object e.fields) ha, hu⟩

end

section
variable (view : α → Node α) [Marshalers α] (foreign : α → Option Json) (e : Envelope α)

def Eventually (P : Nat → Prop) : Prop := ∃ n, ∀ m, n ≤ m → P m

def Faithful : Prop := Eventually fun n => FaithfulAt view foreign n e

def TooLarge : Prop := Eventually fun n => TooLargeAt view foreign n e

def Clean : Prop := Eventually fun n => CleanAt view n e

end

section
variable {view : α → Node α} [Marshalers α] {foreign : α → Option Json}

end

namespace Sample

/-- Two inputs with one field, whose texts differ in a byte that is not part of valid UTF-8. -/
def garbled : Nat → Node Nat
  | 0 => .map .stringToAny (some [(lit "text", 2)])
  | 1 => .map .stringToAny (some [(lit "text", 3)])
  | 2 => .string [0xFF]
  | 3 => .string [0xFE]
  | _ => .nil

def texts : SchemaDescriptor Nat :=
  { descriptorFormatVersion := 2
    models := [(lit "Text", [{ schemaName := lit "text", wireName := lit "text", scalarKind := .string }])] }

def generators : Generators := { now := lit "now", uuid := lit "uuid", cuid := lit "cuid" }

def enveloped (text : Nat) : Envelope Nat :=
  { type := lit "t", customerID := lit "c", timestamp := lit "now",
    data := .object [(lit "text", .value text)] }

end Sample

end Repost.Ordered
