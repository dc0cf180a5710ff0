import Repost.IssueRules
import Repost.Nesting

namespace Repost.Serialize
open GoText
set_option autoImplicit true

/-- No field carries an entry of the first descriptor format. -/
def SchemaDescriptor.Modern (schema : SchemaDescriptor α) : Prop :=
  ∀ model fields, lookup model schema.models = some fields →
    ∀ field ∈ fields, field.model = [] ∧ field.enum = none

def SchemaDescriptor.HasEvent (schema : SchemaDescriptor α) (event : EventDescriptor) : Prop :=
  ∃ group members member, (group, members) ∈ schema.webhooks ∧ (member, event) ∈ members

def Issue.OfDescriptor (i : Issue) : Prop :=
  i.code = .unknownScalarKind ∨ i.code = .invalidDescriptorReference

def SerializerError.OfDescriptor : SerializerError → Prop
  | .noDescriptor _ => True
  | .notObject _ | .panicked => False
  | .issue i => i.OfDescriptor
  | .issues e => ∃ i ∈ e.issues, i.OfDescriptor

section
variable {α : Type} {schema : SchemaDescriptor α} {view : α → Node α} {generators : Generators}

theorem accepted_event (h : validateSchemaDescriptor schema = none) (he : schema.HasEvent event) :
    (lookup event.model schema.models).isSome = true := by
  obtain ⟨group, members, member, hgroup, hmember⟩ := he
  have hwebhooks : validateWebhooks schema = none := by
    unfold validateSchemaDescriptor at h
    split at h
    · cases h
    · split at h
      · cases h
      · exact h
  have hgroup' := List.findSome?_eq_none_iff.mp hwebhooks _ hgroup
  have hevent : validateEvent schema group member event = none :=
    List.findSome?_eq_none_iff.mp hgroup' _ hmember
  unfold validateEvent at hevent
  split at hevent
  · assumption
  · cases hevent

theorem accepted_target (h : validateSchemaDescriptor schema = none) (hmodern : schema.Modern)
    (hm : lookup model schema.models = some fields) (hf : field ∈ fields) (ht : field.target ≠ []) :
    (lookup field.target schema.models).isSome = true := by
  unfold FieldDescriptor.target at ht ⊢
  split
  case isTrue hk => exact ((accepted_fields h hm field hf).model hk).1
  case isFalse hk =>
    rw [if_neg hk] at ht
    exact absurd (hmodern model fields hm field hf).1 ht

def closedRule (schema : SchemaDescriptor α) : IssueRule α where
  place _ := True
  made i := ¬ i.OfDescriptor
  kept i := ¬ i.OfDescriptor
  known model := (lookup model schema.models).isSome = true
  missing := False

theorem closedRule_sound (h : validateSchemaDescriptor schema = none) (hmodern : schema.Modern) :
    (closedRule schema).Sound schema where
  root := trivial
  index _ _ := trivial
  star _ := trivial
  field _ _ _ := trivial
  issue _ hc hd := by
    rintro (heq | heq)
    · exact hc heq
    · exact hd heq
  descriptor := by
    intro path model fields field i _ _ hm hf hd
    rw [(accepted_fields h hm field hf).descriptor path] at hd
    cases hd
  cut h := by
    rcases h with h | h
    · exact h
    · exact h
  target _ hm hf ht := accepted_target h hmodern hm hf ht
  descriptorOf hk hm := by
    change (lookup _ schema.models).isSome = true at hk
    rw [hm] at hk
    cases hk

theorem reached_known (h : validateSchemaDescriptor schema = none) (hmodern : schema.Modern)
    (hk : (lookup model schema.models).isSome = true)
    (hreach : Relation.ReflTransGen (fun a b => Below view schema generators b a)
      (.model model input) spot) :
    ∀ name given, spot = .model name given → (lookup name schema.models).isSome = true := by
  induction hreach with
  | refl =>
    intro name given heq
    cases heq
    exact hk
  | tail hreach hstep ih =>
    intro name given heq
    subst heq
    cases hstep with
    | model hheld ht =>
      cases hheld with
      | mk hm hget hf hs hp => exact accepted_target h hmodern hm hf ht

variable [Addressed α]

/-- Serializing an event of an accepted schema comes to no model that is missing and to no field with
an unknown kind or a missing enum, and returns no error about a descriptor. -/
theorem validated_schema_closed (h : validateSchemaDescriptor schema = none)
    (hmodern : schema.Modern) (he : schema.HasEvent event) (input : Given α) :
    (∀ name given, Relation.ReflTransGen (fun a b => Below view schema generators b a)
        (.model event.model input) (.model name given) →
      ∃ fields, lookup name schema.models = some fields ∧ ∀ field ∈ fields, field.Sound schema) ∧
    ∀ fuel err, serializeModelAtUnchecked view schema generators fuel event.model input (lit "$") =
      some (.error err) → ¬ err.OfDescriptor := by
  have hk := accepted_event h he
  constructor
  · intro name given hreach
    have hname := reached_known h hmodern hk hreach name given rfl
    obtain ⟨fields, hfields⟩ := Option.isSome_iff_exists.mp hname
    exact ⟨fields, hfields, accepted_fields h hfields⟩
  · intro fuel err herr
    have hholds := (closedRule_sound h hmodern).serializer fuel event.model input _ err hk trivial herr
    cases err with
    | issues e =>
      rintro ⟨i, hi, hbad⟩
      exact hholds i hi hbad
    | issue i => exact hholds
    | noDescriptor model => exact hholds.elim
    | notObject model => exact id
    | panicked => exact id

end

namespace Sample

/-- An order with a list of lines, each of which has an amount. -/
def shop : SchemaDescriptor Nat :=
  { descriptorFormatVersion := 2
    models := [
      (lit "Line", [{ schemaName := lit "amount", wireName := lit "amount", scalarKind := .int64 }]),
      (lit "Order", [{ schemaName := lit "lines", wireName := lit "lines", scalarKind := .model,
                       descriptorID := lit "Line", list := true }])]
    webhooks := [(lit "orders", [(lit "placed", { type := lit "order.placed", model := lit "Order" })])] }

def placed : Nat → Node Nat
  | 0 => .map .stringToAny (some [(lit "lines", 1)])
  | 1 => .slice .any (some [2])
  | 2 => .map .stringToAny (some [(lit "amount", 3)])
  | 3 => .bool true
  | _ => .nil

theorem shop_modern : shop.Modern := by
  intro model fields hm field hf
  have hmem := lookup_mem hm
  simp only [shop, List.mem_cons, Prod.mk.injEq, List.not_mem_nil, or_false] at hmem
  rcases hmem with ⟨-, rfl⟩ | ⟨-, rfl⟩
  · rw [List.mem_singleton.mp hf]
    exact ⟨rfl, rfl⟩
  · rw [List.mem_singleton.mp hf]
    exact ⟨rfl, rfl⟩

end Sample

theorem placed_closed : ∃ err : SerializerError,
    serializeModelAtUnchecked Sample.placed Sample.shop Sample.texts 4 (lit "Order") (.value 0)
      (lit "$") = some (.error err) ∧ ¬ err.OfDescriptor := by
  obtain ⟨err, herr⟩ : ∃ err : SerializerError,
      serializeModelAtUnchecked Sample.placed Sample.shop Sample.texts 4 (lit "Order") (.value 0)
        (lit "$") = some (.error err) := ⟨_, rfl⟩
  have hevent : Sample.shop.HasEvent { type := lit "order.placed", model := lit "Order" } :=
    ⟨_, _, _, List.mem_singleton_self _, List.mem_singleton_self _⟩
  exact ⟨err, herr, (validated_schema_closed rfl Sample.shop_modern hevent (.value 0)).2 4 err herr⟩

end Repost.Serialize
