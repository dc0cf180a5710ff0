import Repost.Conformance
import Repost.Traversal
import Mathlib.Data.Set.Card

namespace Repost.Serialize
open GoText Traversal
set_option autoImplicit true

section
variable {α : Type} {view : α → Node α}

/-- An element of an array, which is part of the array itself. -/
inductive Inline (view : α → Node α) : α → α → Prop
  | mk (hv : view v = .array items) (hw : w ∈ items) : Inline view w v

theorem walkAll_some {f : Nat → β → Issues → Option Issues}
    (h : ∀ x ∈ xs, ∀ i e, (f i x e).isSome = true) (i : Nat) (e : Issues) :
    (walkAll f i xs e).isSome = true := by
  induction xs generalizing i e with
  | nil => rfl
  | cons x xs ih =>
    obtain ⟨next, hnext⟩ := Option.isSome_iff_exists.1 (h x List.mem_cons_self i e)
    rw [walkAll, hnext]
    exact ih (fun y hy => h y (List.mem_cons_of_mem x hy)) _ _

variable [Addressed α]

theorem unseen_lt [Finite α] (hnew : jsonAncestor view v ∉ ancestors) :
    {x | jsonAncestor view x ∉ jsonAncestor view v :: ancestors}.ncard <
      {x | jsonAncestor view x ∉ ancestors}.ncard := by
  apply Set.ncard_lt_ncard _ (Set.toFinite _)
  refine ⟨fun x hx hmem => hx (List.mem_cons_of_mem _ hmem), fun hsub => ?_⟩
  exact hsub hnew List.mem_cons_self

theorem validateJSONAt_seen (hseen : jsonAncestor view v ∈ ancestors)
    (hv : ∀ items, view v ≠ .array items) (path : Bytes) (e : Issues) :
    (validateJSONAt view (n + 1) v path ancestors e).isSome = true := by
  unfold validateJSONAt
  split
  · rw [if_pos hseen]
    rfl
  · rw [if_pos hseen]
    rfl
  · exact absurd ‹_› (hv _)
  · rw [if_pos hseen]
    rfl
  · split <;> rfl

/-- The walk through a value of kind json ends: it enters a map, a pointer or a slice only if it is
not inside it already, and there are finitely many of them. -/
theorem validateJSONAt_ends [Finite α] (hinline : WellFounded (Inline view)) (v : α)
    (ancestors : List JsonAncestor) : ∀ᶠ n in Filter.atTop, ∀ path e,
      (validateJSONAt view n v path ancestors e).isSome = true := by
  generalize hk : {x | jsonAncestor view x ∉ ancestors}.ncard = k
  induction k using Nat.strong_induction_on generalizing v ancestors with
  | _ k ihk =>
  induction hinline.apply v with
  | intro v _ ihv =>
    have hinside : jsonAncestor view v ∉ ancestors → ∀ ws : List α, ∀ᶠ n in Filter.atTop,
        ∀ w ∈ ws, ∀ path e,
          (validateJSONAt view n w path (jsonAncestor view v :: ancestors) e).isSome = true := by
      intro hnew ws
      subst hk
      exact eventually_all fun w _ => ihk _ (unseen_lt hnew) w _ rfl
    apply eventually_succ
    by_cases hseen : jsonAncestor view v ∈ ancestors ∧ ∀ items, view v ≠ .array items
    · exact Filter.Eventually.of_forall fun n => validateJSONAt_seen hseen.1 hseen.2
    · have hfresh : (∀ items, view v ≠ .array items) → jsonAncestor view v ∉ ancestors :=
        fun hv hmem => hseen ⟨hmem, hv⟩
      cases hv : view v with
      | array items =>
        filter_upwards [eventually_all fun w (hw : w ∈ items) => ihv w (.mk hv hw)] with n hn path e
        simp only [validateJSONAt, hv, validateItems_eq]
        exact walkAll_some (fun w hw i => hn w hw _) 0 e
      | pointer target =>
        have hnew := hfresh (by simp [hv])
        filter_upwards [hinside hnew target.toList] with n hn path e
        cases target with
        | none => simp only [validateJSONAt, hv, Node.flaw, Option.isSome_some]
        | some target =>
          simp only [validateJSONAt, hv, if_neg hnew]
          exact hn target (List.mem_singleton_self _) path e
      | slice type items =>
        have hnew := hfresh (by simp [hv])
        filter_upwards [hinside hnew (items.getD [])] with n hn path e
        cases items with
        | none => simp only [validateJSONAt, hv, Node.flaw, Option.isSome_some]
        | some items =>
          simp only [validateJSONAt, hv, if_neg hnew, validateItems_eq]
          exact walkAll_some (fun w hw i => hn w hw _) 0 e
      | map type entries =>
        have hnew := hfresh (by simp [hv])
        filter_upwards [hinside hnew ((entries.getD []).map Prod.snd)] with n hn path e
        cases entries with
        | none => simp only [validateJSONAt, hv, Node.flaw, Option.isSome_some]
        | some entries =>
          simp only [validateJSONAt, hv, if_neg hnew, validateEntries_eq _ _ 0]
          split
          · rfl
          · exact walkAll_some (fun entry hmem i => hn _ (List.mem_map_of_mem hmem) _) 0 e
      | _ =>
        refine Filter.Eventually.of_forall fun n path e => ?_
        simp only [validateJSONAt, hv]
        split <;> rfl

/-- There is a value of kind json that the fuel is too short for. -/
def Short (view : α → Node α) (n : Nat) : Prop :=
  ∃ v path, validateJSONAt view n v path [] {} = none

theorem eventually_not_short [Finite α] (hinline : WellFounded (Inline view)) :
    ∀ᶠ n in Filter.atTop, ¬Short view n := by
  have hall := (Filter.eventually_all_finite (Set.toFinite (Set.univ : Set α))).2 fun v _ =>
    validateJSONAt_ends hinline v []
  filter_upwards [hall] with n hn
  rintro ⟨v, path, h⟩
  have hsome := hn v (Set.mem_univ v) path {}
  rw [h] at hsome
  cases hsome

theorem short_of_validateScalar (h : validateScalar view n kind given path = none) :
    Short view n := by
  unfold validateScalar at h
  split at h
  · unfold validateJSON at h
    have hnone := Option.map_eq_none_iff.1 h
    split at hnone
    · exact ⟨_, _, hnone⟩
    · split at hnone <;> cases hnone
  · dsimp only at h
    split at h
    · cases h
    · split at h <;> cases h

/-- How a call ends for its caller: not at all, with an error that ends the traversal, or otherwise. -/
def gist : Outcome β → Option (Option SerializerError)
  | none => none
  | some (.ok _) | some (.error (.issue _)) | some (.error (.issues _)) => some none
  | some (.error err) => some (some err)

theorem validateScalar_gist (h : validateScalar view n kind given path = some (some err)) :
    gist (some (.error err) : Outcome β) = some none := by
  unfold validateScalar at h
  split at h
  · obtain ⟨e, -, herr⟩ := Option.map_eq_some_iff.1 h
    split at herr
    · cases herr
      rfl
    · cases herr
  · dsimp only at h
    split at h
    · cases h
      rfl
    · split at h
      · cases h
      · cases h
        rfl

theorem gist_error (err : SerializerError) :
    gist (some (.error err) : Outcome β) = gist (some (.error err) : Outcome γ) := by
  cases err <;> rfl

abbrev Turn (α : Type) := Except SerializerError (Bytes × Given α)

def FieldDescriptor.turn (field : FieldDescriptor α) : Given α → List (Turn α)
  | .dateTime _ => []
  | part => if field.target = [] then [] else [.ok (field.target, part)]

def fieldTurns (view : α → Node α) (generators : Generators) (get : Getter α)
    (field : FieldDescriptor α) : List (Turn α) :=
  if get.panics (fieldName field) then [.error .panicked]
  else
    match supply generators get field with
    | none => []
    | some whole => (field.parts view whole).flatMap field.turn

/-- What the traversal of the input for a model comes to, in order: the inputs for models that it holds,
or an error. -/
def turns (view : α → Node α) (schema : SchemaDescriptor α) (generators : Generators)
    (p : Bytes × Given α) : List (Turn α) :=
  match lookup p.1 schema.models with
  | none => [.error (.noDescriptor p.1)]
  | some fields =>
    match inputGetter view p.1 p.2 with
    | .error (.issue _) => []
    | .error err => [.error err]
    | .ok get => fields.flatMap (fieldTurns view generators get)

variable {schema : SchemaDescriptor α} {generators : Generators} {S : ModelSerializer α}

def ModelSerializer.run (S : ModelSerializer α) (q : Bytes × Given α)
    (r : Option (Option SerializerError)) : Prop := ∃ path, gist (S q.1 q.2 path) = r

theorem serializeItem_follows (hv : isV2Field field = true) :
    Follows (Short view n) S.run (field.turn given)
      (gist (serializeItem view schema n S field given path)) := by
  by_cases ht : field.target = []
  · have hnone : field.turn given = [] := by cases given <;> simp [FieldDescriptor.turn, ht]
    rw [hnone]
    unfold serializeItem
    split
    · exact .done
    · rw [if_neg (by simp [ht])]
      split
      · split
        · split <;> exact .done
        · rw [if_pos hv]
          exact .done
      · split
        · exact .done
        · rw [if_pos hv]
          split
          · exact .starved (short_of_validateScalar ‹_›)
          · rw [validateScalar_gist ‹_›]
            exact .done
          · exact .done
  · have hother : ∀ given : Given α, (∀ s, given ≠ .dateTime s) →
        Follows (Short view n) S.run [.ok (field.target, given)]
          (gist (serializeItem view schema n S field given path)) := by
      intro given hgiven
      unfold serializeItem
      split
      · exact absurd rfl (hgiven _)
      · rw [if_pos (by simp [ht])]
        exact .single ⟨path, rfl⟩
    unfold FieldDescriptor.turn
    split
    · exact .done
    · rw [if_neg ht]
      exact hother given fun s h => by simp_all

omit [Addressed α] in
theorem serializeItems_follows {item : α → Bytes → Outcome (Payload α)} {short : Prop}
    {turn : Given α → List (Turn α)} (hv : isV2Field field = true)
    (hitem : ∀ v path, Follows short S.run (turn (.value v)) (gist (item v path))) :
    Follows short S.run (((items.filter fun v => !(view v).isNil).map .value).flatMap turn)
      (gist (serializeItems view item field path i items collected)) := by
  induction items generalizing i collected with
  | nil => exact .done
  | cons v items ih =>
    obtain ⟨payloads, e⟩ := collected
    unfold serializeItems
    dsimp only
    rw [hv, Bool.and_true]
    split
    · rename_i hnil
      rw [List.filter_cons_of_neg (by simp [hnil])]
      exact ih
    · rename_i hnil
      rw [List.filter_cons_of_pos (by simpa using hnil), List.map_cons, List.flatMap_cons]
      have h := hitem v (indexPath path i)
      cases hout : item v (indexPath path i) with
      | none =>
        rw [hout] at h
        exact h.append (fun h => by cases h) fun _ => rfl
      | some out =>
        rw [hout] at h
        cases out with
        | ok payload => exact h.append (fun _ => ih) fun h => absurd rfl h
        | error err =>
          cases err with
          | issue i => exact h.append (fun _ => ih) fun h => absurd rfl h
          | issues e => exact h.append (fun _ => ih) fun h => absurd rfl h
          | _ => exact h.append (fun h => by cases h) fun _ => rfl

theorem serializeValue_follows (hv : isV2Field field = true) :
    Follows (Short view n) S.run ((field.parts view given).flatMap field.turn)
      (gist (serializeValue view schema n S field given path)) := by
  unfold FieldDescriptor.parts serializeValue
  dsimp only
  split
  · exact .done
  · split
    · cases hitems : (given.node view).items with
      | none => exact .done
      | some items =>
        cases items with
        | none => exact .done
        | some items =>
          dsimp only [Option.getD_some]
          have h : Follows (Short view n) S.run
              (((items.filter fun v => !(view v).isNil).map .value).flatMap field.turn)
              (gist (serializeItems view (fun v => serializeItem view schema n S field (.value v))
                field path 0 items ([], {}))) :=
            serializeItems_follows hv fun _ _ => serializeItem_follows hv
          cases hloop : serializeItems view (fun v => serializeItem view schema n S field (.value v))
              field path 0 items ([], {}) with
          | none =>
            rw [hloop] at h
            exact h
          | some out =>
            rw [hloop] at h
            cases out with
            | error err => exact gist_error err ▸ h
            | ok collected =>
              dsimp only
              split <;> exact h
    · rw [List.flatMap_singleton]
      exact serializeItem_follows hv

variable {get : Getter α}

theorem serializeField_follows (hf : field.Sound schema) :
    Follows (Short view n) S.run (fieldTurns view generators get field)
      (gist (serializeField view schema generators n S get path field collected)) := by
  obtain ⟨members, e⟩ := collected
  unfold serializeField fieldTurns
  dsimp only
  rw [hf.descriptor]
  dsimp only
  split
  · exact .stops
  · cases supply generators get field with
    | none =>
      dsimp only
      split <;> exact .done
    | some whole =>
      dsimp only
      split
      · rename_i hnil
        rw [FieldDescriptor.parts, if_pos (by simp_all)]
        exact .done
      · have h : Follows (Short view n) S.run ((field.parts view whole).flatMap field.turn)
            (gist (serializeValue view schema n S field whole (appendPath path (fieldName field)))) :=
          serializeValue_follows hf.named
        cases hout : serializeValue view schema n S field whole (appendPath path (fieldName field)) with
        | none =>
          rw [hout] at h
          exact h
        | some out =>
          rw [hout] at h
          cases out with
          | ok payload => exact h
          | error err => cases err <;> exact h

theorem serializeField_stops (hf : field.Sound schema)
    (h : serializeField view schema generators n S get path field collected = some (.error err)) :
    gist (some (.error err) : Outcome β) ≠ some none := by
  obtain ⟨members, e⟩ := collected
  unfold serializeField at h
  dsimp only at h
  rw [hf.descriptor] at h
  dsimp only at h
  split at h
  · cases h
    exact fun h => by cases h
  · split at h
    · split at h <;> cases h
    · split at h
      · cases h
      · split at h
        · cases h
        · cases h
        · split at h
          · cases h
          · rename_i hadd
            cases h
            cases err with
            | issue i | issues e => cases hadd
            | _ => exact fun h => by cases h

theorem serializeFields_follows (hf : ∀ field ∈ fields, field.Sound schema) :
    Follows (Short view n) S.run (fields.flatMap (fieldTurns view generators get))
      (gist (serializeFields view schema generators n S get path fields collected)) := by
  induction fields generalizing collected with
  | nil => exact .done
  | cons field fields ih =>
    have h : Follows (Short view n) S.run (fieldTurns view generators get field)
        (gist (serializeField view schema generators n S get path field collected)) :=
      serializeField_follows (hf field List.mem_cons_self)
    rw [List.flatMap_cons]
    unfold serializeFields
    cases hout : serializeField view schema generators n S get path field collected with
    | none =>
      rw [hout] at h
      exact h.append (fun h => by cases h) fun _ => rfl
    | some out =>
      rw [hout] at h
      cases out with
      | ok collected =>
        refine h.append (fun _ => ih ?_) fun h => absurd rfl h
        exact fun f hmem => hf f (List.mem_cons_of_mem field hmem)
      | error err =>
        have hstop := serializeField_stops (β := List (Bytes × Payload α) × Issues)
          (hf field List.mem_cons_self) hout
        exact h.append (fun h => absurd h hstop) fun _ => rfl

theorem serializer_traverses (hs : validateSchemaDescriptor schema = none) :
    Traverses (turns view schema generators)
      (fun n => (serializeModelAtUnchecked view schema generators n).run) (Short view) := by
  constructor
  · rintro p r ⟨path, rfl⟩
    rfl
  · rintro n p r ⟨path, rfl⟩
    unfold serializeModelAtUnchecked turns
    cases hmodel : lookup p.1 schema.models with
    | none => exact .stops
    | some fields =>
      dsimp only
      cases hget : inputGetter view p.1 p.2 with
      | error err => cases err with
        | issue i => exact .done
        | issues e =>
          rcases inputGetter_plain hget (fun _ h => by cases h)
        | _ => exact .stops
      | ok get =>
        have h : Follows (Short view n) (serializeModelAtUnchecked view schema generators n).run
            (fields.flatMap (fieldTurns view generators get))
            (gist (serializeFields view schema generators n
              (serializeModelAtUnchecked view schema generators n) get path fields ([], {}))) :=
          serializeFields_follows (accepted_fields hs hmodel)
        dsimp only
        cases hloop : serializeFields view schema generators n
            (serializeModelAtUnchecked view schema generators n) get path fields ([], {}) with
        | none =>
          rw [hloop] at h
          exact h
        | some out =>
          rw [hloop] at h
          cases out with
          | error err => exact gist_error err ▸ h
          | ok collected =>
            dsimp only
            split <;> exact h

end

end Repost.Serialize
