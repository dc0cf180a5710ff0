import Repost.Findings

namespace Repost.Serialize
open GoText
set_option autoImplicit true

section
variable {α : Type} (view : α → Node α)

def JsonConforms : Nat → α → Prop
  | 0, _ => False
  | n + 1, v =>
    match view v with
    | .pointer (some target) => JsonConforms n target
    | .slice _ (some items) | .array items => ∀ w ∈ items, JsonConforms n w
    | .map type (some entries) =>
      Node.flaw [] (.map type (some entries) : Node α) = none ∧ ∀ e ∈ entries, JsonConforms n e.2
    | node => node.flaw [] = none

def ScalarConforms (n : Nat) (kind : ScalarKind) (nullable : Bool) (given : Given α) : Prop :=
  match kind, given with
  | .json, .value v => JsonConforms view n v ∧ (nullable = false → jsonNull view n v = false)
  | .json, _ => (given.node view).flaw [] = none
  | .enum, _ => (given.node view).text.isSome = true
  | kind, _ =>
    (given.node view).hasKind kind = true ∧
      (kind = .float64 → (given.node view).isNonFinite = false)

variable (schema : SchemaDescriptor α)

def ItemConforms (n : Nat) (models : Bytes → Given α → Prop) (nullable : Bool)
    (field : FieldDescriptor α) (given : Given α) : Prop :=
  match given with
  | .dateTime _ => True
  | given =>
    if field.target != [] then models field.target given
    else if (field.table schema).isSome then (given.node view).text.isSome = true
    else ScalarConforms view n field.scalarKind nullable given

def ValueConforms (n : Nat) (models : Bytes → Given α → Prop) (field : FieldDescriptor α)
    (given : Given α) : Prop :=
  if field.list then
    ∃ items, (given.node view).items = some items ∧ ∀ v ∈ items.getD [],
      (view v).isNil = false ∧ ItemConforms view schema n models false field (.value v)
  else ItemConforms view schema n models field.nullableInInput field given

variable (generators : Generators)

def FieldConforms (n : Nat) (models : Bytes → Given α → Prop) (get : Getter α)
    (field : FieldDescriptor α) : Prop :=
  match supply generators get field with
  | none => field.requiredInInput = false
  | some given =>
    if given.isNil view then field.nullableInInput = true
    else ValueConforms view schema n models field given

/-- An object each of whose fields conforms, to the given depth. -/
def Conforms : Nat → Bytes → Given α → Prop
  | 0, _, _ => False
  | n + 1, modelName, input =>
    ∃ fields get, lookup modelName schema.models = some fields ∧
      inputGetter view modelName input = .ok get ∧
      ∀ field ∈ fields, FieldConforms view schema generators n (Conforms n) get field

def itemPayload (models : Bytes → Given α → Option (Payload α)) (field : FieldDescriptor α)
    (given : Given α) : Option (Payload α) :=
  match given with
  | .dateTime s => some (.string s)
  | given =>
    if field.target != [] then models field.target given
    else
      match field.table schema, (given.node view).text with
      | some table, some s =>
        -- A member of the enum goes by its wire name, and any other text as it is.
        some (match lookup s table with
          | some wire => .string wire
          | none => given.verbatim)
      | some _, none => some given.verbatim
      | none, _ =>
        match given.node view with
        | .time text => some (if field.scalarKind = .datetime then .string text else given.verbatim)
        | _ => some given.verbatim

def valuePayload (models : Bytes → Given α → Option (Payload α)) (field : FieldDescriptor α)
    (given : Given α) : Option (Payload α) :=
  if given.isNil view then some .nil
  else if field.list then
    match (given.node view).items with
    | some items =>
      ((items.getD []).mapM fun v => itemPayload view schema models field (.value v)).map .list
    | none => none
  else itemPayload view schema models field given

/-- The fields that are present or defaulted, with what they are given. -/
def suppliedFields (get : Getter α) (fields : List (FieldDescriptor α)) :
    List (FieldDescriptor α × Given α) :=
  fields.filterMap fun field => (supply generators get field).map fun given => (field, given)

/-- The payload of an input: the wire names of the fields that it supplies, in the order of the
descriptor, with their values. -/
def modelPayload : Nat → Bytes → Given α → Option (Payload α)
  | 0, _, _ => none
  | n + 1, modelName, input =>
    match lookup modelName schema.models, inputGetter view modelName input with
    | some fields, .ok get =>
      ((suppliedFields generators get fields).mapM fun (field, given) =>
        (valuePayload view schema (modelPayload n) field given).map fun payload =>
          (fieldWireName field, payload)).map .object
    | _, _ => none

end

/-- Nothing that is found is a violation. -/
def Blameless (found : Option (List Finding)) : Prop := found.map violations = some []

theorem blameless_some : Blameless (some fs) ↔ violations fs = [] := by
  simp [Blameless]

theorem gather_blameless {f : Nat → β → Option (List Finding)} {P : β → Prop}
    (hf : ∀ i, ∀ b ∈ bs, Blameless (f i b) ↔ P b) : Blameless (gather f i bs) ↔ ∀ b ∈ bs, P b := by
  induction bs generalizing i with
  | nil => simp [gather, blameless_some, violations]
  | cons b bs ih =>
    have hrest := @ih (i + 1) fun j c hc => hf j c (List.mem_cons_of_mem b hc)
    have hfirst := hf i b List.mem_cons_self
    rw [List.forall_mem_cons, ← hfirst, ← hrest, gather]
    cases f i b with
    | none => simp [Blameless]
    | some found =>
      cases gather f (i + 1) bs with
      | none => simp [Blameless]
      | some rest => simp [blameless_some, violations]

theorem Finding.covering_blameless (f : Finding) (found : Option (List Finding)) :
    Blameless (f.covering found) ↔ f.violates = false ∧ Blameless found := by
  cases found with
  | none => simp [covering, Blameless]
  | some fs =>
    have hinside : violations ((violations fs).map unnoticed) = (violations fs).map unnoticed :=
      List.filter_eq_self.2 fun g hg => by
        obtain ⟨g, -, rfl⟩ := List.mem_map.1 hg
        rfl
    rw [blameless_some, covering, Option.map_some, blameless_some]
    cases hf : f.violates with
    | true => simp [violations, hf]
    | false =>
      rw [violations, List.filter_cons_of_neg (by simp [hf]), ← violations, hinside]
      simp

theorem finding_unless (b : Bool) (h : f.violates = true) :
    Blameless (some (if b = true then [] else [f])) ↔ b = true := by
  cases b <;> simp [blameless_some, violations, h]

section
variable {α : Type} {view : α → Node α}

theorem Node.flaw_none (node : Node α) (path : Bytes) :
    node.flaw path = none ↔ node.flaw [] = none := by
  cases node with
  | number text =>
    simp only [Node.flaw]
    cases parseFloat text with
    | none => simp
    | some parsed => cases parsed <;> simp
  | float f => cases f <;> simp [Node.flaw]
  | string s =>
    simp only [Node.flaw]
    split <;> simp
  | map type entries =>
    cases entries with
    | none => simp [Node.flaw]
    | some entries =>
      simp only [Node.flaw]
      split
      · simp
      · split <;> simp
  | _ => simp [Node.flaw]

theorem flaw_findings (node : Node α) (path : Bytes) :
    Blameless (some ((node.flaw path).toList.map fun issue => { issue := issue })) ↔
      node.flaw [] = none := by
  rw [← Node.flaw_none node path]
  cases node.flaw path <;> simp [blameless_some, violations, Finding.violates]

variable [Addressed α]

theorem entering_blameless (v : α) (path : Bytes) (ancestors : List JsonAncestor)
    (found : Option (List Finding)) :
    Blameless (entering view v path ancestors found) ↔ Blameless found := by
  unfold entering
  split
  · exact (Finding.covering_blameless _ _).trans (and_iff_right rfl)
  · rfl

theorem jsonConforms_iff (n : Nat) (v : α) (path : Bytes) (ancestors : List JsonAncestor) :
    Blameless (jsonFindings view n v path ancestors) ↔ JsonConforms view n v := by
  induction n generalizing v path ancestors with
  | zero =>
    constructor
    · exact fun h => by cases h
    · exact fun h => h.elim
  | succ n ih =>
    unfold jsonFindings JsonConforms
    cases view v with
    | pointer target =>
      cases target with
      | none => exact flaw_findings _ path
      | some target => exact (entering_blameless v path ancestors _).trans (ih target path _)
    | slice type items =>
      cases items with
      | none => exact flaw_findings _ path
      | some items =>
        exact (entering_blameless v path ancestors _).trans (gather_blameless fun i w _ => ih w _ _)
    | array items => exact gather_blameless fun i w _ => ih w _ _
    | map type entries =>
      cases entries with
      | none => exact flaw_findings _ path
      | some entries =>
        refine (entering_blameless v path ancestors _).trans ?_
        have hentries := gather_blameless (i := 0) fun i e (_ : e ∈ entries) =>
          ih e.2 (starPath path) (jsonAncestor view v :: ancestors)
        dsimp only
        rw [← Node.flaw_none _ path]
        cases Node.flaw path (.map type (some entries) : Node α) with
        | some issue => simp [Finding.covering_blameless, Finding.violates]
        | none => simpa using hentries
    | _ => exact flaw_findings _ path

theorem scalarConforms_iff (n : Nat) (kind : ScalarKind) (nullable : Bool) (given : Given α)
    (path : Bytes) :
    Blameless (scalarFindings view n kind nullable given path) ↔
      ScalarConforms view n kind nullable given := by
  have hplain : ∀ kind : ScalarKind,
      Blameless (some (if kind = .float64 && (given.node view).hasKind kind &&
          (given.node view).isNonFinite then [{ issue := nonFinite path }]
        else if (given.node view).hasKind kind then []
        else [reported .typeMismatch path (lit "value does not match " ++ kind.text)])) ↔
      (given.node view).hasKind kind = true ∧
        (kind = .float64 → (given.node view).isNonFinite = false) := by
    intro kind
    cases (given.node view).hasKind kind <;> cases (given.node view).isNonFinite <;>
      by_cases hk : kind = .float64 <;>
      simp [hk, blameless_some, violations, Finding.violates, reported]
  cases kind with
  | json =>
    cases given with
    | value v =>
      unfold scalarFindings ScalarConforms
      dsimp only
      rw [← jsonConforms_iff n v path []]
      cases jsonFindings view n v path [] with
      | none => simp [Blameless]
      | some fs =>
        cases nullable <;> cases jsonNull view n v <;>
          simp [blameless_some, violations, Finding.violates, Finding.unnoticed]
    | nil | string s | dateTime s => exact flaw_findings _ path
  | enum => exact finding_unless _ rfl
  | string => exact hplain .string
  | boolean => exact hplain .boolean
  | int64 => exact hplain .int64
  | float64 => exact hplain .float64
  | datetime => exact hplain .datetime
  | model => exact hplain .model
  | unknown name => exact hplain (.unknown name)

variable {schema : SchemaDescriptor α} {generators : Generators} {models : ModelFindings α}
  {conforming : Bytes → Given α → Prop}

theorem itemConforms_iff
    (hm : ∀ model given path, Blameless (models model given path) ↔ conforming model given)
    (nullable : Bool) (field : FieldDescriptor α) (given : Given α) (path : Bytes) :
    Blameless (itemFindings view schema n models nullable field given path) ↔
      ItemConforms view schema n conforming nullable field given := by
  have hother : Blameless (if field.target != [] then models field.target given path
      else if (field.table schema).isSome then
        some (if (given.node view).text.isSome then []
          else [reported .typeMismatch path (lit "expected enum string")])
      else scalarFindings view n field.scalarKind nullable given path) ↔
      (if field.target != [] then conforming field.target given
      else if (field.table schema).isSome then (given.node view).text.isSome = true
      else ScalarConforms view n field.scalarKind nullable given) := by
    split
    · exact hm _ _ _
    · split
      · exact finding_unless _ rfl
      · exact scalarConforms_iff _ _ _ _ _
  cases given with
  | dateTime s => exact ⟨fun _ => trivial, fun _ => rfl⟩
  | nil => exact hother
  | value v => exact hother
  | string s => exact hother

theorem valueConforms_iff
    (hm : ∀ model given path, Blameless (models model given path) ↔ conforming model given)
    (field : FieldDescriptor α) (path : Bytes) (hnil : given.isNil view = false) :
    Blameless (valueFindings view schema n models field given path) ↔
      ValueConforms view schema n conforming field given := by
  unfold valueFindings ValueConforms
  rw [if_neg (by simp [hnil])]
  split
  · cases hitems : (given.node view).items with
    | none => simp [blameless_some, violations, Finding.violates, reported]
    | some items =>
      have hall : ∀ (i : Nat), ∀ v ∈ items.getD [],
          Blameless (if (view v).isNil = true then
            some [reported .nullListElement (indexPath path i)
              (lit "null list elements are not allowed")]
          else itemFindings view schema n models false field (.value v) (indexPath path i)) ↔
          (view v).isNil = false ∧
            ItemConforms view schema n conforming false field (.value v) := by
        intro i v _
        cases (view v).isNil with
        | true => simp [blameless_some, violations, Finding.violates, reported]
        | false => simpa using itemConforms_iff hm false field (.value v) _
      dsimp only
      rw [gather_blameless hall]
      simp
  · exact itemConforms_iff hm _ _ _ _

theorem givenConforms_iff {get : Getter α}
    (hm : ∀ model given path, Blameless (models model given path) ↔ conforming model given)
    (field : FieldDescriptor α) (path : Bytes) :
    Blameless (givenFindings view schema generators n models get path field) ↔
      FieldConforms view schema generators n conforming get field := by
  unfold givenFindings FieldConforms
  cases supply generators get field with
  | none =>
    dsimp only
    cases field.requiredInInput <;>
      simp [blameless_some, violations, Finding.violates, reported]
  | some given =>
    dsimp only
    cases hnil : given.isNil view with
    | true =>
      cases hnull : field.nullableInInput with
      | true => simp [valueFindings, hnil, blameless_some, violations]
      | false => simp [blameless_some, violations, Finding.violates, reported]
    | false => simpa using valueConforms_iff hm field _ hnil

theorem fieldConforms_iff {get : Getter α}
    (hm : ∀ model given path, Blameless (models model given path) ↔ conforming model given)
    (field : FieldDescriptor α) (path : Bytes) :
    Blameless (fieldFindings view schema generators n models get path field) ↔
      FieldConforms view schema generators n conforming get field := by
  rw [← givenConforms_iff hm field (appendPath path (fieldName field)), fieldFindings]
  split
  · exact (Finding.covering_blameless _ _).trans (and_iff_right rfl)
  · rfl

/-- An input conforms if nothing found in it is a violation. -/
theorem conforms_iff (n : Nat) (model : Bytes) (given : Given α) (path : Bytes) :
    Blameless (modelFindings view schema generators n model given path) ↔
      Conforms view schema generators n model given := by
  induction n generalizing model given path with
  | zero =>
    constructor
    · exact fun h => by cases h
    · exact fun h => h.elim
  | succ n ih =>
    unfold modelFindings Conforms
    cases hmodel : lookup model schema.models with
    | none => simp [blameless_some, violations, Finding.violates, notAnObject]
    | some fields =>
      cases hget : inputGetter view model given with
      | error err =>
        cases err <;> simp [blameless_some, violations, Finding.violates, notAnObject]
      | ok get =>
        dsimp only
        rw [gather_blameless fun i field _ => fieldConforms_iff ih field path]
        constructor
        · exact fun h => ⟨fields, get, rfl, rfl, h⟩
        · rintro ⟨fields', get', hfields, hget', h⟩
          cases hfields
          cases hget'
          exact h

end

end Repost.Serialize
