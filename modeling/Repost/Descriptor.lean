import Repost.GoValues

namespace Repost.Serialize
open GoText
set_option autoImplicit true

inductive ScalarKind where
  | string | boolean | int64 | float64 | datetime | json | enum | model
  | unknown (name : Bytes)
  deriving DecidableEq

def ScalarKind.text : ScalarKind → Bytes
  | .string => lit "string"
  | .boolean => lit "boolean"
  | .int64 => lit "int64"
  | .float64 => lit "float64"
  | .datetime => lit "datetime"
  | .json => lit "json"
  | .enum => lit "enum"
  | .model => lit "model"
  | .unknown name => name

inductive DefaultSpec (α : Type) where
  | now | uuid | cuid
  | literal (value : α)

/-- One field. `enum` is the table of format 1, `none` if it is nil. -/
structure FieldDescriptor (α : Type) where
  schemaName : Bytes := []
  wireName : Bytes := []
  scalarKind : ScalarKind := .unknown []
  descriptorID : Bytes := []
  requiredInInput : Bool := false
  nullableInInput : Bool := false
  list : Bool := false
  default : Option (DefaultSpec α) := none
  name : Bytes := []
  wire : Bytes := []
  model : Bytes := []
  enum : Option (List (Bytes × Bytes)) := none

structure EventDescriptor where
  type : Bytes
  model : Bytes

/-- Everything that the runtime needs from the generated client. Maps list their entries in the order
of their keys, and the table of an enum is `none` if it is nil. -/
structure SchemaDescriptor (α : Type) where
  descriptorFormatVersion : Int
  enums : List (Bytes × Option (List (Bytes × Bytes))) := []
  models : List (Bytes × List (FieldDescriptor α)) := []
  webhooks : List (Bytes × List (Bytes × EventDescriptor)) := []

def descriptorFormatVersion : Int := 2

def isIdentifierStart (b : UInt8) : Bool := isLetter b || b == 0x5F || b == 0x24

/-- `^[A-Za-z_$][A-Za-z0-9_$]*$`. -/
def pathIdentifier (key : Bytes) : Bool :=
  match key with
  | b :: s => isIdentifierStart b && s.all fun b => isIdentifierStart b || isDigit b
  | [] => false

def hexDigits : Bytes := lit "0123456789abcdef"

/-- `\u%04x` of a byte. -/
def unicodeEscape (b : UInt8) : Bytes :=
  lit "\\u00" ++ [hexDigits.getD (b.toNat / 16) 0, hexDigits.getD (b.toNat % 16) 0]

def quoteRune : Rune → Bytes
  | .ascii 0x22 => lit "\\\""
  | .ascii 0x5C => lit "\\\\"
  | .ascii 0x08 => lit "\\b"
  | .ascii 0x0C => lit "\\f"
  | .ascii 0x0A => lit "\\n"
  | .ascii 0x0D => lit "\\r"
  | .ascii 0x09 => lit "\\t"
  | .ascii b => if b < 0x20 then unicodeEscape b else [b]
  | r => r.bytes

def quoteJSONString (value : Bytes) : Bytes := [0x22] ++ (runes value).flatMap quoteRune ++ [0x22]

def appendPath (path key : Bytes) : Bytes :=
  if pathIdentifier key then path ++ [0x2E] ++ key
  else path ++ [0x5B] ++ quoteJSONString key ++ [0x5D]

def decimal (n : Nat) : Bytes := (Nat.toDigits 10 n).map fun c => UInt8.ofNat c.toNat

def indexPath (path : Bytes) (i : Nat) : Bytes := path ++ [0x5B] ++ decimal i ++ [0x5D]

inductive IssueCode where
  | requiredField | nullNotAllowed | nullListElement | typeMismatch | nonFiniteNumber | invalidJSON
  | cycle | invalidUnicode | unknownScalarKind | invalidDescriptorReference
  deriving DecidableEq

/-- A message as it is, or one with a name in it that `%q` writes. -/
inductive Message where
  | text (s : Bytes)
  | quoting (before name after : Bytes)
  deriving DecidableEq

structure Issue where
  code : IssueCode
  issueCode : IssueCode
  path : Bytes
  message : Message
  deriving DecidableEq

def validationErrorWithIssue (code issueCode : IssueCode) (path : Bytes) (message : Message) :
    Issue :=
  { code := code, issueCode := issueCode, path := path, message := message }

def validationError (code : IssueCode) (path : Bytes) (message : Message) : Issue :=
  validationErrorWithIssue code code path message

inductive DescriptorError where
  | version (declared : Int)
  | sourceOutdated (model : Bytes) (index : Nat)
  | issue (i : Issue)

section
variable {α : Type}

def isV2Field (field : FieldDescriptor α) : Bool := field.schemaName != []

def fieldName (field : FieldDescriptor α) : Bytes :=
  if isV2Field field then field.schemaName else field.name

def fieldWireName (field : FieldDescriptor α) : Bytes :=
  if isV2Field field then field.wireName
  else if field.wire != [] then field.wire
  else field.name

def validateFieldDescriptor (field : FieldDescriptor α) (path : Bytes) : Option Issue :=
  if !isV2Field field then none
  else
    match field.scalarKind with
    | .unknown name =>
      some (validationError .unknownScalarKind path
        (.quoting (lit "unknown scalar kind ") name []))
    | _ => none

def validateDescriptorReference (schema : SchemaDescriptor α) (modelName : Bytes) (index : Nat)
    (field : FieldDescriptor α) : Option Issue :=
  let path := appendPath (lit "$.models") modelName ++ lit ".fields[" ++ decimal index ++
    lit "].descriptorId"
  let refused := some (validationError .invalidDescriptorReference path
    (.quoting (field.scalarKind.text ++ lit " descriptor ") field.descriptorID
      (lit " does not exist")))
  match field.scalarKind with
  | .enum =>
    if (lookup field.descriptorID schema.enums).isSome && field.descriptorID != [] then none
    else refused
  | .model =>
    if (lookup field.descriptorID schema.models).isSome && field.descriptorID != [] then none
    else refused
  | _ => none

def validateField (schema : SchemaDescriptor α) (modelName : Bytes) (index : Nat)
    (field : FieldDescriptor α) : Option DescriptorError :=
  if !isV2Field field then some (.sourceOutdated modelName index)
  else
    match validateFieldDescriptor field (appendPath (lit "$") field.schemaName) with
    | some issue => some (.issue issue)
    | none => (validateDescriptorReference schema modelName index field).map .issue

def validateFields (schema : SchemaDescriptor α) (modelName : Bytes) :
    Nat → List (FieldDescriptor α) → Option DescriptorError
  | _, [] => none
  | index, field :: fields =>
    match validateField schema modelName index field with
    | some e => some e
    | none => validateFields schema modelName (index + 1) fields

def validateModels (schema : SchemaDescriptor α) :
    List (Bytes × List (FieldDescriptor α)) → Option DescriptorError
  | [] => none
  | (modelName, fields) :: models =>
    match validateFields schema modelName 0 fields with
    | some e => some e
    | none => validateModels schema models

def validateEvent (schema : SchemaDescriptor α) (group member : Bytes) (event : EventDescriptor) :
    Option DescriptorError :=
  if (lookup event.model schema.models).isSome then none
  else
    some (.issue (validationError .invalidDescriptorReference
      (appendPath (appendPath (lit "$.webhooks") group) member ++ lit ".model")
      (.quoting (lit "model descriptor ") event.model (lit " does not exist"))))

def validateWebhooks (schema : SchemaDescriptor α) : Option DescriptorError :=
  schema.webhooks.findSome? fun (group, members) =>
    members.findSome? fun (member, event) => validateEvent schema group member event

def assertDescriptorVersion (declared : Int) : Option DescriptorError :=
  if declared = descriptorFormatVersion then none else some (.version declared)

def validateSchemaDescriptor (schema : SchemaDescriptor α) : Option DescriptorError :=
  match assertDescriptorVersion schema.descriptorFormatVersion with
  | some e => some e
  | none =>
    match validateModels schema schema.models with
    | some e => some e
    | none => validateWebhooks schema

structure FieldDescriptor.Sound (schema : SchemaDescriptor α) (field : FieldDescriptor α) : Prop where
  named : isV2Field field = true
  known : ∀ name, field.scalarKind ≠ .unknown name
  enum : field.scalarKind = .enum →
    (lookup field.descriptorID schema.enums).isSome = true ∧ field.descriptorID ≠ []
  model : field.scalarKind = .model →
    (lookup field.descriptorID schema.models).isSome = true ∧ field.descriptorID ≠ []

variable {schema : SchemaDescriptor α}

theorem FieldDescriptor.Sound.descriptor {field : FieldDescriptor α} (h : field.Sound schema)
    (path : Bytes) : validateFieldDescriptor field path = none := by
  unfold validateFieldDescriptor
  rw [h.named]
  cases hkind : field.scalarKind with
  | unknown name => exact absurd hkind (h.known name)
  | _ => rfl

theorem validateField_none (h : validateField schema modelName index field = none) :
    field.Sound schema := by
  unfold validateField at h
  split at h
  · cases h
  · rename_i hv
    have hv : isV2Field field = true := by simpa using hv
    split at h
    · cases h
    · rename_i hkind
      have href := Option.map_eq_none_iff.1 h
      refine ⟨hv, ?_, ?_, ?_⟩
      · intro name hname
        rw [validateFieldDescriptor, hv, hname] at hkind
        cases hkind
      · intro hk
        rw [validateDescriptorReference, hk] at href
        simpa using href
      · intro hk
        rw [validateDescriptorReference, hk] at href
        simpa using href

theorem validateFields_none (h : validateFields schema modelName index fields = none) :
    ∀ field ∈ fields, field.Sound schema := by
  induction fields generalizing index with
  | nil => nofun
  | cons first fields ih =>
    unfold validateFields at h
    split at h
    · cases h
    · rename_i hfirst
      intro field hf
      rcases List.mem_cons.1 hf with rfl | hf
      · exact validateField_none hfirst
      · exact ih h field hf

theorem validateModels_none (h : validateModels schema models = none) :
    ∀ model ∈ models, ∀ field ∈ model.2, field.Sound schema := by
  induction models with
  | nil => nofun
  | cons first models ih =>
    unfold validateModels at h
    split at h
    · cases h
    · rename_i hfirst
      intro model hm
      rcases List.mem_cons.1 hm with rfl | hm
      · exact validateFields_none hfirst
      · exact ih h model hm

theorem lookup_mem {entries : List (Bytes × β)} (h : lookup name entries = some x) :
    (name, x) ∈ entries := by
  obtain ⟨e, he, rfl⟩ := Option.map_eq_some_iff.1 h
  have hname : e.1 = name := by simpa using List.find?_some he
  rw [← hname]
  exact List.mem_of_find?_eq_some he

theorem accepted_fields (h : validateSchemaDescriptor schema = none)
    (hm : lookup model schema.models = some fields) : ∀ field ∈ fields, field.Sound schema := by
  unfold validateSchemaDescriptor at h
  split at h
  · cases h
  · split at h
    · cases h
    · rename_i hmodels
      exact validateModels_none hmodels _ (lookup_mem hm)

end

end Repost.Serialize
