import Repost.Descriptor
import Repost.Errors

namespace Repost.Serialize
open GoText
set_option autoImplicit true

def maxValidationIssues : Nat := 32
def maxValidationIssuePathBytes : Nat := 1024
def maxValidationPathBytes : Nat := 16384
def validationPathMarker : Bytes := lit ".<truncated>"
def maxInt32 : Nat := 2 ^ 31 - 1

def runeStart (path : Bytes) : Nat → Nat
  | 0 => 0
  | n + 1 => if isContinuation (path.getD (n + 1) 0) then runeStart path n else n + 1

/-- Drop bytes, of which the last one comes first, up to the end of a segment. -/
def trimSegment : Bytes → Bytes
  | b :: c :: rest => if b == 0x2E || b == 0x5D then b :: c :: rest else trimSegment (c :: rest)
  | short => short

/-- `strings.TrimSuffix(s, ".")` of a reversed text. -/
def trimPoint : Bytes → Bytes
  | 0x2E :: rest => rest
  | s => s

def truncateValidationPath (path : Bytes) : Bytes :=
  if path.length ≤ maxValidationIssuePathBytes then path
  else
    let n := runeStart path (maxValidationIssuePathBytes - validationPathMarker.length)
    let kept := path.take n
    let next := path.getD n 0
    let kept :=
      if next != 0x2E && next != 0x5B then (trimPoint (trimSegment kept.reverse)).reverse else kept
    kept ++ validationPathMarker

/-- `serializerValidationErrors`. -/
structure Issues where
  issues : List Issue := []
  issueCount : Nat := 0
  totalPathBytes : Nat := 0
  deriving DecidableEq

/-- An error of the serializer, or a panic, which `serializeOperation` recovers. -/
inductive SerializerError where
  | noDescriptor (model : Bytes)
  | notObject (model : Bytes)
  | issue (i : Issue)
  | issues (e : Issues)
  | panicked
  deriving DecidableEq

def saturatingValidationIssueCount (current increment : Nat) : Nat :=
  if increment = 0 then current
  else if maxInt32 ≤ current + increment then maxInt32
  else current + increment

namespace Issues

def retain (e : Issues) (issue : Issue) : Issues :=
  if maxValidationIssues ≤ e.issues.length then e
  else
    let path := truncateValidationPath issue.path
    if maxValidationPathBytes < e.totalPathBytes + path.length then e
    else
      { e with
        totalPathBytes := e.totalPathBytes + path.length
        issues := e.issues ++ [{ issue with path := path }] }

def merge (e other : Issues) : Issues :=
  other.issues.foldl retain
    { e with issueCount := saturatingValidationIssueCount e.issueCount other.issueCount }

def addIssue (e : Issues) (issue : Issue) : Issues :=
  Issues.retain { e with issueCount := saturatingValidationIssueCount e.issueCount 1 } issue

/-- `add`; `none` stands for `false`. -/
def add (e : Issues) : SerializerError → Option Issues
  | .issues other => some (e.merge other)
  | .issue issue => some (e.addIssue issue)
  | .noDescriptor _ | .notObject _ | .panicked => none

end Issues

/-- A value on its way to the payload: nil, one of the caller's or of the schema, the text of a
generator, or a `generatedDateTime`. -/
inductive Given (α : Type) where
  | nil
  | value (v : α)
  | string (s : Bytes)
  | dateTime (s : Bytes)

inductive Payload (α : Type) where
  | nil
  | object (members : List (Bytes × Payload α))
  | list (items : List (Payload α))
  | string (s : Bytes)
  | value (v : α)

/-- `OrderedObject.Set`. -/
def setMember (key : Bytes) (value : β) : List (Bytes × β) → List (Bytes × β)
  | [] => [(key, value)]
  | (k, x) :: rest => if k = key then (k, value) :: rest else (k, x) :: setMember key value rest

structure Generators where
  now : Bytes
  uuid : Bytes
  cuid : Bytes

abbrev Outcome (β : Type) := Option (Except SerializerError β)

section
variable {α : Type} (view : α → Node α)

def Given.node : Given α → Node α
  | .nil => .nil
  | .value v => view v
  | .string s | .dateTime s => .string s

/-- `value == nil`. -/
def Given.isNil (given : Given α) : Bool :=
  match given.node view with
  | .nil => true
  | _ => false

def Given.verbatim : Given α → Payload α
  | .nil => .nil
  | .value v => .value v
  | .string s | .dateTime s => .string s

structure Getter (α : Type) where
  find : Bytes → Option (Given α)
  panics : Bytes → Bool := fun _ => false

def Held.get : Held α → Option (Given α)
  | .optional .absent _ => none
  | .optional .null _ => some .nil
  | .optional .present v => some (.value v)
  | .nilOptional => none
  | .pointer none => none
  | .pointer (some v) => some (.value v)
  | .plain v => some (.value v)

/-- `repostOptional` panics on a nil pointer. -/
def Held.panics : Held α → Bool
  | .nilOptional => true
  | _ => false

/-- The field of a struct for a name; of several with one tag the last one counts. -/
def taggedField (fields : List (StructField α)) (name : Bytes) : Option (StructField α) :=
  let usable := fields.filter fun f => f.exported && f.tag != [] && f.tag != lit "-"
  usable.reverse.find? fun f => f.tag = name

def structGetter (fields : List (StructField α)) : Getter α where
  find name := (taggedField fields name).bind fun f => f.held.get
  panics name := (taggedField fields name).any fun f => f.held.panics

/-- What an input is once it is found not to be a `map[string]any`. -/
def Node.target : Node α → Node α
  | .pointer (some v) => view v
  | node => node

def inputGetter (modelName : Bytes) (input : Given α) : Except SerializerError (Getter α) :=
  match input.node view with
  | .map .stringToAny entries =>
    .ok { find := fun name => (lookup name (entries.getD [])).map .value }
  | node =>
    match node.target view with
    | .map .. =>
      .error (.issue (validationError .invalidJSON (lit "$") (.text (lit "object keys must be strings"))))
    | .struct fields => .ok (structGetter fields)
    | .time _ => .ok { find := fun _ => none }
    | _ => .error (.notObject modelName)

def starPath (path : Bytes) : Bytes := path ++ lit "[\x7b*\x7d]"

/-- The loop over the items of a list, each with its own path. -/
def validateItems (walk : α → Bytes → Issues → Option Issues) (path : Bytes) :
    Nat → List α → Issues → Option Issues
  | _, [], issues => some issues
  | i, v :: items, issues =>
    match walk v (indexPath path i) issues with
    | some issues => validateItems walk path (i + 1) items issues
    | none => none

def validateEntries (walk : α → Bytes → Issues → Option Issues) (path : Bytes) :
    List (Bytes × α) → Issues → Option Issues
  | [], issues => some issues
  | (_, v) :: entries, issues =>
    match walk v (starPath path) issues with
    | some issues => validateEntries walk path entries issues
    | none => none

def nonFinite (path : Bytes) : Issue :=
  validationError .nonFiniteNumber path (.text (lit "non-finite numbers are not allowed"))

/-- What is wrong with a value of kind json that has no parts, or with the keys of a map. -/
def Node.flaw (path : Bytes) : Node α → Option Issue
  | .number text =>
    match parseFloat text with
    | none => some (validationError .invalidJSON path (.text (lit "invalid JSON number")))
    | some .finite => none
    | some _ => some (nonFinite path)
  | .float (.finite _) => none
  | .float _ => some (nonFinite path)
  | .string s =>
    if validUTF8 s then none
    else some (validationError .invalidUnicode path (.text (lit "invalid Unicode is not allowed")))
  | .map type (some entries) =>
    if type = .fromOthers && !entries.isEmpty then
      some (validationError .invalidJSON (starPath path)
        (.text (lit "JSON object keys must be strings")))
    else if entries.any fun e => !validUTF8 e.1 then
      some (validationError .invalidUnicode (starPath path)
        (.text (lit "JSON object keys must be valid Unicode")))
    else none
  | .time _ | .struct _ | .other =>
    some (validationError .invalidJSON path (.text (lit "value is not representable as JSON")))
  | _ => none

def cycleIssue (path : Bytes) : Issue :=
  validationErrorWithIssue .invalidJSON .cycle path (.text (lit "cyclic JSON values are not allowed"))

inductive AncestorKind where
  | map | pointer | slice
  deriving DecidableEq

structure JsonAncestor where
  kind : AncestorKind
  pointer : Nat
  length : Nat := 0
  deriving DecidableEq

variable [Addressed α]

/-- The `jsonAncestor` of a map, a pointer or a slice. -/
def jsonAncestor (v : α) : JsonAncestor :=
  match view v with
  | .map .. => { kind := .map, pointer := Addressed.pointer v }
  | .slice _ items =>
    { kind := .slice, pointer := Addressed.pointer v, length := (items.getD []).length }
  | _ => { kind := .pointer, pointer := Addressed.pointer v }

/-- `validateJSONAt`; the ancestors are the maps, pointers and slices that are being walked. -/
def validateJSONAt : Nat → α → Bytes → List JsonAncestor → Issues → Option Issues
  | 0, _, _, _, _ => none
  | fuel + 1, v, path, ancestors, issues =>
    match view v with
    | .pointer (some target) =>
      if jsonAncestor view v ∈ ancestors then some (issues.addIssue (cycleIssue path))
      else validateJSONAt fuel target path (jsonAncestor view v :: ancestors) issues
    | .slice _ (some items) =>
      if jsonAncestor view v ∈ ancestors then some (issues.addIssue (cycleIssue path))
      else
        validateItems (fun w path => validateJSONAt fuel w path (jsonAncestor view v :: ancestors))
          path 0 items issues
    | .array items =>
      validateItems (fun w path => validateJSONAt fuel w path ancestors) path 0 items issues
    | .map type (some entries) =>
      if jsonAncestor view v ∈ ancestors then some (issues.addIssue (cycleIssue path))
      else
        match Node.flaw path (.map type (some entries) : Node α) with
        | some issue => some (issues.addIssue issue)
        | none =>
          validateEntries
            (fun w path => validateJSONAt fuel w path (jsonAncestor view v :: ancestors)) path entries
            issues
    | node =>
      match node.flaw path with
      | some issue => some (issues.addIssue issue)
      | none => some issues

/-- `validateJSON`; the text of a generator has no parts. -/
def validateJSON (fuel : Nat) (given : Given α) (path : Bytes) : Option (Option SerializerError) :=
  let walked :=
    match given with
    | .value v => validateJSONAt view fuel v path [] {}
    | _ =>
      match (given.node view).flaw path with
      | some issue => some (Issues.addIssue {} issue)
      | none => some {}
  walked.map fun issues => if issues.issueCount ≠ 0 then some (.issues issues) else none

def typeMismatch (path : Bytes) (text : Bytes) : SerializerError :=
  .issue (validationError .typeMismatch path (.text text))

/-- Whether a node is of the scalar kind; the kinds that are checked elsewhere accept every node. -/
def Node.hasKind : ScalarKind → Node α → Bool
  | .string, .string _ | .string, .number _ => true
  | .boolean, .bool _ => true
  | .int64, .int _ => true
  | .int64, .number text => (parseInt text).isSome
  | .float64, .number text => (parseFloat text).isSome
  | .float64, .float _ => true
  | .datetime, .time _ => true
  | .json, _ | .enum, _ | .model, _ | .unknown _, _ => true
  | _, _ => false

/-- A `float64` that is not a number of JSON. -/
def Node.isNonFinite : Node α → Bool
  | .number text => parseFloat text = some .nan || parseFloat text = some .infinite
  | .float .nan | .float .infinite => true
  | _ => false

def validateScalar (fuel : Nat) (kind : ScalarKind) (given : Given α) (path : Bytes) :
    Option (Option SerializerError) :=
  match kind with
  | .json => validateJSON view fuel given path
  | kind =>
    let node := given.node view
    if kind = .float64 && node.hasKind kind && node.isNonFinite then
      some (some (.issue (nonFinite path)))
    else if node.hasKind kind then some none
    else some (some (typeMismatch path (lit "value does not match " ++ kind.text)))

def FieldDescriptor.target (field : FieldDescriptor α) : Bytes :=
  if field.scalarKind = .model then field.descriptorID else field.model

/-- The table of a field's enum, `none` if it is nil. -/
def FieldDescriptor.table (schema : SchemaDescriptor α) (field : FieldDescriptor α) :
    Option (List (Bytes × Bytes)) :=
  if field.scalarKind = .enum then (lookup field.descriptorID schema.enums).join else field.enum

def Node.text : Node α → Option Bytes
  | .string s | .number s => some s
  | _ => none

abbrev ModelSerializer (α : Type) := Bytes → Given α → Bytes → Outcome (Payload α)

variable (schema : SchemaDescriptor α)

def serializeItem (fuel : Nat) (serializeModel : ModelSerializer α) (field : FieldDescriptor α)
    (given : Given α) (path : Bytes) : Outcome (Payload α) :=
  match given with
  | .dateTime s => some (.ok (.string s))
  | given =>
    if field.target != [] then serializeModel field.target given path
    else
      match field.table schema with
      | some table =>
        match (given.node view).text with
        | some s =>
          match lookup s table with
          | some wire => some (.ok (.string wire))
          | none => some (.ok given.verbatim)
        | none =>
          if isV2Field field then some (.error (typeMismatch path (lit "expected enum string")))
          else some (.ok given.verbatim)
      | none =>
        match given.node view, !isV2Field field || field.scalarKind = .datetime with
        | .time text, true => some (.ok (.string text))
        | _, _ =>
          if isV2Field field then
            match validateScalar view fuel field.scalarKind given path with
            | none => none
            | some (some e) => some (.error e)
            | some none => some (.ok given.verbatim)
          else some (.ok given.verbatim)

/-- The loop over the items of a list, with what is collected so far. -/
def serializeItems (item : α → Bytes → Outcome (Payload α)) (field : FieldDescriptor α)
    (path : Bytes) :
    Nat → List α → List (Payload α) × Issues → Outcome (List (Payload α) × Issues)
  | _, [], collected => some (.ok collected)
  | i, v :: items, (payloads, issues) =>
    let itemPath := indexPath path i
    if (view v).isNil && isV2Field field then
      serializeItems item field path (i + 1) items
        (payloads ++ [.nil], issues.addIssue (validationError .nullListElement itemPath
          (.text (lit "null list elements are not allowed"))))
    else
      match item v itemPath with
      | none => none
      | some (.ok payload) =>
        serializeItems item field path (i + 1) items (payloads ++ [payload], issues)
      | some (.error e) =>
        match issues.add e with
        | some issues => serializeItems item field path (i + 1) items (payloads ++ [.nil], issues)
        | none => some (.error e)

/-- The items of a value that is a list; a nil slice has none. -/
def Node.items : Node α → Option (Option (List α))
  | .slice _ items => some items
  | .array items => some (some items)
  | _ => none

def serializeValue (fuel : Nat) (serializeModel : ModelSerializer α) (field : FieldDescriptor α)
    (given : Given α) (path : Bytes) : Outcome (Payload α) :=
  let item := serializeItem view schema fuel serializeModel field
  if given.isNil view then some (.ok .nil)
  else if field.list then
    match (given.node view).items with
    | some none => some (.ok (if isV2Field field then .list [] else .nil))
    | some (some items) =>
      match serializeItems view (fun v => item (.value v)) field path 0 items ([], {}) with
      | none => none
      | some (.error e) => some (.error e)
      | some (.ok (payloads, issues)) =>
        if issues.issueCount ≠ 0 then some (.error (.issues issues)) else some (.ok (.list payloads))
    | none =>
      if isV2Field field then some (.error (typeMismatch path (lit "expected a list")))
      else item given path
  else item given path

variable (generators : Generators)

def resolveDefault (field : FieldDescriptor α) : DefaultSpec α → Given α
  | .now =>
    if field.scalarKind = .datetime then .dateTime generators.now else .string generators.now
  | .uuid => .string generators.uuid
  | .cuid => .string generators.cuid
  | .literal v => .value v

/-- What a field is given: its value in the input, or else its default. -/
def supply (get : Getter α) (field : FieldDescriptor α) : Option (Given α) :=
  match get.find (fieldName field) with
  | some given => some given
  | none => field.default.map (resolveDefault generators field)

/-- The turn of one field in the loop of `serializeModelAtUnchecked`. -/
def serializeField (fuel : Nat) (serializeModel : ModelSerializer α) (get : Getter α)
    (path : Bytes) (field : FieldDescriptor α)
    (collected : List (Bytes × Payload α) × Issues) :
    Outcome (List (Bytes × Payload α) × Issues) :=
  let (members, issues) := collected
  let fieldPath := appendPath path (fieldName field)
  match validateFieldDescriptor field fieldPath with
  | some issue => some (.error (.issue issue))
  | none =>
    if get.panics (fieldName field) then some (.error .panicked)
    else
      match supply generators get field with
      | none =>
        if isV2Field field && field.requiredInInput then
          some (.ok (members, issues.addIssue (validationError .requiredField fieldPath
            (.text (lit "required field is absent")))))
        else some (.ok (members, issues))
      | some given =>
        if given.isNil view && isV2Field field && !field.nullableInInput then
          some (.ok (members, issues.addIssue (validationError .nullNotAllowed fieldPath
            (.text (lit "null is not allowed")))))
        else
          match serializeValue view schema fuel serializeModel field given fieldPath with
          | none => none
          | some (.ok payload) => some (.ok (setMember (fieldWireName field) payload members, issues))
          | some (.error e) =>
            match issues.add e with
            | some issues => some (.ok (members, issues))
            | none => some (.error e)

def serializeFields (fuel : Nat) (serializeModel : ModelSerializer α) (get : Getter α)
    (path : Bytes) : List (FieldDescriptor α) → List (Bytes × Payload α) × Issues →
      Outcome (List (Bytes × Payload α) × Issues)
  | [], collected => some (.ok collected)
  | field :: fields, collected =>
    match serializeField view schema generators fuel serializeModel get path field collected with
    | some (.ok collected) => serializeFields fuel serializeModel get path fields collected
    | stopped => stopped

def serializeModelAtUnchecked : Nat → ModelSerializer α
  | 0, _, _, _ => none
  | fuel + 1, modelName, input, path =>
    match lookup modelName schema.models with
    | none => some (.error (.noDescriptor modelName))
    | some fields =>
      match inputGetter view modelName input with
      | .error e => some (.error e)
      | .ok get =>
        match serializeFields view schema generators fuel (serializeModelAtUnchecked fuel) get path
            fields ([], {}) with
        | none => none
        | some (.error e) => some (.error e)
        | some (.ok (members, issues)) =>
          if issues.issueCount ≠ 0 then some (.error (.issues issues))
          else some (.ok (.object members))

end

def mapIssue (issue : Issue) : ValidationIssue :=
  let code : ValidationIssueCode :=
    match issue.issueCode with
    | .requiredField => .required
    | .nullNotAllowed | .nullListElement => .nullNotAllowed
    | .nonFiniteNumber => .nonFinite
    | .invalidJSON => .invalidJSON
    | .cycle => .cycle
    | .invalidUnicode => .invalidUnicode
    | .typeMismatch | .unknownScalarKind | .invalidDescriptorReference => .typeMismatch
  { code := code, path := issue.path }

/-- The issues of an error of the serializer, and how many there were; a panic is no error. -/
def SerializerError.report : SerializerError → List ValidationIssue × Nat
  | .issues e => (e.issues.map mapIssue, e.issueCount)
  | .issue i => ([mapIssue i], 1)
  | .noDescriptor _ | .notObject _ => ([{ code := .typeMismatch, path := lit "$" }], 1)
  | .panicked => ([], 0)

def serializerOperationError (err : SerializerError) (operationID key : Bytes) : Error :=
  let (issues, issueCount) := err.report
  { code := .validation, deliveryState := .notSent, operationID := operationID, idempotencyKey := key,
    validationIssues := issues, issueCount := issueCount,
    issuesTruncated := issueCount != issues.length }

end Repost.Serialize
