import Repost.IssueRules

namespace Repost.Serialize
open GoText
set_option autoImplicit true

/-- A path of field names, list indices and stars below the root. -/
inductive Built (names : Bytes → Prop) : Bytes → Prop
  | root : Built names (lit "$")
  | field (h : Built names path) (hn : names name) : Built names (appendPath path name)
  | index (h : Built names path) (i : Nat) : Built names (indexPath path i)
  | star (h : Built names path) : Built names (starPath path)

def SchemaDescriptor.Names (schema : SchemaDescriptor α) (name : Bytes) : Prop :=
  ∃ model fields, (model, fields) ∈ schema.models ∧ ∃ field ∈ fields, fieldName field = name

def Shown (names : Bytes → Prop) (path : Bytes) : Prop :=
  ∃ whole, Built names whole ∧
    (path = whole ∨ ∃ front, front <+: whole ∧ path = front ++ validationPathMarker ∧
      path.length ≤ maxValidationIssuePathBytes)

theorem runeStart_le (path : Bytes) (n : Nat) : runeStart path n ≤ n := by
  induction n with
  | zero => exact Nat.le_refl _
  | succ n ih =>
    unfold runeStart
    split
    · omega
    · exact Nat.le_refl _

theorem trimSegment_suffix (s : Bytes) : trimSegment s <:+ s := by
  fun_induction trimSegment s with
  | case1 b c rest h => exact List.suffix_refl _
  | case2 b c rest h ih => exact ih.trans (List.suffix_cons b _)
  | case3 s h => exact List.suffix_refl _

theorem trimPoint_suffix (s : Bytes) : trimPoint s <:+ s := by
  unfold trimPoint
  split
  · exact List.suffix_cons _ _
  · exact List.suffix_refl _

/-- A long path is cut to a front of it, and the marker follows. -/
theorem truncateValidationPath_cases (path : Bytes) :
    (truncateValidationPath path = path ∧ path.length ≤ maxValidationIssuePathBytes) ∨
      ∃ front, front <+: path ∧ truncateValidationPath path = front ++ validationPathMarker ∧
        (front ++ validationPathMarker).length ≤ maxValidationIssuePathBytes := by
  unfold truncateValidationPath
  split
  case isTrue h => exact .inl ⟨rfl, h⟩
  case isFalse h =>
    right
    dsimp only
    have hstart := runeStart_le path (maxValidationIssuePathBytes - validationPathMarker.length)
    generalize hn : runeStart path (maxValidationIssuePathBytes - validationPathMarker.length) = n
    rw [hn] at hstart
    have hmarker : validationPathMarker.length = 12 := rfl
    have hmax : maxValidationIssuePathBytes = 1024 := rfl
    have hfront : ∀ front, front <+: path.take n → front <+: path ∧
        (front ++ validationPathMarker).length ≤ maxValidationIssuePathBytes := by
      intro front hf
      refine ⟨hf.trans (List.take_prefix n path), ?_⟩
      have hle := hf.length_le
      rw [List.length_take] at hle
      rw [List.length_append]
      omega
    split
    · have htrim : (trimPoint (trimSegment (path.take n).reverse)).reverse <+: path.take n := by
        rw [← List.reverse_suffix, List.reverse_reverse]
        exact (trimPoint_suffix _).trans (trimSegment_suffix _)
      obtain ⟨hpath, hlen⟩ := hfront _ htrim
      exact ⟨_, hpath, rfl, hlen⟩
    · obtain ⟨hpath, hlen⟩ := hfront _ (List.prefix_refl _)
      exact ⟨_, hpath, rfl, hlen⟩

theorem truncateValidationPath_length (path : Bytes) :
    (truncateValidationPath path).length ≤ maxValidationIssuePathBytes := by
  rcases truncateValidationPath_cases path with ⟨heq, hlen⟩ | ⟨front, -, heq, hlen⟩
  · rw [heq]
    exact hlen
  · rw [heq]
    exact hlen

theorem truncateValidationPath_short (h : path.length ≤ maxValidationIssuePathBytes) :
    truncateValidationPath path = path := if_pos h

section
variable {names : Bytes → Prop}

theorem Shown.truncate (h : Shown names path) : Shown names (truncateValidationPath path) := by
  obtain ⟨whole, hw, rfl | ⟨front, hf, rfl, hlen⟩⟩ := h
  · rcases truncateValidationPath_cases path with ⟨heq, -⟩ | ⟨front, hf, heq, hlen⟩
    · rw [heq]
      exact ⟨path, hw, .inl rfl⟩
    · rw [heq]
      exact ⟨path, hw, .inr ⟨front, hf, rfl, hlen⟩⟩
  · rw [truncateValidationPath_short hlen]
    exact ⟨whole, hw, .inr ⟨front, hf, rfl, hlen⟩⟩

theorem Built.shown (h : Built names path) : Shown names path := ⟨path, h, .inl rfl⟩

def Issues.Shown (names : Bytes → Prop) (e : Issues) : Prop :=
  ∀ issue ∈ e.issues, Serialize.Shown names issue.path

def SerializerError.Shown (names : Bytes → Prop) : SerializerError → Prop
  | .issues e => e.Shown names
  | .issue i => Built names i.path
  | _ => True

variable {view : α → Node α}

/-- A flaw is at the value itself or at the keys of a map. -/
theorem Node.flaw_path {node : Node α} (hf : node.flaw path = some issue) :
    issue.path = path ∨ issue.path = starPath path := by
  cases node with
  | number text =>
    simp only [Node.flaw] at hf
    split at hf
    · cases hf
      exact .inl rfl
    · cases hf
    · cases hf
      exact .inl rfl
  | float f =>
    cases f with
    | finite f => cases hf
    | _ =>
      cases hf
      exact .inl rfl
  | string s =>
    obtain ⟨-, hf⟩ := Option.ite_none_left_eq_some.1 hf
    cases hf
    exact .inl rfl
  | map type entries =>
    cases entries with
    | none => cases hf
    | some entries =>
      simp only [Node.flaw] at hf
      split at hf
      · cases hf
        exact .inr rfl
      · split at hf
        · cases hf
          exact .inr rfl
        · cases hf
  | time text | struct fields | other =>
    cases hf
    exact .inl rfl
  | _ => cases hf

def shownRule (schema : SchemaDescriptor α) : IssueRule α where
  place := Built schema.Names
  made i := Built schema.Names i.path
  kept i := Shown schema.Names i.path
  known _ := True
  missing := True

variable {schema : SchemaDescriptor α} {generators : Generators}

theorem shownRule_sound : (shownRule schema).Sound schema where
  root := .root
  index h i := h.index i
  star h := h.star
  field h hm hf := h.field ⟨_, _, lookup_mem hm, _, hf, rfl⟩
  issue h _ _ := h
  descriptor := by
    intro path model fields field i h _ _ _ hd
    unfold validateFieldDescriptor at hd
    split at hd
    · cases hd
    · split at hd
      · cases hd
        exact h
      · cases hd
  cut h := by
    rcases h with h | h
    · exact h.shown.truncate
    · exact h.truncate
  target _ _ _ _ := trivial
  descriptorOf _ _ := trivial

variable [Addressed α]

theorem serializeModelAtUnchecked_shown (hp : Built schema.Names path)
    (h : serializeModelAtUnchecked view schema generators fuel model input path = some (.error err)) :
    err.Shown schema.Names := by
  have hholds := shownRule_sound.serializer fuel model input path err trivial hp h
  cases err with
  | issues e | issue i => exact hholds
  | noDescriptor _ | notObject _ | panicked => trivial

theorem report_shown {err : SerializerError} (h : err.Shown names) :
    ∀ issue ∈ err.report.1, Shown names issue.path := by
  intro issue hi
  cases err with
  | issues e =>
    obtain ⟨i, hmem, rfl⟩ := List.mem_map.1 hi
    exact h i hmem
  | issue i =>
    rw [List.mem_singleton.1 hi]
    exact Built.shown h
  | noDescriptor model | notObject model =>
    rw [List.mem_singleton.1 hi]
    exact Built.root.shown
  | panicked => cases hi

/-- Whatever the schema and the input: every path that the serializer reports is built from the root
with field names of the schema, list indices and stars, or is a front of such a path with the marker
behind it. -/
theorem reported_paths_built
    (h : serializeModelAtUnchecked view schema generators fuel model input (lit "$") =
      some (.error err)) (operationID key : Bytes) :
    ∀ issue ∈ (serializerOperationError err operationID key).validationIssues,
      ∃ whole, Built schema.Names whole ∧
        (issue.path = whole ∨
          ∃ front, front <+: whole ∧ issue.path = front ++ validationPathMarker) := by
  intro issue hi
  have hshown := serializeModelAtUnchecked_shown Built.root h
  obtain ⟨whole, hw, rfl | ⟨front, hf, hpath, -⟩⟩ := report_shown hshown issue hi
  · exact ⟨_, hw, .inl rfl⟩
  · exact ⟨whole, hw, .inr ⟨front, hf, hpath⟩⟩

end

namespace Sample

/-- An input whose only field holds a map with a key of the caller's and a value that is no JSON. -/
def secretive : Nat → Node Nat
  | 0 => .map .stringToAny (some [(lit "notes", 1)])
  | 1 => .map .stringToAny (some [(lit "secret", 2)])
  | 2 => .float .nan
  | _ => .nil

def notes : SchemaDescriptor Nat :=
  { descriptorFormatVersion := 2
    models := [(lit "Note", [{ schemaName := lit "notes", wireName := lit "notes", scalarKind := .json }])] }

def texts : Generators := { now := lit "now", uuid := lit "uuid", cuid := lit "cuid" }

end Sample

theorem secretive_paths_built : ∃ err : SerializerError,
    serializeModelAtUnchecked Sample.secretive Sample.notes Sample.texts 4 (lit "Note") (.value 0)
        (lit "$") = some (.error err) ∧
      err.report = ([{ code := .nonFinite, path := lit "$.notes[\x7b*\x7d]" }], 1) ∧
      ∀ issue ∈ (serializerOperationError err [] []).validationIssues,
        ∃ whole, Built Sample.notes.Names whole ∧
          (issue.path = whole ∨
            ∃ front, front <+: whole ∧ issue.path = front ++ validationPathMarker) := by
  obtain ⟨err, herr, hreport⟩ : ∃ err : SerializerError,
      serializeModelAtUnchecked Sample.secretive Sample.notes Sample.texts 4 (lit "Note") (.value 0)
        (lit "$") = some (.error err) ∧
      err.report = ([{ code := .nonFinite, path := lit "$.notes[\x7b*\x7d]" }], 1) :=
    ⟨_, rfl, rfl⟩
  exact ⟨err, herr, hreport, reported_paths_built herr [] []⟩

end Repost.Serialize
