import Repost.SerializerFuel
import Repost.SafePaths

namespace Repost.Serialize
open GoText
set_option autoImplicit true

/-- What the serializer makes of a violation: it reports it where it is, does not notice it, reports
it at the root, or gives up. Without a violation, it may take a value for one that contains itself, or
panic. -/
inductive Handling where
  | reported | unnoticed | relocated | aborting | mistaken | panicking
  deriving DecidableEq

structure Finding where
  issue : Issue
  handling : Handling := .reported

def Finding.unnoticed (f : Finding) : Finding := { f with handling := .unnoticed }

def Finding.violates (f : Finding) : Bool := f.handling != .mistaken && f.handling != .panicking

def Finding.stops (f : Finding) : Bool := f.handling = .aborting || f.handling = .panicking

def violations (fs : List Finding) : List Finding := fs.filter Finding.violates

/-- A finding at a value that keeps the serializer from looking inside. -/
def Finding.covering (f : Finding) (found : Option (List Finding)) : Option (List Finding) :=
  found.map fun fs => f :: (violations fs).map Finding.unnoticed

/-- Join the findings at the members of a list, if each of them is known. -/
def gather (f : Nat → β → Option (List γ)) : Nat → List β → Option (List γ)
  | _, [] => some []
  | i, b :: bs =>
    match f i b, gather f (i + 1) bs with
    | some found, some rest => some (found ++ rest)
    | _, _ => none

variable {f : Nat → β → Option (List γ)}

theorem gather_cons (h : gather f i (b :: bs) = some out) :
    ∃ found rest, f i b = some found ∧ gather f (i + 1) bs = some rest ∧ out = found ++ rest := by
  unfold gather at h
  split at h
  · rename_i found rest hfound hrest
    exact ⟨found, rest, hfound, hrest, (Option.some.inj h).symm⟩
  · cases h

theorem gather_all {P : γ → Prop}
    (hf : ∀ j, ∀ b ∈ bs, ∀ found, f j b = some found → ∀ x ∈ found, P x)
    (h : gather f i bs = some out) : ∀ x ∈ out, P x := by
  induction bs generalizing i out with
  | nil =>
    cases h
    exact nofun
  | cons b bs ih =>
    obtain ⟨found, rest, hfound, hrest, rfl⟩ := gather_cons h
    intro x hx
    rcases List.mem_append.1 hx with hx | hx
    · exact hf i b List.mem_cons_self found hfound x hx
    · exact ih (fun j c hc => hf j c (List.mem_cons_of_mem b hc)) hrest x hx

def reported (code : IssueCode) (path : Bytes) (text : Bytes) : Finding :=
  { issue := validationError code path (.text text) }

section
variable {α : Type} (view : α → Node α)

def pointsToNull : Nat → α → Bool
  | 0, _ => false
  | n + 1, v =>
    match view v with
    | .pointer (some target) => pointsToNull n target
    | node => node.isNil

/-- Whether null is written for a value of kind json; a nil `[]any` is a list, but not behind a
pointer. -/
def jsonNull (n : Nat) (v : α) : Bool :=
  match view v with
  | .slice .any none => false
  | _ => pointsToNull view n v

variable [Addressed α]

def mistakenCycle (path : Bytes) : Finding := { issue := cycleIssue path, handling := .mistaken }

/-- What is found in a map, a pointer or a slice, which may be taken for one of its ancestors. -/
def entering (v : α) (path : Bytes) (ancestors : List JsonAncestor) (found : Option (List Finding)) :
    Option (List Finding) :=
  if jsonAncestor view v ∈ ancestors then (mistakenCycle path).covering found else found

/-- The findings in a value of kind json, and nothing in an object with bad keys is left out. They are
finite, so an ancestor with the same address is not the value itself. -/
def jsonFindings : Nat → α → Bytes → List JsonAncestor → Option (List Finding)
  | 0, _, _, _ => none
  | n + 1, v, path, ancestors =>
    match view v with
    | .pointer (some target) =>
      entering view v path ancestors (jsonFindings n target path (jsonAncestor view v :: ancestors))
    | .slice _ (some items) =>
      entering view v path ancestors (gather
        (fun i w => jsonFindings n w (indexPath path i) (jsonAncestor view v :: ancestors)) 0 items)
    | .array items => gather (fun i w => jsonFindings n w (indexPath path i) ancestors) 0 items
    | .map type (some entries) =>
      let found := gather
        (fun _ e => jsonFindings n e.2 (starPath path) (jsonAncestor view v :: ancestors)) 0 entries
      entering view v path ancestors
        (match Node.flaw path (.map type (some entries) : Node α) with
        | some issue => Finding.covering { issue := issue } found
        | none => found)
    | node => some ((node.flaw path).toList.map fun issue => { issue := issue })

def scalarFindings (n : Nat) (kind : ScalarKind) (nullable : Bool) (given : Given α)
    (path : Bytes) : Option (List Finding) :=
  let node := given.node view
  match kind, given with
  | .json, .value v =>
    let null : List Finding :=
      if !nullable && jsonNull view n v then
        [(reported .nullNotAllowed path (lit "null is not allowed")).unnoticed]
      else []
    (jsonFindings view n v path []).map fun fs => null ++ fs
  | .json, _ => some ((node.flaw path).toList.map fun issue => { issue := issue })
  | .enum, _ =>
    some (if node.text.isSome then []
      else [(reported .typeMismatch path (lit "expected enum string")).unnoticed])
  | kind, _ =>
    some (if kind = .float64 && node.hasKind kind && node.isNonFinite then
        [{ issue := nonFinite path }]
      else if node.hasKind kind then []
      else [reported .typeMismatch path (lit "value does not match " ++ kind.text)])

variable (schema : SchemaDescriptor α)

abbrev ModelFindings (α : Type) := Bytes → Given α → Bytes → Option (List Finding)

def itemFindings (n : Nat) (models : ModelFindings α) (nullable : Bool) (field : FieldDescriptor α)
    (given : Given α) (path : Bytes) : Option (List Finding) :=
  match given with
  | .dateTime _ => some []
  | given =>
    if field.target != [] then models field.target given path
    else if (field.table schema).isSome then
      some (if (given.node view).text.isSome then []
        else [reported .typeMismatch path (lit "expected enum string")])
    else scalarFindings view n field.scalarKind nullable given path

def valueFindings (n : Nat) (models : ModelFindings α) (field : FieldDescriptor α)
    (given : Given α) (path : Bytes) : Option (List Finding) :=
  if given.isNil view then some []
  else if field.list then
    match (given.node view).items with
    | some items =>
      gather (fun i v =>
        if (view v).isNil then
          some [reported .nullListElement (indexPath path i)
            (lit "null list elements are not allowed")]
        else itemFindings view schema n models false field (.value v) (indexPath path i))
        0 (items.getD [])
    | none => some [reported .typeMismatch path (lit "expected a list")]
  else itemFindings view schema n models field.nullableInInput field given path

variable (generators : Generators)

def givenFindings (n : Nat) (models : ModelFindings α) (get : Getter α) (path : Bytes)
    (field : FieldDescriptor α) : Option (List Finding) :=
  match supply generators get field with
  | none =>
    some (if field.requiredInInput then
        [reported .requiredField path (lit "required field is absent")]
      else [])
  | some given =>
    if given.isNil view && !field.nullableInInput then
      some [reported .nullNotAllowed path (lit "null is not allowed")]
    else valueFindings view schema n models field given path

def panickingLookup (path : Bytes) : Finding :=
  { issue := validationError .typeMismatch path (.text []), handling := .panicking }

def fieldFindings (n : Nat) (models : ModelFindings α) (get : Getter α) (path : Bytes)
    (field : FieldDescriptor α) : Option (List Finding) :=
  let fieldPath := appendPath path (fieldName field)
  let found := givenFindings view schema generators n models get fieldPath field
  if get.panics (fieldName field) then (panickingLookup fieldPath).covering found else found

def notAnObject (handling : Handling) (code : IssueCode) (path : Bytes) : Finding :=
  { issue := validationError code path (.text (lit "expected an object")), handling := handling }

/-- The findings in the input for a model, to the given depth. -/
def modelFindings : Nat → ModelFindings α
  | 0, _, _, _ => none
  | n + 1, modelName, input, path =>
    match lookup modelName schema.models with
    | none => some [notAnObject .aborting .typeMismatch path]
    | some fields =>
      match inputGetter view modelName input with
      | .error (.issue _) => some [notAnObject .relocated .invalidJSON path]
      | .error _ => some [notAnObject .aborting .typeMismatch path]
      | .ok get =>
        gather (fun _ field => fieldFindings view schema generators n (modelFindings n) get path field)
          0 fields

end

def Issue.cut (i : Issue) : Issue := { i with path := truncateValidationPath i.path }

theorem Issue.cut_cut (i : Issue) : i.cut.cut = i.cut := by
  have hpath := truncateValidationPath_short (truncateValidationPath_length i.path)
  simp only [Issue.cut, hpath]

def pathBytes (issues : List Issue) : Nat := (issues.map fun i => i.cut.path.length).sum

@[simp] theorem pathBytes_nil : pathBytes [] = 0 := rfl

@[simp] theorem pathBytes_cons (i : Issue) (issues : List Issue) :
    pathBytes (i :: issues) = i.cut.path.length + pathBytes issues := by
  simp [pathBytes]

@[simp] theorem pathBytes_append (issues issues' : List Issue) :
    pathBytes (issues ++ issues') = pathBytes issues + pathBytes issues' := by
  simp [pathBytes]

theorem pathBytes_cut (issues : List Issue) :
    pathBytes (issues.map Issue.cut) = pathBytes issues := by
  simp [pathBytes, Function.comp_def, Issue.cut_cut]

structure Reports (e : Issues) (issues : List Issue) : Prop where
  count : e.issueCount = min issues.length maxInt32
  kept : e.issues.Sublist (issues.map Issue.cut)
  whole : issues.length ≤ maxValidationIssues → pathBytes issues ≤ maxValidationPathBytes →
    e.issues = issues.map Issue.cut ∧ e.totalPathBytes = pathBytes issues

theorem saturating_min (hc : current ≤ maxInt32) (n : Nat) :
    saturatingValidationIssueCount current n = min (current + n) maxInt32 := by
  unfold saturatingValidationIssueCount
  split
  · omega
  · split <;> omega

theorem retain_cases (e : Issues) (i : Issue) :
    (e.retain i).issues = e.issues ∨ (e.retain i).issues = e.issues ++ [i.cut] := by
  unfold Issues.retain
  split
  · exact .inl rfl
  · dsimp only
    split
    · exact .inl rfl
    · exact .inr rfl

theorem retain_count (e : Issues) (i : Issue) : (e.retain i).issueCount = e.issueCount := by
  unfold Issues.retain
  split
  · rfl
  · dsimp only
    split <;> rfl

theorem retain_whole {e : Issues} (hl : e.issues.length < maxValidationIssues)
    (hb : e.totalPathBytes + i.cut.path.length ≤ maxValidationPathBytes) :
    (e.retain i).issues = e.issues ++ [i.cut] ∧
      (e.retain i).totalPathBytes = e.totalPathBytes + i.cut.path.length := by
  have hfit : ¬maxValidationPathBytes <
      e.totalPathBytes + (truncateValidationPath i.path).length := Nat.not_lt.2 hb
  unfold Issues.retain
  rw [if_neg (Nat.not_le.2 hl)]
  dsimp only
  rw [if_neg hfit]
  exact ⟨rfl, rfl⟩

theorem foldl_retain_count (issues : List Issue) (e : Issues) :
    (issues.foldl Issues.retain e).issueCount = e.issueCount := by
  induction issues generalizing e with
  | nil => rfl
  | cons i issues ih => exact (ih _).trans (retain_count e i)

theorem foldl_retain_kept (issues : List Issue) (e : Issues) (h : e.issues.Sublist kept) :
    (issues.foldl Issues.retain e).issues.Sublist (kept ++ issues.map Issue.cut) := by
  induction issues generalizing e kept with
  | nil => simpa using h
  | cons i issues ih =>
    have hnext : (e.retain i).issues.Sublist (kept ++ [i.cut]) := by
      rcases retain_cases e i with heq | heq
      · rw [heq]
        exact h.trans (List.sublist_append_left _ _)
      · rw [heq]
        exact h.append (List.Sublist.refl _)
    simpa using ih (e.retain i) hnext

theorem foldl_retain_whole (issues : List Issue) (e : Issues)
    (hl : e.issues.length + issues.length ≤ maxValidationIssues)
    (hb : e.totalPathBytes + pathBytes issues ≤ maxValidationPathBytes) :
    (issues.foldl Issues.retain e).issues = e.issues ++ issues.map Issue.cut ∧
      (issues.foldl Issues.retain e).totalPathBytes = e.totalPathBytes + pathBytes issues := by
  induction issues generalizing e with
  | nil => simp
  | cons i issues ih =>
    rw [List.length_cons] at hl
    rw [pathBytes_cons] at hb
    obtain ⟨hissues, htotal⟩ := retain_whole (e := e) (i := i) (by omega) (by omega)
    have hlen := congrArg List.length hissues
    rw [List.length_append, List.length_singleton] at hlen
    obtain ⟨h, ht⟩ := ih (e.retain i) (by omega) (by omega)
    refine ⟨?_, ?_⟩
    · rw [List.foldl_cons, h, hissues]
      simp
    · rw [List.foldl_cons, ht, htotal, pathBytes_cons]
      omega

namespace Reports

theorem empty : Reports {} [] := ⟨rfl, .slnil, fun _ _ => ⟨rfl, rfl⟩⟩

theorem count_le (h : Reports e issues) : e.issueCount ≤ maxInt32 := by
  rw [h.count]
  exact Nat.min_le_right _ _

theorem count_eq_zero (h : Reports e issues) : e.issueCount = 0 ↔ issues = [] := by
  rw [h.count, ← List.length_eq_zero_iff]
  have hpos : 0 < maxInt32 := by decide
  omega

theorem merge (h : Reports e issues) (h' : Reports e' issues') :
    Reports (e.merge e') (issues ++ issues') where
  count := by
    unfold Issues.merge
    rw [foldl_retain_count, List.length_append]
    dsimp only
    rw [saturating_min h.count_le, h.count, h'.count]
    omega
  kept := by
    have hcut : e'.issues.map Issue.cut |>.Sublist (issues'.map Issue.cut) := by
      have := h'.kept.map Issue.cut
      simpa [Function.comp_def, Issue.cut_cut] using this
    rw [List.map_append]
    refine List.Sublist.trans ?_ (hcut.append_left _)
    exact foldl_retain_kept e'.issues
      { e with issueCount := saturatingValidationIssueCount e.issueCount e'.issueCount } h.kept
  whole := by
    intro hl hb
    rw [List.length_append] at hl
    rw [pathBytes_append] at hb
    obtain ⟨hi, ht⟩ := h.whole (by omega) (by omega)
    obtain ⟨hi', -⟩ := h'.whole (by omega) (by omega)
    have hlen : (issues'.map Issue.cut).length = issues'.length := List.length_map _
    have hlen' := congrArg List.length hi
    rw [List.length_map] at hlen'
    unfold Issues.merge
    rw [hi']
    have hkept := foldl_retain_whole (issues'.map Issue.cut)
      { e with issueCount := saturatingValidationIssueCount e.issueCount e'.issueCount }
      (by dsimp only; omega) (by rw [pathBytes_cut]; dsimp only; omega)
    rw [hkept.1, hkept.2, pathBytes_cut, pathBytes_append]
    refine ⟨?_, ?_⟩
    · dsimp only
      rw [hi, List.map_append, List.map_map]
      congr 1
      exact List.map_congr_left fun i _ => Issue.cut_cut i
    · dsimp only
      rw [ht]

theorem addIssue (h : Reports e issues) (i : Issue) : Reports (e.addIssue i) (issues ++ [i]) where
  count := by
    unfold Issues.addIssue
    rw [retain_count, List.length_append]
    dsimp only
    rw [saturating_min h.count_le, h.count, List.length_singleton]
    omega
  kept := by
    rw [List.map_append]
    exact foldl_retain_kept [i]
      { e with issueCount := saturatingValidationIssueCount e.issueCount 1 } h.kept
  whole := by
    intro hl hb
    rw [List.length_append, List.length_singleton] at hl
    rw [pathBytes_append] at hb
    obtain ⟨hi, ht⟩ := h.whole (by omega) (by omega)
    have hlen := congrArg List.length hi
    rw [List.length_map] at hlen
    have hkept := foldl_retain_whole [i]
      { e with issueCount := saturatingValidationIssueCount e.issueCount 1 }
      (by dsimp only; rw [List.length_singleton]; omega) (by dsimp only; omega)
    rw [List.map_append, pathBytes_append, ← hi, ← ht]
    exact hkept

end Reports

end Repost.Serialize
