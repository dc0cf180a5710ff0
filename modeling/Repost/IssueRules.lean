import Repost.SerializerFuel

namespace Repost.Serialize
open GoText
set_option autoImplicit true

structure IssueRule (α : Type) where
  place : Bytes → Prop
  made : Issue → Prop
  kept : Issue → Prop
  known : Bytes → Prop
  missing : Prop

/-- The rule is kept by every function that makes or keeps an issue. -/
structure IssueRule.Sound (R : IssueRule α) (schema : SchemaDescriptor α) : Prop where
  root : R.place (lit "$")
  index : ∀ {path}, R.place path → ∀ i, R.place (indexPath path i)
  star : ∀ {path}, R.place path → R.place (starPath path)
  field : ∀ {path model fields field}, R.place path → lookup model schema.models = some fields →
    field ∈ fields → R.place (appendPath path (fieldName field))
  issue : ∀ {path code issueCode message}, R.place path → code ≠ .unknownScalarKind →
    code ≠ .invalidDescriptorReference → R.made (validationErrorWithIssue code issueCode path message)
  descriptor : ∀ {path model fields field i}, R.place path → R.known model →
    lookup model schema.models = some fields → field ∈ fields →
    validateFieldDescriptor field path = some i → R.made i
  cut : ∀ {i : Issue}, R.made i ∨ R.kept i → R.kept { i with path := truncateValidationPath i.path }
  target : ∀ {model fields field}, R.known model → lookup model schema.models = some fields →
    field ∈ fields → field.target ≠ [] → R.known field.target
  descriptorOf : ∀ {model}, R.known model → lookup model schema.models = none → R.missing

namespace IssueRule

def Keeps (R : IssueRule α) (e : Issues) : Prop := ∀ i ∈ e.issues, R.kept i

def Holds (R : IssueRule α) : SerializerError → Prop
  | .issues e => R.Keeps e
  | .issue i => R.made i
  | .noDescriptor _ => R.missing
  | .notObject _ | .panicked => True

section
variable {α : Type} {R : IssueRule α} {schema : SchemaDescriptor α} {view : α → Node α}

theorem Keeps.empty : R.Keeps {} := nofun

theorem Keeps.retain {e : Issues} (hR : R.Sound schema) (h : R.Keeps e)
    (hi : R.made issue ∨ R.kept issue) : R.Keeps (e.retain issue) := by
  unfold Issues.retain
  split
  · exact h
  · dsimp only
    split
    · exact h
    · intro i him
      rcases List.mem_append.1 him with him | him
      · exact h i him
      · rw [List.mem_singleton.1 him]
        exact hR.cut hi

theorem Keeps.addIssue {e : Issues} (hR : R.Sound schema) (h : R.Keeps e) (hi : R.made issue) :
    R.Keeps (e.addIssue issue) := by
  have hcounted : R.Keeps { e with issueCount := saturatingValidationIssueCount e.issueCount 1 } := h
  exact hcounted.retain hR (.inl hi)

theorem Keeps.merge {e other : Issues} (hR : R.Sound schema) (h : R.Keeps e) (ho : R.Keeps other) :
    R.Keeps (e.merge other) := by
  have hfold : ∀ (issues : List Issue) (e : Issues), R.Keeps e → (∀ i ∈ issues, R.kept i) →
      R.Keeps (issues.foldl Issues.retain e) := by
    intro issues
    induction issues with
    | nil => exact fun e he _ => he
    | cons i issues ih =>
      intro e he hall
      apply ih
      · exact he.retain hR (.inr (hall i List.mem_cons_self))
      · exact fun j hj => hall j (List.mem_cons_of_mem i hj)
  exact hfold other.issues _ h ho

theorem Keeps.add {e e' : Issues} {err : SerializerError} (hR : R.Sound schema) (h : R.Keeps e)
    (he : R.Holds err) (ha : e.add err = some e') : R.Keeps e' := by
  cases err with
  | issues other =>
    cases ha
    exact h.merge hR he
  | issue i =>
    cases ha
    exact h.addIssue hR he
  | noDescriptor model => cases ha
  | notObject model => cases ha
  | panicked => cases ha

theorem Sound.plain (hR : R.Sound schema) (hp : R.place path)
    (hc : code ≠ .unknownScalarKind ∧ code ≠ .invalidDescriptorReference) :
    R.made (validationError code path message) :=
  hR.issue hp hc.1 hc.2

theorem Sound.flaw {node : Node α} {found : Issue} (hR : R.Sound schema) (hp : R.place path)
    (hf : node.flaw path = some found) : R.made found := by
  cases node with
  | number text =>
    simp only [Node.flaw] at hf
    split at hf
    · cases hf
      exact hR.plain hp (by decide)
    · cases hf
    · cases hf
      exact hR.plain hp (by decide)
  | float f =>
    cases f with
    | finite f => cases hf
    | _ =>
      cases hf
      exact hR.plain hp (by decide)
  | string s =>
    obtain ⟨-, hf⟩ := Option.ite_none_left_eq_some.1 hf
    cases hf
    exact hR.plain hp (by decide)
  | map type entries =>
    cases entries with
    | none => cases hf
    | some entries =>
      simp only [Node.flaw] at hf
      split at hf
      · cases hf
        exact hR.plain (hR.star hp) (by decide)
      · split at hf
        · cases hf
          exact hR.plain (hR.star hp) (by decide)
        · cases hf
  | time text | struct fields | other =>
    cases hf
    exact hR.plain hp (by decide)
  | _ => cases hf

theorem walkAll_keeps {f : Nat → β → Issues → Option Issues}
    (hf : ∀ i x e e', R.Keeps e → f i x e = some e' → R.Keeps e') (he : R.Keeps e)
    (h : walkAll f i xs e = some e') : R.Keeps e' := by
  induction xs generalizing i e with
  | nil =>
    cases h
    exact he
  | cons x xs ih =>
    obtain ⟨next, hnext, hrest⟩ := Option.bind_eq_some_iff.1 h
    exact ih (hf i x e next he hnext) hrest

variable [Addressed α]

theorem validateJSONAt_keeps (hR : R.Sound schema) (hp : R.place path) (he : R.Keeps e)
    (h : validateJSONAt view fuel v path ancestors e = some e') : R.Keeps e' := by
  induction fuel generalizing v path ancestors e e' with
  | zero => cases h
  | succ fuel ih =>
    have hcycle : R.Keeps (e.addIssue (cycleIssue path)) :=
      he.addIssue hR (hR.issue hp (by decide) (by decide))
    unfold validateJSONAt at h
    split at h
    · split at h
      · cases h
        exact hcycle
      · exact ih hp he h
    · split at h
      · cases h
        exact hcycle
      · rw [validateItems_eq] at h
        exact walkAll_keeps (fun i _ _ _ he h => ih (hR.index hp i) he h) he h
    · rw [validateItems_eq] at h
      exact walkAll_keeps (fun i _ _ _ he h => ih (hR.index hp i) he h) he h
    · split at h
      · cases h
        exact hcycle
      · split at h
        · rename_i hflaw
          cases h
          exact he.addIssue hR (hR.flaw hp hflaw)
        · rw [validateEntries_eq _ _ 0] at h
          exact walkAll_keeps (fun _ _ _ _ he h => ih (hR.star hp) he h) he h
    · split at h
      · rename_i hflaw
        cases h
        exact he.addIssue hR (hR.flaw hp hflaw)
      · cases h
        exact he

theorem validateJSON_holds (hR : R.Sound schema) (hp : R.place path)
    (h : validateJSON view fuel given path = some (some err)) : R.Holds err := by
  obtain ⟨e, hwalk, herr⟩ := Option.map_eq_some_iff.1 h
  have he : R.Keeps e := by
    split at hwalk
    · exact validateJSONAt_keeps hR hp .empty hwalk
    · split at hwalk
      · rename_i hflaw
        cases hwalk
        exact Keeps.empty.addIssue hR (hR.flaw hp hflaw)
      · cases hwalk
        exact .empty
  split at herr
  · cases herr
    exact he
  · cases herr

theorem validateScalar_holds (hR : R.Sound schema) (hp : R.place path)
    (h : validateScalar view fuel kind given path = some (some err)) : R.Holds err := by
  unfold validateScalar at h
  split at h
  · exact validateJSON_holds hR hp h
  · dsimp only at h
    split at h
    · cases h
      exact hR.plain hp (by decide)
    · split at h
      · cases h
      · cases h
        exact hR.plain hp (by decide)

variable {generators : Generators}

def Collected (R : IssueRule α) : Except SerializerError (β × Issues) → Prop
  | .ok collected => R.Keeps collected.2
  | .error err => R.Holds err

def Serializer (R : IssueRule α) (serializeModel : ModelSerializer α) : Prop :=
  ∀ model given path err, R.known model → R.place path →
    serializeModel model given path = some (.error err) → R.Holds err

variable {serializeModel : ModelSerializer α}

theorem serializeItem_holds (hR : R.Sound schema) (hm : R.Serializer serializeModel)
    (ht : field.target ≠ [] → R.known field.target) (hp : R.place path)
    (h : serializeItem view schema fuel serializeModel field given path = some (.error err)) :
    R.Holds err := by
  unfold serializeItem at h
  split at h
  · cases h
  · split at h
    · rename_i hmodel
      exact hm _ _ _ _ (ht (by simpa using hmodel)) hp h
    · split at h
      · split at h
        · split at h <;> cases h
        · split at h
          · cases h
            exact hR.plain hp (by decide)
          · cases h
      · split at h
        · cases h
        · split at h
          · split at h
            · cases h
            · rename_i hscalar
              cases h
              exact validateScalar_holds hR hp hscalar
            · cases h
          · cases h

omit [Addressed α] in
theorem serializeItems_collected {item : α → Bytes → Outcome (Payload α)} (hR : R.Sound schema)
    (hitem : ∀ v path err, R.place path → item v path = some (.error err) → R.Holds err)
    (hp : R.place path) (he : R.Keeps collected.2)
    (h : serializeItems view item field path i items collected = some result) :
    R.Collected result := by
  induction items generalizing i collected with
  | nil =>
    cases h
    exact he
  | cons v items ih =>
    obtain ⟨payloads, e⟩ := collected
    unfold serializeItems at h
    dsimp only at h
    split at h
    · have hnull : R.made (validationError .nullListElement (indexPath path i)
          (.text (lit "null list elements are not allowed"))) :=
        hR.plain (hR.index hp i) (by decide)
      exact ih (Keeps.addIssue hR he hnull) h
    · split at h
      · cases h
      · rename_i payload hitem
        have hkept : R.Keeps (payloads ++ [payload], e).2 := he
        exact ih hkept h
      · rename_i err herr
        have hholds := hitem v _ err (hR.index hp i) herr
        split at h
        · rename_i next hnext
          exact ih (Keeps.add hR he hholds hnext) h
        · cases h
          exact hholds

theorem serializeValue_holds (hR : R.Sound schema) (hm : R.Serializer serializeModel)
    (ht : field.target ≠ [] → R.known field.target) (hp : R.place path)
    (h : serializeValue view schema fuel serializeModel field given path = some (.error err)) :
    R.Holds err := by
  unfold serializeValue at h
  dsimp only at h
  have hitems : ∀ v path err, R.place path →
      serializeItem view schema fuel serializeModel field (.value v) path = some (.error err) →
        R.Holds err := fun v path err hp h => serializeItem_holds hR hm ht hp h
  split at h
  · cases h
  · split at h
    · split at h
      · cases h
      · split at h
        · cases h
        · rename_i hrun
          cases h
          exact serializeItems_collected hR hitems hp .empty hrun
        · rename_i hrun
          split at h
          · cases h
            exact serializeItems_collected hR hitems hp .empty hrun
          · cases h
      · split at h
        · cases h
          exact hR.plain hp (by decide)
        · exact serializeItem_holds hR hm ht hp h
    · exact serializeItem_holds hR hm ht hp h

theorem serializeField_collected {get : Getter α} (hR : R.Sound schema)
    (hm : R.Serializer serializeModel) (ht : field.target ≠ [] → R.known field.target)
    (hd : ∀ i, validateFieldDescriptor field (appendPath path (fieldName field)) = some i → R.made i)
    (hp : R.place (appendPath path (fieldName field))) (he : R.Keeps collected.2)
    (h : serializeField view schema generators fuel serializeModel get path field collected =
      some result) : R.Collected result := by
  obtain ⟨members, e⟩ := collected
  unfold serializeField at h
  dsimp only at h
  split at h
  · rename_i issue hdescriptor
    cases h
    exact hd issue hdescriptor
  · split at h
    · cases h
      trivial
    · split at h
      · split at h
        · cases h
          exact Keeps.addIssue hR he (hR.plain hp (by decide))
        · cases h
          exact he
      · split at h
        · cases h
          exact Keeps.addIssue hR he (hR.plain hp (by decide))
        · split at h
          · cases h
          · cases h
            exact he
          · rename_i err hvalue
            have hholds := serializeValue_holds hR hm ht hp hvalue
            split at h
            · rename_i next hnext
              cases h
              exact Keeps.add hR he hholds hnext
            · cases h
              exact hholds

theorem serializeFields_collected {get : Getter α} (hR : R.Sound schema)
    (hm : R.Serializer serializeModel) (hk : R.known model) (hp : R.place path)
    (hmodel : lookup model schema.models = some all) (hall : ∀ field ∈ fields, field ∈ all)
    (he : R.Keeps collected.2)
    (h : serializeFields view schema generators fuel serializeModel get path fields collected =
      some result) : R.Collected result := by
  induction fields generalizing collected with
  | nil =>
    cases h
    exact he
  | cons field fields ih =>
    have hmem := hall field List.mem_cons_self
    have hplace := hR.field hp hmodel hmem
    have hd := fun i => hR.descriptor (i := i) hplace hk hmodel hmem
    have hfield : ∀ {out}, serializeField view schema generators fuel serializeModel get path field
        collected = some out → R.Collected out :=
      serializeField_collected hR hm (hR.target hk hmodel hmem) hd hplace he
    unfold serializeFields at h
    split at h
    · rename_i next hnext
      exact ih (fun f hf => hall f (List.mem_cons_of_mem field hf)) (hfield hnext) h
    · exact hfield h

omit [Addressed α] in
theorem inputGetter_holds (hR : R.Sound schema)
    (h : inputGetter view model given = .error err) : R.Holds err := by
  unfold inputGetter at h
  split at h
  · cases h
  · split at h
    · cases h
      exact hR.plain hR.root (by decide)
    · cases h
    · cases h
    · cases h
      trivial

/-- The rule holds of every error of the serializer. -/
theorem Sound.serializer (hR : R.Sound schema) (fuel : Nat) :
    R.Serializer (serializeModelAtUnchecked view schema generators fuel) := by
  induction fuel with
  | zero => exact fun _ _ _ _ _ _ h => by cases h
  | succ fuel ih =>
    intro model given path err hk hp h
    unfold serializeModelAtUnchecked at h
    split at h
    · rename_i hmodel
      cases h
      exact hR.descriptorOf hk hmodel
    · rename_i fields hmodel
      split at h
      · rename_i e hinput
        cases h
        exact inputGetter_holds hR hinput
      · split at h
        · cases h
        · rename_i hfields
          cases h
          exact serializeFields_collected hR ih hk hp hmodel (fun _ hf => hf) .empty hfields
        · rename_i hfields
          split at h
          · cases h
            exact serializeFields_collected hR ih hk hp hmodel (fun _ hf => hf) .empty hfields
          · cases h

end

end IssueRule

end Repost.Serialize
