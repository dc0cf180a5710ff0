import Repost.Conforming
import Repost.Nesting

namespace Repost.Serialize
open GoText
set_option autoImplicit true

theorem saturating_pos (h : current ≠ 0 ∨ n ≠ 0) : saturatingValidationIssueCount current n ≠ 0 := by
  have hmax : maxInt32 ≠ 0 := by decide
  unfold saturatingValidationIssueCount
  split
  · omega
  · split <;> omega

theorem addIssue_pos (e : Issues) (i : Issue) : (e.addIssue i).issueCount ≠ 0 := by
  unfold Issues.addIssue
  rw [retain_count]
  exact saturating_pos (.inr Nat.one_ne_zero)

theorem merge_pos {e other : Issues} (h : e.issueCount ≠ 0 ∨ other.issueCount ≠ 0) :
    (e.merge other).issueCount ≠ 0 := by
  unfold Issues.merge
  rw [foldl_retain_count]
  exact saturating_pos h

def SerializerError.Solid : SerializerError → Prop
  | .issues e => e.issueCount ≠ 0
  | _ => True

theorem add_pos {e e' : Issues} {err : SerializerError} (hs : err.Solid) (h : e.add err = some e') : e'.issueCount ≠ 0 := by
  cases err with
  | issues other =>
    cases h
    exact merge_pos (.inr hs)
  | issue i =>
    cases h
    exact addIssue_pos e i
  | noDescriptor model => cases h
  | notObject model => cases h
  | panicked => cases h

theorem solid_of_add_none {e : Issues} (h : e.add err = none) : err.Solid := by
  cases err with
  | issues other => cases h
  | issue i => trivial
  | noDescriptor model => trivial
  | notObject model => trivial
  | panicked => trivial

def Quiet (fs : List Finding) : Prop := ∀ f ∈ fs, f.handling = .unnoticed

theorem Quiet.nil : Quiet [] := nofun

theorem Quiet.append (h : Quiet fs) (h' : Quiet fs') : Quiet (fs ++ fs') := by
  intro f hf
  rcases List.mem_append.1 hf with hf | hf
  · exact h f hf
  · exact h' f hf

theorem quiet_of_told (hc : Calm fs) (ht : told fs = []) : Quiet fs := by
  intro f hf
  have hnone : f.told = none := List.filterMap_eq_nil_iff.1 ht f hf
  have hcalm := hc f hf
  unfold Finding.told at hnone
  unfold Finding.stops at hcalm
  cases hh : f.handling with
  | unnoticed => rfl
  | aborting | panicking => simp [hh] at hcalm
  | reported | relocated | mistaken =>
    rw [hh] at hnone
    cases hnone

theorem Quiet.told (h : Quiet fs) : Calm fs ∧ told fs = [] := by
  refine ⟨?_, List.filterMap_eq_nil_iff.2 ?_⟩
  · intro f hf
    simp [Finding.stops, h f hf]
  · intro f hf
    unfold Finding.told
    rw [h f hf]

theorem Quiet.violations (h : Quiet fs) : violations fs = fs :=
  List.filter_eq_self.2 fun f hf => by simp [Finding.violates, h f hf]

/-- A walk that ends with nothing collected started so, and there is nothing to find. -/
def Clean (walk : Issues → Option Issues) (found : Option (List Finding)) : Prop :=
  ∀ e e', walk e = some e' → e'.issueCount = 0 → e.issueCount = 0 ∧ found = some []

section
variable {α : Type} {view : α → Node α} [Addressed α]

omit [Addressed α] in
theorem walkAll_clean {f : Nat → β → Issues → Option Issues} {find : Nat → β → Option (List Finding)}
    (hwalk : ∀ j x, Clean (f j x) (find j x)) (i : Nat) (xs : List β) :
    Clean (walkAll f i xs) (gather find i xs) := by
  induction xs generalizing i with
  | nil =>
    intro e e' h hzero
    cases h
    exact ⟨hzero, rfl⟩
  | cons x xs ih =>
    intro e e' h hzero
    obtain ⟨next, hnext, hlast⟩ := Option.bind_eq_some_iff.1 h
    obtain ⟨hz, hrest⟩ := ih (i + 1) next e' hlast hzero
    obtain ⟨hz', hfirst⟩ := hwalk i x e next hnext hz
    refine ⟨hz', ?_⟩
    rw [gather, hfirst, hrest]
    rfl

theorem jsonFindings_leaf (hpointer : ∀ target, view v = .pointer (some target) → False)
    (hslice : ∀ type items, view v = .slice type (some items) → False)
    (harray : ∀ items, view v = .array items → False)
    (hmap : ∀ type entries, view v = .map type (some entries) → False) :
    jsonFindings view (n + 1) v path ancestors =
      some (((view v).flaw path).toList.map fun issue => { issue := issue }) := by
  unfold jsonFindings
  split
  · rename_i hv
    exact (hpointer _ hv).elim
  · rename_i hv
    exact (hslice _ _ hv).elim
  · rename_i hv
    exact (harray _ hv).elim
  · rename_i hv
    exact (hmap _ _ hv).elim
  · rfl

theorem validateJSONAt_clean (n : Nat) (v : α) (path : Bytes) (ancestors : List JsonAncestor) :
    Clean (validateJSONAt view n v path ancestors) (jsonFindings view n v path ancestors) := by
  induction n generalizing v path ancestors with
  | zero =>
    intro e e' h
    cases h
  | succ n ih =>
    intro e e' h hzero
    have hadd : ∀ i, some (e.addIssue i) = some e' → False := by
      intro i heq
      cases heq
      exact addIssue_pos e i hzero
    have hitems : ∀ ancestors items,
        validateItems (fun w path => validateJSONAt view n w path ancestors) path 0 items e =
          some e' → e.issueCount = 0 ∧
            gather (fun i w => jsonFindings view n w (indexPath path i) ancestors) 0 items =
              some [] := by
      intro ancestors items h
      rw [validateItems_eq] at h
      exact walkAll_clean (fun j w => ih w _ ancestors) 0 items e e' h hzero
    unfold validateJSONAt at h
    split at h
    · rename_i target hv
      simp only [jsonFindings, hv]
      split at h
      · exact (hadd _ h).elim
      · rw [entering, if_neg ‹_›]
        exact ih _ _ _ e e' h hzero
    · rename_i type items hv
      simp only [jsonFindings, hv]
      split at h
      · exact (hadd _ h).elim
      · rw [entering, if_neg ‹_›]
        exact hitems _ items h
    · rename_i items hv
      simp only [jsonFindings, hv]
      exact hitems _ items h
    · rename_i type entries hv
      simp only [jsonFindings, hv]
      split at h
      · exact (hadd _ h).elim
      · rw [entering, if_neg ‹_›]
        cases hflaw : Node.flaw path (.map type (some entries) : Node α) with
        | some issue =>
          rw [hflaw] at h
          exact (hadd _ h).elim
        | none =>
          simp only [hflaw] at h
          rw [validateEntries_eq _ _ 0] at h
          exact walkAll_clean (fun j entry => ih entry.2 _ _) 0 entries e e' h hzero
    · rename_i hpointer hslice harray hmap
      rw [jsonFindings_leaf hpointer hslice harray hmap]
      split at h
      · exact (hadd _ h).elim
      · rename_i hflaw
        cases h
        rw [hflaw]
        exact ⟨hzero, rfl⟩

theorem validateJSON_clean (h : validateJSON view n given path = some none) :
    ∃ fs, scalarFindings view n .json nullable given path = some fs ∧ Quiet fs := by
  have hplain : (∀ v, given ≠ .value v) →
      ∃ fs, scalarFindings view n .json nullable given path = some fs ∧ Quiet fs := by
    intro hg
    rw [validateJSON_plain hg] at h
    rw [scalarFindings_plain hg]
    cases hflaw : (given.node view).flaw path with
    | none => exact ⟨[], rfl, Quiet.nil⟩
    | some issue =>
      rw [hflaw, Option.map_some, Option.elim_some, if_pos (addIssue_pos _ _)] at h
      cases h
  cases given with
  | value v =>
    obtain ⟨e, hwalk, herr⟩ := Option.map_eq_some_iff.1 h
    have hzero : e.issueCount = 0 := by
      by_contra hne
      rw [if_pos hne] at herr
      cases herr
    have hfound := (validateJSONAt_clean n v path [] {} e hwalk hzero).2
    refine ⟨_, Option.map_eq_some_iff.2 ⟨[], hfound, rfl⟩, ?_⟩
    intro f hf
    rw [List.append_nil] at hf
    split at hf
    · rw [List.mem_singleton.1 hf]
      rfl
    · cases hf
  | nil | string s | dateTime s => exact hplain fun _ h => by cases h

theorem validateScalar_clean (nullable : Bool)
    (h : validateScalar view n kind given path = some none) :
    ∃ fs, scalarFindings view n kind nullable given path = some fs ∧ Quiet fs := by
  by_cases hjson : kind = .json
  · subst hjson
    exact validateJSON_clean h
  · have hspec : ∃ fs, scalarFindings view n kind nullable given path = some fs := by
      cases kind with
      | json => exact absurd rfl hjson
      | enum => exact ⟨_, rfl⟩
      | _ => exact ⟨_, rfl⟩
    obtain ⟨fs, hfs⟩ := hspec
    obtain ⟨r, hr, hmatch⟩ := validateScalar_matches () hfs
    rw [h] at hr
    cases hr
    cases hmatch with
    | ok hc ht => exact ⟨fs, hfs, quiet_of_told hc ht⟩

theorem validateScalar_solid (h : validateScalar view n kind given path = some (some err)) :
    err.Solid := by
  unfold validateScalar at h
  split at h
  · obtain ⟨e, -, herr⟩ := Option.map_eq_some_iff.1 h
    split at herr
    · rename_i hne
      cases herr
      exact hne
    · cases herr
  · dsimp only at h
    split at h
    · cases h
      trivial
    · split at h
      · cases h
      · cases h
        trivial

variable {schema : SchemaDescriptor α} {generators : Generators} {models : ModelFindings α}
  {distinct : Prop} {payloads : Bytes → Given α → Option (Payload α)}
  {serializeModel : ModelSerializer α}

def ModelSerializer.Solid (serializeModel : ModelSerializer α) : Prop :=
  ∀ model given path err, serializeModel model given path = some (.error err) → err.Solid

/-- What is returned is the payload if no two fields of a model share a wire name. -/
def ModelSerializer.Renders (serializeModel : ModelSerializer α) (models : ModelFindings α)
    (distinct : Prop) (payloads : Bytes → Given α → Option (Payload α)) : Prop :=
  ∀ model given path payload, serializeModel model given path = some (.ok payload) →
    (∃ fs, models model given path = some fs ∧ Quiet fs) ∧
      (distinct → payloads model given = some payload)

theorem serializeItem_solid (hm : serializeModel.Solid)
    (h : serializeItem view schema n serializeModel field given path = some (.error err)) :
    err.Solid := by
  unfold serializeItem at h
  split at h
  · cases h
  · split at h
    · exact hm _ _ _ _ h
    · split at h
      · split at h
        · split at h <;> cases h
        · split at h
          · cases h
            trivial
          · cases h
      · split at h
        · cases h
        · split at h
          · split at h
            · cases h
            · rename_i hscalar
              cases h
              exact validateScalar_solid hscalar
            · cases h
          · cases h

theorem serializeItem_quiet (hm : serializeModel.Renders models distinct payloads)
    (hv : isV2Field field = true) (nullable : Bool)
    (h : serializeItem view schema n serializeModel field given path = some (.ok payload)) :
    ∃ fs, itemFindings view schema n models nullable field given path = some fs ∧ Quiet fs := by
  unfold itemFindings
  split
  · exact ⟨[], rfl, Quiet.nil⟩
  · rename_i hgiven
    unfold serializeItem at h
    split at h
    · exact (hgiven _ rfl).elim
    · split at h
      · rw [if_pos ‹_›]
        exact (hm _ _ _ _ h).1
      · rw [if_neg ‹_›]
        cases htable : field.table schema with
        | some table =>
          rw [htable] at h
          cases htext : (given.node view).text with
          | none =>
            simp only [htext] at h
            cases h
          | some s => exact ⟨[], rfl, Quiet.nil⟩
        | none =>
          simp only [htable] at h
          rw [if_neg (by simp)]
          split at h
          · rename_i text htime hdate
            have hkind : field.scalarKind = .datetime := by simpa [hv] using hdate
            refine ⟨[], ?_, Quiet.nil⟩
            rw [hkind]
            unfold scalarFindings
            simp only [htime]
            rfl
          · split at h
            · cases h
            · cases h
            · rename_i hscalar
              exact validateScalar_clean nullable hscalar

theorem serializeItem_payload (hd : distinct) (hm : serializeModel.Renders models distinct payloads)
    (hv : isV2Field field = true)
    (h : serializeItem view schema n serializeModel field given path = some (.ok payload)) :
    itemPayload view schema payloads field given = some payload := by
  unfold itemPayload
  split
  · cases h
    rfl
  · rename_i hgiven
    unfold serializeItem at h
    split at h
    · exact (hgiven _ rfl).elim
    · split at h
      · rw [if_pos ‹_›]
        exact (hm _ _ _ _ h).2 hd
      · rw [if_neg ‹_›]
        cases htable : field.table schema with
        | some table =>
          cases htext : (given.node view).text with
          | none =>
            simp only [htable, htext] at h
            cases h
          | some s =>
            simp only [htable, htext] at h
            cases hwire : lookup s table with
            | none | some wire =>
              rw [hwire] at h
              cases h
              simp only [hwire]
        | none =>
          simp only [htable] at h
          dsimp only
          split at h
          · rename_i text htime hdate
            have hkind : field.scalarKind = .datetime := by simpa [hv] using hdate
            cases h
            rw [htime]
            simp only [hkind, if_true]
          · rename_i htime
            have hpayload : given.verbatim = payload := by
              split at h
              · cases h
              · cases h
              · cases h
                rfl
            subst hpayload
            split
            · rename_i text hnode
              rw [if_neg]
              intro hkind
              exact htime text hnode (by simp [hkind])
            · rfl

end

end Repost.Serialize
