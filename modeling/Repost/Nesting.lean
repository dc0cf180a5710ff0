import Repost.FindingsReported

namespace Repost.Serialize
open GoText
set_option autoImplicit true

theorem gather_congr {f g : Nat → β → Option (List γ)}
    (hfg : ∀ i, ∀ b ∈ bs, ∀ out, f i b = some out → g i b = some out)
    (h : gather f i bs = some out) : gather g i bs = some out := by
  induction bs generalizing i out with
  | nil => exact h
  | cons b bs ih =>
    obtain ⟨found, rest, hfound, hrest, rfl⟩ := gather_cons h
    unfold gather
    rw [hfg i b List.mem_cons_self found hfound,
      ih (fun i c hc => hfg i c (List.mem_cons_of_mem b hc)) hrest]

theorem gather_exists {f : Nat → Nat → β → Option (List γ)}
    (hmono : ∀ n i b out, f n i b = some out → f (n + 1) i b = some out)
    (h : ∀ i, ∀ b ∈ bs, ∃ n out, f n i b = some out) (i : Nat) :
    ∃ n out, gather (f n) i bs = some out := by
  have hle : ∀ {n m i b out}, n ≤ m → f n i b = some out → f m i b = some out := by
    intro n m i b out hnm hf
    induction hnm with
    | refl => exact hf
    | step _ ih => exact hmono _ _ _ _ ih
  induction bs generalizing i with
  | nil => exact ⟨0, [], rfl⟩
  | cons b bs ih =>
    obtain ⟨n, found, hn⟩ := h i b List.mem_cons_self
    obtain ⟨m, rest, hm⟩ := ih (fun i c hc => h i c (List.mem_cons_of_mem b hc)) (i + 1)
    refine ⟨max n m, found ++ rest, ?_⟩
    unfold gather
    rw [hle (Nat.le_max_left n m) hn,
      gather_congr (fun _ _ _ _ => hle (Nat.le_max_right n m)) hm]

theorem Finding.covering_mono {f : Finding} (hfound : ∀ fs, found = some fs → found' = some fs)
    (h : f.covering found = some fs) : f.covering found' = some fs := by
  obtain ⟨rest, hrest, rfl⟩ := Option.map_eq_some_iff.1 h
  rw [hfound rest hrest]
  rfl

section
variable {α : Type} {view : α → Node α} [Addressed α]

theorem entering_mono (hfound : ∀ fs, found = some fs → found' = some fs)
    (h : entering view v path ancestors found = some fs) :
    entering view v path ancestors found' = some fs := by
  unfold entering at h ⊢
  split at h
  · rw [if_pos ‹_›]
    exact Finding.covering_mono hfound h
  · rw [if_neg ‹_›]
    exact hfound fs h

theorem jsonFindings_succ (h : jsonFindings view n v path ancestors = some fs) :
    jsonFindings view (n + 1) v path ancestors = some fs := by
  induction n generalizing v path fs ancestors with
  | zero => cases h
  | succ n ih =>
    unfold jsonFindings at h ⊢
    split at h
    · exact entering_mono (fun _ => ih) h
    · exact entering_mono (fun _ => gather_congr fun _ _ _ _ => ih) h
    · exact gather_congr (fun _ _ _ _ => ih) h
    · refine entering_mono (fun fs h => ?_) h
      split at h
      · exact Finding.covering_mono (fun _ => gather_congr fun _ _ _ _ => ih) h
      · exact gather_congr (fun _ _ _ _ => ih) h
    · exact h

theorem entering_some (h : entering view v path ancestors found = some fs) :
    ∃ fs, found = some fs := by
  unfold entering at h
  split at h
  · obtain ⟨rest, hrest, -⟩ := Option.map_eq_some_iff.1 h
    exact ⟨rest, hrest⟩
  · exact ⟨fs, h⟩

theorem pointsToNull_succ (h : jsonFindings view n v path ancestors = some fs) :
    pointsToNull view (n + 1) v = pointsToNull view n v := by
  induction n generalizing v path fs ancestors with
  | zero => cases h
  | succ n ih =>
    unfold jsonFindings at h
    unfold pointsToNull
    cases hv : view v with
    | pointer target =>
      cases target with
      | none => rfl
      | some target =>
        rw [hv] at h
        obtain ⟨_, hinside⟩ := entering_some h
        exact ih hinside
    | _ => rfl

theorem scalarFindings_succ
    (h : scalarFindings view n kind nullable given path = some fs) :
    scalarFindings view (n + 1) kind nullable given path = some fs := by
  unfold scalarFindings at h ⊢
  dsimp only at h ⊢
  split at h
  · obtain ⟨found, hfound, rfl⟩ := Option.map_eq_some_iff.1 h
    unfold jsonNull
    rw [jsonFindings_succ hfound, pointsToNull_succ hfound]
    rfl
  · exact h
  · exact h
  · exact h

variable {schema : SchemaDescriptor α} {generators : Generators} {models longer : ModelFindings α}

def ModelFindings.ExtendedBy (models longer : ModelFindings α) : Prop :=
  ∀ model given path fs, models model given path = some fs → longer model given path = some fs

theorem itemFindings_succ (hm : models.ExtendedBy longer)
    (h : itemFindings view schema n models nullable field given path = some fs) :
    itemFindings view schema (n + 1) longer nullable field given path = some fs := by
  unfold itemFindings at h ⊢
  split at h
  · exact h
  · split at h
    · rw [if_pos ‹_›]
      exact hm _ _ _ _ h
    · rw [if_neg ‹_›]
      split at h
      · rwa [if_pos ‹_›]
      · rw [if_neg ‹_›]
        exact scalarFindings_succ h

theorem valueFindings_succ (hm : models.ExtendedBy longer)
    (h : valueFindings view schema n models field given path = some fs) :
    valueFindings view schema (n + 1) longer field given path = some fs := by
  unfold valueFindings at h ⊢
  split at h
  · rwa [if_pos ‹_›]
  · rw [if_neg ‹_›]
    split at h
    · rw [if_pos ‹_›]
      split at h
      · refine gather_congr ?_ h
        intro i v _ out hout
        split at hout
        · rwa [if_pos ‹_›]
        · rw [if_neg ‹_›]
          exact itemFindings_succ hm hout
      · exact h
    · rw [if_neg ‹_›]
      exact itemFindings_succ hm h

variable {get : Getter α}

theorem givenFindings_succ (hm : models.ExtendedBy longer)
    (h : givenFindings view schema generators n models get path field = some fs) :
    givenFindings view schema generators (n + 1) longer get path field = some fs := by
  unfold givenFindings at h ⊢
  split at h
  · exact h
  · split at h
    · rwa [if_pos ‹_›]
    · rw [if_neg ‹_›]
      exact valueFindings_succ hm h

theorem fieldFindings_succ (hm : models.ExtendedBy longer)
    (h : fieldFindings view schema generators n models get path field = some fs) :
    fieldFindings view schema generators (n + 1) longer get path field = some fs := by
  unfold fieldFindings at h ⊢
  dsimp only at h ⊢
  split at h
  · rw [if_pos ‹_›]
    exact Finding.covering_mono (fun _ => givenFindings_succ hm) h
  · rw [if_neg ‹_›]
    exact givenFindings_succ hm h

theorem modelFindings_succ (n : Nat) : (modelFindings view schema generators n).ExtendedBy
    (modelFindings view schema generators (n + 1)) := by
  induction n with
  | zero => exact fun _ _ _ _ h => by cases h
  | succ n ih =>
    intro model given path fs h
    unfold modelFindings at h ⊢
    split at h
    · exact h
    · split at h
      · exact h
      · exact h
      · exact gather_congr (fun _ _ _ _ => fieldFindings_succ ih) h

theorem modelFindings_mono (hle : n ≤ m)
    (h : modelFindings view schema generators n model given path = some fs) :
    modelFindings view schema generators m model given path = some fs := by
  induction hle with
  | refl => exact h
  | step hle ih => exact modelFindings_succ _ _ _ _ _ ih

theorem modelFindings_unique
    (h : modelFindings view schema generators n model given path = some fs)
    (h' : modelFindings view schema generators m model given path = some fs') : fs = fs' := by
  have hn := modelFindings_mono (Nat.le_max_left n m) h
  have hm := modelFindings_mono (Nat.le_max_right n m) h'
  exact Option.some.inj (hn.symm.trans hm)

def FieldDescriptor.parts (view : α → Node α) (field : FieldDescriptor α) (given : Given α) :
    List (Given α) :=
  if given.isNil view then []
  else if field.list then
    match (given.node view).items with
    | some items => ((items.getD []).filter fun v => !(view v).isNil).map .value
    | none => []
  else [given]

/-- Where a traversal is: at the input for a model, or at a value of kind json. -/
inductive Spot (α : Type) where
  | model (name : Bytes) (given : Given α)
  | json (v : α)

/-- A value that the input for a model holds for one of its fields, defaults included. -/
inductive HeldBy (view : α → Node α) (schema : SchemaDescriptor α) (generators : Generators)
    (field : FieldDescriptor α) (part : Given α) : Bytes → Given α → Prop
  | mk {get : Getter α} (hm : lookup name schema.models = some fields)
    (hget : inputGetter view name given = .ok get)
    (hf : field ∈ fields) (hs : supply generators get field = some whole)
    (hp : part ∈ field.parts view whole) : HeldBy view schema generators field part name given

inductive Below (view : α → Node α) (schema : SchemaDescriptor α) (generators : Generators) :
    Spot α → Spot α → Prop
  | model (h : HeldBy view schema generators field part name given) (ht : field.target ≠ []) :
    Below view schema generators (.model field.target part) (.model name given)
  | json (h : HeldBy view schema generators field (.value v) name given)
    (hk : field.scalarKind = .json) : Below view schema generators (.json v) (.model name given)
  | inside (h : JsonPart view w v) : Below view schema generators (.json w) (.json v)

/-- The input for a model and the defaults that come with it have no cycle. -/
def Acyclic (view : α → Node α) (schema : SchemaDescriptor α) (generators : Generators)
    (model : Bytes) (input : Given α) : Prop :=
  Acc (Below view schema generators) (.model model input)

theorem Finding.covering_exists (f : Finding) (h : found = some fs) :
    ∃ fs, f.covering found = some fs := by
  rw [h]
  exact ⟨_, rfl⟩

theorem entering_exists (view : α → Node α) (v : α) (path : Bytes) (ancestors : List JsonAncestor)
    (h : found = some fs) : ∃ fs, entering view v path ancestors found = some fs := by
  unfold entering
  split
  · exact Finding.covering_exists _ h
  · exact ⟨fs, h⟩

theorem jsonFindings_exist (hw : ∀ w, JsonPart view w v →
    ∀ path ancestors, ∃ n fs, jsonFindings view n w path ancestors = some fs) (path : Bytes)
    (ancestors : List JsonAncestor) :
    ∃ n fs, jsonFindings view n v path ancestors = some fs := by
  have hsucc : ∀ {n fs w path ancestors}, jsonFindings view n w path ancestors = some fs →
      jsonFindings view (n + 1) w path ancestors = some fs := jsonFindings_succ
  let own : List Finding := ((view v).flaw path).toList.map fun issue => { issue := issue }
  cases hv : view v with
  | pointer target =>
    cases target with
    | none => exact ⟨1, own, by simp only [jsonFindings, own, hv]⟩
    | some target =>
      obtain ⟨n, fs, h⟩ := hw target (.target hv) path (jsonAncestor view v :: ancestors)
      obtain ⟨fs, h⟩ := entering_exists view v path ancestors h
      exact ⟨n + 1, fs, by simp only [jsonFindings, hv, h]⟩
  | slice type items =>
    cases items with
    | none => exact ⟨1, own, by simp only [jsonFindings, own, hv]⟩
    | some items =>
      obtain ⟨n, fs, h⟩ := gather_exists
        (f := fun n i w => jsonFindings view n w (indexPath path i) (jsonAncestor view v :: ancestors))
        (fun _ _ _ _ => hsucc) (fun i w hmem => hw w (.item hv hmem) _ _) 0
      obtain ⟨fs, h⟩ := entering_exists view v path ancestors h
      exact ⟨n + 1, fs, by simp only [jsonFindings, hv, h]⟩
  | array items =>
    obtain ⟨n, fs, h⟩ := gather_exists
      (f := fun n i w => jsonFindings view n w (indexPath path i) ancestors)
      (fun _ _ _ _ => hsucc) (fun i w hmem => hw w (.element hv hmem) _ _) 0
    exact ⟨n + 1, fs, by simp only [jsonFindings, hv, h]⟩
  | map type entries =>
    cases entries with
    | none => exact ⟨1, own, by simp only [jsonFindings, own, hv]⟩
    | some entries =>
      obtain ⟨n, fs, h⟩ := gather_exists
        (f := fun n _ (e : Bytes × α) =>
          jsonFindings view n e.2 (starPath path) (jsonAncestor view v :: ancestors))
        (fun _ _ _ _ => hsucc) (fun i e hmem => hw e.2 (.entry hv hmem) _ _) 0
      cases hflaw : Node.flaw path (.map type (some entries) : Node α) with
      | none =>
        obtain ⟨fs, h⟩ := entering_exists view v path ancestors h
        exact ⟨n + 1, fs, by simp only [jsonFindings, hv, hflaw, h]⟩
      | some issue =>
        obtain ⟨fs, h⟩ := Finding.covering_exists { issue := issue } h
        obtain ⟨fs, h⟩ := entering_exists view v path ancestors h
        exact ⟨n + 1, fs, by simp only [jsonFindings, hv, hflaw, h]⟩
  | _ => exact ⟨1, own, by simp only [jsonFindings, own, hv]⟩

theorem scalarFindings_exist (kind : ScalarKind) (nullable : Bool) (given : Given α) (path : Bytes)
    (hj : kind = .json → ∀ v, given = .value v → ∃ n fs, jsonFindings view n v path [] = some fs) :
    ∃ n fs, scalarFindings view n kind nullable given path = some fs := by
  cases kind with
  | json =>
    cases given with
    | value v =>
      obtain ⟨n, fs, h⟩ := hj rfl v rfl
      exact ⟨n, _, Option.map_eq_some_iff.2 ⟨fs, h, rfl⟩⟩
    | nil => exact ⟨0, _, rfl⟩
    | string s => exact ⟨0, _, rfl⟩
    | dateTime s => exact ⟨0, _, rfl⟩
  | enum => exact ⟨0, _, rfl⟩
  | string => exact ⟨0, _, rfl⟩
  | boolean => exact ⟨0, _, rfl⟩
  | int64 => exact ⟨0, _, rfl⟩
  | float64 => exact ⟨0, _, rfl⟩
  | datetime => exact ⟨0, _, rfl⟩
  | model => exact ⟨0, _, rfl⟩
  | unknown name => exact ⟨0, _, rfl⟩

theorem itemFindings_exist
    (hm : field.target ≠ [] → ∃ n fs,
      modelFindings view schema generators n field.target given path = some fs)
    (hj : field.scalarKind = .json → ∀ v, given = .value v →
      ∃ n fs, jsonFindings view n v path [] = some fs) :
    ∃ n fs, itemFindings view schema n (modelFindings view schema generators n) nullable field given
      path = some fs := by
  unfold itemFindings
  split
  · exact ⟨0, _, rfl⟩
  · by_cases ht : field.target = []
    · have hnone : ¬(field.target != []) = true := by simp [ht]
      simp only [if_neg hnone]
      split
      · exact ⟨0, _, rfl⟩
      · exact scalarFindings_exist _ _ _ _ hj
    · have hsome : (field.target != []) = true := by simp [ht]
      simp only [if_pos hsome]
      exact hm ht

theorem givenFindings_exist
    (hitem : ∀ whole, supply generators get field = some whole →
      ∀ part ∈ field.parts view whole, ∀ nullable path, ∃ n fs,
        itemFindings view schema n (modelFindings view schema generators n) nullable field part
          path = some fs) (path : Bytes) :
    ∃ n fs, givenFindings view schema generators n (modelFindings view schema generators n) get path
      field = some fs := by
  unfold givenFindings
  split
  · exact ⟨0, _, rfl⟩
  · rename_i whole hs
    have hparts := hitem whole hs
    unfold FieldDescriptor.parts at hparts
    unfold valueFindings
    split
    · exact ⟨0, _, rfl⟩
    · split
      · exact ⟨0, _, rfl⟩
      · rw [if_neg ‹_›] at hparts
        split
        · rw [if_pos ‹_›] at hparts
          split
          · rename_i items hitems
            rw [hitems] at hparts
            apply gather_exists
            · intro n i v out hout
              split at hout
              · rwa [if_pos ‹_›]
              · rw [if_neg ‹_›]
                exact itemFindings_succ (modelFindings_succ n) hout
            · intro i v hv
              split
              · exact ⟨0, _, rfl⟩
              · rename_i hnil
                apply hparts
                apply List.mem_map_of_mem
                exact List.mem_filter.2 ⟨hv, by simpa using hnil⟩
          · exact ⟨0, _, rfl⟩
        · rw [if_neg ‹_›] at hparts
          exact hparts whole (List.mem_singleton_self _) _ _

theorem fieldFindings_exist
    (hitem : ∀ whole, supply generators get field = some whole →
      ∀ part ∈ field.parts view whole, ∀ nullable path, ∃ n fs,
        itemFindings view schema n (modelFindings view schema generators n) nullable field part
          path = some fs) :
    ∃ n fs, fieldFindings view schema generators n (modelFindings view schema generators n) get path
      field = some fs := by
  obtain ⟨n, fs, h⟩ := givenFindings_exist hitem (appendPath path (fieldName field))
  refine ⟨n, ?_⟩
  unfold fieldFindings
  dsimp only
  split
  · exact Finding.covering_exists _ h
  · exact ⟨fs, h⟩

theorem modelFindings_exist (hb : ∀ spot, Below view schema generators spot (.model name given) →
    match spot with
    | .model name given => ∀ path, ∃ n fs,
      modelFindings view schema generators n name given path = some fs
    | .json v => ∀ path ancestors, ∃ n fs, jsonFindings view n v path ancestors = some fs)
    (path : Bytes) :
    ∃ n fs, modelFindings view schema generators n name given path = some fs := by
  cases hm : lookup name schema.models with
  | none =>
    refine ⟨1, [notAnObject .aborting .typeMismatch path], ?_⟩
    simp only [modelFindings, hm]
  | some fields =>
    cases hget : inputGetter view name given with
    | error err =>
      by_cases hissue : ∃ i, err = .issue i
      · obtain ⟨i, rfl⟩ := hissue
        refine ⟨1, [notAnObject .relocated .invalidJSON path], ?_⟩
        simp only [modelFindings, hm, hget]
      · refine ⟨1, [notAnObject .aborting .typeMismatch path], ?_⟩
        cases err with
        | issue i => exact absurd ⟨i, rfl⟩ hissue
        | _ => simp only [modelFindings, hm, hget]
    | ok get =>
      have hfields : ∀ (i : Nat), ∀ field ∈ fields, ∃ n fs, fieldFindings view schema generators n
          (modelFindings view schema generators n) get path field = some fs := by
        intro i field hf
        apply fieldFindings_exist
        intro whole hs part hp nullable path
        apply itemFindings_exist
        · exact fun ht => hb (.model field.target part) (.model (.mk hm hget hf hs hp) ht) path
        · rintro hk v rfl
          exact hb (.json v) (.json (.mk hm hget hf hs hp) hk) path []
      obtain ⟨n, fs, h⟩ := gather_exists
        (f := fun n _ field => fieldFindings view schema generators n
          (modelFindings view schema generators n) get path field)
        (fun n _ _ _ => fieldFindings_succ (modelFindings_succ n)) hfields 0
      exact ⟨n + 1, fs, by simp only [modelFindings, hm, hget, h]⟩

theorem findings_of_acyclic (h : Acyclic view schema generators model input) (path : Bytes) :
    ∃ n fs, modelFindings view schema generators n model input path = some fs := by
  have hall : ∀ spot, Acc (Below view schema generators) spot →
      match spot with
      | .model name given => ∀ path, ∃ n fs,
        modelFindings view schema generators n name given path = some fs
      | .json v => ∀ path ancestors, ∃ n fs, jsonFindings view n v path ancestors = some fs := by
    intro spot hacc
    induction hacc with
    | intro spot _ ih =>
      cases spot with
      | model name given => exact modelFindings_exist ih
      | json v => exact jsonFindings_exist fun w hw => ih (.json w) (.inside hw)
  exact hall _ h path

omit [Addressed α]

inductive Part (view : α → Node α) : α → α → Prop
  | json (h : JsonPart view w v) : Part view w v
  | held (hv : view v = .struct fields) (hf : f ∈ fields) (hw : f.held.get = some (.value w)) :
    Part view w v

theorem inputGetter_value (hget : inputGetter view model given = .ok get) :
    ∃ v, given = .value v := by
  cases given with
  | value v => exact ⟨v, rfl⟩
  | nil => cases hget
  | string s => cases hget
  | dateTime s => cases hget

/-- What an object holds for a field is null or inside it. -/
theorem inputGetter_part (hget : inputGetter view model given = .ok get)
    (hs : get.find name = some whole) :
    whole = .nil ∨ ∃ v w, given = .value v ∧ whole = .value w ∧
      Relation.TransGen (Part view) w v := by
  obtain ⟨v, rfl⟩ := inputGetter_value hget
  have hstruct : ∀ (fields : List (StructField α)) v, view v = .struct fields →
      (structGetter fields).find name = some whole →
      whole = .nil ∨ ∃ w, whole = .value w ∧ Part view w v := by
    intro fields v hv hheld
    obtain ⟨f, hf, hheld⟩ := Option.bind_eq_some_iff.1 hheld
    have hmem : f ∈ fields :=
      (List.mem_filter.1 (List.mem_reverse.1 (List.mem_of_find?_eq_some hf))).1
    cases whole with
    | value w => exact .inr ⟨w, rfl, .held hv hmem hheld⟩
    | nil => exact .inl rfl
    | string s | dateTime s =>
      unfold Held.get at hheld
      split at hheld <;> cases hheld
  unfold inputGetter at hget
  split at hget
  · rename_i entries hn
    cases hget
    have hv : view v = _ := hn
    obtain ⟨w, hw, rfl⟩ := Option.map_eq_some_iff.1 hs
    right
    refine ⟨v, w, rfl, rfl, .single (.json ?_)⟩
    cases entries with
    | none => cases hw
    | some entries => exact .entry hv (lookup_mem hw)
  · split at hget
    · cases hget
    · rename_i fields htarget
      cases hget
      unfold Node.target at htarget
      split at htarget
      · rename_i u hn
        have hv : view v = _ := hn
        rcases hstruct fields u htarget hs with hnil | ⟨w, rfl, hw⟩
        · exact .inl hnil
        · exact .inr ⟨v, w, rfl, rfl, .head hw (.single (.json (.target hv)))⟩
      · rcases hstruct fields v htarget hs with hnil | ⟨w, rfl, hw⟩
        · exact .inl hnil
        · exact .inr ⟨v, w, rfl, rfl, .single hw⟩
    · cases hget
      cases hs
    · cases hget

theorem FieldDescriptor.parts_inside {field : FieldDescriptor α} (hp : part ∈ field.parts view (.value w)) :
    ∃ u, part = .value u ∧ Relation.ReflTransGen (Part view) u w := by
  unfold FieldDescriptor.parts at hp
  split at hp
  · cases hp
  · split at hp
    · split at hp
      · rename_i items hitems
        obtain ⟨u, hu, rfl⟩ := List.mem_map.1 hp
        have hmem := (List.mem_filter.1 hu).1
        refine ⟨u, rfl, .single (.json ?_)⟩
        unfold Node.items at hitems
        split at hitems
        · rename_i type whole hv
          cases hitems
          cases items with
          | none => cases hmem
          | some items => exact .item hv hmem
        · rename_i whole hv
          cases hitems
          exact .element hv hmem
        · cases hitems
      · cases hp
    · exact ⟨w, List.mem_singleton.1 hp, .refl⟩

theorem json_acc (h : Acc (Part view) v) : Acc (Below view schema generators) (.json v) := by
  induction h with
  | intro v _ ih =>
    constructor
    intro spot hspot
    cases hspot with
    | inside hw => exact ih _ (.json hw)

/-- An input without cycles is acyclic if no field for models has a default. -/
theorem acyclic_of_wellFounded (hwf : WellFounded (Part view))
    (hdefault : ∀ m ∈ schema.models, ∀ field ∈ m.2, field.target ≠ [] → field.default.isNone = true)
    (model : Bytes) (input : Given α) :
    Acyclic view schema generators model input := by
  have hvalue : ∀ v model, Acyclic view schema generators model (.value v) := by
    intro v
    induction hwf.transGen.apply v with
    | intro v _ ih =>
      intro model
      constructor
      intro spot hspot
      cases hspot with
      | json h hk => exact json_acc (hwf.apply _)
      | model h ht =>
        obtain ⟨hm, hget, hf, hs, hp⟩ := h
        unfold supply at hs
        rw [Option.isNone_iff_eq_none.1 (hdefault _ (lookup_mem hm) _ hf ht)] at hs
        split at hs
        · rename_i whole' hwhole
          cases hs
          rcases inputGetter_part hget hwhole with rfl | ⟨u, w, hu, rfl, hw⟩
          · cases hp
          · cases hu
            obtain ⟨x, rfl, hx⟩ := FieldDescriptor.parts_inside hp
            exact ih x (Relation.TransGen.trans_right hx hw) _
        · cases hs
  constructor
  intro spot hspot
  have hobject : ∃ v, input = .value v := by
    cases hspot with
    | model h ht | json h hk =>
      obtain ⟨-, hget, -, -, -⟩ := h
      exact inputGetter_value hget
  obtain ⟨v, rfl⟩ := hobject
  exact (hvalue v model).inv hspot

end

end Repost.Serialize
