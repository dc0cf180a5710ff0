import Repost.Nesting

namespace Repost.Serialize
open GoText
set_option autoImplicit true

theorem appendPath_longer (path key : Bytes) :
    path <+: appendPath path key ∧ path.length < (appendPath path key).length := by
  unfold appendPath
  split
  · refine ⟨?_, by simp⟩
    rw [List.append_assoc]
    exact List.prefix_append _ _
  · refine ⟨?_, ?_⟩
    · rw [List.append_assoc, List.append_assoc]
      exact List.prefix_append _ _
    · rw [List.append_assoc, List.append_assoc, List.length_append]
      simp

theorem indexPath_longer (path : Bytes) (i : Nat) : path <+: indexPath path i := by
  unfold indexPath
  rw [List.append_assoc, List.append_assoc]
  exact List.prefix_append _ _

/-- Findings at a place or below it, none of which is a cycle unless by mistake. -/
def Under (path : Bytes) (fs : List Finding) : Prop :=
  ∀ f ∈ fs, path <+: f.issue.path ∧ (f.issue.issueCode = .cycle ↔ f.handling = .mistaken)

theorem Under.of_longer (h : Under longer fs) (hp : path <+: longer) : Under path fs :=
  fun f hf => ⟨hp.trans (h f hf).1, (h f hf).2⟩

theorem Under.nil : Under path [] := fun _ h => by cases h

theorem Under.single (h : path <+: f.issue.path)
    (hc : f.issue.issueCode = .cycle ↔ f.handling = .mistaken) : Under path [f] := by
  intro g hg
  rw [List.mem_singleton.1 hg]
  exact ⟨h, hc⟩

theorem Under.reported (hc : code ≠ .cycle) (text : Bytes) :
    Under path [reported code path text] :=
  .single (List.prefix_refl _) ⟨fun h => absurd h hc, fun h => by cases h⟩

theorem Under.covering {f : Finding} (h : f.covering found = some fs) (hf : Under path [f])
    (hfound : ∀ fs, found = some fs → Under path fs) : Under path fs := by
  obtain ⟨rest, hrest, rfl⟩ := Option.map_eq_some_iff.1 h
  intro g hg
  rcases List.mem_cons.1 hg with rfl | hg
  · exact hf _ (List.mem_singleton_self _)
  · obtain ⟨g, hviolation, rfl⟩ := List.mem_map.1 hg
    obtain ⟨hmem, hv⟩ := List.mem_filter.1 hviolation
    obtain ⟨hp, hc⟩ := hfound rest hrest g hmem
    refine ⟨hp, fun hcycle => ?_, fun h => by cases h⟩
    rw [Finding.violates, hc.1 hcycle] at hv
    cases hv

section
variable {α : Type} {view : α → Node α}

theorem Node.flaw_code {node : Node α} (h : node.flaw path = some issue) :
    issue.issueCode ≠ .cycle := by
  unfold Node.flaw at h
  split at h
  · split at h <;> cases h <;> exact fun h => by cases h
  · cases h
  · cases h
    exact fun h => by cases h
  · split at h <;> cases h
    exact fun h => by cases h
  · split at h
    · cases h
      exact fun h => by cases h
    · split at h <;> cases h
      exact fun h => by cases h
  · cases h
    exact fun h => by cases h
  · cases h
    exact fun h => by cases h
  · cases h
    exact fun h => by cases h
  · cases h

theorem Node.flaw_under {node : Node α} (h : node.flaw path = some issue) :
    Under path [{ issue := issue }] := by
  refine .single ?_ ⟨fun hc => absurd hc (Node.flaw_code h), fun h => by cases h⟩
  rcases Node.flaw_path h with heq | heq
  · rw [heq]
  · rw [heq]
    exact List.prefix_append _ _

theorem Node.flaw_listed (node : Node α) (path : Bytes) :
    Under path ((node.flaw path).toList.map fun issue => { issue := issue }) := by
  cases hflaw : node.flaw path with
  | none => exact Under.nil
  | some issue => exact Node.flaw_under hflaw

variable [Addressed α]

theorem entering_under (h : entering view v path ancestors found = some fs)
    (hfound : ∀ fs, found = some fs → Under path fs) : Under path fs := by
  unfold entering at h
  split at h
  · exact .covering h (.single (List.prefix_refl _) ⟨fun _ => rfl, fun _ => rfl⟩) hfound
  · exact hfound fs h

theorem jsonFindings_under (h : jsonFindings view n v path ancestors = some fs) : Under path fs := by
  induction n generalizing v path fs ancestors with
  | zero => cases h
  | succ n ih =>
    have hitems : ∀ ancestors (items : List α) fs,
        gather (fun i w => jsonFindings view n w (indexPath path i) ancestors) 0 items = some fs →
          Under path fs :=
      fun ancestors items fs => gather_all fun i _ _ _ h => (ih h).of_longer (indexPath_longer path i)
    unfold jsonFindings at h
    split at h
    · exact entering_under h fun _ => ih
    · exact entering_under h (hitems _ _)
    · exact hitems _ _ _ h
    · rename_i type entries hv
      have hentries : ∀ fs, gather (fun _ e => jsonFindings view n e.2 (starPath path)
          (jsonAncestor view v :: ancestors)) 0 entries = some fs → Under path fs :=
        fun fs => gather_all fun _ _ _ _ h => (ih h).of_longer (List.prefix_append _ _)
      refine entering_under h fun fs h => ?_
      split at h
      · exact .covering h (Node.flaw_under ‹_›) hentries
      · exact hentries fs h
    · cases h
      exact Node.flaw_listed _ path

theorem scalarFindings_under (h : scalarFindings view n kind nullable given path = some fs) :
    Under path fs := by
  unfold scalarFindings at h
  dsimp only at h
  split at h
  · obtain ⟨found, hfound, rfl⟩ := Option.map_eq_some_iff.1 h
    intro f hf
    rcases List.mem_append.1 hf with hf | hf
    · split at hf
      · refine Under.single (List.prefix_refl _) ?_ f hf
        exact ⟨fun h => (by cases h), fun h => by cases h⟩
      · cases hf
    · exact jsonFindings_under hfound f hf
  · cases h
    exact Node.flaw_listed _ path
  · cases h
    split
    · exact Under.nil
    · exact .single (List.prefix_refl _) ⟨fun h => (by cases h), fun h => by cases h⟩
  · cases h
    split
    · exact .single (List.prefix_refl _) ⟨fun h => (by cases h), fun h => by cases h⟩
    · split
      · exact Under.nil
      · exact .reported (by decide) _

variable {schema : SchemaDescriptor α} {generators : Generators} {models : ModelFindings α}

def ModelFindings.Descends (models : ModelFindings α) : Prop :=
  ∀ model given path fs, models model given path = some fs → Under path fs

theorem itemFindings_under (hm : models.Descends)
    (h : itemFindings view schema n models nullable field given path = some fs) : Under path fs := by
  unfold itemFindings at h
  split at h
  · cases h
    exact Under.nil
  · split at h
    · exact hm _ _ _ _ h
    · split at h
      · cases h
        split
        · exact Under.nil
        · exact .reported (by decide) _
      · exact scalarFindings_under h

theorem givenFindings_under {get : Getter α} (hm : models.Descends)
    (h : givenFindings view schema generators n models get path field = some fs) :
    Under path fs := by
  unfold givenFindings at h
  split at h
  · cases h
    split
    · exact .reported (by decide) _
    · exact Under.nil
  · split at h
    · cases h
      exact .reported (by decide) _
    · unfold valueFindings at h
      split at h
      · cases h
        exact Under.nil
      · split at h
        · split at h
          · refine gather_all ?_ h
            intro i v _ found hfound
            apply Under.of_longer _ (indexPath_longer _ i)
            split at hfound
            · cases hfound
              exact .reported (by decide) _
            · exact itemFindings_under hm hfound
          · cases h
            exact .reported (by decide) _
        · exact itemFindings_under hm h

theorem fieldFindings_under {get : Getter α} (hm : models.Descends)
    (h : fieldFindings view schema generators n models get path field = some fs) :
    Under (appendPath path (fieldName field)) fs := by
  unfold fieldFindings at h
  dsimp only at h
  split at h
  · refine .covering h (.single (List.prefix_refl _) ?_) fun _ => givenFindings_under hm
    exact ⟨fun h => (by cases h), fun h => by cases h⟩
  · exact givenFindings_under hm h

theorem notAnObject_under (h : handling = .aborting ∧ code = .typeMismatch ∨
    handling = .relocated ∧ code = .invalidJSON) : Under path [notAnObject handling code path] := by
  refine .single (List.prefix_refl _) ?_
  rcases h with ⟨rfl, rfl⟩ | ⟨rfl, rfl⟩ <;> exact ⟨fun h => (by cases h), fun h => by cases h⟩

theorem modelFindings_under (n : Nat) : (modelFindings view schema generators n).Descends := by
  induction n with
  | zero => exact fun _ _ _ _ h => by cases h
  | succ n ih =>
    intro model given path fs h
    unfold modelFindings at h
    split at h
    · cases h
      exact notAnObject_under (.inl ⟨rfl, rfl⟩)
    · split at h
      · cases h
        exact notAnObject_under (.inr ⟨rfl, rfl⟩)
      · cases h
        exact notAnObject_under (.inl ⟨rfl, rfl⟩)
      · refine gather_all ?_ h
        exact fun _ _ _ _ h => (fieldFindings_under ih h).of_longer (appendPath_longer _ _).1

/-- The input is no object for the model, or every finding is below the root. -/
theorem modelFindings_root
    (h : modelFindings view schema generators n model input (lit "$") = some fs) :
    fs = [notAnObject .aborting .typeMismatch (lit "$")] ∨
      fs = [notAnObject .relocated .invalidJSON (lit "$")] ∨
      ∀ f ∈ fs, 1 < f.issue.path.length := by
  cases n with
  | zero => cases h
  | succ n =>
    unfold modelFindings at h
    split at h
    · cases h
      exact .inl rfl
    · split at h
      · cases h
        exact .inr (.inl rfl)
      · cases h
        exact .inl rfl
      · right
        right
        refine gather_all ?_ h
        intro _ field _ found hfound f hf
        have hlong := (appendPath_longer (lit "$") (fieldName field)).2
        have hunder := (fieldFindings_under (modelFindings_under n) hfound f hf).1.length_le
        exact Nat.lt_of_lt_of_le hlong hunder

end

theorem cut_path_longer {i : Issue} (h : 1 < i.path.length) : 1 < i.cut.path.length := by
  rcases truncateValidationPath_cases i.path with ⟨heq, -⟩ | ⟨front, -, heq, -⟩
  · rwa [Issue.cut, heq]
  · rw [Issue.cut, heq, List.length_append]
    have hmarker : validationPathMarker.length = 12 := rfl
    omega

def Finding.entry (f : Finding) : ValidationIssue := mapIssue f.issue.cut

/-- The number of violations is reported, and what is retained are some of them, in order, each with
its own path up to truncation. -/
structure Reported (e : Error) (fs : List Finding) : Prop where
  count : e.issueCount = fs.length
  placed : e.validationIssues.Sublist (fs.map Finding.entry)

/-- Few and short enough for the report to hold all of them. -/
def Uncut (fs : List Finding) : Prop :=
  fs.length ≤ maxValidationIssues ∧ pathBytes (fs.map Finding.issue) ≤ maxValidationPathBytes

/-- A violation that is reported where it is, or that is the input itself. -/
def Finding.Placed (f : Finding) : Prop := f.handling = .reported ∨ f.issue.path = lit "$"

theorem told_of_reported (h : ∀ f ∈ fs, f.handling = .reported) :
    told fs = fs.map Finding.issue := by
  induction fs with
  | nil => rfl
  | cons f fs ih =>
    have hf : f.told = some f.issue := by
      unfold Finding.told
      rw [h f List.mem_cons_self]
    rw [told, List.filterMap_cons_some hf, ← told, ih fun g hg => h g (List.mem_cons_of_mem f hg)]
    rfl

theorem noticed_of_told_length (h : (told fs).length = fs.length) :
    ∀ f ∈ fs, f.told.isSome = true := by
  induction fs with
  | nil => nofun
  | cons f fs ih =>
    have hle : (told fs).length ≤ fs.length := List.length_filterMap_le _ _
    cases hf : f.told with
    | none =>
      rw [told, List.filterMap_cons_none hf, ← told, List.length_cons] at h
      omega
    | some i =>
      rw [told, List.filterMap_cons_some hf, ← told, List.length_cons, List.length_cons] at h
      intro g hg
      rcases List.mem_cons.1 hg with rfl | hg
      · rw [hf]
        rfl
      · exact ih (by omega) g hg

theorem rootIssue_cut : rootIssue.cut = rootIssue := rfl

/-- Relocated violations take less room than they would at their place. -/
theorem pathBytes_told (h : ∀ f ∈ fs, 1 < f.issue.path.length) :
    pathBytes (told fs) ≤ pathBytes (fs.map Finding.issue) := by
  induction fs with
  | nil => exact Nat.le_refl _
  | cons f fs ih =>
    have hrest := ih fun g hg => h g (List.mem_cons_of_mem f hg)
    have hlong := cut_path_longer (h f List.mem_cons_self)
    rw [List.map_cons, pathBytes_cons]
    cases hf : f.told with
    | none =>
      rw [told, List.filterMap_cons_none hf, ← told]
      omega
    | some i =>
      rw [told, List.filterMap_cons_some hf, ← told, pathBytes_cons]
      have hle : i.cut.path.length ≤ f.issue.cut.path.length := by
        unfold Finding.told at hf
        split at hf
        · cases hf
          exact Nat.le_refl _
        · cases hf
          exact Nat.le_refl _
        · cases hf
          rw [rootIssue_cut]
          exact Nat.le_of_lt hlong
        · cases hf
        · cases hf
        · cases hf
      omega

theorem not_mem_root {fs : List Finding} {x : ValidationIssue} (h : ∀ f ∈ fs, 1 < f.issue.path.length)
    (hx : x ∈ fs.map Finding.entry) : x.path ≠ lit "$" := by
  obtain ⟨f, hf, rfl⟩ := List.mem_map.1 hx
  intro hpath
  have hlong := cut_path_longer (h f hf)
  have hlen := congrArg List.length hpath
  have hone : (lit "$").length = 1 := rfl
  rw [hone] at hlen
  exact absurd hlen (Nat.ne_of_gt hlong)

section
variable {fs : List Finding} {err : SerializerError}

theorem reported_of_placed (hm : Matches (.error err : Except _ β) fs)
    (hroot : ∀ i, err = .issue i → i = rootIssue) (hdeep : ∀ f ∈ fs, 1 < f.issue.path.length)
    (hrep : ∀ f ∈ fs, f.handling = .reported) (hlen : fs.length ≤ maxInt32) :
    Reported (serializerOperationError err operationID key) fs := by
  have htold := told_of_reported hrep
  cases hm with
  | issue hc ht =>
    rw [hroot _ rfl, htold] at ht
    have hmem : rootIssue ∈ fs.map Finding.issue := by
      rw [ht]
      exact List.mem_singleton_self _
    obtain ⟨f, hf, heq⟩ := List.mem_map.1 hmem
    have hlong := hdeep f hf
    rw [heq] at hlong
    exact absurd hlong (by decide)
  | issues hc hr hne =>
    rw [htold] at hr
    refine ⟨?_, ?_⟩
    · have hcount := hr.count
      rw [List.length_map] at hcount
      exact hcount.trans (Nat.min_eq_left hlen)
    · have hkept := hr.kept.map mapIssue
      rw [List.map_map, List.map_map] at hkept
      exact hkept
  | aborted hp ha =>
    obtain ⟨f, hf, hstop⟩ := ha
    rw [Finding.stops, hrep f hf] at hstop
    cases hstop

theorem violations_of_calm (hc : Calm fs) (h : ∀ f ∈ fs, f.handling ≠ .mistaken) :
    violations fs = fs := by
  refine List.filter_eq_self.2 fun f hf => ?_
  have hstops := hc f hf
  have hne := h f hf
  unfold Finding.stops at hstops
  unfold Finding.violates
  cases hh : f.handling <;> simp_all

/-- A cycle that is reported by mistake is the code of no violation. -/
theorem not_mem_mistaken (hunder : Under path fs) (hmem : f ∈ fs) (hf : f.handling = .mistaken) :
    f.entry ∉ (violations fs).map Finding.entry := by
  intro hentry
  obtain ⟨g, hg, heq⟩ := List.mem_map.1 hentry
  obtain ⟨hgmem, hv⟩ := List.mem_filter.1 hg
  have hcode : f.entry.code = .cycle := by
    have hcycle := (hunder f hmem).2.2 hf
    simp [Finding.entry, mapIssue, Issue.cut, hcycle]
  have hcycle : g.issue.issueCode = .cycle := by
    rw [← heq] at hcode
    simp only [Finding.entry, mapIssue, Issue.cut] at hcode
    cases hg : g.issue.issueCode <;> simp_all
  rw [Finding.violates, (hunder g hgmem).2.1 hcycle] at hv
  cases hv

theorem noticed_of_reported (hc : Calm fs) (hmistaken : ∀ f ∈ fs, f.handling ≠ .mistaken)
    (hcount : min (told fs).length maxInt32 = (violations fs).length) :
    ∀ f ∈ fs, f.handling = .reported ∨ f.handling = .relocated := by
  rw [violations_of_calm hc hmistaken] at hcount
  have hle : (told fs).length ≤ fs.length := List.length_filterMap_le _ _
  intro f hf
  have hsome := noticed_of_told_length (by omega) f hf
  have hne := hmistaken f hf
  unfold Finding.told at hsome
  cases hh : f.handling <;> simp_all

theorem placed_of_reported (hm : Matches (.error err : Except _ β) fs) (hp : err ≠ .panicked)
    (hroot : ∀ i, err = .issue i → i = rootIssue) (hdeep : ∀ f ∈ fs, 1 < f.issue.path.length)
    (hunder : Under path fs)
    (h : Reported (serializerOperationError err operationID key) (violations fs)) :
    (violations fs).length ≤ maxInt32 ∧
      ((∀ f ∈ fs, f.handling ≠ .mistaken) →
        ∀ f ∈ fs, f.handling = .reported ∨ f.handling = .relocated) ∧
      (Uncut fs → ∀ f ∈ fs, f.handling = .reported) := by
  have hdeep' : ∀ f ∈ violations fs, 1 < f.issue.path.length :=
    fun f hf => hdeep f (List.mem_filter.1 hf).1
  cases hm with
  | issue hc ht =>
    have hmem := h.placed.subset (List.mem_singleton_self _)
    rw [hroot _ rfl] at hmem
    exact absurd rfl (not_mem_root hdeep' hmem)
  | aborted hplain ha =>
    cases err with
    | issue i => cases hplain
    | issues e => cases hplain
    | panicked => exact absurd rfl hp
    | noDescriptor model | notObject model =>
      exact absurd rfl (not_mem_root hdeep' (h.placed.subset (List.mem_singleton_self _)))
  | issues hc hr hne =>
    rename_i e
    have hcount : min (told fs).length maxInt32 = (violations fs).length :=
      hr.count.symm.trans h.count
    have htwo := fun hmistaken => noticed_of_reported hc hmistaken hcount
    refine ⟨by omega, htwo, ?_⟩
    rintro ⟨hfew, hbytes⟩
    have hle : (told fs).length ≤ fs.length := List.length_filterMap_le _ _
    -- All that is told is retained.
    have hkept : ∀ i ∈ told fs, mapIssue i.cut ∈ (violations fs).map Finding.entry := by
      intro i hi
      apply h.placed.subset
      refine List.mem_map_of_mem ?_
      rw [(hr.whole (by omega) ((pathBytes_told hdeep).trans hbytes)).1]
      exact List.mem_map_of_mem hi
    have hmistaken : ∀ f ∈ fs, f.handling ≠ .mistaken := by
      intro f hf hh
      refine not_mem_mistaken hunder hf hh (hkept f.issue (List.mem_filterMap.2 ⟨f, hf, ?_⟩))
      unfold Finding.told
      rw [hh]
    intro f hf
    rcases htwo hmistaken f hf with hrep | hrel
    · exact hrep
    · have htells : rootIssue ∈ told fs := by
        refine List.mem_filterMap.2 ⟨f, hf, ?_⟩
        unfold Finding.told
        rw [hrel]
      exact absurd rfl (not_mem_root hdeep' (hkept rootIssue htells))

end

section
variable {α : Type} [Addressed α] {view : α → Node α} {schema : SchemaDescriptor α}
  {generators : Generators}

theorem reported_of_notAnObject
    (hm : Matches (.error err : Except _ β) [notAnObject .aborting .typeMismatch (lit "$")])
    (hp : err ≠ .panicked) : Reported (serializerOperationError err operationID key)
      (violations [notAnObject .aborting .typeMismatch (lit "$")]) := by
  cases hm with
  | aborted hplain ha =>
    cases err with
    | noDescriptor model => exact ⟨rfl, .refl _⟩
    | notObject model => exact ⟨rfl, .refl _⟩
    | panicked => exact absurd rfl hp
    | issue i => cases hplain
    | issues e => cases hplain
  | issue hc ht | issues hc hr hne => cases hc _ (List.mem_singleton_self _)

theorem reported_of_typedMap
    (hm : Matches (.error err : Except _ β) [notAnObject .relocated .invalidJSON (lit "$")])
    (hroot : ∀ i, err = .issue i → i = rootIssue) :
    Reported (serializerOperationError err operationID key)
      (violations [notAnObject .relocated .invalidJSON (lit "$")]) := by
  cases hm with
  | aborted hp ha =>
    obtain ⟨f, hf, habort⟩ := ha
    rw [List.mem_singleton.1 hf] at habort
    cases habort
  | issue hc ht =>
    rw [hroot _ rfl]
    exact ⟨rfl, .refl _⟩
  | issues hc hr hne =>
    rename_i e
    obtain ⟨hissues, -⟩ := hr.whole (by decide) (by decide)
    refine ⟨hr.count, ?_⟩
    have hlist : (serializerOperationError (.issues e) operationID key).validationIssues =
        e.issues.map mapIssue := rfl
    rw [hlist, hissues]
    exact .refl _

/-- All violations of an input without cycles are counted, and reported where they are, if there are
not too many and each is reported or is the input itself. No report is right about violations that go
unnoticed or that make the serializer give up, unless cycles that are none make up for them, and a
report that nothing is cut off from is not right about those and about relocated ones either. -/
theorem violations_reported (hs : validateSchemaDescriptor schema = none)
    (ha : Acyclic view schema generators model input)
    (h : serializeModelAtUnchecked view schema generators fuel model input (lit "$") =
      some (.error err)) (hp : err ≠ .panicked) (operationID key : Bytes) :
    ∃ n fs, modelFindings view schema generators n model input (lit "$") = some fs ∧
      ((violations fs).length ≤ maxInt32 → (∀ f ∈ fs, f.Placed) →
        Reported (serializerOperationError err operationID key) (violations fs)) ∧
      (Reported (serializerOperationError err operationID key) (violations fs) →
        (violations fs).length ≤ maxInt32 ∧
          ((∀ f ∈ fs, f.handling ≠ .mistaken) → ∀ f ∈ fs, f.Placed ∨ f.handling = .relocated) ∧
          (Uncut fs → ∀ f ∈ fs, f.Placed)) := by
  obtain ⟨n, fs, hfs⟩ := findings_of_acyclic ha (lit "$")
  obtain ⟨out, hout, hm, hroot⟩ := serializeModelAtUnchecked_answers hs n _ _ _ _ hfs
  have heq := serializeModelAtUnchecked_unique hout h
  subst heq
  refine ⟨n, fs, hfs, ?_⟩
  have hroot' : ∀ i, err = .issue i → i = rootIssue := by
    rintro i rfl
    exact hroot i rfl
  have hself : ∀ handling code, fs = [notAnObject handling code (lit "$")] →
      (violations fs).length ≤ maxInt32 ∧ (∀ f ∈ fs, f.Placed) := by
    rintro handling code rfl
    have hlen : (violations [notAnObject handling code (lit "$")]).length ≤ 1 :=
      List.length_filter_le _ _
    refine ⟨hlen.trans (by decide), ?_⟩
    intro f hf
    rw [List.mem_singleton.1 hf]
    exact .inr rfl
  rcases modelFindings_root hfs with hone | hone | hdeep
  · obtain ⟨hlen, hplaced⟩ := hself _ _ hone
    refine ⟨fun _ _ => ?_, fun _ => ⟨hlen, fun _ f hf => .inl (hplaced f hf), fun _ => hplaced⟩⟩
    subst hone
    exact reported_of_notAnObject hm hp
  · obtain ⟨hlen, hplaced⟩ := hself _ _ hone
    refine ⟨fun _ _ => ?_, fun _ => ⟨hlen, fun _ f hf => .inl (hplaced f hf), fun _ => hplaced⟩⟩
    subst hone
    exact reported_of_typedMap hm hroot'
  · have hplaced : ∀ f ∈ fs, f.Placed → f.handling = .reported := by
      intro f hf hp
      rcases hp with hrep | hpath
      · exact hrep
      · have hlong := hdeep f hf
        rw [hpath] at hlong
        exact absurd hlong (by decide)
    refine ⟨?_, ?_⟩
    · intro hlen hall
      have hrep := fun f hf => hplaced f hf (hall f hf)
      have hself : violations fs = fs :=
        List.filter_eq_self.2 fun f hf => by simp [Finding.violates, hrep f hf]
      rw [hself] at hlen ⊢
      exact reported_of_placed hm hroot' hdeep hrep hlen
    · intro hrep
      obtain ⟨hlen, htwo, huncut⟩ :=
        placed_of_reported hm hp hroot' hdeep (modelFindings_under n _ _ _ _ hfs) hrep
      refine ⟨hlen, fun hmistaken f hf => ?_, fun hfew f hf => .inl (huncut hfew f hf)⟩
      rcases htwo hmistaken f hf with hr | hr
      · exact .inl (.inl hr)
      · exact .inr hr

end

namespace Sample

/-- An order whose customer is no object and whose total is no number. -/
def misshapen : Nat → Node Nat
  | 0 => .map .stringToAny (some [(lit "customer", 1), (lit "total", 2)])
  | 1 => .int 5
  | 2 => .string (lit "x")
  | _ => .nil

def orders : SchemaDescriptor Nat :=
  { descriptorFormatVersion := 2
    models :=
      [(lit "Customer", []),
        (lit "Order",
          [{ schemaName := lit "customer", wireName := lit "customer", scalarKind := .model,
             descriptorID := lit "Customer" },
           { schemaName := lit "total", wireName := lit "total", scalarKind := .float64 }])] }

theorem misshapen_acyclic : Acyclic misshapen orders texts (lit "Order") (.value 0) := by
  apply acyclic_of_wellFounded
  · apply Subrelation.wf _ (measure fun v => 1 - v).wf
    intro w v h
    have hv : v = 0 ∧ 0 < w := by
      rcases v with _ | _ | _ | v <;>
        rcases h with ⟨⟨hv⟩ | ⟨hv, hw⟩ | ⟨hv, hw⟩ | ⟨hv, hw⟩⟩ | ⟨hv, hf, hw⟩ <;> cases hv
      refine ⟨rfl, ?_⟩
      simp only [List.mem_cons, List.not_mem_nil, or_false] at hw
      rcases hw with rfl | rfl <;> decide
    have hlt : 1 - w < 1 - v := by omega
    exact hlt
  · decide

end Sample

/-- A customer that is no object ends the traversal: one issue at the root, and none for the total. -/
theorem misshapen_unreported :
    validateSchemaDescriptor Sample.orders = none ∧
      Acyclic Sample.misshapen Sample.orders Sample.texts (lit "Order") (.value 0) ∧
      ∃ fs, modelFindings Sample.misshapen Sample.orders Sample.texts 3 (lit "Order") (.value 0)
          (lit "$") = some fs ∧
        fs.map Finding.entry =
          [{ code := .typeMismatch, path := lit "$.customer" },
            { code := .typeMismatch, path := lit "$.total" }] ∧
        serializeModelAtUnchecked Sample.misshapen Sample.orders Sample.texts 3 (lit "Order")
          (.value 0) (lit "$") = some (.error (.notObject (lit "Customer"))) ∧
        (serializerOperationError (.notObject (lit "Customer")) [] []).validationIssues =
          [{ code := .typeMismatch, path := lit "$" }] ∧
        ¬Reported (serializerOperationError (.notObject (lit "Customer")) [] []) (violations fs) := by
  refine ⟨rfl, Sample.misshapen_acyclic, _, rfl, rfl, rfl, rfl, ?_⟩
  intro h
  exact absurd h.count (by decide)

theorem misshapen_violations : ∃ err,
    serializeModelAtUnchecked Sample.misshapen Sample.orders Sample.texts 3 (lit "Order") (.value 0)
      (lit "$") = some (.error err) ∧
    ∃ n fs, modelFindings Sample.misshapen Sample.orders Sample.texts n (lit "Order") (.value 0)
        (lit "$") = some fs ∧
      ((violations fs).length ≤ maxInt32 → (∀ f ∈ fs, f.Placed) →
        Reported (serializerOperationError err [] []) (violations fs)) ∧
      (Reported (serializerOperationError err [] []) (violations fs) →
        (violations fs).length ≤ maxInt32 ∧
          ((∀ f ∈ fs, f.handling ≠ .mistaken) → ∀ f ∈ fs, f.Placed ∨ f.handling = .relocated) ∧
          (Uncut fs → ∀ f ∈ fs, f.Placed)) := by
  have hrun : serializeModelAtUnchecked Sample.misshapen Sample.orders Sample.texts 3 (lit "Order")
      (.value 0) (lit "$") = some (.error (.notObject (lit "Customer"))) := rfl
  exact ⟨_, hrun, violations_reported rfl Sample.misshapen_acyclic hrun (fun h => by cases h) [] []⟩

end Repost.Serialize
