import Repost.JsonFindings

namespace Repost.Serialize
open GoText
set_option autoImplicit true

section
variable {α : Type} {view : α → Node α} [Addressed α]

def checked (payload : β) : Option SerializerError → Except SerializerError β
  | none => .ok payload
  | some err => .error err

theorem WalksTo.checked {walk : Issues → Option Issues} (h : WalksTo walk fs) (hc : Calm fs)
    (payload : β) : ∃ e, walk {} = some e ∧
      Matches (checked payload (if e.issueCount ≠ 0 then some (.issues e) else none)) fs := by
  obtain ⟨e, he, hr⟩ := h {} [] .empty
  rw [List.nil_append] at hr
  refine ⟨e, he, ?_⟩
  split
  · rename_i hne
    exact .issues hc hr fun ht => hne (hr.count_eq_zero.2 ht)
  · rename_i hzero
    exact .ok hc (hr.count_eq_zero.1 (not_not.1 hzero))

theorem validateJSON_plain (hg : ∀ v, given ≠ .value v) : validateJSON view n given path =
    (some (((given.node view).flaw path).elim {} (Issues.addIssue {}))).map fun issues =>
      if issues.issueCount ≠ 0 then some (.issues issues) else none := by
  cases given with
  | value v => exact absurd rfl (hg v)
  | nil | string s | dateTime s =>
    unfold validateJSON
    dsimp only
    cases Node.flaw path _ <;> rfl

theorem scalarFindings_plain (hg : ∀ v, given ≠ .value v) :
    scalarFindings view n .json nullable given path =
      some (((given.node view).flaw path).toList.map fun issue => { issue := issue }) := by
  cases given with
  | value v => exact absurd rfl (hg v)
  | nil | string s | dateTime s => rfl

theorem validateJSON_matches (payload : β)
    (h : scalarFindings view n .json nullable given path = some fs) :
    ∃ r, validateJSON view n given path = some r ∧ Matches (checked payload r) fs := by
  have hplain : (∀ v, given ≠ .value v) →
      ∃ r, validateJSON view n given path = some r ∧ Matches (checked payload r) fs := by
    intro hg
    rw [scalarFindings_plain hg] at h
    cases h
    have hleaf : WalksTo (fun e => some (((given.node view).flaw path).elim e e.addIssue))
        (((given.node view).flaw path).toList.map fun issue => { issue := issue }) := by
      intro e before hr
      cases (given.node view).flaw path with
      | none => exact ⟨e, rfl, by simpa using hr⟩
      | some issue => exact ⟨_, rfl, hr.addIssue issue⟩
    obtain ⟨e, he, hm⟩ := hleaf.checked (Finding.calm_of_flaw _) payload
    rw [validateJSON_plain hg]
    exact ⟨_, Option.map_eq_some_iff.2 ⟨e, he, rfl⟩, hm⟩
  cases given with
  | value v =>
    obtain ⟨found, hfound, rfl⟩ := Option.map_eq_some_iff.1 h
    have hnull : ∀ b : Bool, Calm ((if b then
        [(reported .nullNotAllowed path (lit "null is not allowed")).unnoticed] else []) ++ found) ∧
        told ((if b then
          [(reported .nullNotAllowed path (lit "null is not allowed")).unnoticed] else []) ++ found) =
          told found := by
      intro b
      have hcalm := jsonFindings_calm hfound
      cases b with
      | false => exact ⟨hcalm, rfl⟩
      | true => exact ⟨(calm_unnoticed [_]).append hcalm, rfl⟩
    obtain ⟨hcalm, htold⟩ := hnull (!nullable && jsonNull view n v)
    have hwalk : WalksTo (validateJSONAt view n v path []) _ := fun e before hr => by
      rw [htold]
      exact validateJSONAt_walks hfound e before hr
    obtain ⟨e, he, hm⟩ := hwalk.checked hcalm payload
    exact ⟨_, Option.map_eq_some_iff.2 ⟨e, he, rfl⟩, hm⟩
  | nil | string s | dateTime s => exact hplain fun _ h => by cases h

theorem validateScalar_matches (payload : β)
    (h : scalarFindings view n kind nullable given path = some fs) :
    ∃ r, validateScalar view n kind given path = some r ∧ Matches (checked payload r) fs := by
  have hkind : ∀ kind : ScalarKind, kind ≠ .json → kind ≠ .enum →
      scalarFindings view n kind nullable given path = some fs →
      ∃ r, validateScalar view n kind given path = some r ∧ Matches (checked payload r) fs := by
    intro kind hjson henum h
    have hspec : some (if kind = .float64 && (given.node view).hasKind kind &&
          (given.node view).isNonFinite then [{ issue := nonFinite path }]
        else if (given.node view).hasKind kind then []
        else [reported .typeMismatch path (lit "value does not match " ++ kind.text)]) =
        some fs := by
      cases kind <;> first | exact h | exact absurd rfl hjson | exact absurd rfl henum
    have hcode : validateScalar view n kind given path =
        if kind = .float64 && (given.node view).hasKind kind && (given.node view).isNonFinite then
          some (some (.issue (nonFinite path)))
        else if (given.node view).hasKind kind then some none
        else some (some (typeMismatch path (lit "value does not match " ++ kind.text))) := by
      cases kind <;> first | rfl | exact absurd rfl hjson
    rw [hcode]
    cases hspec
    split
    · exact ⟨_, rfl, .issue (Calm.single rfl) rfl⟩
    · split
      · exact ⟨_, rfl, .ok Calm.nil rfl⟩
      · exact ⟨_, rfl, .issue (Calm.single rfl) rfl⟩
  by_cases hjson : kind = .json
  · subst hjson
    exact validateJSON_matches payload h
  · by_cases henum : kind = .enum
    · subst henum
      cases h
      refine ⟨none, rfl, ?_⟩
      split
      · exact .ok Calm.nil rfl
      · exact .ok (Calm.single rfl) rfl
    · exact hkind kind hjson henum h

variable {schema : SchemaDescriptor α} {generators : Generators}
  {models : ModelFindings α} {serializeModel : ModelSerializer α}

def ModelSerializer.Answers (serializeModel : ModelSerializer α) (models : ModelFindings α) : Prop :=
  ∀ model given path fs, models model given path = some fs →
    ∃ out, serializeModel model given path = some out ∧ Matches out fs ∧
      ∀ i, out = .error (.issue i) → i = rootIssue

theorem serializeItem_matches (hm : serializeModel.Answers models) (hv : isV2Field field = true)
    (h : itemFindings view schema n models nullable field given path = some fs) :
    ∃ out, serializeItem view schema n serializeModel field given path = some out ∧
      Matches out fs := by
  unfold serializeItem
  split
  · cases h
    exact ⟨_, rfl, .ok Calm.nil rfl⟩
  · rename_i hgiven
    unfold itemFindings at h
    split at h
    · exact (hgiven _ rfl).elim
    · split at h
      · rw [if_pos ‹_›]
        obtain ⟨out, hout, hmatch, -⟩ := hm _ _ _ _ h
        exact ⟨out, hout, hmatch⟩
      · rw [if_neg ‹_›]
        split at h
        · rename_i htable
          obtain ⟨table, htable⟩ := Option.isSome_iff_exists.1 htable
          rw [htable]
          cases h
          cases htext : (given.node view).text with
          | none =>
            simp only [hv, if_true]
            exact ⟨_, rfl, .issue (Calm.single rfl) rfl⟩
          | some s =>
            dsimp only
            split
            · exact ⟨_, rfl, .ok Calm.nil rfl⟩
            · exact ⟨_, rfl, .ok Calm.nil rfl⟩
        · rename_i htable
          rw [Option.not_isSome_iff_eq_none.1 htable]
          dsimp only
          split
          · rename_i text htime hdate
            have hkind : field.scalarKind = .datetime := by simpa [hv] using hdate
            have hnone : some [] = some fs := by
              rw [← h, hkind]
              unfold scalarFindings
              simp only [htime]
              rfl
            cases hnone
            exact ⟨_, rfl, .ok Calm.nil rfl⟩
          · obtain ⟨r, hr, hmatch⟩ := validateScalar_matches given.verbatim h
            rw [if_pos hv, hr]
            cases r with
            | none | some err => exact ⟨_, rfl, hmatch⟩

omit [Addressed α] in
theorem serializeItems_collects {item : α → Bytes → Outcome (Payload α)}
    {find : α → Bytes → Option (List Finding)} (hv : isV2Field field = true)
    (hitem : ∀ v path fs, find v path = some fs → ∃ out, item v path = some out ∧ Matches out fs)
    (h : gather (fun i v =>
      if (view v).isNil then
        some [reported .nullListElement (indexPath path i) (lit "null list elements are not allowed")]
      else find v (indexPath path i)) i items = some fs)
    (hr : Reports e before) :
    ∃ out, serializeItems view item field path i items (payloads, e) = some out ∧
      Collects before out fs := by
  induction items generalizing i fs before e payloads with
  | nil =>
    cases h
    exact ⟨_, rfl, .ok Calm.nil (by simpa using hr)⟩
  | cons v items ih =>
    obtain ⟨found, rest, hfound, hrest, rfl⟩ := gather_cons h
    unfold serializeItems
    dsimp only at hfound ⊢
    rw [hv, Bool.and_true]
    split at hfound
    · rw [if_pos ‹_›]
      cases hfound
      obtain ⟨out, hout, hc⟩ := ih hrest (hr.addIssue _)
      exact ⟨out, hout, .after (Calm.single rfl) hc⟩
    · rw [if_neg ‹_›]
      obtain ⟨out, hout, hmatch⟩ := hitem v _ found hfound
      rw [hout]
      cases out with
      | ok payload =>
        cases hmatch with
        | ok hc ht =>
          obtain ⟨out, hout, hcollect⟩ := ih hrest hr
          refine ⟨out, hout, .after hc ?_⟩
          rwa [ht, List.append_nil]
      | error err =>
        dsimp only
        rcases add_matches hr hmatch with ⟨e', hadd, hc, hr'⟩ | ⟨hadd, hp, ha⟩
        · rw [hadd]
          obtain ⟨out, hout, hcollect⟩ := ih hrest hr'
          exact ⟨out, hout, .after hc hcollect⟩
        · rw [hadd]
          exact ⟨_, rfl, .aborted hp (ha.left rest)⟩

theorem serializeValue_matches (hm : serializeModel.Answers models) (hv : isV2Field field = true)
    (h : valueFindings view schema n models field given path = some fs) :
    ∃ out, serializeValue view schema n serializeModel field given path = some out ∧
      Matches out fs := by
  unfold valueFindings at h
  unfold serializeValue
  dsimp only
  split at h
  · rw [if_pos ‹_›]
    cases h
    exact ⟨_, rfl, .ok Calm.nil rfl⟩
  · rw [if_neg ‹_›]
    split at h
    · rw [if_pos ‹_›]
      cases hitems : (given.node view).items with
      | none =>
        rw [hitems] at h
        cases h
        dsimp only
        rw [if_pos hv]
        exact ⟨_, rfl, .issue (Calm.single rfl) rfl⟩
      | some items =>
        rw [hitems] at h
        cases items with
        | none =>
          cases h
          exact ⟨_, rfl, .ok Calm.nil rfl⟩
        | some items =>
          dsimp only [Option.getD_some] at h ⊢
          have hitem : ∀ v path fs,
              itemFindings view schema n models false field (.value v) path = some fs →
              ∃ out, serializeItem view schema n serializeModel field (.value v) path = some out ∧
                Matches out fs := fun v path fs => serializeItem_matches hm hv
          obtain ⟨out, hout, hc⟩ := serializeItems_collects hv hitem h .empty
          rw [hout]
          refine ⟨_, ?_, hc.finish Payload.list⟩
          cases out with
          | error err => rfl
          | ok collected =>
            dsimp only [finished]
            split <;> rfl
    · rw [if_neg ‹_›]
      exact serializeItem_matches hm hv h

theorem serializeField_collects {get : Getter α} (hm : serializeModel.Answers models)
    (hf : field.Sound schema)
    (h : fieldFindings view schema generators n models get path field = some fs)
    (hr : Reports e before) (members : List (Bytes × Payload α)) :
    ∃ out, serializeField view schema generators n serializeModel get path field (members, e) =
      some out ∧ Collects before out fs := by
  unfold fieldFindings at h
  unfold serializeField
  dsimp only at h ⊢
  rw [hf.descriptor]
  dsimp only
  split at h
  · rw [if_pos ‹_›]
    obtain ⟨rest, -, rfl⟩ := Option.map_eq_some_iff.1 h
    have hplain : SerializerError.panicked.Plain := trivial
    exact ⟨_, rfl, .aborted hplain ⟨_, List.mem_cons_self, rfl⟩⟩
  rw [if_neg ‹_›, hf.named]
  unfold givenFindings at h
  cases hsupply : supply generators get field with
  | none =>
    rw [hsupply] at h
    cases h
    dsimp only
    rw [Bool.true_and]
    split
    · exact ⟨_, rfl, .ok (Calm.single rfl) (hr.addIssue _)⟩
    · exact ⟨_, rfl, .ok Calm.nil (by simpa using hr)⟩
  | some given =>
    rw [hsupply] at h
    dsimp only at h ⊢
    rw [Bool.and_true]
    split at h
    · rw [if_pos ‹_›]
      cases h
      exact ⟨_, rfl, .ok (Calm.single rfl) (hr.addIssue _)⟩
    · rw [if_neg ‹_›]
      obtain ⟨out, hout, hmatch⟩ := serializeValue_matches hm hf.named h
      rw [hout]
      cases out with
      | ok payload =>
        cases hmatch with
        | ok hc ht =>
          refine ⟨_, rfl, .ok hc ?_⟩
          rwa [ht, List.append_nil]
      | error err =>
        dsimp only
        rcases add_matches hr hmatch with ⟨e', hadd, hc, hr'⟩ | ⟨hadd, hp, ha⟩
        · rw [hadd]
          exact ⟨_, rfl, .ok hc hr'⟩
        · rw [hadd]
          exact ⟨_, rfl, .aborted hp ha⟩

theorem serializeFields_collects {get : Getter α} (hm : serializeModel.Answers models)
    (hf : ∀ field ∈ fields, field.Sound schema)
    (h : gather (fun _ field => fieldFindings view schema generators n models get path field) i
      fields = some fs)
    (hr : Reports e before) (members : List (Bytes × Payload α)) :
    ∃ out, serializeFields view schema generators n serializeModel get path fields (members, e) =
      some out ∧ Collects before out fs := by
  induction fields generalizing i fs before e members with
  | nil =>
    cases h
    exact ⟨_, rfl, .ok Calm.nil (by simpa using hr)⟩
  | cons field fields ih =>
    obtain ⟨found, rest, hfound, hrest, rfl⟩ := gather_cons h
    obtain ⟨out, hout, hc⟩ := serializeField_collects hm (hf field List.mem_cons_self) hfound hr members
    unfold serializeFields
    rw [hout]
    cases hc with
    | ok hc hr' =>
      obtain ⟨out, hout, hcollect⟩ :=
        ih (fun f hmem => hf f (List.mem_cons_of_mem field hmem)) hrest hr' _
      exact ⟨out, hout, .after hc hcollect⟩
    | aborted hp ha => exact ⟨_, rfl, .aborted hp (ha.left rest)⟩

omit [Addressed α] in
theorem inputGetter_issue (h : inputGetter view model given = .error (.issue i)) :
    i = rootIssue := by
  unfold inputGetter at h
  split at h
  · cases h
  · split at h
    · cases h
      rfl
    · cases h
    · cases h
    · cases h

omit [Addressed α] in
theorem inputGetter_plain (h : inputGetter view model given = .error err)
    (hne : ∀ i, err ≠ .issue i) : err.Plain := by
  unfold inputGetter at h
  split at h
  · cases h
  · split at h
    · cases h
      exact absurd rfl (hne _)
    · cases h
    · cases h
    · cases h
      trivial

/-- What the serializer returns for an input is read off the findings. -/
theorem serializeModelAtUnchecked_answers (hs : validateSchemaDescriptor schema = none) (n : Nat) :
    (serializeModelAtUnchecked view schema generators n).Answers
      (modelFindings view schema generators n) := by
  induction n with
  | zero => exact fun _ _ _ _ h => by cases h
  | succ n ih =>
    intro model given path fs h
    unfold modelFindings at h
    unfold serializeModelAtUnchecked
    cases hmodel : lookup model schema.models with
    | none =>
      rw [hmodel] at h
      cases h
      have hplain : (SerializerError.noDescriptor model).Plain := trivial
      exact ⟨_, rfl, .aborted hplain ⟨_, List.mem_singleton_self _, rfl⟩, fun _ h => (by cases h)⟩
    | some fields =>
      rw [hmodel] at h
      dsimp only at h ⊢
      split at h
      · rename_i i hget
        cases h
        rw [hget, inputGetter_issue hget]
        refine ⟨_, rfl, .issue (Calm.single rfl) rfl, ?_⟩
        intro i heq
        cases heq
        rfl
      · rename_i err hne hget
        cases h
        rw [hget]
        have hplain := inputGetter_plain hget fun i hi => hne i hi
        refine ⟨_, rfl, .aborted hplain ⟨_, List.mem_singleton_self _, rfl⟩, ?_⟩
        intro i heq
        cases heq
        exact (hne i rfl).elim
      · rename_i get hget
        rw [hget]
        dsimp only
        obtain ⟨out, hout, hc⟩ :=
          serializeFields_collects ih (accepted_fields hs hmodel) h .empty []
        rw [hout]
        refine ⟨_, ?_, hc.finish Payload.object, fun i hi => (hc.finish_ne_issue _ hi).elim⟩
        cases out with
        | error err => rfl
        | ok collected =>
          dsimp only [finished]
          split <;> rfl

end

end Repost.Serialize
