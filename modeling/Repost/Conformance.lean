import Repost.CleanRuns

namespace Repost.Serialize
open GoText
set_option autoImplicit true

section
variable {α : Type} {view : α → Node α} [Addressed α] {schema : SchemaDescriptor α}
  {generators : Generators} {models : ModelFindings α}
  {distinct : Prop} {payloads : Bytes → Given α → Option (Payload α)}
  {serializeModel : ModelSerializer α}

omit [Addressed α] in
theorem serializeItems_solid {item : α → Bytes → Outcome (Payload α)}
    (h : serializeItems view item field path i items collected = some (.error err)) : err.Solid := by
  induction items generalizing i collected with
  | nil => cases h
  | cons v items ih =>
    obtain ⟨rendered, e⟩ := collected
    unfold serializeItems at h
    dsimp only at h
    split at h
    · exact ih h
    · split at h
      · cases h
      · exact ih h
      · split at h
        · exact ih h
        · rename_i hadd
          cases h
          exact solid_of_add_none hadd

omit [Addressed α] in
/-- A list that comes through with nothing collected: none of its items has findings that would be
noticed, and each is rendered in its place. -/
theorem serializeItems_renders {item : α → Bytes → Outcome (Payload α)}
    {find : α → Bytes → Option (List Finding)} {pay : α → Option (Payload α)}
    (hv : isV2Field field = true)
    (hsolid : ∀ v path err, item v path = some (.error err) → err.Solid)
    (hitem : ∀ v path payload, item v path = some (.ok payload) →
      (∃ fs, find v path = some fs ∧ Quiet fs) ∧ (distinct → pay v = some payload))
    (h : serializeItems view item field path i items (before, e) = some (.ok (after, e')))
    (hzero : e'.issueCount = 0) :
    e.issueCount = 0 ∧
      (∃ fs, gather (fun i v =>
        if (view v).isNil then
          some [reported .nullListElement (indexPath path i) (lit "null list elements are not allowed")]
        else find v (indexPath path i)) i items = some fs ∧ Quiet fs) ∧
      (distinct → ∃ rendered, items.mapM pay = some rendered ∧ after = before ++ rendered) := by
  induction items generalizing i before e with
  | nil =>
    cases h
    exact ⟨hzero, ⟨[], rfl, Quiet.nil⟩, fun _ => ⟨[], rfl, (List.append_nil _).symm⟩⟩
  | cons v items ih =>
    unfold serializeItems at h
    dsimp only at h
    split at h
    · exact absurd (ih h).1 (addIssue_pos _ _)
    · rename_i hnil
      rw [hv, Bool.and_true] at hnil
      split at h
      · cases h
      · rename_i payload hpayload
        obtain ⟨hz, ⟨rest, hrest, hquiet⟩, hothers⟩ := ih h
        obtain ⟨⟨found, hfound, hq⟩, hpay⟩ := hitem v _ payload hpayload
        refine ⟨hz, ⟨found ++ rest, ?_, hq.append hquiet⟩, fun hd => ?_⟩
        · rw [gather, if_neg hnil, hfound, hrest]
        · obtain ⟨rendered, hrendered, rfl⟩ := hothers hd
          refine ⟨payload :: rendered, ?_, by simp⟩
          rw [List.mapM_cons, hpay hd, hrendered]
          rfl
      · rename_i err herr
        split at h
        · rename_i next hadd
          exact absurd (ih h).1 (add_pos (hsolid v _ err herr) hadd)
        · cases h

theorem serializeValue_solid (hm : serializeModel.Solid)
    (h : serializeValue view schema n serializeModel field given path = some (.error err)) :
    err.Solid := by
  unfold serializeValue at h
  dsimp only at h
  split at h
  · cases h
  · split at h
    · split at h
      · cases h
      · split at h
        · cases h
        · rename_i hitems
          cases h
          exact serializeItems_solid hitems
        · split at h
          · rename_i hne
            cases h
            exact hne
          · cases h
      · split at h
        · cases h
          trivial
        · exact serializeItem_solid hm h
    · exact serializeItem_solid hm h

theorem serializeValue_renders (hsolid : serializeModel.Solid)
    (hm : serializeModel.Renders models distinct payloads) (hv : isV2Field field = true)
    (h : serializeValue view schema n serializeModel field given path = some (.ok payload)) :
    (∃ fs, valueFindings view schema n models field given path = some fs ∧ Quiet fs) ∧
      (distinct → valuePayload view schema payloads field given = some payload) := by
  unfold serializeValue at h
  unfold valueFindings valuePayload
  dsimp only at h
  split at h
  · rename_i hnil
    cases h
    rw [if_pos hnil, if_pos hnil]
    exact ⟨⟨[], rfl, Quiet.nil⟩, fun _ => rfl⟩
  · rename_i hnil
    rw [if_neg hnil, if_neg hnil]
    split at h
    · rename_i hlist
      rw [if_pos hlist, if_pos hlist]
      cases hitems : (given.node view).items with
      | none =>
        rw [hitems] at h
        cases h
      | some items =>
        rw [hitems] at h
        cases items with
        | none =>
          cases h
          exact ⟨⟨[], rfl, Quiet.nil⟩, fun _ => rfl⟩
        | some items =>
          dsimp only at h
          split at h
          · cases h
          · cases h
          · rename_i rendered e hloop
            split at h
            · cases h
            · rename_i hzero
              cases h
              have hitem : ∀ v path payload,
                  serializeItem view schema n serializeModel field (.value v) path =
                    some (.ok payload) →
                  (∃ fs, itemFindings view schema n models false field (.value v) path = some fs ∧
                    Quiet fs) ∧
                  (distinct → itemPayload view schema payloads field (.value v) = some payload) :=
                fun v path payload hok =>
                  ⟨serializeItem_quiet hm hv false hok, fun hd => serializeItem_payload hd hm hv hok⟩
              obtain ⟨-, hfound, hrenders⟩ := serializeItems_renders hv
                (fun v path err => serializeItem_solid hsolid) hitem hloop (not_not.1 hzero)
              refine ⟨hfound, fun hd => ?_⟩
              obtain ⟨rendered, hrendered, rfl⟩ := hrenders hd
              dsimp only [Option.getD_some]
              rw [hrendered]
              rfl
    · rename_i hlist
      rw [if_neg hlist, if_neg hlist]
      exact ⟨serializeItem_quiet hm hv _ h, fun hd => serializeItem_payload hd hm hv h⟩

variable {get : Getter α}

theorem serializeField_solid
    (h : serializeField view schema generators n serializeModel get path field collected =
      some (.error err)) : err.Solid := by
  obtain ⟨members, e⟩ := collected
  unfold serializeField at h
  dsimp only at h
  split at h
  · cases h
    trivial
  split at h
  · cases h
    trivial
  · split at h
    · split at h <;> cases h
    · split at h
      · cases h
      · split at h
        · cases h
        · cases h
        · split at h
          · cases h
          · rename_i hadd
            cases h
            exact solid_of_add_none hadd

theorem serializeFields_solid
    (h : serializeFields view schema generators n serializeModel get path fields collected =
      some (.error err)) : err.Solid := by
  induction fields generalizing collected with
  | nil => cases h
  | cons field fields ih =>
    unfold serializeFields at h
    split at h
    · exact ih h
    · exact serializeField_solid h

omit [Addressed α] in
theorem setMember_fresh {members : List (Bytes × β)} (h : key ∉ members.map Prod.fst) (x : β) :
    setMember key x members = members ++ [(key, x)] := by
  induction members with
  | nil => rfl
  | cons m members ih =>
    rw [List.map_cons, List.mem_cons, not_or] at h
    obtain ⟨k, y⟩ := m
    unfold setMember
    rw [if_neg fun heq => h.1 heq.symm, ih h.2]
    rfl

omit [Addressed α] in
theorem setMember_keys {members : List (Bytes × β)}
    (h : k ∈ (setMember key x members).map Prod.fst) : k = key ∨ k ∈ members.map Prod.fst := by
  induction members with
  | nil => exact .inl (List.mem_singleton.1 h)
  | cons m members ih =>
    obtain ⟨l, y⟩ := m
    unfold setMember at h
    split at h
    · exact .inr h
    · rw [List.map_cons, List.mem_cons] at h ⊢
      rcases h with h | h
      · exact .inr (.inl h)
      · rcases ih h with h | h
        · exact .inl h
        · exact .inr (.inr h)

theorem serializeField_members
    (h : serializeField view schema generators n serializeModel get path field (members, e) =
      some (.ok (members', e'))) :
    members' = members ∨ ∃ payload, members' = setMember (fieldWireName field) payload members := by
  unfold serializeField at h
  dsimp only at h
  split at h
  · cases h
  split at h
  · cases h
  · split at h
    · split at h
      · cases h
        exact .inl rfl
      · cases h
        exact .inl rfl
    · split at h
      · cases h
        exact .inl rfl
      · split at h
        · cases h
        · cases h
          exact .inr ⟨_, rfl⟩
        · split at h
          · cases h
            exact .inl rfl
          · cases h

/-- A field that comes through with nothing collected is left out or rendered. -/
theorem serializeField_renders (hsolid : serializeModel.Solid)
    (hm : serializeModel.Renders models distinct payloads) (hf : field.Sound schema)
    (h : serializeField view schema generators n serializeModel get path field (members, e) =
      some (.ok (members', e'))) (hzero : e'.issueCount = 0) :
    e.issueCount = 0 ∧
      (∃ fs, fieldFindings view schema generators n models get path field = some fs ∧ Quiet fs) ∧
      ((supply generators get field = none ∧ members' = members) ∨
        ∃ given payload, supply generators get field = some given ∧
          (distinct → valuePayload view schema payloads field given = some payload) ∧
          members' = setMember (fieldWireName field) payload members) := by
  unfold serializeField at h
  unfold fieldFindings givenFindings
  dsimp only at h ⊢
  split at h
  · cases h
  split at h
  · cases h
  · rw [if_neg ‹_›]
    cases hs : supply generators get field with
    | none =>
      simp only [hs, hf.named, Bool.true_and] at h
      split at h
      · cases h
        exact absurd hzero (addIssue_pos _ _)
      · rename_i hoptional
        cases h
        dsimp only
        rw [if_neg hoptional]
        exact ⟨hzero, ⟨[], rfl, Quiet.nil⟩, .inl ⟨rfl, rfl⟩⟩
    | some given =>
      simp only [hs, hf.named, Bool.and_true] at h
      split at h
      · cases h
        exact absurd hzero (addIssue_pos _ _)
      · rename_i hnull
        dsimp only
        rw [if_neg hnull]
        split at h
        · cases h
        · rename_i payload hvalue
          cases h
          obtain ⟨hfound, hpayload⟩ := serializeValue_renders hsolid hm hf.named hvalue
          exact ⟨hzero, hfound, .inr ⟨given, payload, rfl, hpayload, rfl⟩⟩
        · rename_i err hvalue
          split at h
          · rename_i next hadd
            cases h
            exact absurd hzero (add_pos (serializeValue_solid hsolid hvalue) hadd)
          · cases h

theorem serializeFields_renders (hsolid : serializeModel.Solid)
    (hm : serializeModel.Renders models distinct payloads) (hf : ∀ field ∈ fields, field.Sound schema)
    (hnew : distinct → ∀ field ∈ fields, fieldWireName field ∉ members.map Prod.fst)
    (hdistinct : distinct → (fields.map fieldWireName).Nodup)
    (h : serializeFields view schema generators n serializeModel get path fields (members, e) =
      some (.ok (members', e'))) (hzero : e'.issueCount = 0) :
    e.issueCount = 0 ∧
      (∃ fs, gather (fun _ field => fieldFindings view schema generators n models get path field) i
        fields = some fs ∧ Quiet fs) ∧
      (distinct → ∃ rendered, ((suppliedFields generators get fields).mapM fun (field, given) =>
          (valuePayload view schema payloads field given).map fun payload =>
            (fieldWireName field, payload)) = some rendered ∧ members' = members ++ rendered) := by
  induction fields generalizing i members e with
  | nil =>
    cases h
    exact ⟨hzero, ⟨[], rfl, Quiet.nil⟩, fun _ => ⟨[], rfl, (List.append_nil _).symm⟩⟩
  | cons field fields ih =>
    rw [List.map_cons, List.nodup_cons] at hdistinct
    unfold serializeFields at h
    split at h
    · rename_i next hnext
      obtain ⟨members₁, e₁⟩ := next
      -- Whatever the turn did, the names of the other fields stay free.
      have hfree : distinct → ∀ f ∈ fields, fieldWireName f ∉ members₁.map Prod.fst := by
        intro hd f hmem hk
        have hother := hnew hd f (List.mem_cons_of_mem field hmem)
        rcases serializeField_members hnext with rfl | ⟨payload, rfl⟩
        · exact hother hk
        · rcases setMember_keys hk with heq | hk
          · exact (hdistinct hd).1 (heq ▸ List.mem_map_of_mem hmem)
          · exact hother hk
      obtain ⟨hz, ⟨rest, hgather, hquiet⟩, hothers⟩ :=
        ih (fun f hmem => hf f (List.mem_cons_of_mem field hmem)) hfree
          (fun hd => (hdistinct hd).2) h
      obtain ⟨hz', ⟨found, hfound, hq⟩, hturn⟩ :=
        serializeField_renders hsolid hm (hf field List.mem_cons_self) hnext hz
      refine ⟨hz', ⟨found ++ rest, ?_, hq.append hquiet⟩, fun hd => ?_⟩
      · rw [gather, hfound, hgather]
      · obtain ⟨rendered, hrendered, rfl⟩ := hothers hd
        rcases hturn with ⟨hs, rfl⟩ | ⟨given, payload, hs, hpayload, rfl⟩
        · refine ⟨rendered, ?_, rfl⟩
          rw [suppliedFields, List.filterMap_cons_none (by rw [hs]; rfl)]
          exact hrendered
        · refine ⟨(fieldWireName field, payload) :: rendered, ?_, ?_⟩
          · rw [suppliedFields, List.filterMap_cons_some (by rw [hs]; rfl), List.mapM_cons]
            dsimp only
            rw [hpayload hd, ← suppliedFields, hrendered]
            rfl
          · rw [setMember_fresh (hnew hd field List.mem_cons_self)]
            simp
    · rename_i hstop
      exact (hstop _ h).elim

theorem serializeModelAtUnchecked_solid (n : Nat) :
    (serializeModelAtUnchecked view schema generators n).Solid := by
  cases n with
  | zero => exact fun _ _ _ _ h => by cases h
  | succ n =>
    intro model given path err h
    unfold serializeModelAtUnchecked at h
    split at h
    · cases h
      trivial
    · split at h
      · rename_i hget
        cases h
        unfold inputGetter at hget
        split at hget
        · cases hget
        · split at hget
          · cases hget
            trivial
          · cases hget
          · cases hget
          · cases hget
            trivial
      · split at h
        · cases h
        · rename_i hfields
          cases h
          exact serializeFields_solid hfields
        · split at h
          · rename_i hne
            cases h
            exact hne
          · cases h

/-- What the serializer returns is the payload that is described, and it notices nothing in the input. -/
theorem serializeModelAtUnchecked_renders (hs : validateSchemaDescriptor schema = none) (n : Nat) :
    (serializeModelAtUnchecked view schema generators n).Renders
      (modelFindings view schema generators n)
      (∀ m ∈ schema.models, (m.2.map fieldWireName).Nodup)
      (modelPayload view schema generators n) := by
  induction n with
  | zero => exact fun _ _ _ _ h => by cases h
  | succ n ih =>
    intro model given path payload h
    unfold serializeModelAtUnchecked at h
    unfold modelFindings modelPayload
    cases hmodel : lookup model schema.models with
    | none =>
      rw [hmodel] at h
      cases h
    | some fields =>
      rw [hmodel] at h
      dsimp only at h
      cases hget : inputGetter view model given with
      | error err =>
        rw [hget] at h
        cases h
      | ok get =>
        rw [hget] at h
        dsimp only at h ⊢
        split at h
        · cases h
        · cases h
        · rename_i members e hloop
          split at h
          · cases h
          · rename_i hzero
            cases h
            obtain ⟨-, hfound, hrenders⟩ :=
              serializeFields_renders (serializeModelAtUnchecked_solid n) ih
                (accepted_fields hs hmodel) (fun _ _ _ => List.not_mem_nil)
                (fun hd => hd _ (lookup_mem hmodel)) hloop (not_not.1 hzero)
            refine ⟨hfound, fun hd => ?_⟩
            obtain ⟨rendered, hrendered, rfl⟩ := hrenders hd
            rw [hrendered]
            rfl

/-- The serializer returns a payload for the input, given enough fuel. -/
def Serializes (view : α → Node α) (schema : SchemaDescriptor α) (generators : Generators)
    (model : Bytes) (input : Given α) (payload : Payload α) : Prop :=
  ∃ fuel, serializeModelAtUnchecked view schema generators fuel model input (lit "$") =
    some (.ok payload)

theorem serializes_iff_quiet (hs : validateSchemaDescriptor schema = none) :
    (∃ payload, Serializes view schema generators model input payload) ↔
      ∃ n fs, modelFindings view schema generators n model input (lit "$") = some fs ∧ Quiet fs := by
  constructor
  · rintro ⟨payload, n, h⟩
    obtain ⟨⟨fs, hfs, hquiet⟩, -⟩ := serializeModelAtUnchecked_renders hs n _ _ _ _ h
    exact ⟨n, fs, hfs, hquiet⟩
  · rintro ⟨n, fs, hfs, hquiet⟩
    obtain ⟨hcalm, htold⟩ := hquiet.told
    obtain ⟨out, hout, hmatch, -⟩ := serializeModelAtUnchecked_answers hs n _ _ _ _ hfs
    cases hmatch with
    | ok hc ht => exact ⟨_, n, hout⟩
    | issue hc ht =>
      rw [htold] at ht
      cases ht
    | issues hc hr hne => exact absurd htold hne
    | aborted hp ha =>
      obtain ⟨f, hf, habort⟩ := ha
      rw [hcalm f hf] at habort
      cases habort

/-- The serializer returns a payload exactly for the inputs that conform, and the payload is the one
that the descriptor describes, unless all that is wrong with an input goes unnoticed or all that it
finds is not wrong. -/
theorem serializer_implements_descriptor (hs : validateSchemaDescriptor schema = none)
    (hdistinct : ∀ m ∈ schema.models, (m.2.map fieldWireName).Nodup) (model : Bytes)
    (input : Given α) :
    (((∃ payload, Serializes view schema generators model input payload) ↔
          ∃ n, Conforms view schema generators n model input) ∧
        ∀ payload, Serializes view schema generators model input payload →
          ∃ n, modelPayload view schema generators n model input = some payload) ↔
      ∀ n fs, modelFindings view schema generators n model input (lit "$") = some fs → fs ≠ [] →
        (∃ f ∈ fs, f.handling ≠ .unnoticed) ∧ ∃ f ∈ fs, f.violates = true := by
  have hpayload : ∀ payload, Serializes view schema generators model input payload →
      ∃ n, modelPayload view schema generators n model input = some payload := by
    rintro payload ⟨n, h⟩
    exact ⟨n, (serializeModelAtUnchecked_renders hs n _ _ _ _ h).2 hdistinct⟩
  have hblameless : ∀ {n fs}, modelFindings view schema generators n model input (lit "$") = some fs →
      ((∃ n, Conforms view schema generators n model input) ↔ violations fs = []) := by
    intro n fs hfs
    constructor
    · rintro ⟨m, hconforms⟩
      obtain ⟨fs', hfs', hnone⟩ :=
        Option.map_eq_some_iff.1 ((conforms_iff m model input _).2 hconforms)
      rw [modelFindings_unique hfs hfs', hnone]
    · intro hnone
      refine ⟨n, (conforms_iff n model input (lit "$")).1 ?_⟩
      rw [hfs]
      exact blameless_some.2 hnone
  rw [serializes_iff_quiet hs, and_iff_left hpayload]
  constructor
  · intro h n fs hfs hne
    constructor
    · by_contra hall
      have hquiet : Quiet fs := by
        intro f hf
        by_contra hloud
        exact hall ⟨f, hf, hloud⟩
      have hnone := (hblameless hfs).1 (h.1 ⟨n, fs, hfs, hquiet⟩)
      rw [hquiet.violations] at hnone
      exact hne hnone
    · by_contra hall
      have hnone : violations fs = [] := List.filter_eq_nil_iff.2 fun f hf hv => hall ⟨f, hf, hv⟩
      obtain ⟨m, fs', hfs', hquiet⟩ := h.2 ((hblameless hfs).2 hnone)
      rw [← modelFindings_unique hfs hfs'] at hquiet
      rw [hquiet.violations] at hnone
      exact hne hnone
  · intro h
    constructor
    · rintro ⟨n, fs, hfs, hquiet⟩
      apply (hblameless hfs).2
      by_contra hne
      rw [hquiet.violations] at hne
      obtain ⟨f, hf, hloud⟩ := (h n fs hfs hne).1
      exact hloud (hquiet f hf)
    · rintro ⟨n, hconforms⟩
      obtain ⟨fs, hfs, hnone⟩ :=
        Option.map_eq_some_iff.1 ((conforms_iff n model input (lit "$")).2 hconforms)
      by_cases hne : fs = []
      · exact ⟨n, fs, hfs, hne ▸ Quiet.nil⟩
      · obtain ⟨f, hf, hv⟩ := (h n fs hfs hne).2
        exact absurd hv (List.filter_eq_nil_iff.1 hnone f hf)

end

namespace Sample

/-- A paint whose colour is a number. -/
def numbered : Nat → Node Nat
  | 0 => .map .stringToAny (some [(lit "colour", 1)])
  | 1 => .int 5
  | _ => .nil

/-- A paint whose colour is a member of the enum. -/
def coloured : Nat → Node Nat
  | 0 => .map .stringToAny (some [(lit "colour", 1)])
  | 1 => .string (lit "red")
  | _ => .nil

def paints (table : Option (List (Bytes × Bytes))) : SchemaDescriptor Nat :=
  { descriptorFormatVersion := 2
    enums := [(lit "Colour", table)]
    models :=
      [(lit "Paint",
        [{ schemaName := lit "colour", wireName := lit "c", scalarKind := .enum,
           descriptorID := lit "Colour", requiredInInput := true }])] }

end Sample

/-- An enum whose table is nil takes a number. -/
theorem numbered_accepted :
    validateSchemaDescriptor (Sample.paints none) = none ∧
      (∀ m ∈ (Sample.paints none).models, (m.2.map fieldWireName).Nodup) ∧
      Serializes Sample.numbered (Sample.paints none) Sample.texts (lit "Paint") (.value 0)
        (.object [(lit "c", .value 1)]) ∧
      ¬∃ n, Conforms Sample.numbered (Sample.paints none) Sample.texts n (lit "Paint") (.value 0) := by
  refine ⟨rfl, by decide, ⟨2, rfl⟩, ?_⟩
  rintro ⟨n, h⟩
  have hfs : modelFindings Sample.numbered (Sample.paints none) Sample.texts 2 (lit "Paint") (.value 0)
      (lit "$") = some [(reported .typeMismatch (lit "$.colour")
        (lit "expected enum string")).unnoticed] := rfl
  obtain ⟨fs, hfs', hnone⟩ := Option.map_eq_some_iff.1 ((conforms_iff n _ _ (lit "$")).2 h)
  rw [← modelFindings_unique hfs hfs'] at hnone
  cases hnone

theorem coloured_implements :
    Serializes Sample.coloured (Sample.paints (some [(lit "red", lit "RED")])) Sample.texts
        (lit "Paint") (.value 0) (.object [(lit "c", .string (lit "RED"))]) ∧
      ((((∃ payload, Serializes Sample.coloured (Sample.paints (some [(lit "red", lit "RED")]))
              Sample.texts (lit "Paint") (.value 0) payload) ↔
            ∃ n, Conforms Sample.coloured (Sample.paints (some [(lit "red", lit "RED")])) Sample.texts
              n (lit "Paint") (.value 0)) ∧
          ∀ payload, Serializes Sample.coloured (Sample.paints (some [(lit "red", lit "RED")]))
              Sample.texts (lit "Paint") (.value 0) payload →
            ∃ n, modelPayload Sample.coloured (Sample.paints (some [(lit "red", lit "RED")]))
              Sample.texts n (lit "Paint") (.value 0) = some payload) ↔
        ∀ n fs, modelFindings Sample.coloured (Sample.paints (some [(lit "red", lit "RED")]))
            Sample.texts n (lit "Paint") (.value 0) (lit "$") = some fs → fs ≠ [] →
          (∃ f ∈ fs, f.handling ≠ .unnoticed) ∧ ∃ f ∈ fs, f.violates = true) :=
  ⟨⟨2, rfl⟩, serializer_implements_descriptor rfl (by decide) (lit "Paint") (.value 0)⟩

end Repost.Serialize
