import Repost.SerializerTermination

namespace Repost.Serialize
open GoText Traversal
set_option autoImplicit true

section
variable {α : Type} {view : α → Node α} {schema : SchemaDescriptor α} {generators : Generators}

def generated (generators : Generators) : List (Given α) :=
  [.nil, .string generators.now, .dateTime generators.now, .string generators.uuid,
    .string generators.cuid]

theorem HeldBy.part_cases (h : HeldBy view schema generators field part name given) :
    part ∈ Set.range Given.value ∪ {x | x ∈ generated generators} := by
  obtain ⟨hm, hget, hf, hs, hp⟩ := h
  rename_i fields whole get
  have hwhole : whole ∈ Set.range Given.value ∪ {x | x ∈ generated generators} := by
    unfold supply at hs
    split at hs
    · rename_i given' hgiven
      cases hs
      rcases inputGetter_part hget hgiven with rfl | ⟨v, w, -, rfl, -⟩
      · exact .inr List.mem_cons_self
      · exact .inl ⟨w, rfl⟩
    · obtain ⟨spec, -, rfl⟩ := Option.map_eq_some_iff.1 hs
      cases spec with
      | now =>
        right
        by_cases hk : field.scalarKind = .datetime <;> simp [generated, resolveDefault, hk]
      | uuid | cuid => exact .inr (by simp [generated, resolveDefault])
      | literal v => exact .inl ⟨v, rfl⟩
  unfold FieldDescriptor.parts at hp
  split at hp
  · cases hp
  · split at hp
    · split at hp
      · obtain ⟨v, -, rfl⟩ := List.mem_map.1 hp
        exact .inl ⟨v, rfl⟩
      · cases hp
    · rwa [List.mem_singleton.1 hp]

theorem held_of_turn (h : .ok q ∈ turns view schema generators p) :
    ∃ field, q.1 = field.target ∧ HeldBy view schema generators field q.2 p.1 p.2 := by
  unfold turns at h
  split at h
  · cases List.mem_singleton.1 h
  · rename_i hm
    split at h
    · cases h
    · cases List.mem_singleton.1 h
    · rename_i hget
      obtain ⟨field, hf, hturn⟩ := List.mem_flatMap.1 h
      unfold fieldTurns at hturn
      split at hturn
      · cases List.mem_singleton.1 hturn
      · split at hturn
        · cases hturn
        · rename_i whole hs
          obtain ⟨part, hp, hturn⟩ := List.mem_flatMap.1 hturn
          have hq : q = (field.target, part) := by
            unfold FieldDescriptor.turn at hturn
            split at hturn
            · cases hturn
            · split at hturn
              · cases hturn
              · cases List.mem_singleton.1 hturn
                rfl
          subst hq
          exact ⟨field, rfl, .mk hm hget hf hs hp⟩

theorem visited_finite [Finite α] (p : Bytes × Given α) :
    {q | Relation.TransGen (Visits (turns view schema generators)) q p}.Finite := by
  have htargets : {t | t ∈ schema.models.flatMap fun m => m.2.map FieldDescriptor.target}.Finite :=
    List.finite_toSet _
  have hgivens : (Set.range (Given.value (α := α)) ∪ {x | x ∈ generated generators}).Finite :=
    (Set.finite_range _).union (List.finite_toSet _)
  apply (htargets.prod hgivens).subset
  intro q hq
  obtain ⟨r, ⟨before, after, hnext, -⟩, -⟩ := Relation.TransGen.head'_iff.1 hq
  have hturn : .ok q ∈ turns view schema generators r := by simp [hnext]
  obtain ⟨field, htarget, h⟩ := held_of_turn hturn
  refine ⟨?_, h.part_cases⟩
  obtain ⟨hm, -, hf, -, -⟩ := h
  rw [htarget]
  exact List.mem_flatMap.2 ⟨_, lookup_mem hm, List.mem_map_of_mem hf⟩

variable [Addressed α]

theorem gist_some (out : Except SerializerError β) :
    ∃ r, gist (some out) = some r ∧ (r = some .panicked ↔ out = .error .panicked) := by
  cases out with
  | ok x => exact ⟨none, rfl, by simp⟩
  | error err =>
    cases err with
    | issue i | issues e => exact ⟨none, rfl, by simp⟩
    | _ => exact ⟨_, rfl, by simp⟩

theorem run_of_returned
    (h : serializeModelAtUnchecked view schema generators n model input path = some out) :
    ∃ r, (serializeModelAtUnchecked view schema generators n).run (model, input) (some r) ∧
      (r = some .panicked ↔ out = .error .panicked) := by
  obtain ⟨r, hr, hpanics⟩ := gist_some out
  exact ⟨r, ⟨path, by rw [h, hr]⟩, hpanics⟩

/-- A value that contains itself is in the input. -/
def Cyclic (view : α → Node α) (input : Given α) : Prop :=
  ∃ u v, input = .value u ∧ Relation.ReflTransGen (Part view) v u ∧ Relation.TransGen (Part view) v v

/-- On a finite input the serializer ends, and with an error if the input is cyclic, exactly if no
input for a model that it visits visits itself, no lookup that it comes to panics, and something is
noticed in the input if it is cyclic. -/
theorem serializer_ends [Finite α] (hs : validateSchemaDescriptor schema = none)
    (hinline : WellFounded (Inline view)) (model : Bytes) (input : Given α) :
    (∃ fuel out, serializeModelAtUnchecked view schema generators fuel model input (lit "$") =
          some out ∧
        out ≠ .error .panicked ∧ (Cyclic view input → ∃ err, out = .error err)) ↔
      (∀ p, Relation.ReflTransGen (Visits (turns view schema generators)) p (model, input) →
          ¬Relation.TransGen (Visits (turns view schema generators)) p p ∧
            ¬Reaches (turns view schema generators) (.error .panicked) p) ∧
        (Cyclic view input →
          ¬∃ n fs, modelFindings view schema generators n model input (lit "$") = some fs ∧
            Quiet fs) := by
  have H : Traverses (turns view schema generators)
      (fun n => (serializeModelAtUnchecked view schema generators n).run) (Short view) :=
    serializer_traverses hs
  rw [← serializes_iff_quiet hs]
  constructor
  · rintro ⟨fuel, out, hout, hpanic, hcyclic⟩
    obtain ⟨r, hrun, hpanics⟩ := run_of_returned hout
    refine ⟨fun p hp => ⟨?_, ?_⟩, ?_⟩
    · exact not_self_of_acc (transGen_acc (H.acc_of_run hrun) hp)
    · exact fun hreach => hpanic (hpanics.1 ((H.stopped_iff hrun).2 ⟨p, hp, hreach⟩))
    · rintro hc ⟨payload, n, hn⟩
      obtain ⟨err, rfl⟩ := hcyclic hc
      cases serializeModelAtUnchecked_unique hout hn
  · rintro ⟨hvisits, hcyclic⟩
    have hacc := acc_of_no_cycle (visited_finite (model, input)) fun p hp => (hvisits p hp).1
    obtain ⟨n, hn⟩ := (H.run_of_acc (eventually_not_short hinline) hacc).exists
    cases hout : serializeModelAtUnchecked view schema generators n model input (lit "$") with
    | none => exact absurd ⟨lit "$", by rw [hout]; rfl⟩ hn
    | some out =>
      refine ⟨n, out, hout, ?_, ?_⟩
      · intro hpanic
        obtain ⟨r, hrun, hpanics⟩ := run_of_returned hout
        obtain ⟨p, hp, hreach⟩ := (H.stopped_iff hrun).1 (hpanics.2 hpanic)
        exact (hvisits p hp).2 hreach
      · intro hc
        cases out with
        | error err => exact ⟨err, rfl⟩
        | ok payload => exact absurd ⟨payload, n, hout⟩ (hcyclic hc)

end

namespace Sample

/-- A map that holds itself. -/
def looping : Unit → Node Unit := fun _ => .map .stringToAny (some [(lit "next", ())])

def chain : SchemaDescriptor Unit :=
  { descriptorFormatVersion := 2
    models :=
      [(lit "Link",
        [{ schemaName := lit "next", wireName := lit "next", scalarKind := .model,
           descriptorID := lit "Link" }])] }

end Sample

/-- A map that reaches itself through a field for a model is never serialized. -/
theorem looping_never_ends : validateSchemaDescriptor Sample.chain = none ∧
    ∀ fuel, serializeModelAtUnchecked Sample.looping Sample.chain Sample.texts fuel (lit "Link")
      (.value ()) (lit "$") = none := by
  refine ⟨rfl, fun fuel => ?_⟩
  have hloop : Visits (turns Sample.looping Sample.chain Sample.texts) (lit "Link", .value ())
      (lit "Link", .value ()) := ⟨[], [], rfl, fun _ hb => by cases hb⟩
  cases hout : serializeModelAtUnchecked Sample.looping Sample.chain Sample.texts fuel (lit "Link")
      (.value ()) (lit "$") with
  | none => rfl
  | some out =>
    obtain ⟨r, hrun, -⟩ := run_of_returned hout
    exact absurd hloop (not_self_of_acc ((serializer_traverses rfl).acc_of_run hrun))

theorem looping_ends_iff :
    (∃ fuel out, serializeModelAtUnchecked Sample.looping Sample.chain Sample.texts fuel (lit "Link")
          (.value ()) (lit "$") = some out ∧
        out ≠ .error .panicked ∧ (Cyclic Sample.looping (.value ()) → ∃ err, out = .error err)) ↔
      (∀ p, Relation.ReflTransGen (Visits (turns Sample.looping Sample.chain Sample.texts)) p
            (lit "Link", .value ()) →
          ¬Relation.TransGen (Visits (turns Sample.looping Sample.chain Sample.texts)) p p ∧
            ¬Reaches (turns Sample.looping Sample.chain Sample.texts) (.error .panicked) p) ∧
        (Cyclic Sample.looping (.value ()) →
          ¬∃ n fs, modelFindings Sample.looping Sample.chain Sample.texts n (lit "Link") (.value ())
            (lit "$") = some fs ∧ Quiet fs) := by
  have hinline : WellFounded (Inline Sample.looping) := by
    refine ⟨fun v => ⟨_, ?_⟩⟩
    rintro w ⟨hv, -⟩
    cases hv
  exact serializer_ends rfl hinline (lit "Link") (.value ())

end Repost.Serialize
