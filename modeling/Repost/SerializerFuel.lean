import Repost.Serializer

namespace Repost.Serialize
open GoText
set_option autoImplicit true

section
variable {α : Type} {view : α → Node α}

/-- The loop over the parts of a value that hands the issues collected on. -/
def walkAll (f : Nat → β → Issues → Option Issues) : Nat → List β → Issues → Option Issues
  | _, [], e => some e
  | i, x :: xs, e => (f i x e).bind (walkAll f (i + 1) xs)

theorem validateItems_eq (walk : α → Bytes → Issues → Option Issues) (path : Bytes) (i : Nat)
    (items : List α) : validateItems walk path i items =
      walkAll (fun j v => walk v (indexPath path j)) i items := by
  induction items generalizing i with
  | nil => rfl
  | cons v items ih =>
    funext e
    rw [validateItems, walkAll, ih]
    cases walk v (indexPath path i) e <;> rfl

theorem validateEntries_eq (walk : α → Bytes → Issues → Option Issues) (path : Bytes) (i : Nat)
    (entries : List (Bytes × α)) : validateEntries walk path entries =
      walkAll (fun _ entry => walk entry.2 (starPath path)) i entries := by
  induction entries generalizing i with
  | nil => rfl
  | cons entry entries ih =>
    funext e
    rw [validateEntries, walkAll, ih (i + 1)]
    cases walk entry.2 (starPath path) e <;> rfl

theorem walkAll_extends {f g : Nat → β → Issues → Option Issues}
    (hf : ∀ i x e e', f i x e = some e' → g i x e = some e') (h : walkAll f i xs e = some e') :
    walkAll g i xs e = some e' := by
  induction xs generalizing i e with
  | nil => exact h
  | cons x xs ih =>
    obtain ⟨next, hnext, hrest⟩ := Option.bind_eq_some_iff.1 h
    exact Option.bind_eq_some_iff.2 ⟨next, hf i x e next hnext, ih hrest⟩

variable [Addressed α]

theorem validateJSONAt_succ (h : validateJSONAt view fuel v path ancestors e = some e') :
    validateJSONAt view (fuel + 1) v path ancestors e = some e' := by
  induction fuel generalizing v path ancestors e e' with
  | zero => cases h
  | succ fuel ih =>
    unfold validateJSONAt at h ⊢
    split at h
    · split at h
      · rwa [if_pos ‹_›]
      · rw [if_neg ‹_›]
        exact ih h
    · split at h
      · rwa [if_pos ‹_›]
      · rw [if_neg ‹_›]
        rw [validateItems_eq] at h ⊢
        exact walkAll_extends (fun _ _ _ _ h => ih h) h
    · rw [validateItems_eq] at h ⊢
      exact walkAll_extends (fun _ _ _ _ h => ih h) h
    · split at h
      · rwa [if_pos ‹_›]
      · rw [if_neg ‹_›]
        split at h
        · exact h
        · rw [validateEntries_eq _ _ 0] at h ⊢
          exact walkAll_extends (fun _ _ _ _ h => ih h) h
    · exact h

theorem validateJSON_succ (h : validateJSON view fuel given path = some r) :
    validateJSON view (fuel + 1) given path = some r := by
  obtain ⟨e, hwalk, rfl⟩ := Option.map_eq_some_iff.1 h
  apply Option.map_eq_some_iff.2
  refine ⟨e, ?_, rfl⟩
  cases given with
  | value v => exact validateJSONAt_succ hwalk
  | nil => exact hwalk
  | string s => exact hwalk
  | dateTime s => exact hwalk

theorem validateScalar_succ (h : validateScalar view fuel kind given path = some r) :
    validateScalar view (fuel + 1) kind given path = some r := by
  unfold validateScalar at h ⊢
  split at h
  · exact validateJSON_succ h
  · exact h

def ModelSerializer.ExtendedBy (serializeModel longer : ModelSerializer α) : Prop :=
  ∀ model given path out, serializeModel model given path = some out →
    longer model given path = some out

variable {schema : SchemaDescriptor α} {generators : Generators}
  {serializeModel longer : ModelSerializer α}

theorem serializeItem_succ (hm : serializeModel.ExtendedBy longer)
    (h : serializeItem view schema fuel serializeModel field given path = some out) :
    serializeItem view schema (fuel + 1) longer field given path = some out := by
  unfold serializeItem at h ⊢
  split at h
  · exact h
  · split at h
    · rw [if_pos ‹_›]
      exact hm _ _ _ _ h
    · rw [if_neg ‹_›]
      split at h
      · exact h
      · split at h
        · exact h
        · split at h
          · rw [if_pos ‹_›]
            split at h
            · cases h
            · rename_i hscalar
              rw [validateScalar_succ hscalar]
              exact h
            · rename_i hscalar
              rw [validateScalar_succ hscalar]
              exact h
          · rw [if_neg ‹_›]
            exact h

omit [Addressed α] in
theorem serializeItems_extends {item longerItem : α → Bytes → Outcome (Payload α)}
    (hitem : ∀ v path out, item v path = some out → longerItem v path = some out)
    (h : serializeItems view item field path i items collected = some out) :
    serializeItems view longerItem field path i items collected = some out := by
  induction items generalizing i collected with
  | nil => exact h
  | cons v items ih =>
    obtain ⟨payloads, e⟩ := collected
    unfold serializeItems at h ⊢
    dsimp only at h ⊢
    split at h
    · rw [if_pos ‹_›]
      exact ih h
    · rw [if_neg ‹_›]
      split at h
      · cases h
      · rename_i hout
        rw [hitem _ _ _ hout]
        exact ih h
      · rename_i hout
        rw [hitem _ _ _ hout]
        dsimp only
        split at h
        · exact ih h
        · exact h

theorem serializeValue_succ (hm : serializeModel.ExtendedBy longer)
    (h : serializeValue view schema fuel serializeModel field given path = some out) :
    serializeValue view schema (fuel + 1) longer field given path = some out := by
  have hitem : ∀ given path out,
      serializeItem view schema fuel serializeModel field given path = some out →
        serializeItem view schema (fuel + 1) longer field given path = some out :=
    fun _ _ _ => serializeItem_succ hm
  unfold serializeValue at h ⊢
  dsimp only at h ⊢
  split at h
  · rwa [if_pos ‹_›]
  · rw [if_neg ‹_›]
    split at h
    · rw [if_pos ‹_›]
      split at h
      · exact h
      · split at h
        · cases h
        · rename_i hitems
          rw [serializeItems_extends (fun v => hitem (.value v)) hitems]
          exact h
        · rename_i hitems
          rw [serializeItems_extends (fun v => hitem (.value v)) hitems]
          exact h
      · split at h
        · rwa [if_pos ‹_›]
        · rw [if_neg ‹_›]
          exact hitem _ _ _ h
    · rw [if_neg ‹_›]
      exact hitem _ _ _ h

theorem serializeField_succ {get : Getter α} (hm : serializeModel.ExtendedBy longer)
    (h : serializeField view schema generators fuel serializeModel get path field collected =
      some out) :
    serializeField view schema generators (fuel + 1) longer get path field collected = some out := by
  obtain ⟨members, e⟩ := collected
  unfold serializeField at h ⊢
  dsimp only at h ⊢
  split at h
  · exact h
  · split at h
    · rwa [if_pos ‹_›]
    · rw [if_neg ‹_›]
      split at h
      · exact h
      · split at h
        · rwa [if_pos ‹_›]
        · rw [if_neg ‹_›]
          split at h
          · cases h
          · rename_i hvalue
            rw [serializeValue_succ hm hvalue]
            exact h
          · rename_i hvalue
            rw [serializeValue_succ hm hvalue]
            exact h

theorem serializeFields_succ {get : Getter α} (hm : serializeModel.ExtendedBy longer)
    (h : serializeFields view schema generators fuel serializeModel get path fields collected =
      some out) :
    serializeFields view schema generators (fuel + 1) longer get path fields collected = some out := by
  induction fields generalizing collected with
  | nil => exact h
  | cons field fields ih =>
    unfold serializeFields at h ⊢
    split at h
    · rename_i hnext
      rw [serializeField_succ hm hnext]
      exact ih h
    · rename_i hstop
      rw [serializeField_succ hm h]
      split
      · rename_i next hnext
        cases hnext
        exact absurd h (hstop next)
      · rfl

theorem serializeModelAtUnchecked_succ (fuel : Nat) :
    (serializeModelAtUnchecked view schema generators fuel).ExtendedBy
      (serializeModelAtUnchecked view schema generators (fuel + 1)) := by
  induction fuel with
  | zero => exact fun _ _ _ _ h => by cases h
  | succ fuel ih =>
    intro model given path out h
    unfold serializeModelAtUnchecked at h ⊢
    split at h
    · exact h
    · split at h
      · exact h
      · split at h
        · cases h
        · rename_i hfields
          rw [serializeFields_succ ih hfields]
          exact h
        · rename_i hfields
          rw [serializeFields_succ ih hfields]
          exact h

theorem serializeModelAtUnchecked_mono (hle : n ≤ m)
    (h : serializeModelAtUnchecked view schema generators n model given path = some out) :
    serializeModelAtUnchecked view schema generators m model given path = some out := by
  induction hle with
  | refl => exact h
  | step hle ih => exact serializeModelAtUnchecked_succ _ _ _ _ _ ih

theorem serializeModelAtUnchecked_unique
    (h : serializeModelAtUnchecked view schema generators n model given path = some out)
    (h' : serializeModelAtUnchecked view schema generators m model given path = some out') :
    out = out' := by
  have hn := serializeModelAtUnchecked_mono (Nat.le_max_left n m) h
  have hm := serializeModelAtUnchecked_mono (Nat.le_max_right n m) h'
  exact Option.some.inj (hn.symm.trans hm)

end

end Repost.Serialize
