import Repost.Findings

namespace Repost.Serialize
open GoText
set_option autoImplicit true

def rootIssue : Issue :=
  validationError .invalidJSON (lit "$") (.text (lit "object keys must be strings"))

def Finding.told (f : Finding) : Option Issue :=
  match f.handling with
  | .reported | .mistaken => some f.issue
  | .relocated => some rootIssue
  | .unnoticed | .aborting | .panicking => none

def told (fs : List Finding) : List Issue := fs.filterMap Finding.told

@[simp] theorem told_nil : told [] = [] := rfl

@[simp] theorem told_append (fs fs' : List Finding) : told (fs ++ fs') = told fs ++ told fs' :=
  List.filterMap_append

@[simp] theorem told_unnoticed (fs : List Finding) : told (fs.map Finding.unnoticed) = [] := by
  induction fs with
  | nil => rfl
  | cons f fs ih => exact ih

def Calm (fs : List Finding) : Prop := ∀ f ∈ fs, f.stops = false

theorem Calm.append (h : Calm fs) (h' : Calm fs') : Calm (fs ++ fs') := by
  intro f hf
  rcases List.mem_append.1 hf with hf | hf
  · exact h f hf
  · exact h' f hf

theorem Calm.nil : Calm [] := nofun

theorem Calm.single (h : f.stops = false) : Calm [f] := by
  intro g hg
  rw [List.mem_singleton.1 hg]
  exact h

def SerializerError.Plain : SerializerError → Prop
  | .noDescriptor _ | .notObject _ | .panicked => True
  | _ => False

def Aborts (fs : List Finding) : Prop := ∃ f ∈ fs, f.stops = true

theorem Aborts.left (h : Aborts fs) (fs' : List Finding) : Aborts (fs ++ fs') := by
  obtain ⟨f, hf, ha⟩ := h
  exact ⟨f, List.mem_append_left _ hf, ha⟩

theorem Aborts.right (fs : List Finding) (h : Aborts fs') : Aborts (fs ++ fs') := by
  obtain ⟨f, hf, ha⟩ := h
  exact ⟨f, List.mem_append_right _ hf, ha⟩

inductive Matches : Except SerializerError β → List Finding → Prop
  | ok (hc : Calm fs) (ht : told fs = []) : Matches (.ok payload) fs
  | issue (hc : Calm fs) (ht : told fs = [i]) : Matches (.error (.issue i)) fs
  | issues (hc : Calm fs) (hr : Reports e (told fs)) (hne : told fs ≠ []) :
    Matches (.error (.issues e)) fs
  | aborted (hp : err.Plain) (ha : Aborts fs) : Matches (.error err) fs

inductive Collects (before : List Issue) : Except SerializerError (β × Issues) → List Finding → Prop
  | ok (hc : Calm fs) (hr : Reports e (before ++ told fs)) : Collects before (.ok (collected, e)) fs
  | aborted (hp : err.Plain) (ha : Aborts fs) : Collects before (.error err) fs

theorem add_matches (hr : Reports e before) (hm : Matches (.error err : Except _ β) fs) :
    (∃ e', e.add err = some e' ∧ Calm fs ∧ Reports e' (before ++ told fs)) ∨
      e.add err = none ∧ err.Plain ∧ Aborts fs := by
  cases hm with
  | issue hc ht =>
    left
    refine ⟨_, rfl, hc, ?_⟩
    rw [ht]
    exact hr.addIssue _
  | issues hc hr' hne => exact .inl ⟨_, rfl, hc, hr.merge hr'⟩
  | aborted hp ha =>
    right
    cases err with
    | noDescriptor model => exact ⟨rfl, hp, ha⟩
    | notObject model => exact ⟨rfl, hp, ha⟩
    | panicked => exact ⟨rfl, hp, ha⟩
    | issue i => cases hp
    | issues e => cases hp

/-- The end of a loop: what it collected is returned unless it is empty. -/
def finished (make : β → γ) : Except SerializerError (β × Issues) → Except SerializerError γ
  | .error err => .error err
  | .ok (collected, e) =>
    if e.issueCount ≠ 0 then .error (.issues e) else .ok (make collected)

theorem Collects.finish (make : β → γ) (h : Collects [] out fs) :
    Matches (finished make out) fs := by
  cases h with
  | aborted hp ha => exact .aborted hp ha
  | ok hc hr =>
    rw [List.nil_append] at hr
    dsimp only [finished]
    split
    · rename_i hne
      exact .issues hc hr fun ht => hne (hr.count_eq_zero.2 ht)
    · rename_i hzero
      exact .ok hc (hr.count_eq_zero.1 (not_not.1 hzero))

theorem Collects.finish_ne_issue (make : β → γ) (h : Collects [] out fs) :
    finished make out ≠ .error (.issue i) := by
  cases h with
  | aborted hp ha =>
    intro heq
    cases heq
    exact hp
  | ok hc hr =>
    dsimp only [finished]
    split <;> exact nofun

theorem Collects.after (hc : Calm found) (h : Collects (before ++ told found) out rest) :
    Collects before out (found ++ rest) := by
  cases h with
  | ok hc' hr =>
    rw [List.append_assoc, ← told_append] at hr
    exact .ok (hc.append hc') hr
  | aborted hp ha => exact .aborted hp (ha.right found)

section
variable {α : Type} {view : α → Node α}

inductive JsonPart (view : α → Node α) : α → α → Prop
  | target (h : view v = .pointer (some w)) : JsonPart view w v
  | item (h : view v = .slice type (some items)) (hw : w ∈ items) : JsonPart view w v
  | element (h : view v = .array items) (hw : w ∈ items) : JsonPart view w v
  | entry (h : view v = .map type (some entries)) (hw : e ∈ entries) : JsonPart view e.2 v

theorem not_self_of_acc {r : α → α → Prop} (h : Acc r a) : ¬r a a := by
  induction h with
  | intro a _ ih => exact fun haa => ih a haa haa

theorem Finding.calm_of_flaw (o : Option Issue) :
    Calm (o.toList.map fun issue => { issue := issue }) := by
  cases o with
  | none => exact Calm.nil
  | some i => exact Calm.single rfl

theorem calm_unnoticed (fs : List Finding) : Calm (fs.map Finding.unnoticed) := by
  intro f hf
  obtain ⟨g, -, rfl⟩ := List.mem_map.1 hf
  rfl

theorem Finding.calm_of_covering {f : Finding} (hf : f.stops = false)
    (h : f.covering found = some fs) : Calm fs := by
  obtain ⟨rest, -, rfl⟩ := Option.map_eq_some_iff.1 h
  exact (Calm.single hf).append (calm_unnoticed _)

theorem told_of_covering {f : Finding} (h : f.covering found = some fs) : told fs = told [f] := by
  obtain ⟨rest, -, rfl⟩ := Option.map_eq_some_iff.1 h
  rw [← List.singleton_append, told_append, told_unnoticed, List.append_nil]

variable [Addressed α]

theorem entering_calm (h : entering view v path ancestors found = some fs)
    (hf : ∀ fs, found = some fs → Calm fs) : Calm fs := by
  unfold entering at h
  split at h
  · exact Finding.calm_of_covering rfl h
  · exact hf fs h

theorem jsonFindings_calm (h : jsonFindings view n v path ancestors = some fs) : Calm fs := by
  induction n generalizing v path ancestors fs with
  | zero => cases h
  | succ n ih =>
    unfold jsonFindings at h
    split at h
    · exact entering_calm h fun _ => ih
    · exact entering_calm h fun _ => gather_all fun _ _ _ _ => ih
    · exact gather_all (fun _ _ _ _ => ih) h
    · apply entering_calm h
      intro fs h
      split at h
      · exact Finding.calm_of_covering rfl h
      · exact gather_all (fun _ _ _ _ => ih) h
    · cases h
      exact Finding.calm_of_flaw _

def WalksTo (walk : Issues → Option Issues) (fs : List Finding) : Prop :=
  ∀ e before, Reports e before → ∃ e', walk e = some e' ∧ Reports e' (before ++ told fs)

theorem walkAll_walks {f : Nat → β → Issues → Option Issues}
    (hwalk : ∀ j, ∀ x ∈ xs, ∀ found, find j x = some found → WalksTo (f j x) found)
    (h : gather find i xs = some fs) : WalksTo (walkAll f i xs) fs := by
  induction xs generalizing i fs with
  | nil =>
    cases h
    exact fun e before hr => ⟨e, rfl, by simpa using hr⟩
  | cons x xs ih =>
    obtain ⟨found, rest, hfound, hrest, rfl⟩ := gather_cons h
    intro e before hr
    obtain ⟨next, hnext, hr'⟩ := hwalk i x List.mem_cons_self found hfound e before hr
    obtain ⟨last, hlast, hr''⟩ :=
      ih (fun j y hy => hwalk j y (List.mem_cons_of_mem x hy)) hrest next _ hr'
    refine ⟨last, Option.bind_eq_some_iff.2 ⟨next, hnext, hlast⟩, ?_⟩
    rwa [told_append, ← List.append_assoc]

theorem validateJSONAt_leaf (hpointer : ∀ target, view v = .pointer (some target) → False)
    (hslice : ∀ type items, view v = .slice type (some items) → False)
    (harray : ∀ items, view v = .array items → False)
    (hmap : ∀ type entries, view v = .map type (some entries) → False) :
    WalksTo (validateJSONAt view (n + 1) v path ancestors)
      (((view v).flaw path).toList.map fun issue => { issue := issue }) := by
  intro e before hr
  unfold validateJSONAt
  split
  · rename_i hv
    exact (hpointer _ hv).elim
  · rename_i hv
    exact (hslice _ _ hv).elim
  · rename_i hv
    exact (harray _ hv).elim
  · rename_i hv
    exact (hmap _ _ hv).elim
  · split
    · rename_i issue hflaw
      rw [hflaw]
      exact ⟨_, rfl, hr.addIssue issue⟩
    · rename_i hflaw
      rw [hflaw]
      exact ⟨_, rfl, by simpa using hr⟩

theorem walk_entering {walk : Issues → Option Issues}
    (h : entering view v path ancestors found = some fs)
    (hwalk : ∀ fs, found = some fs → WalksTo walk fs) :
    WalksTo (fun e => if jsonAncestor view v ∈ ancestors then some (e.addIssue (cycleIssue path))
      else walk e) fs := by
  intro e before hr
  dsimp only
  unfold entering at h
  split at h
  · rw [if_pos ‹_›, told_of_covering h]
    exact ⟨_, rfl, hr.addIssue _⟩
  · rw [if_neg ‹_›]
    exact hwalk fs h e before hr

/-- The walk through a value of kind json reports its findings. -/
theorem validateJSONAt_walks (h : jsonFindings view n v path ancestors = some fs) :
    WalksTo (validateJSONAt view n v path ancestors) fs := by
  induction n generalizing v path fs ancestors with
  | zero => cases h
  | succ n ih =>
    intro e before hr
    unfold jsonFindings at h
    split at h
    · rename_i target hv
      simp only [validateJSONAt, hv]
      exact walk_entering h (fun _ => ih) e before hr
    · rename_i type items hv
      simp only [validateJSONAt, hv, validateItems_eq]
      exact walk_entering h (fun _ => walkAll_walks fun _ _ _ _ => ih) e before hr
    · rename_i items hv
      simp only [validateJSONAt, hv, validateItems_eq]
      exact walkAll_walks (fun _ _ _ _ => ih) h e before hr
    · rename_i type entries hv
      simp only [validateJSONAt, hv, validateEntries_eq _ _ 0]
      cases hflaw : Node.flaw path (.map type (some entries) : Node α) with
      | some issue =>
        simp only [hflaw] at h ⊢
        have hkeys : ∀ found fs, Finding.covering { issue := issue } found = some fs →
            WalksTo (fun e => some (e.addIssue issue)) fs := by
          intro found fs h e before hr
          rw [told_of_covering h]
          exact ⟨_, rfl, hr.addIssue issue⟩
        exact walk_entering h (hkeys _) e before hr
      | none =>
        simp only [hflaw] at h ⊢
        exact walk_entering h (fun _ => walkAll_walks fun _ _ _ _ => ih) e before hr
    · rename_i hpointer hslice harray hmap
      cases h
      exact validateJSONAt_leaf hpointer hslice harray hmap e before hr

end

end Repost.Serialize
