import Mathlib

namespace Runs
set_option autoImplicit true

/-- An action that is not enabled in a state gives no next state. -/
structure System (State Act : Type) where
  Init : State → Prop
  step : State → Act → Option State

namespace System
variable {State Act : Type} {sys : System State Act} {ok : State → Act → Prop}

/-- Runs all of whose actions are taken in states that allow them. -/
inductive Steps (sys : System State Act) (ok : State → Act → Prop) : State → State → Prop where
  | refl (s : State) : Steps sys ok s s
  | tail (h : Steps sys ok s t) (ha : ok t a) (hs : sys.step t a = some u) : Steps sys ok s u

def Reachable (sys : System State Act) (ok : State → Act → Prop) (s : State) : Prop :=
  ∃ s₀, sys.Init s₀ ∧ sys.Steps ok s₀ s

def Any : State → Act → Prop := fun _ _ => True

/-- A property that holds initially and that every allowed step keeps. -/
structure Invariant (sys : System State Act) (ok : State → Act → Prop) (I : State → Prop) :
    Prop where
  init : ∀ s, sys.Init s → I s
  step : ∀ s a t, I s → ok s a → sys.step s a = some t → I t

theorem Invariant.steps (h : sys.Invariant ok I) (hs : sys.Steps ok s t) (hi : I s) :
    I t := by
  induction hs with
  | refl => exact hi
  | tail _ ha hstep ih => exact h.step _ _ _ ih ha hstep

theorem Invariant.reachable (h : sys.Invariant ok I) (hr : sys.Reachable ok s) : I s := by
  obtain ⟨s₀, hi, hs⟩ := hr
  exact h.steps hs (h.init s₀ hi)

theorem Reachable.trans (hr : sys.Reachable ok s) (hs : sys.Steps ok s t) :
    sys.Reachable ok t := by
  obtain ⟨s₀, hi, h₀⟩ := hr
  refine ⟨s₀, hi, ?_⟩
  induction hs with
  | refl => exact h₀
  | tail _ ha hstep ih => exact .tail ih ha hstep

theorem Reachable.tail (hr : sys.Reachable ok s) (ha : ok s a) (hs : sys.step s a = some t) :
    sys.Reachable ok t :=
  hr.trans (.tail (.refl s) ha hs)

theorem Steps.monotone [Preorder α] {f : State → α}
    (hf : ∀ s a t, sys.step s a = some t → f s ≤ f t) (hs : sys.Steps ok s t) : f s ≤ f t := by
  induction hs with
  | refl => exact le_refl _
  | tail _ _ hstep ih => exact ih.trans (hf _ _ _ hstep)

/-- Carry out a list of actions, each of which must be allowed and enabled. -/
def exec (sys : System State Act) (ok : State → Act → Prop) [∀ s a, Decidable (ok s a)] :
    State → List Act → Option State
  | s, [] => some s
  | s, a :: as =>
    if ok s a then
      match sys.step s a with
      | some t => exec sys ok t as
      | none => none
    else none

theorem exec_cons [∀ s a, Decidable (ok s a)] :
    sys.exec ok s (a :: as) = some t ↔
      ok s a ∧ ∃ u, sys.step s a = some u ∧ sys.exec ok u as = some t := by
  rw [exec]
  by_cases ha : ok s a
  · rw [if_pos ha]
    cases sys.step s a with
    | none => simp
    | some u => simp [ha]
  · rw [if_neg ha]
    simp [ha]

theorem exec_steps [∀ s a, Decidable (ok s a)] (h : sys.exec ok s as = some t)
    (h₀ : sys.Steps ok s₀ s) : sys.Steps ok s₀ t := by
  induction as generalizing s with
  | nil =>
    cases h
    exact h₀
  | cons a as ih =>
    obtain ⟨ha, u, hu, hrest⟩ := exec_cons.1 h
    exact ih hrest (.tail h₀ ha hu)

theorem exec_reachable [∀ s a, Decidable (ok s a)] (hi : sys.Init s)
    (h : sys.exec ok s as = some t) : sys.Reachable ok t :=
  ⟨s, hi, exec_steps h (.refl s)⟩

instance (s : State) (a : Act) : Decidable (Any s a) := .isTrue trivial

def spent (sys : System State Act) (cost : State → Act → Nat) : State → List Act → Nat
  | _, [] => 0
  | s, a :: as =>
    cost s a + match sys.step s a with
      | some t => sys.spent cost t as
      | none => 0

theorem spent_cons {cost : State → Act → Nat} (h : sys.step s a = some t) :
    sys.spent cost s (a :: as) = cost s a + sys.spent cost t as := by
  rw [spent, h]

theorem exec_spent (I Live : State → Prop) (total : State → Int) (cost : State → Act → Nat)
    (hI : ∀ s a t, I s → sys.step s a = some t → I t)
    (hlive : ∀ s a t, sys.step s a = some t → Live t → Live s)
    (hcost : ∀ s a t, I s → sys.step s a = some t → Live t → total t + cost s a = total s)
    (hs : I s) (h : sys.exec Any s as = some t) (ht : Live t) :
    Live s ∧ total t + sys.spent cost s as = total s := by
  induction as generalizing s with
  | nil =>
    cases h
    exact ⟨ht, Int.add_zero _⟩
  | cons a as ih =>
    obtain ⟨-, u, hu, hrest⟩ := exec_cons.1 h
    obtain ⟨hlu, htotal⟩ := ih (hI s a u hs hu) hrest
    refine ⟨hlive s a u hu hlu, ?_⟩
    have hstep := hcost s a u hs hu hlu
    rw [spent_cons hu]
    omega

theorem exec_free_iff {cost : State → Act → Nat} (h : sys.exec Any s as = some t) :
    sys.exec (fun s a => cost s a = 0) s as = some t ↔ sys.spent cost s as = 0 := by
  induction as generalizing s with
  | nil => exact ⟨fun _ => rfl, fun _ => h⟩
  | cons a as ih =>
    obtain ⟨-, u, hu, hrest⟩ := exec_cons.1 h
    rw [spent_cons hu, exec_cons, hu, Nat.add_eq_zero_iff, ← ih hrest]
    simp

/-- Where a step keeps a property exactly if it is allowed, a run has the property in every state it
reaches exactly if all of its steps are allowed. -/
theorem exec_stays_iff [∀ s a, Decidable (ok s a)] (I Legal : State → Prop)
    (hI : ∀ s a t, I s → sys.step s a = some t → I t)
    (hstep : ∀ s a t, I s → Legal s → sys.step s a = some t → (Legal t ↔ ok s a))
    (hs : I s) (hlegal : Legal s) (h : sys.exec Any s as = some t) :
    (∀ front u, front <+: as → sys.exec Any s front = some u → Legal u) ↔
      sys.exec ok s as = some t := by
  induction as generalizing s with
  | nil =>
    refine ⟨fun _ => h, fun _ front u hfront hu => ?_⟩
    rw [List.prefix_nil.1 hfront] at hu
    cases hu
    exact hlegal
  | cons a as ih =>
    obtain ⟨-, u, hu, hrest⟩ := exec_cons.1 h
    have hfirst := hstep s a u hs hlegal hu
    constructor
    · intro hall
      have hlegalu := hall [a] u (List.prefix_cons_inj a |>.2 (List.nil_prefix ..))
        (exec_cons.2 ⟨trivial, u, hu, rfl⟩)
      refine exec_cons.2 ⟨hfirst.1 hlegalu, u, hu, (ih (hI s a u hs hu) hlegalu hrest).1 ?_⟩
      intro front v hfront hv
      exact hall (a :: front) v ((List.prefix_cons_inj a).2 hfront)
        (exec_cons.2 ⟨trivial, u, hu, hv⟩)
    · intro hok front v hfront hv
      obtain ⟨ha, u', hu', hrest'⟩ := exec_cons.1 hok
      cases hu.symm.trans hu'
      have hlegalu := hfirst.2 ha
      cases front with
      | nil =>
        cases hv
        exact hlegal
      | cons b front =>
        obtain ⟨rfl, hrest''⟩ := List.cons_prefix_cons.1 hfront
        obtain ⟨-, w, hw, hv'⟩ := exec_cons.1 hv
        cases hu.symm.trans hw
        exact (ih (hI s b u hs hu) hlegalu hrest).2 hrest' front v hrest'' hv'

/-- Where each of some actions lowers a quantity and no other allowed one raises it, a run has at
most so many of them. -/
theorem exec_countP_le [∀ s a, Decidable (ok s a)] (own : Act → Bool) (work : State → Nat)
    (hown : ∀ s a t, sys.step s a = some t → own a = true → work t < work s)
    (hother : ∀ s a t, sys.step s a = some t → ok s a → own a = false → work t ≤ work s)
    (h : sys.exec ok s as = some t) : as.countP own + work t ≤ work s := by
  induction as generalizing s with
  | nil =>
    cases h
    exact Nat.le_of_eq (Nat.zero_add _)
  | cons a as ih =>
    obtain ⟨ha, u, hu, hrest⟩ := exec_cons.1 h
    have hu' := ih hrest
    rw [List.countP_cons]
    cases ho : own a with
    | true =>
      have hlt := hown s a u hu ho
      rw [if_pos rfl]
      omega
    | false =>
      have hle := hother s a u hu ha ho
      rw [if_neg nofun]
      omega

end System

variable {l : List α} {f : α → Int}

theorem sum_map_set (h : l[i]? = some x) :
    ((l.set i y).map f).sum = (l.map f).sum + (f y - f x) := by
  obtain ⟨hi, rfl⟩ := List.getElem?_eq_some_iff.1 h
  rw [List.map_set, List.sum_set', dif_pos (by rwa [List.length_map]), List.getElem_map]
  omega

theorem sum_map_set_nat {f : α → Nat} (h : l[i]? = some x) :
    ((l.set i y).map f).sum + f x = (l.map f).sum + f y := by
  induction l generalizing i with
  | nil => cases h
  | cons z l ih =>
    cases i with
    | zero =>
      cases h
      simp only [List.set_cons_zero, List.map_cons, List.sum_cons]
      omega
    | succ i =>
      have hrest := ih (i := i) h
      simp only [List.set_cons_succ, List.map_cons, List.sum_cons]
      omega

theorem sum_map_append_one :
    ((l ++ [x]).map f).sum = (l.map f).sum + f x := by
  simp

theorem sum_map_nonneg (h : ∀ x ∈ l, 0 ≤ f x) :
    0 ≤ (l.map f).sum := by
  induction l with
  | nil => exact Int.le_refl 0
  | cons x l ih =>
    have hx := h x (List.mem_cons_self ..)
    have hl := ih fun y hy => h y (List.mem_cons_of_mem _ hy)
    rw [List.map_cons, List.sum_cons]
    omega

theorem sum_map_eq_zero (h : ∀ x ∈ l, 0 ≤ f x)
    (hs : (l.map f).sum = 0) : ∀ x ∈ l, f x = 0 := by
  induction l with
  | nil => exact fun x hx => nomatch hx
  | cons y l ih =>
    have hy := h y (List.mem_cons_self ..)
    have hl := sum_map_nonneg fun x hx => h x (List.mem_cons_of_mem y hx)
    rw [List.map_cons, List.sum_cons] at hs
    intro x hx
    rcases List.mem_cons.1 hx with rfl | hx
    · omega
    · exact ih (fun z hz => h z (List.mem_cons_of_mem y hz)) (by omega) x hx

theorem countP_set {p : α → Bool} (h : l[i]? = some x) :
    (l.set i y).countP p + (if p x then 1 else 0) = l.countP p + if p y then 1 else 0 := by
  obtain ⟨hi, rfl⟩ := List.getElem?_eq_some_iff.1 h
  have hpos : p l[i] = true → 0 < l.countP p := fun hp =>
    List.countP_pos_iff.2 ⟨_, List.getElem_mem hi, hp⟩
  rw [List.countP_set hi]
  split
  · rename_i hp
    have := hpos hp
    omega
  · omega

theorem countP_set_same {p : α → Bool} (h : l[i]? = some x) (hp : p y = p x) :
    (l.set i y).countP p = l.countP p := by
  have hcount := countP_set (p := p) (y := y) h
  rw [hp] at hcount
  omega

theorem getElem?_set_cases (h : (l.set i y)[j]? = some z) :
    (j = i ∧ z = y) ∨ (j ≠ i ∧ l[j]? = some z) := by
  rw [List.getElem?_set] at h
  split at h
  · rename_i hij
    split at h
    · cases h
      exact .inl ⟨hij.symm, rfl⟩
    · cases h
  · rename_i hij
    exact .inr ⟨fun hji => hij hji.symm, h⟩

theorem getElem?_append_one_cases (h : (l ++ [y])[j]? = some z) :
    (j = l.length ∧ z = y) ∨ l[j]? = some z := by
  rw [List.getElem?_append] at h
  split at h
  · exact .inr h
  · rename_i hj
    obtain ⟨hlt, he⟩ := List.getElem?_eq_some_iff.1 h
    simp only [List.length_singleton] at hlt
    exact .inl ⟨by omega, by rw [← he]; simp⟩

theorem forall_mem_set {P : α → Prop} (hl : ∀ x ∈ l, P x) (hy : P y) :
    ∀ x ∈ l.set i y, P x := by
  intro x hx
  rcases List.mem_or_eq_of_mem_set hx with h | rfl
  · exact hl x h
  · exact hy

theorem forall_mem_append_one {P : α → Prop} (hl : ∀ x ∈ l, P x) (hy : P y) :
    ∀ x ∈ l ++ [y], P x := by
  intro x hx
  rcases List.mem_append.1 hx with h | h
  · exact hl x h
  · rw [List.mem_singleton] at h
    rwa [h]

theorem sum_filter_map (p : α → Bool) (f : α → Int) (l : List α) :
    ((l.filter p).map f).sum = (l.map fun x => if p x then f x else 0).sum := by
  induction l with
  | nil => rfl
  | cons x l ih =>
    rw [List.filter_cons, List.map_cons, List.sum_cons, ← ih]
    split
    · rw [List.map_cons, List.sum_cons]
    · rw [Int.zero_add]

end Runs
