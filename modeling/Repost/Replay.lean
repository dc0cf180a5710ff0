import Repost.Frames

namespace Traced
set_option autoImplicit true

variable {W S E X α β γ δ : Type}

/-- How a run is seen: the count of its observations, its state at another count, what is left of
its log, and when two worlds give the same answers. -/
structure View (W S E : Type) where
  tick : S → Nat
  seen : S → Nat → S
  erase : E → Option E
  peer : W → W → Prop
  agrees : W → Nat → W → Nat → Prop

/-- The instants of the first world that the second one goes through, from an instant of its own. -/
def View.Along (V : View W S E) (w w₀ : W) : Nat → List Nat → Prop
  | _, [] => True
  | j, i :: l => V.agrees w i w₀ j ∧ V.Along w w₀ (j + 1) l

theorem View.Along.append {V : View W S E} (h : V.Along w w₀ j (l ++ l')) :
    V.Along w w₀ j l ∧ V.Along w w₀ (j + l.length) l' := by
  induction l generalizing j with
  | nil => exact ⟨trivial, h⟩
  | cons i l ih =>
    obtain ⟨hl, hl'⟩ := ih h.2
    refine ⟨⟨h.1, hl⟩, ?_⟩
    rw [List.length_cons, Nat.add_comm l.length, ← Nat.add_assoc]
    exact hl'

structure Scheduled (a b : Nat) (l : List Nat) : Prop where
  le : a ≤ b
  sorted : l.Pairwise (· < ·)
  within : ∀ i ∈ l, a ≤ i ∧ i < b

theorem Scheduled.nil (h : a ≤ b) : Scheduled a b [] :=
  ⟨h, .nil, fun i hi => by cases hi⟩

theorem Scheduled.one (a : Nat) : Scheduled a (a + 1) [a] := by
  refine ⟨Nat.le_succ a, List.pairwise_singleton _ _, fun i hi => ?_⟩
  rw [List.mem_singleton.1 hi]
  exact ⟨le_refl a, Nat.lt_succ_self a⟩

theorem Scheduled.append (h : Scheduled a b l) (h' : Scheduled b c l') :
    Scheduled a c (l ++ l') := by
  refine ⟨h.le.trans h'.le, List.pairwise_append.2 ⟨h.sorted, h'.sorted, ?_⟩, ?_⟩
  · intro i hi j hj
    exact (h.within i hi).2.trans_le (h'.within j hj).1
  · intro i hi
    rcases List.mem_append.1 hi with hi | hi
    · exact ⟨(h.within i hi).1, (h.within i hi).2.trans_le h'.le⟩
    · exact ⟨h.le.trans (h'.within i hi).1, (h'.within i hi).2⟩

/-- Every run of the first program is, from the instants of some of its observations on, a run of
the second one. -/
def Replays (V : View W S E) (w : W) (g : α → β) (m : Prog W S E X α) (m₀ : Prog W S E X β) :
    Prop :=
  ∀ ⦃s r s' t⦄, m w s = (r, s', t) → ∃ l, Scheduled (V.tick s) (V.tick s') l ∧
    ∀ w₀ j, V.peer w w₀ → V.Along w w₀ j l →
      m₀ w₀ (V.seen s j) = (r.map g, V.seen s' (j + l.length), t.filterMap V.erase)

def Returns (w : W) (Q : α → Prop) (m : Prog W S E X α) : Prop :=
  ∀ ⦃s a s' t⦄, m w s = (.ok a, s', t) → Q a

section Returns
variable {w : W} {Q : α → Prop}

theorem Returns.pure (h : Q a) : Returns w Q (Pure.pure a : Prog W S E X α) := by
  intro s b s' t hrun
  cases hrun
  exact h

theorem Returns.bind {Q : β → Prop} {m : Prog W S E X α} {f : α → Prog W S E X β}
    (hf : ∀ a, Returns w Q (f a)) : Returns w Q (m >>= f) := by
  intro s b s' t hrun
  rcases bind_run hrun with ⟨x, -, hx⟩ | ⟨a, s₁, t₁, t₂, -, h₂, -⟩
  · cases hx
  · exact hf a h₂

theorem Returns.ite {c : Prop} [Decidable c] {m n : Prog W S E X α}
    (hm : Returns w Q m) (hn : Returns w Q n) : Returns w Q (if c then m else n) := by
  split
  · exact hm
  · exact hn

theorem Within.bindReturns {ρ : S → S → List E → Prop} {m : Prog W S E X α}
    {f : α → Prog W S E X β} (hρ : Composes ρ) (hm : Within w ρ m) (hq : Returns w Q m)
    (hf : ∀ a, Q a → Within w ρ (f a)) : Within w ρ (m >>= f) := by
  intro s r s' t h
  rcases bind_run h with ⟨x, hx, -⟩ | ⟨a, s₁, t₁, t₂, h₁, h₂, rfl⟩
  · exact hm hx
  · exact hρ.trans (hm h₁) (hf a (hq h₁) h₂)

end Returns

section Replays
variable {V : View W S E} {w : W}

theorem Replays.pure : Replays V w g (Pure.pure a : Prog W S E X α) (Pure.pure (g a)) := by
  intro s r s' t h
  cases h
  exact ⟨[], .nil (le_refl _), fun _ _ _ _ => rfl⟩

variable {g : α → β}

theorem Replays.stop : Replays V w g (Prog.stop x : Prog W S E X α) (Prog.stop x) := by
  intro s r s' t h
  cases h
  exact ⟨[], .nil (le_refl _), fun _ _ _ _ => rfl⟩

theorem Replays.emit (he : V.erase e = some e₀) :
    Replays V w id (Prog.emit e : Prog W S E X Unit) (Prog.emit e₀) := by
  intro s r s' t h
  cases h
  refine ⟨[], .nil (le_refl _), fun _ _ _ _ => ?_⟩
  rw [List.filterMap_cons_some he]
  rfl

theorem Replays.ask {f : W → S → α} (hf : ∀ w₀ s j, V.peer w w₀ → f w₀ (V.seen s j) = f w s) :
    Replays V w id (Prog.ask f : Prog W S E X α) (Prog.ask f) := by
  intro s r s' t h
  cases h
  refine ⟨[], .nil (le_refl _), fun w₀ j hp _ => ?_⟩
  simp only [Prog.ask, hf w₀ s j hp]
  rfl

theorem Replays.modify {f f₀ : S → S} (ht : ∀ s, V.tick (f s) = V.tick s)
    (hf : ∀ s j, f₀ (V.seen s j) = V.seen (f s) j) :
    Replays V w id (Prog.modify f : Prog W S E X Unit) (Prog.modify f₀) := by
  intro s r s' t h
  cases h
  refine ⟨[], .nil (ht s).ge, fun w₀ j _ _ => ?_⟩
  simp only [Prog.modify, hf]
  rfl

theorem Replays.get {k : S → Prog W S E X α} {k₀ : S → Prog W S E X β}
    (hk : ∀ s, Replays V w g (k s) (k₀ (V.seen s 0)))
    (hsame : ∀ s j, k₀ (V.seen s j) = k₀ (V.seen s 0)) :
    Replays V w g (Prog.get >>= k) (Prog.get >>= k₀) := by
  intro s r s' t h
  obtain ⟨l, hl, hrun⟩ := hk s (get_run h)
  refine ⟨l, hl, fun w₀ j hp ha => ?_⟩
  show (k₀ (V.seen s j) w₀ (V.seen s j) : _ × _ × _) = _
  rw [hsame s j]
  exact hrun w₀ j hp ha

variable {m : Prog W S E X α} {m₀ : Prog W S E X β}

theorem Replays.bind {g' : γ → δ}
    {f : α → Prog W S E X γ} {f₀ : β → Prog W S E X δ}
    (hm : Replays V w g m m₀) (hq : Returns w Q m)
    (hf : ∀ a, Q a → Replays V w g' (f a) (f₀ (g a))) :
    Replays V w g' (m >>= f) (m₀ >>= f₀) := by
  intro s r s' t h
  rcases bind_run h with ⟨x, hx, rfl⟩ | ⟨a, s₁, t₁, t₂, h₁, h₂, rfl⟩
  · obtain ⟨l, hl, hrun⟩ := hm hx
    refine ⟨l, hl, fun w₀ j hp ha => ?_⟩
    have hfirst := hrun w₀ j hp ha
    simp only [Bind.bind, hfirst]
    rfl
  · obtain ⟨l, hl, hrun⟩ := hm h₁
    obtain ⟨l', hl', hrun'⟩ := hf a (hq h₁) h₂
    refine ⟨l ++ l', hl.append hl', fun w₀ j hp ha => ?_⟩
    have hfirst := hrun w₀ j hp ha.append.1
    have hsecond := hrun' w₀ (j + l.length) hp ha.append.2
    simp only [Bind.bind, hfirst, Except.map, hsecond, List.filterMap_append, List.length_append,
      Nat.add_assoc]

theorem Replays.andThen {g' : γ → δ}
    {f : α → Prog W S E X γ} {f₀ : β → Prog W S E X δ} (hm : Replays V w g m m₀)
    (hf : ∀ a, Replays V w g' (f a) (f₀ (g a))) : Replays V w g' (m >>= f) (m₀ >>= f₀) :=
  hm.bind (Q := fun _ => True) (fun _ _ _ _ _ => trivial) fun a _ => hf a

theorem Replays.ite {c : Prop} [Decidable c] {m n : Prog W S E X α}
    {m₀ n₀ : Prog W S E X β} (hm : Replays V w g m m₀) (hn : Replays V w g n n₀) :
    Replays V w g (if c then m else n) (if c then m₀ else n₀) := by
  by_cases hc : c
  · simpa only [if_pos hc] using hm
  · simpa only [if_neg hc] using hn

theorem Replays.defer
    {k : Except X α → Prog W S E X Unit} {k₀ : Except X β → Prog W S E X Unit}
    (hm : Replays V w g m m₀) (hk : ∀ r, Replays V w id (k r) (k₀ (r.map g))) :
    Replays V w g (m.defer k) (m₀.defer k₀) := by
  intro s r s' t h
  obtain ⟨s₁, t₁, r₂, t₂, h₁, h₂, rfl⟩ := defer_run h
  obtain ⟨l, hl, hrun⟩ := hm h₁
  obtain ⟨l', hl', hrun'⟩ := hk r h₂
  refine ⟨l ++ l', hl.append hl', fun w₀ j hp ha => ?_⟩
  have hfirst := hrun w₀ j hp ha.append.1
  have hsecond := hrun' w₀ (j + l.length) hp ha.append.2
  simp only [Prog.defer, hfirst, hsecond, List.filterMap_append, List.length_append, Nat.add_assoc]

theorem Replays.hidden
    (h : ∀ s r s' t, m w s = (r, s', t) → ∃ a, r = .ok a ∧ g a = b ∧ V.tick s ≤ V.tick s' ∧
      (∀ j, V.seen s' j = V.seen s j) ∧ ∀ e ∈ t, V.erase e = none) :
    Replays V w g m (Pure.pure b) := by
  intro s r s' t hrun
  obtain ⟨a, rfl, rfl, hle, hseen, ht⟩ := h s r s' t hrun
  refine ⟨[], .nil hle, fun w₀ j _ _ => ?_⟩
  rw [List.filterMap_eq_nil_iff.2 ht, List.length_nil, Nat.add_zero, hseen]
  rfl

theorem Replays.skip {m : Prog W S E X γ} {f : γ → Prog W S E X α}
    (hm : Replays V w (fun _ => ()) m (Pure.pure ()))
    (hf : ∀ a, Replays V w g (f a) m₀) : Replays V w g (m >>= f) m₀ := by
  have hboth : Replays V w g (m >>= f) (Pure.pure () >>= fun _ => m₀) := hm.andThen hf
  intro s r s' t h
  obtain ⟨l, hl, hrun⟩ := hboth h
  refine ⟨l, hl, fun w₀ j hp ha => ?_⟩
  have := hrun w₀ j hp ha
  simp only [Bind.bind, Pure.pure, List.nil_append] at this
  exact this

end Replays

end Traced
