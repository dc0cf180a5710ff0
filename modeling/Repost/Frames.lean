import Repost.Traced

namespace Traced
set_option autoImplicit true

variable {W S E X α β : Type}

/-- A relation between the state before, the state after and what is logged in between. -/
structure Composes (ρ : S → S → List E → Prop) : Prop where
  refl : ∀ s, ρ s s []
  trans : ∀ {s s' s'' t t'}, ρ s s' t → ρ s' s'' t' → ρ s s'' (t ++ t')

/-- Every run of the program, however it ends, stays within the relation. -/
def Within (w : W) (ρ : S → S → List E → Prop) (m : Prog W S E X α) : Prop :=
  ∀ ⦃s r s' t⦄, m w s = (r, s', t) → ρ s s' t

section Within
variable {w : W} {ρ : S → S → List E → Prop} {m : Prog W S E X α}

theorem bind_run {f : α → Prog W S E X β}
    (h : (m >>= f) w s = (r, s', t)) :
    (∃ x, m w s = (.error x, s', t) ∧ r = .error x) ∨
      ∃ a s₁ t₁ t₂, m w s = (.ok a, s₁, t₁) ∧ f a w s₁ = (r, s', t₂) ∧ t = t₁ ++ t₂ := by
  simp only [Bind.bind] at h
  rcases hm : m w s with ⟨_ | a, s₁, t₁⟩
  · rw [hm] at h
    cases h
    exact .inl ⟨_, rfl, rfl⟩
  · rw [hm] at h
    rcases hf : f a w s₁ with ⟨r₂, s₂, t₂⟩
    simp only [hf] at h
    cases h
    exact .inr ⟨a, s₁, t₁, t₂, rfl, hf, rfl⟩

theorem Leaves.bind_run {f : S → γ} {p : E → Prop} {Q : α → Prop}
    {k : α → Prog W S E X β} (hm : Leaves w f p m Q) (h : (m >>= k) w s = (r, s', t)) :
    ∃ a s₁ t₁ t₂, m w s = (.ok a, s₁, t₁) ∧ k a w s₁ = (r, s', t₂) ∧ t = t₁ ++ t₂ := by
  rcases Traced.bind_run h with ⟨x, hx, -⟩ | h
  · obtain ⟨a, s₁, t₁, he, -⟩ := hm s
    rw [he] at hx
    cases hx
  · exact h

theorem ask_run {g : W → S → α} {k : α → Prog W S E X β}
    (h : (Prog.ask g >>= k) w s = (r, s', t)) : k (g w s) w s = (r, s', t) := h

theorem get_run {k : S → Prog W S E X β} (h : (Prog.get >>= k) w s = (r, s', t)) :
    k s w s = (r, s', t) := h

theorem modify_run {g : S → S} {k : Unit → Prog W S E X β}
    (h : (Prog.modify g >>= k) w s = (r, s', t)) : k () w (g s) = (r, s', t) := h

theorem emit_run {k : Unit → Prog W S E X β} (h : (Prog.emit e >>= k) w s = (r, s', t)) :
    ∃ t', k () w s = (r, s', t') ∧ t = e :: t' := by
  obtain ⟨a, s₁, t₁, t₂, he, hk, rfl⟩ :=
    (Leaves.emit (f := id) (p := fun _ => True) trivial).bind_run h
  cases he
  exact ⟨t₂, hk, rfl⟩

theorem defer_run {k : Except X α → Prog W S E X Unit}
    (h : m.defer k w s = (r, s', t)) :
    ∃ s₁ t₁ r₂ t₂, m w s = (r, s₁, t₁) ∧ k r w s₁ = (r₂, s', t₂) ∧ t = t₁ ++ t₂ := by
  simp only [Prog.defer] at h
  rcases hm : m w s with ⟨r₁, s₁, t₁⟩
  rw [hm] at h
  rcases hk : k r₁ w s₁ with ⟨r₂, s₂, t₂⟩
  simp only [hk] at h
  cases h
  exact ⟨s₁, t₁, r₂, t₂, rfl, hk, rfl⟩

theorem Within.pure (hρ : Composes ρ) : Within w ρ (Pure.pure a : Prog W S E X α) := by
  intro s r s' t h
  cases h
  exact hρ.refl s

theorem Within.stop (hρ : Composes ρ) : Within w ρ (Prog.stop x : Prog W S E X α) := by
  intro s r s' t h
  cases h
  exact hρ.refl s

theorem Within.get (hρ : Composes ρ) : Within w ρ (Prog.get : Prog W S E X S) := by
  intro s r s' t h
  cases h
  exact hρ.refl s

theorem Within.ask {f : W → S → α} (hρ : Composes ρ) :
    Within w ρ (Prog.ask f : Prog W S E X α) := by
  intro s r s' t h
  cases h
  exact hρ.refl s

theorem Within.emit (he : ∀ s, ρ s s [e]) : Within w ρ (Prog.emit e : Prog W S E X Unit) := by
  intro s r s' t h
  cases h
  exact he s

theorem Within.modify {f : S → S} (hf : ∀ s, ρ s (f s) []) :
    Within w ρ (Prog.modify f : Prog W S E X Unit) := by
  intro s r s' t h
  cases h
  exact hf s

theorem Within.bind {f : α → Prog W S E X β} (hρ : Composes ρ)
    (hm : Within w ρ m) (hf : ∀ a, Within w ρ (f a)) : Within w ρ (m >>= f) := by
  intro s r s' t h
  rcases bind_run h with ⟨x, hx, -⟩ | ⟨a, s₁, t₁, t₂, h₁, h₂, rfl⟩
  · exact hm hx
  · exact hρ.trans (hm h₁) (hf a h₂)

theorem Within.defer {k : Except X α → Prog W S E X Unit}
    (hρ : Composes ρ) (hm : Within w ρ m) (hk : ∀ r, Within w ρ (k r)) :
    Within w ρ (m.defer k) := by
  intro s r s' t h
  obtain ⟨s₁, t₁, r₂, t₂, h₁, h₂, rfl⟩ := defer_run h
  exact hρ.trans (hm h₁) (hk r h₂)

theorem Within.ite {c : Prop} [Decidable c] {m n : Prog W S E X α} (hm : Within w ρ m)
    (hn : Within w ρ n) : Within w ρ (if c then m else n) := by
  by_cases hc : c
  · rw [if_pos hc]
    exact hm
  · rw [if_neg hc]
    exact hn

end Within

def Only (q : E → Prop) (_ _ : S) (t : List E) : Prop := ∀ e ∈ t, q e

theorem Only.composes (q : E → Prop) : Composes (Only (S := S) q) where
  refl := fun _ e he => by cases he
  trans := by
    intro s s' s'' t t' ht ht' e he
    rcases List.mem_append.1 he with he | he
    · exact ht e he
    · exact ht' e he

def Each (P : List E → E → Prop) (h : List E) : Prop := ∀ g e u, h = g ++ e :: u → P g e

section Each
variable {P : List E → E → Prop}

theorem Each.of_forall (h : ∀ e ∈ t, ∀ g, P g e) : Each P t := by
  rintro g e u rfl
  exact h e (List.mem_append_right _ List.mem_cons_self) g

theorem Each.append (hP : ∀ l g e, P g e → P (l ++ g) e) (h : Each P l) (ht : Each P t) :
    Each P (l ++ t) := by
  intro g e u he
  rcases List.append_eq_append_iff.1 he with ⟨v, rfl, hv⟩ | ⟨v, hl, hv⟩
  · exact hP l v e (ht v e u hv)
  · cases v with
    | nil =>
      rw [List.append_nil] at hl
      rw [List.nil_append] at hv
      have hlast := hP l [] e (ht [] e u hv.symm)
      rwa [List.append_nil, hl] at hlast
    | cons b v =>
      rw [List.cons_append, List.cons.injEq] at hv
      obtain ⟨rfl, -⟩ := hv
      exact h g e v hl

theorem Each.concat (h : Each P l) (he : P l e) : Each P (l ++ [e]) := by
  intro g e' u heq
  rcases List.eq_nil_or_concat u with rfl | ⟨u, b, rfl⟩
  · obtain ⟨rfl, hlast⟩ := List.append_inj' heq rfl
    cases hlast
    exact he
  · rw [List.concat_eq_append, ← List.cons_append, ← List.append_assoc] at heq
    obtain ⟨rfl, -⟩ := List.append_inj' heq rfl
    exact h g e' u rfl

end Each

end Traced
