import Mathlib

namespace Traced
set_option autoImplicit true

variable {W S E X α β γ : Type}

/-- A program reads a world, updates a state, appends to a log, and either returns or stops. -/
def Prog (W S E X α : Type) := W → S → Except X α × S × List E

namespace Prog

instance : Monad (Prog W S E X) where
  pure a := fun _ s => (.ok a, s, [])
  bind m f := fun w s =>
    match m w s with
    | (.error x, s', t) => (.error x, s', t)
    | (.ok a, s', t) =>
      match f a w s' with
      | (r, s'', t') => (r, s'', t ++ t')

def stop (x : X) : Prog W S E X α := fun _ s => (.error x, s, [])

def emit (e : E) : Prog W S E X Unit := fun _ s => (.ok (), s, [e])

def get : Prog W S E X S := fun _ s => (.ok s, s, [])

def modify (f : S → S) : Prog W S E X Unit := fun _ s => (.ok (), f s, [])

def ask (f : W → S → α) : Prog W S E X α := fun w s => (.ok (f w s), s, [])

/-- Run a program and then, whatever its result, a clean-up that sees the result. -/
def defer (m : Prog W S E X α) (k : Except X α → Prog W S E X Unit) : Prog W S E X α :=
  fun w s =>
    match m w s with
    | (r, s', t) =>
      match k r w s' with
      | (_, s'', t') => (r, s'', t ++ t')

end Prog

/-- The result of a run meets one of two postconditions on the extended log. -/
def Post (Q : α → S → List E → Prop) (R : X → S → List E → Prop) (h : List E) :
    Except X α × S × List E → Prop
  | (.ok a, s, t) => Q a s (h ++ t)
  | (.error x, s, t) => R x s (h ++ t)

/-- From every state and log that meet the precondition, the program ends in the normal
postcondition or stops in the other one. -/
def Triple (w : W) (P : S → List E → Prop) (m : Prog W S E X α)
    (Q : α → S → List E → Prop) (R : X → S → List E → Prop) : Prop :=
  ∀ s h, P s h → Post Q R h (m w s)

section Rules
variable {w : W} {P P' : S → List E → Prop} {Q Q' M : α → S → List E → Prop}
  {R R' N : X → S → List E → Prop}

theorem Triple.pure (hP : ∀ s h, P s h → Q a s h) :
    Triple w P (Pure.pure a : Prog W S E X α) Q R := by
  intro s h hp
  simpa [Post, Pure.pure] using hP s h hp

theorem Triple.stop (hP : ∀ s h, P s h → R x s h) :
    Triple w P (Prog.stop x : Prog W S E X α) Q R := by
  intro s h hp
  simpa [Post, Prog.stop] using hP s h hp

variable {m : Prog W S E X α}

theorem Triple.bind {f : α → Prog W S E X β}
    {Q : β → S → List E → Prop} (hm : Triple w P m M R) (hf : ∀ a, Triple w (M a) (f a) Q R) :
    Triple w P (m >>= f) Q R := by
  intro s h hp
  have hpost := hm s h hp
  simp only [Bind.bind]
  rcases hr : m w s with ⟨r, s', t⟩
  rw [hr] at hpost
  cases r with
  | error x => exact hpost
  | ok a =>
    have hnext := hf a s' (h ++ t) hpost
    rcases hr' : f a w s' with ⟨r', s'', t'⟩
    rw [hr'] at hnext
    cases r' <;> simpa only [Post, List.append_assoc, hr'] using hnext

theorem Triple.emit {Q : Unit → S → List E → Prop} (hP : ∀ s h, P s h → Q () s (h ++ [e])) :
    Triple w P (Prog.emit e : Prog W S E X Unit) Q R := hP

theorem Triple.conseq (hm : Triple w P m Q R)
    (hP : ∀ s h, P' s h → P s h) (hQ : ∀ a s h, Q a s h → Q' a s h)
    (hR : ∀ x s h, R x s h → R' x s h) : Triple w P' m Q' R' := by
  intro s h hp
  have hpost := hm s h (hP s h hp)
  rcases hr : m w s with ⟨r, s', t⟩
  rw [hr] at hpost
  cases r with
  | error x => exact hR _ _ _ hpost
  | ok a => exact hQ _ _ _ hpost

theorem Triple.pre (hm : Triple w P m Q R)
    (hP : ∀ s h, P' s h → P s h) : Triple w P' m Q R :=
  hm.conseq hP (fun _ _ _ hq => hq) (fun _ _ _ hr => hr)

theorem Triple.post (hm : Triple w P m Q R)
    (hQ : ∀ a s h, Q a s h → Q' a s h) : Triple w P m Q' R :=
  hm.conseq (fun _ _ hp => hp) hQ (fun _ _ _ hr => hr)

theorem Triple.assume (hm : p → Triple w P m Q R) :
    Triple w (fun s h => p ∧ P s h) m Q R :=
  fun s h hp => hm hp.1 s h hp.2

theorem Triple.ite {c : Prop} [Decidable c] {m n : Prog W S E X α}
    (ht : c → Triple w P m Q R) (he : ¬ c → Triple w P n Q R) :
    Triple w P (if c then m else n) Q R := by
  by_cases hc : c
  · simpa only [if_pos hc] using ht hc
  · simpa only [if_neg hc] using he hc

theorem Triple.defer {k : Except X α → Prog W S E X Unit}
    (hm : Triple w P m M N)
    (hok : ∀ a, Triple w (M a) (k (.ok a)) (fun _ s h => Q a s h) (fun _ s h => Q a s h))
    (herr : ∀ x, Triple w (N x) (k (.error x)) (fun _ s h => R x s h) (fun _ s h => R x s h)) :
    Triple w P (m.defer k) Q R := by
  intro s h hp
  have hpost := hm s h hp
  simp only [Prog.defer]
  rcases hr : m w s with ⟨r, s', t⟩
  rw [hr] at hpost
  cases r with
  | error x =>
    have hnext := herr x s' (h ++ t) hpost
    rcases hr' : k (.error x) w s' with ⟨r', s'', t'⟩
    rw [hr'] at hnext
    cases r' <;> simpa only [Post, List.append_assoc, hr'] using hnext
  | ok a =>
    have hnext := hok a s' (h ++ t) hpost
    rcases hr' : k (.ok a) w s' with ⟨r', s'', t'⟩
    rw [hr'] at hnext
    cases r' <;> simpa only [Post, List.append_assoc, hr'] using hnext

end Rules

/-- The program returns a value with the given property, leaves a view of the state alone and
logs only events of one kind. -/
def Leaves (w : W) (f : S → β) (p : E → Prop) (m : Prog W S E X α) (Q : α → Prop) : Prop :=
  ∀ s, ∃ a s' t, m w s = (.ok a, s', t) ∧ Q a ∧ f s' = f s ∧ ∀ e ∈ t, p e

section Frames
variable {w : W} {f : S → β} {p : E → Prop} {Q Q' M : α → Prop}

theorem Leaves.pure (hq : Q a) : Leaves w f p (Pure.pure a : Prog W S E X α) Q :=
  fun s => ⟨a, s, [], rfl, hq, rfl, by simp⟩

theorem Leaves.bind {k : α → Prog W S E X γ} {Q : γ → Prop}
    (hm : Leaves w f p m M) (hk : ∀ a, M a → Leaves w f p (k a) Q) :
    Leaves w f p (m >>= k) Q := by
  intro s
  obtain ⟨a, s', t, he, ha, hf, ht⟩ := hm s
  obtain ⟨b, s'', t', he', hb, hf', ht'⟩ := hk a ha s'
  refine ⟨b, s'', t ++ t', ?_, hb, hf'.trans hf, ?_⟩
  · simp only [Bind.bind, he, he']
  · intro e hm
    rcases List.mem_append.1 hm with hm | hm
    · exact ht e hm
    · exact ht' e hm

theorem Leaves.emit (he : p e) : Leaves w f p (Prog.emit e : Prog W S E X Unit) (fun _ => True) :=
  fun s => ⟨(), s, [e], rfl, trivial, rfl, by simpa using he⟩

theorem Leaves.get : Leaves w f p (Prog.get : Prog W S E X S) (fun _ => True) :=
  fun s => ⟨s, s, [], rfl, trivial, rfl, by simp⟩

theorem Leaves.modify {g : S → S} (hg : ∀ s, f (g s) = f s) :
    Leaves w f p (Prog.modify g : Prog W S E X Unit) (fun _ => True) :=
  fun s => ⟨(), g s, [], rfl, trivial, hg s, by simp⟩

theorem Leaves.ask {g : W → S → α} (hq : ∀ s, Q (g w s)) :
    Leaves w f p (Prog.ask g : Prog W S E X α) Q :=
  fun s => ⟨g w s, s, [], rfl, hq s, rfl, by simp⟩

theorem Leaves.ite {c : Prop} [Decidable c] {m n : Prog W S E X α}
    (ht : c → Leaves w f p m Q) (he : ¬ c → Leaves w f p n Q) :
    Leaves w f p (if c then m else n) Q := by
  by_cases hc : c
  · simpa only [if_pos hc] using ht hc
  · simpa only [if_neg hc] using he hc

theorem Leaves.mono (hm : Leaves w f p m Q) (hq : ∀ a, Q a → Q' a) :
    Leaves w f p m Q' := by
  intro s
  obtain ⟨a, s', t, he, ha, hf, ht⟩ := hm s
  exact ⟨a, s', t, he, hq a ha, hf, ht⟩

/-- An assertion that reads only the view and survives the logged kind is kept. -/
def Stable (f : S → β) (p : E → Prop) (I : S → List E → Prop) : Prop :=
  ∀ s s' h t, f s' = f s → (∀ e ∈ t, p e) → I s h → I s' (h ++ t)

theorem Leaves.triple {I : S → List E → Prop}
    {R : X → S → List E → Prop} (hm : Leaves w f p m Q) (hI : Stable f p I) :
    Triple w I m (fun a s h => Q a ∧ I s h) R := by
  intro s h hi
  obtain ⟨a, s', t, he, ha, hf, ht⟩ := hm s
  simp only [he, Post]
  exact ⟨ha, hI s s' h t hf ht hi⟩

end Frames

end Traced
