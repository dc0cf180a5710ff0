import Mathlib.Data.Fintype.Card
import Mathlib.Data.Set.Finite.List
import Mathlib.Order.Filter.AtTopBot.Basic
import Mathlib.Order.Filter.Finite

namespace Repost.Traversal
set_option autoImplicit true

theorem acc_of_no_cycle {r : β → β → Prop} (hfin : {x | Relation.TransGen r x a}.Finite)
    (h : ∀ x, Relation.ReflTransGen r x a → ¬Relation.TransGen r x x) : Acc r a := by
  let T := {x // Relation.TransGen r x a}
  have : Finite T := hfin
  let below : T → T → Prop := fun x y => Relation.TransGen r x.1 y.1
  have : IsTrans T below := ⟨fun _ _ _ => Relation.TransGen.trans⟩
  have : Std.Irrefl below := ⟨fun x => h x.1 x.2.to_reflTransGen⟩
  have hwf : WellFounded below := Finite.wellFounded_of_trans_of_irrefl below
  have hacc : ∀ x : T, Acc r x.1 := by
    intro x
    induction hwf.apply x with
    | intro x _ ih => exact ⟨_, fun y hy => ih ⟨y, .head hy x.2⟩ (.single hy)⟩
  exact ⟨_, fun y hy => hacc ⟨y, .single hy⟩⟩

theorem transGen_acc {r : β → β → Prop} (h : Acc r a) (hb : Relation.ReflTransGen r b a) :
    Acc (Relation.TransGen r) b := by
  rcases Relation.reflTransGen_iff_eq_or_transGen.1 hb with rfl | hb
  · exact h.transGen
  · exact h.transGen.inv hb

theorem eventually_succ {P : Nat → Prop} (h : ∀ᶠ n in Filter.atTop, P (n + 1)) :
    ∀ᶠ n in Filter.atTop, P n := by
  rw [← Filter.map_add_atTop_eq_nat 1]
  exact h

theorem eventually_all {P : β → Nat → Prop} {xs : List β}
    (h : ∀ x ∈ xs, ∀ᶠ n in Filter.atTop, P x n) : ∀ᶠ n in Filter.atTop, ∀ x ∈ xs, P x n :=
  (Filter.eventually_all_finite xs.finite_toSet).2 h

variable {β ε : Type}

/-- What a traversal that takes its turns in order comes to, if `run` is what a call for one of them
may come to: nothing when the fuel is out, an error that ends it, or neither. -/
inductive Follows (short : Prop) (run : β → Option (Option ε) → Prop) :
    List (Except ε β) → Option (Option ε) → Prop
  | done : Follows short run [] (some none)
  | starved (h : short) : Follows short run ts none
  | stops : Follows short run (.error err :: ts) (some (some err))
  | passes (h : run q (some none)) (hrest : Follows short run ts r) : Follows short run (.ok q :: ts) r
  | ends (h : run q r) (hr : r ≠ some none) : Follows short run (.ok q :: ts) r

namespace Follows
variable {short : Prop} {run : β → Option (Option ε) → Prop} {ts before : List (Except ε β)}

theorem single (h : run q r) : Follows short run [.ok q] r := by
  by_cases hr : r = some none
  · subst hr
    exact .passes h .done
  · exact .ends h hr

theorem append (h : Follows short run ts r) (hrest : r = some none → Follows short run ts' r')
    (hstop : r ≠ some none → r' = r) : Follows short run (ts ++ ts') r' := by
  induction h with
  | done => exact hrest rfl
  | starved h =>
    rw [hstop fun h => by cases h]
    exact .starved h
  | stops =>
    rw [hstop fun h => by cases h]
    exact .stops
  | passes h _ ih => exact .passes h (ih hrest hstop)
  | ends h hr =>
    rw [hstop hr]
    exact .ends h hr

theorem passed (h : Follows short run ts r) (hr : r = some none) :
    ∀ t ∈ ts, ∃ q, t = .ok q ∧ run q (some none) := by
  induction h with
  | done => exact fun _ ht => by cases ht
  | starved h => cases hr
  | stops => cases hr
  | passes h _ ih =>
    intro t ht
    rcases List.mem_cons.1 ht with rfl | ht
    · exact ⟨_, rfl, h⟩
    · exact ih hr t ht
  | ends h hne => exact absurd hr hne

/-- The turn at which a traversal ends. -/
theorem last (h : Follows short run ts r) (hr : r ≠ some none) (hs : r = none → ¬short) :
    ∃ before t after, ts = before ++ t :: after ∧
      (∀ b ∈ before, ∃ q, b = .ok q ∧ run q (some none)) ∧
      ((∃ err, t = .error err ∧ r = some (some err)) ∨ ∃ q, t = .ok q ∧ run q r) := by
  induction h with
  | done => exact absurd rfl hr
  | starved h => exact absurd h (hs rfl)
  | stops => exact ⟨[], _, _, rfl, fun _ hb => (by cases hb), .inl ⟨_, rfl, rfl⟩⟩
  | passes h _ ih =>
    obtain ⟨before, t, after, rfl, hbefore, hlast⟩ := ih hr hs
    refine ⟨_ :: before, t, after, rfl, ?_, hlast⟩
    intro b hb
    rcases List.mem_cons.1 hb with rfl | hb
    · exact ⟨_, rfl, h⟩
    · exact hbefore b hb
  | ends h hr => exact ⟨[], _, _, rfl, fun _ hb => (by cases hb), .inr ⟨_, rfl, h⟩⟩

theorem after {P : Except ε β → Prop} (h : Follows short run (before ++ ts) (some r))
    (hstop : ∀ err, P (.error err)) (hrun : ∀ q err, run q (some (some err)) → P (.ok q))
    (hbefore : ∀ b ∈ before, ¬P b) : Follows short run ts (some r) := by
  induction before with
  | nil => exact h
  | cons b before ih =>
    have hb := hbefore b List.mem_cons_self
    cases h with
    | stops => exact absurd (hstop _) hb
    | passes _ hrest => exact ih hrest fun c hc => hbefore c (List.mem_cons_of_mem _ hc)
    | ends h hr =>
      cases r with
      | none => exact absurd rfl hr
      | some err => exact absurd (hrun _ err h) hb

end Follows

section
variable (next : β → List (Except ε β))

/-- A turn that ends the traversal, or that has such a turn below it. -/
inductive GivesUp : Except ε β → Prop
  | stop : GivesUp (.error err)
  | nested (ht : t ∈ next q) (h : GivesUp t) : GivesUp (.ok q)

/-- A turn that no earlier one gives up before. -/
def Reaches (t : Except ε β) (p : β) : Prop :=
  ∃ before after, next p = before ++ t :: after ∧ ∀ b ∈ before, ¬GivesUp next b

def Visits (q p : β) : Prop := Reaches next (.ok q) p

end

section
variable {next : β → List (Except ε β)} {run : Nat → β → Option (Option ε) → Prop}
  {short : Nat → Prop}

structure Traverses (next : β → List (Except ε β)) (run : Nat → β → Option (Option ε) → Prop)
    (short : Nat → Prop) : Prop where
  zero : run 0 p r → r = none
  step : run (n + 1) p r → Follows (short n) (run n) (next p) r

namespace Traverses
variable (H : Traverses next run short)
include H

theorem gives_up (h : run n q (some (some err))) : GivesUp next (.ok q) := by
  induction n generalizing q with
  | zero => cases H.zero h
  | succ n ih =>
    obtain ⟨before, t, after, hnext, -, hlast⟩ :=
      (H.step h).last (fun h => by cases h) fun h => by cases h
    have ht : t ∈ next q := by simp [hnext]
    rcases hlast with ⟨err, rfl, -⟩ | ⟨q', rfl, hq⟩
    · exact .nested ht .stop
    · exact .nested ht (ih hq)

theorem not_passes (h : GivesUp next t) (ht : t = .ok q) : ¬run n q (some none) := by
  induction h generalizing q n with
  | stop => cases ht
  | nested hmem _ ih =>
    cases ht
    intro hrun
    cases n with
    | zero => cases H.zero hrun
    | succ n =>
      obtain ⟨q', rfl, hq⟩ := (H.step hrun).passed rfl _ hmem
      exact ih rfl hq

theorem reached (h : run (n + 1) p (some r)) (ht : Reaches next t p) :
    ∃ after, Follows (short n) (run n) (t :: after) (some r) := by
  obtain ⟨before, after, hnext, hbefore⟩ := ht
  have hfollows := H.step h
  rw [hnext] at hfollows
  exact ⟨after, hfollows.after (fun _ => .stop) (fun _ _ => H.gives_up) hbefore⟩

theorem visited (h : run (n + 1) p (some r)) (hq : Visits next q p) :
    ∃ r', run n q (some r') ∧ (r' = none ∨ r' = r) := by
  obtain ⟨after, hfollows⟩ := H.reached h hq
  cases hfollows with
  | passes hrun _ => exact ⟨none, hrun, .inl rfl⟩
  | ends hrun _ => exact ⟨r, hrun, .inr rfl⟩

theorem last_reached (h : run (n + 1) p r) (hr : r ≠ some none) (hs : r = none → ¬short n) :
    (∃ err, Reaches next (.error err) p ∧ r = some (some err)) ∨ ∃ q, Visits next q p ∧ run n q r := by
  obtain ⟨before, t, after, hnext, hbefore, hlast⟩ := (H.step h).last hr hs
  have hreach : Reaches next t p := by
    refine ⟨before, after, hnext, fun b hb hgives => ?_⟩
    obtain ⟨q, rfl, hq⟩ := hbefore b hb
    exact H.not_passes hgives rfl hq
  rcases hlast with ⟨err, rfl, heq⟩ | ⟨q, rfl, hq⟩
  · exact .inl ⟨err, hreach, heq⟩
  · exact .inr ⟨q, hreach, hq⟩

/-- A call that returns visits nothing without end. -/
theorem acc_of_run (h : run n p (some r)) : Acc (Visits next) p := by
  induction n generalizing p r with
  | zero => cases H.zero h
  | succ n ih =>
    constructor
    intro q hq
    obtain ⟨r', hrun, -⟩ := H.visited h hq
    exact ih hrun

/-- A call that visits nothing without end returns. -/
theorem run_of_acc (hs : ∀ᶠ n in Filter.atTop, ¬short n) (h : Acc (Visits next) p) :
    ∀ᶠ n in Filter.atTop, ¬run n p none := by
  induction h with
  | intro p _ ih =>
    have hall : ∀ᶠ n in Filter.atTop, ∀ t ∈ next p, ∀ q, t = .ok q → Visits next q p →
        ¬run n q none := by
      apply eventually_all
      intro t _
      by_cases hvisits : ∃ q, t = .ok q ∧ Visits next q p
      · obtain ⟨q, rfl, hq⟩ := hvisits
        filter_upwards [ih q hq] with n hn q' heq _
        cases heq
        exact hn
      · exact Filter.Eventually.of_forall fun _ q heq hq => absurd ⟨q, heq, hq⟩ hvisits
    apply eventually_succ
    filter_upwards [hall, hs] with n hn hshort hrun
    rcases H.last_reached hrun (fun h => by cases h) fun _ => hshort with ⟨err, -, heq⟩ | ⟨q, hq, hrun⟩
    · cases heq
    · obtain ⟨before, after, hnext, -⟩ := id hq
      exact hn (.ok q) (by simp [hnext]) q rfl hq hrun

/-- A call returns an error that ends the traversal exactly if it comes to it. -/
theorem stopped_iff (h : run n p (some r)) :
    r = some err ↔ ∃ p', Relation.ReflTransGen (Visits next) p' p ∧ Reaches next (.error err) p' := by
  constructor
  · rintro rfl
    induction n generalizing p with
    | zero => cases H.zero h
    | succ n ih =>
      rcases H.last_reached h (fun h => by cases h) (fun h => by cases h) with
        ⟨err', hreach, heq⟩ | ⟨q, hq, hrun⟩
      · cases heq
        exact ⟨p, .refl, hreach⟩
      · obtain ⟨p', hp, hreach⟩ := ih hrun
        exact ⟨p', hp.tail hq, hreach⟩
  · rintro ⟨p', hp, hreach⟩
    induction hp generalizing n r with
    | refl =>
      cases n with
      | zero => cases H.zero h
      | succ n =>
        obtain ⟨after, hfollows⟩ := H.reached h hreach
        cases hfollows
        rfl
    | tail _ hq ih =>
      cases n with
      | zero => cases H.zero h
      | succ n =>
        obtain ⟨r', hrun, hr⟩ := H.visited h hq
        have heq := ih hrun
        rcases hr with rfl | rfl
        · cases heq
        · exact heq

end Traverses
end

end Repost.Traversal
