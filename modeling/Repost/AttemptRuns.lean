import Repost.DeliveryWalk
import Repost.OperationFrames

namespace Repost
open GoText Traced
set_option autoImplicit true

def OpState.reports (s : OpState) : OpState :=
  { s with tick := 0, closed := [], transportValues := false }

structure Silent (s s' : OpState) (t : List Event) : Prop where
  reports : s'.reports = s.reports
  later : s.tick ≤ s'.tick
  events : ∀ e ∈ t, e.kind ≠ .report

theorem Silent.calm (w : World) : Calm w (· ≠ .report) Silent where
  refl := fun _ => ⟨rfl, le_refl _, fun e he => by cases he⟩
  trans := by
    intro s s' s'' t t' h h'
    refine ⟨h'.reports.trans h.reports, h.later.trans h'.later, fun e he => ?_⟩
    rcases List.mem_append.1 he with he | he
    · exact h.events e he
    · exact h'.events e he
  tick := fun _ => ⟨rfl, Nat.le_succ _, fun e he => by cases he⟩
  clock := fun _ => ⟨rfl, Nat.le_succ _, fun e he => by
    rw [List.mem_singleton.1 he]
    nofun⟩
  closed := fun _ _ => ⟨rfl, le_refl _, fun e he => by cases he⟩
  event := fun _ e _ hk => ⟨rfl, le_refl _, fun e' he => by rwa [List.mem_singleton.1 he]⟩

theorem deadlineDone_mono (h : deadlineDone w i = true) (hij : i ≤ j) : deadlineDone w j = true :=
  reached_mono h hij

def Counts (k : Nat) (x : Stop) : Prop := ∃ e, x = .error e ∧ e.attemptCount = k

theorem observe_bind {k : α → Op β} (h : (observe f >>= k) w s = (r, s', t)) :
    k (f w s.tick) w { s with tick := s.tick + 1 } = (r, s', t) := h

theorem clock_bind {k : Option Int → Op β} (h : (callMonotonicClock >>= k) w s = (r, s', t)) :
    ∃ t', k (w.clock s.tick) w { s with tick := s.tick + 1 } = (r, s', t') ∧
      t = .clock (w.clock s.tick) :: t' := by
  rcases bind_run h with ⟨x, hx, -⟩ | ⟨a, s₁, t₁, t₂, ha, hk, rfl⟩
  · cases hx
  · cases ha
    exact ⟨t₂, hk, rfl⟩

theorem clockTerminal_run
    (h : clockTerminal permit committed k id' key w s = (r, s', t)) :
    (∃ now, r = .ok none ∧ now < permit.exclusiveDeadline ∧ t = [.clock (some now)]) ∨
      ∃ e, r = .ok (some e) ∧ e.attemptCount = k := by
  obtain ⟨t', hk, rfl⟩ := clock_bind h
  cases hc : w.clock s.tick with
  | none =>
    rw [hc] at hk
    cases hk
    exact .inr ⟨_, rfl, rfl⟩
  | some now =>
    rw [hc] at hk
    cases hk
    by_cases hd : now ≥ permit.exclusiveDeadline
    · rw [if_pos hd]
      exact .inr ⟨_, rfl, rfl⟩
    · rw [if_neg hd]
      exact .inl ⟨now, rfl, by omega, rfl⟩

theorem preAttemptTerminal_run
    (h : preAttemptTerminal permit committed k key w s = (r, s', t)) :
    (∃ now, r = .ok none ∧ deadlineDone w s.tick = false ∧ now < permit.exclusiveDeadline ∧
        t = [.clock (some now)]) ∨
      ∃ e, r = .ok (some e) ∧ e.attemptCount = k := by
  unfold preAttemptTerminal at h
  have h := ask_run h
  have h := observe_bind h
  split at h
  · cases h
    exact .inr ⟨_, rfl, rfl⟩
  · rename_i hgone
    have h := observe_bind h
    split at h
    · cases h
      exact .inr ⟨_, rfl, rfl⟩
    · have h := observe_bind h
      split at h
      · cases h
        exact .inr ⟨_, rfl, rfl⟩
      · have h := observe_bind h
        split at h
        · cases h
          exact .inr ⟨_, rfl, rfl⟩
        · rcases clockTerminal_run h with ⟨now, hr, hn, ht⟩ | he
          · exact .inl ⟨now, hr, by simpa using hgone, hn, ht⟩
          · exact .inr he

theorem deadlineTerminal_run
    (h : deadlineTerminal permit committed k key w s = (r, s', t)) :
    (∃ now, r = .ok none ∧ now < permit.exclusiveDeadline ∧ t = [.clock (some now)]) ∨
      ∃ e, r = .ok (some e) ∧ e.attemptCount = k := by
  unfold deadlineTerminal at h
  have h := ask_run h
  have h := observe_bind h
  split at h
  · cases h
    exact .inr ⟨_, rfl, rfl⟩
  · exact clockTerminal_run h

theorem checkTerminal_run (h : checkTerminal permit committed k key w s = (r, s', t)) :
    (∃ now, r = .ok () ∧ now < permit.exclusiveDeadline ∧ t = [.clock (some now)]) ∨
      ∃ x, r = .error x ∧ Counts k x := by
  rcases bind_run h with ⟨x, hx, -⟩ | ⟨terminal, s₁, t₁, t₂, hp, hk, rfl⟩
  · rcases preAttemptTerminal_run hx with ⟨_, hr, -⟩ | ⟨_, hr, -⟩ <;> cases hr
  · rcases preAttemptTerminal_run hp with ⟨now, hr, -, hn, rfl⟩ | ⟨e, hr, hc⟩
    · cases hr
      cases hk
      exact .inl ⟨now, rfl, hn, rfl⟩
    · cases hr
      cases hk
      exact .inr ⟨_, rfl, e, rfl, hc⟩

theorem boundedPermitCall_run {call : World → Nat → α}
    (h : boundedPermitCall event call w s = (r, s', t)) :
    (∃ a, r = .ok (some a)) ∨ r = .ok none ∧ deadlineDone w s'.tick = true := by
  have h := observe_bind h
  split at h
  · rename_i hgone
    cases h
    exact .inr ⟨rfl, deadlineDone_mono hgone (Nat.le_succ _)⟩
  · obtain ⟨t₁, h, -⟩ := emit_run h
    obtain ⟨t₂, h, -⟩ := emit_run h
    have h := observe_bind h
    have h := observe_bind h
    split at h
    · rename_i hgone
      cases h
      rw [Bool.and_eq_true] at hgone
      exact .inr ⟨rfl, deadlineDone_mono hgone.1 (Nat.le_succ _)⟩
    · obtain ⟨t₃, h, -⟩ := emit_run h
      cases h
      exact .inl ⟨_, rfl⟩

theorem preAttemptTerminal_late (hd : deadlineDone w s.tick = true)
    (h : preAttemptTerminal permit committed k key w s = (r, s', t)) :
    ∃ e, r = .ok (some e) ∧ e.attemptCount = k := by
  rcases preAttemptTerminal_run h with ⟨_, -, hn, -⟩ | he
  · rw [hd] at hn
    cases hn
  · exact he

def Stops (w : World) (R : Stop → Prop) (m : Op α) : Prop :=
  ∀ ⦃s x s' t⦄, m w s = (.error x, s', t) → R x

theorem Stops.pure : Stops w R (Pure.pure a : Op α) := by
  intro s x s' t h
  cases h

theorem Stops.observe : Stops w R (observe f : Op α) := by
  intro s x s' t h
  cases h

theorem Stops.emit : Stops w R (Prog.emit e : Op Unit) := by
  intro s x s' t h
  cases h

theorem Stops.bind {m : Op α} {k : α → Op β} (hm : Stops w R m) (hk : ∀ a, Stops w R (k a)) :
    Stops w R (m >>= k) := by
  intro s x s' t h
  rcases bind_run h with ⟨y, hy, he⟩ | ⟨a, s₁, t₁, t₂, -, h₂, -⟩
  · cases he
    exact hm hy
  · exact hk a h₂

theorem Stops.ite {c : Prop} [Decidable c] {m n : Op α} (hm : Stops w R m) (hn : Stops w R n) :
    Stops w R (if c then m else n) := by
  split
  · exact hm
  · exact hn

theorem checkTerminal_stops : Stops w (Counts k) (checkTerminal permit committed k key) := by
  intro s x s' t h
  rcases checkTerminal_run h with ⟨_, hr, -⟩ | ⟨y, hr, hc⟩
  · cases hr
  · cases hr
    exact hc

theorem failDecorated_stops (he : e.attemptCount = k) :
    Stops w (Counts k) (failDecorated e : Op α) := by
  intro s x s' t h
  cases h
  exact ⟨_, rfl, he⟩

theorem failHook_stops : Stops w (Counts 0) (failHook key option cause : Op α) := by
  intro s x s' t h
  cases h
  exact ⟨_, rfl, rfl⟩

theorem preparationCall_stops {call : World → Nat → α} :
    Stops w (Counts 0) (preparationCall permit key event call) := by
  refine .bind checkTerminal_stops fun _ => ?_
  intro s x s' t h
  rcases bind_run h with ⟨y, hy, -⟩ | ⟨value, s₁, t₁, t₂, hb, hk, -⟩
  · rcases boundedPermitCall_run hy with ⟨_, hr⟩ | ⟨hr, -⟩ <;> cases hr
  · rcases boundedPermitCall_run hb with ⟨a, hr⟩ | ⟨hr, hd⟩
    · cases hr
      exact (Stops.bind checkTerminal_stops fun _ => .pure) hk
    · cases hr
      rcases bind_run hk with ⟨y, hy, -⟩ | ⟨terminal, s₂, t₃, t₄, hp, hk, -⟩
      · obtain ⟨e, hr, -⟩ := preAttemptTerminal_late hd hy
        cases hr
      · obtain ⟨e, hr, hc⟩ := preAttemptTerminal_late hd hp
        cases hr
        cases hk
        exact ⟨e, rfl, hc⟩

theorem obtainAPIKey_stops : Stops w (Counts 0) (obtainAPIKey cfg permit) := by
  refine .ite (.bind preparationCall_stops fun provided => ?_)
    (.ite (failDecorated_stops rfl) .pure)
  cases provided with
  | none =>
    exact .bind .observe fun _ => .ite (failDecorated_stops rfl) failHook_stops
  | some apiKey => exact .ite .pure (failDecorated_stops rfl)

theorem obtainIdempotencyKey_stops :
    Stops w (Counts 0) (obtainIdempotencyKey permit callerKey) := by
  refine .ite (.ite .pure (failDecorated_stops rfl))
    (.bind preparationCall_stops fun generated => ?_)
  cases generated with
  | none => exact failHook_stops
  | some key => exact .ite .pure (failDecorated_stops rfl)

theorem prepare_stops {codec : Codec Schema Data Payload} :
    Stops w (Counts 0) (prepare codec cfg permit schema group member input) := by
  unfold prepare
  cases lookupEvent codec schema group member with
  | error code => exact failDecorated_stops rfl
  | ok event =>
    refine .bind obtainAPIKey_stops fun _ => .bind checkTerminal_stops fun _ => ?_
    refine .bind obtainIdempotencyKey_stops fun _ => .bind preparationCall_stops fun generated => ?_
    cases generated with
    | none => exact failHook_stops
    | some timestamp =>
      refine .bind (.bind preparationCall_stops fun serialized => ?_) fun _ =>
        .bind (.bind preparationCall_stops fun marshaled => ?_) fun _ => ?_
      · cases serialized with
        | data payload => exact .pure
        | panicked => exact failHook_stops
        | invalid issues issueCount => exact failDecorated_stops rfl
      · cases marshaled with
        | none => exact failDecorated_stops rfl
        | some body => exact .ite (failDecorated_stops rfl) .pure
      · exact .bind .emit fun _ => .bind checkTerminal_stops fun _ => .pure

inductive Waits (w : World) (cfg : RuntimeConfig) (last : Error) (k : Nat) (s : OpState) :
    Except Stop Unit → OpState → List Event → Prop where
  | gaveUp (hs : Silent s s' t) (hc : Counts k x) : Waits w cfg last k s (.error x) s' t
  | waited (hs : Silent s s₁ t₁) (hr : reportRetry cfg delay last w s₁ = (.ok (), s₂, t₂))
      (hs' : Silent s₂ s' t₃) (hx : ∀ x, r = .error x → Counts k x) :
      Waits w cfg last k s r s' (t₁ ++ (t₂ ++ t₃))

theorem silent_of {m : Op α} (hm : ∀ {ρ}, Calm w (· ≠ .report) ρ → Within w ρ m)
    (h : m w s = (r, s', t)) : Silent s s' t := hm (Silent.calm w) h

theorem callScheduler_run (h : callScheduler cfg delay w s = (r, s', t)) :
    (∃ ok, r = .ok (some ok)) ∨ r = .ok none ∧ deadlineDone w s'.tick = true := by
  unfold callScheduler at h
  split at h
  · obtain ⟨t', h, -⟩ := emit_run h
    cases h
    exact .inl ⟨_, rfl⟩
  · exact boundedPermitCall_run h

/-- The scheduler is overtaken only by the deadline, which the check after it finds. -/
theorem awaitRetry_run (h : awaitRetry cfg permit last k committed delay w s = (r, s', t)) :
    Waits w cfg last k s r s' t := by
  obtain ⟨_, s₁, t₁, t₂, hr, hk, rfl⟩ :=
    (reportRetry_spec (D := fun _ => True)).bind_run h
  refine .waited ((Silent.calm w).refl s) hr (silent_of (fun {ρ} hρ => ?_) hk) ?_
  · apply Within.bind hρ.toComposes (hρ.callScheduler nofun)
    intro slept
    apply Within.bind hρ.toComposes hρ.steady.preAttemptTerminal
    intro terminal
    rcases slept with _ | _ | _ <;> rcases terminal with _ | e
    case some.false.none =>
      apply Within.bind hρ.toComposes hρ.steady.preAttemptTerminal
      intro terminal
      cases terminal with
      | none | some e => exact .stop hρ.toComposes
    case some.true.none => exact .pure hρ.toComposes
    all_goals exact .stop hρ.toComposes
  · rintro x rfl
    rcases bind_run hk with ⟨y, hy, -⟩ | ⟨slept, s₂, t₃, t₄, hslept, hk, -⟩
    · rcases callScheduler_run hy with ⟨_, hr⟩ | ⟨hr, -⟩ <;> cases hr
    obtain ⟨terminal, s₃, t₅, t₆, hterminal, hk, -⟩ :=
      (preAttemptTerminal_spec (D := fun _ => True)).bind_run hk
    rcases preAttemptTerminal_run hterminal with ⟨now, hnone, hdone, -⟩ | ⟨e, hsome, hc⟩
    · cases hnone
      rcases callScheduler_run hslept with ⟨ok, hr⟩ | ⟨-, hd⟩
      · cases hr
        cases ok with
        | true => cases hk
        | false =>
          obtain ⟨terminal, s₄, t₇, t₈, hterminal, hk, -⟩ :=
            (preAttemptTerminal_spec (D := fun _ => True)).bind_run hk
          rcases preAttemptTerminal_run hterminal with ⟨_, hr, -⟩ | ⟨e, hr, hc⟩
          · cases hr
            cases hk
            exact ⟨_, rfl, rfl⟩
          · cases hr
            cases hk
            exact ⟨_, rfl, hc⟩
      · rw [hd] at hdone
        cases hdone
    · cases hsome
      rcases slept with _ | _ | _ <;> cases hk <;> exact ⟨_, rfl, hc⟩

/-- The wait goes on without a report only if the entropy was overtaken by the deadline, which the
check after it finds. -/
theorem backoff_run (h : backoff cfg permit last response k committed w s = (r, s', t)) :
    Waits w cfg last k s r s' t := by
  have hcalm := Silent.calm w
  obtain ⟨t₁, hk, rfl⟩ := clock_bind h
  have hclock := hcalm.clock s
  cases hreading : w.clock s.tick with
  | none =>
    rw [hreading] at hk hclock
    cases hk
    exact .gaveUp hclock ⟨_, rfl, rfl⟩
  | some now =>
    rw [hreading] at hk hclock
    dsimp only at hk
    split at hk
    · cases hk
      exact .gaveUp hclock ⟨_, rfl, rfl⟩
    · rcases bind_run hk with ⟨y, hy, -⟩ | ⟨sampled, s₂, t₂, t₃, hsampled, hk, rfl⟩
      · rcases boundedPermitCall_run hy with ⟨_, hr⟩ | ⟨hr, -⟩ <;> cases hr
      have hbounded : Silent s s₂ (.clock (some now) :: t₂) :=
        hcalm.trans hclock (hcalm.boundedPermitCall nofun (.retryEntropy _) nofun nofun _ hsampled)
      have hgaveUp : ∀ {e : Error}, r = .error (.error e) → e.attemptCount = k → s₂ = s' → t₃ = [] →
          Waits w cfg last k s r s' (.clock (some now) :: (t₂ ++ t₃)) := by
        rintro e rfl hc rfl rfl
        rw [List.append_nil]
        exact .gaveUp hbounded ⟨e, rfl, hc⟩
      have hwaits : Waits w cfg last k s₂ r s' t₃ →
          Waits w cfg last k s r s' (.clock (some now) :: (t₂ ++ t₃)) := by
        intro hw
        rw [← List.cons_append]
        cases hw with
        | gaveUp hs hc => exact .gaveUp (hcalm.trans hbounded hs) hc
        | waited hs hr hs' hx =>
          rw [← List.append_assoc]
          exact .waited (hcalm.trans hbounded hs) hr hs' hx
      rcases sampled with _ | jitter | _ | _
      · rcases boundedPermitCall_run hsampled with ⟨_, hr⟩ | ⟨-, hd⟩
        · cases hr
        · have hs := hcalm.steady.checkTerminal hk
          rcases bind_run hk with ⟨y, hy, -⟩ | ⟨terminal, s₃, t₄, t₅, hterminal, hk, -⟩
          · obtain ⟨e, hr, -⟩ := preAttemptTerminal_late hd hy
            cases hr
          · obtain ⟨e, hr, hc⟩ := preAttemptTerminal_late hd hterminal
            cases hr
            cases hk
            exact hwaits (.gaveUp hs ⟨e, rfl, hc⟩)
      · rcases hdelay : retryAfterDelay response with _ | _ | retryAfter
        · simp only [hdelay] at hk
          cases hk
          exact hgaveUp rfl rfl rfl rfl
        · simp only [hdelay] at hk
          exact hwaits (awaitRetry_run hk)
        · simp only [hdelay] at hk
          exact hwaits (awaitRetry_run hk)
      · cases hk
        exact hgaveUp rfl rfl rfl rfl
      · cases hk
        exact hgaveUp rfl rfl rfl rfl

end Repost
