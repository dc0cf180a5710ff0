import Repost.AdmissionAccounting
import Repost.AttemptPacing
import Repost.DeliveryFloor

namespace Repost
open GoText Traced
set_option autoImplicit true

def Event.reading? : Event → Option Int
  | .clock reading => reading
  | _ => none

def readings (h : List Event) : List Int := h.filterMap Event.reading?

theorem readings_append (h t : List Event) : readings (h ++ t) = readings h ++ readings t :=
  List.filterMap_append

/-- A clock that never goes back, from the sample of the admission on. It may still fail. -/
structure Nondecreasing (permit : Permit) (w : World) : Prop where
  started : ∀ i now, w.clock i = some now → permit.startedNanos ≤ now
  mono : ∀ i j a b, i ≤ j → w.clock i = some a → w.clock j = some b → a ≤ b

structure Timely (w : World) (s s' : OpState) (t : List Event) : Prop where
  later : s.tick ≤ s'.tick
  sampled : ∀ c ∈ readings t, ∃ i, s.tick ≤ i ∧ i < s'.tick ∧ w.clock i = some c
  sorted : (readings t).Pairwise (· ≤ ·)

theorem Timely.of_nothing (h : s.tick ≤ s'.tick) (ht : readings t = []) : Timely w s s' t :=
  ⟨h, by rw [ht]; nofun, by rw [ht]; exact .nil⟩

theorem Timely.loose (hc : Nondecreasing permit w) : Loose w (fun _ => True) (Timely w) where
  refl := fun _ => .of_nothing (le_refl _) rfl
  trans := by
    intro s s' s'' t t' h h'
    refine ⟨h.later.trans h'.later, ?_, ?_⟩
    · intro c hm
      rw [readings_append] at hm
      rcases List.mem_append.1 hm with hm | hm
      · obtain ⟨i, hi, hlt, hclock⟩ := h.sampled c hm
        exact ⟨i, hi, hlt.trans_le h'.later, hclock⟩
      · obtain ⟨i, hi, hlt, hclock⟩ := h'.sampled c hm
        exact ⟨i, h.later.trans hi, hlt, hclock⟩
    · rw [readings_append]
      refine List.pairwise_append.2 ⟨h.sorted, h'.sorted, fun a ha b hb => ?_⟩
      obtain ⟨i, -, hi, hclock⟩ := h.sampled a ha
      obtain ⟨j, hj, -, hclock'⟩ := h'.sampled b hb
      exact hc.mono i j a b (by omega) hclock hclock'
  tick := fun _ => .of_nothing (Nat.le_succ _) rfl
  clock := fun s => by
    refine ⟨Nat.le_succ _, fun c hm => ⟨s.tick, le_refl _, Nat.lt_succ_self _, ?_⟩, ?_⟩
    · obtain ⟨e, he, hc⟩ := List.mem_filterMap.1 hm
      rw [List.mem_singleton.1 he] at hc
      exact hc
    · cases w.clock s.tick with
      | none => exact .nil
      | some now => exact List.pairwise_singleton _ _
  closed := fun _ _ => .of_nothing (le_refl _) rfl
  event := fun _ e hk _ => by
    refine .of_nothing (le_refl _) ?_
    cases e with
    | clock reading => exact absurd rfl hk
    | _ => rfl
  observability := fun _ _ h => .of_nothing h.ge rfl

/-- An int64 sum that saturates. -/
def saturated (x : Int) : Int := max (-(2 ^ 63)) (min x (2 ^ 63 - 1))

theorem addNanosSaturated_eq (hv : -(2 ^ 63) ≤ value) (hv' : value < 2 ^ 63) (hd : 0 ≤ delta) :
    addNanosSaturated value delta = saturated (value + delta) := by
  unfold addNanosSaturated saturated
  split
  · rename_i h
    simp only [Bool.and_eq_true, decide_eq_true_eq] at h
    omega
  · rename_i h
    simp only [Bool.and_eq_true, decide_eq_true_eq, not_and] at h
    rw [if_neg (by simp; omega)]
    omega

/-- The exclusive deadline: the earlier of the operation's own budget and the caller's. -/
def exclusiveDeadline (started timeout : Int) (remaining : Option Int) : Int :=
  match remaining with
  | none => saturated (started + timeout)
  | some remaining => min (saturated (started + timeout)) (saturated (started + max remaining 0))

theorem AdmissionCall.deadline_eq {call : AdmissionCall} (hv : -(2 ^ 63) ≤ started)
    (hv' : started < 2 ^ 63) (ht : 0 ≤ timeout) :
    call.deadline started timeout = exclusiveDeadline started timeout call.parentRemaining := by
  unfold AdmissionCall.deadline exclusiveDeadline
  cases call.parentRemaining with
  | none => exact addNanosSaturated_eq hv hv' ht
  | some remaining =>
    have hr : (if remaining < 0 then 0 else remaining) = max remaining 0 := by
      split <;> omega
    dsimp only
    rw [hr, addNanosSaturated_eq hv hv' ht, addNanosSaturated_eq hv hv' (le_max_right _ _)]
    split <;> omega

theorem exclusiveDeadline_le (hv : -(2 ^ 63) ≤ started) (ht : 0 ≤ timeout) :
    exclusiveDeadline started timeout remaining ≤ started + timeout := by
  unfold exclusiveDeadline saturated
  split <;> omega

theorem int64_of_range (h : -(2 ^ 63) ≤ x) (h' : x < 2 ^ 63) : int64 x = x := by
  unfold int64
  apply Int.bmod_eq_of_le
  · norm_num
    omega
  · norm_num
    omega

structure Granted (permit : Permit) (timeout : Int) (remaining : Option Int) : Prop where
  admission : ∃ (state state' : RuntimeState) (call : AdmissionCall) (p : OperationPermit),
    state.admitOperation call = (state', .ok p) ∧ state.config.operationTimeout = timeout ∧
      call.parentRemaining = remaining ∧ permit.startedNanos = p.startedNanos ∧
      permit.exclusiveDeadline = p.exclusiveDeadline
  started : -(2 ^ 63) ≤ permit.startedNanos ∧ permit.startedNanos < 2 ^ 63
  positive : 0 < timeout ∧ timeout < 2 ^ 63

theorem Granted.deadline (h : Granted permit timeout remaining) :
    permit.exclusiveDeadline = exclusiveDeadline permit.startedNanos timeout remaining := by
  obtain ⟨state, state', call, p, hadmit, rfl, rfl, hstarted, hdeadline⟩ := h.admission
  rw [hdeadline]
  have hp : p.exclusiveDeadline = call.deadline p.startedNanos state.config.operationTimeout := by
    unfold RuntimeState.admitOperation at hadmit
    split at hadmit
    · cases hadmit
    split at hadmit
    · cases hadmit
    split at hadmit
    · cases hadmit
    split at hadmit
    · cases hadmit
    split at hadmit
    · cases hadmit
    · cases hadmit
      rfl
  rw [hp, ← hstarted]
  exact AdmissionCall.deadline_eq h.started.1 h.started.2 (le_of_lt h.positive.1)

section Hooks
variable {w : World} {hook : Event}

def Calls (w : World) (hook : Event) (n : Nat) (m : Op α) : Prop :=
  ∀ ⦃s r s' t⦄, m w s = (r, s', t) → t.count hook ≤ n

theorem count_idle {t : List Event} (hk : hook.kind = .hook) (ht : ∀ e ∈ t, e.Idle) :
    t.count hook = 0 :=
  List.count_eq_zero.2 fun hm => (ht hook hm).2 hk

theorem Calls.of_idle {m : Op α} (hk : hook.kind = .hook) (hm : Within w (Only Event.Idle) m) :
    Calls w hook n m := by
  intro s r s' t h
  rw [count_idle hk (hm h)]
  exact Nat.zero_le n

theorem Calls.mono {m : Op α} (hn : n ≤ k) (hm : Calls w hook n m) : Calls w hook k m :=
  fun _ _ _ _ h => (hm h).trans hn

theorem Calls.bind {m : Op α} {f : α → Op β} (hm : Calls w hook n m)
    (hf : ∀ a, Calls w hook k (f a)) : Calls w hook (n + k) (m >>= f) := by
  intro s r s' t h
  rcases bind_run h with ⟨x, hx, -⟩ | ⟨a, s₁, t₁, t₂, h₁, h₂, rfl⟩
  · exact (hm hx).trans (Nat.le_add_right n k)
  · rw [List.count_append]
    exact Nat.add_le_add (hm h₁) (hf a h₂)

theorem Calls.ite {c : Prop} [Decidable c] {m m' : Op α} (hm : Calls w hook n m)
    (hm' : Calls w hook n m') : Calls w hook n (if c then m else m') := by
  split
  · exact hm
  · exact hm'

theorem Calls.emit (e : Event) : Calls w hook (if e = hook then 1 else 0) (Prog.emit e) := by
  intro s r s' t h
  cases h
  rw [List.count_singleton]
  simp

theorem boundedPermitCall_calls (hk : hook.kind = .hook) {call : World → Nat → α} :
    Calls w hook (if e = hook then 1 else 0) (boundedPermitCall e call) := by
  have hidle := (idle_loose w).toCalm
  have hc := hidle.toComposes
  have hwork : EventKind.work ≠ .send ∧ EventKind.work ≠ .hook := ⟨nofun, nofun⟩
  intro s r s' t h
  have hlook := observe_bind h
  split at hlook
  · cases hlook
    exact Nat.zero_le _
  · obtain ⟨t₁, hcall, rfl⟩ := emit_run hlook
    have hbegin : Event.beginCall ≠ hook := by
      rintro rfl
      cases hk
    rw [List.count_cons_of_ne hbegin]
    refine Calls.bind (k := 0) (Calls.emit e) (fun _ => .of_idle hk ?_) hcall
    refine .bind hc (hidle.steady.observe _) fun _ => .bind hc (hidle.steady.observe _) fun _ => ?_
    exact .ite (.pure hc) (.bind hc (hidle.work hwork rfl) fun _ => .pure hc)

theorem preparationCall_calls (hk : hook.kind = .hook) {call : World → Nat → α} :
    Calls w hook (if e = hook then 1 else 0) (preparationCall permit key e call) := by
  have hidle := (idle_loose w).toCalm
  have hc := hidle.toComposes
  rw [← Nat.zero_add (if e = hook then 1 else 0)]
  apply Calls.bind (.of_idle hk hidle.steady.checkTerminal)
  intro _
  apply (boundedPermitCall_calls hk).bind (k := 0)
  intro value
  apply Calls.of_idle hk
  cases value with
  | none =>
    apply Within.bind hc hidle.steady.preAttemptTerminal
    intro terminal
    cases terminal with
    | none => exact .stop hc
    | some e => exact .stop hc
  | some value => exact .bind hc hidle.steady.checkTerminal fun _ => .pure hc

theorem obtainAPIKey_calls (hk : hook.kind = .hook) :
    Calls w hook (if .apiKeyProvider = hook then 1 else 0) (obtainAPIKey cfg permit) := by
  have hidle := (idle_loose w).toCalm
  have hc := hidle.toComposes
  refine .ite ?_ (.of_idle hk (.ite hidle.steady.failDecorated (.pure hc)))
  apply (preparationCall_calls hk).bind (k := 0)
  intro provided
  apply Calls.of_idle hk
  cases provided with
  | none => exact .bind hc (hidle.steady.observe _) fun _ => .ite hidle.steady.failDecorated hidle.steady.failHook
  | some apiKey => exact .ite (.pure hc) hidle.steady.failDecorated

theorem obtainIdempotencyKey_calls (hk : hook.kind = .hook) :
    Calls w hook (if .idempotencyKeyGenerator = hook then 1 else 0)
      (obtainIdempotencyKey permit callerKey) := by
  have hidle := (idle_loose w).toCalm
  have hc := hidle.toComposes
  refine .ite (.of_idle hk (.ite (.pure hc) hidle.steady.failDecorated)) ?_
  apply (preparationCall_calls hk).bind (k := 0)
  intro generated
  apply Calls.of_idle hk
  cases generated with
  | none => exact hidle.steady.failHook
  | some key => exact .ite (.pure hc) hidle.steady.failDecorated

variable {codec : Codec Schema Data Payload}

theorem prepare_calls (hk : hook.kind = .hook) :
    Calls w hook 1 (prepare codec cfg permit schema group member input) := by
  have hidle := (idle_loose w).toCalm
  have hc := hidle.toComposes
  have hwork : EventKind.work ≠ .send ∧ EventKind.work ≠ .hook := ⟨nofun, nofun⟩
  unfold prepare
  cases lookupEvent codec schema group member with
  | error code => exact .of_idle hk hidle.steady.failDecorated
  | ok event =>
    refine .mono ?_ (.bind (obtainAPIKey_calls hk) fun apiKey => .bind (n := 0)
      (.of_idle hk hidle.steady.checkTerminal) fun _ => .bind (obtainIdempotencyKey_calls hk) fun key =>
      .bind (k := 0) (preparationCall_calls hk) fun generated => .of_idle hk ?_)
    · cases hook with
      | apiKeyProvider => decide
      | idempotencyKeyGenerator => decide
      | generateNow => decide
      | _ => cases hk
    · cases generated with
      | none => exact hidle.steady.failHook
      | some timestamp =>
        refine .bind hc (hidle.serializePayload hwork) fun _ => ?_
        refine .bind hc (hidle.marshalBody hwork) fun _ => ?_
        refine .bind hc (hidle.work hwork rfl) fun _ => ?_
        exact .bind hc hidle.steady.checkTerminal fun _ => .pure hc

end Hooks

theorem prepare_headers
    (h : prepare codec cfg permit schema group member input w s = (.ok p, s', t)) :
    ∃ apiKey, p.headers = requestHeaders cfg apiKey p.key := by
  unfold prepare at h
  cases hevent : lookupEvent codec schema group member with
  | error code =>
    rw [hevent] at h
    cases ask_run h
  | ok event =>
    rw [hevent] at h
    rcases bind_run h with ⟨x, -, hx⟩ | ⟨apiKey, _, _, _, -, h, -⟩
    · cases hx
    rcases bind_run h with ⟨x, -, hx⟩ | ⟨_, _, _, _, -, h, -⟩
    · cases hx
    rcases bind_run h with ⟨x, -, hx⟩ | ⟨key, _, _, _, -, h, -⟩
    · cases hx
    rcases bind_run h with ⟨x, -, hx⟩ | ⟨generated, _, _, _, -, h, -⟩
    · cases hx
    cases generated with
    | none => cases ask_run h
    | some timestamp =>
      rcases bind_run h with ⟨x, -, hx⟩ | ⟨payload, _, _, _, -, h, -⟩
      · cases hx
      rcases bind_run h with ⟨x, -, hx⟩ | ⟨body, _, _, _, -, h, -⟩
      · cases hx
      obtain ⟨_, h, -⟩ := emit_run h
      rcases bind_run h with ⟨x, -, hx⟩ | ⟨_, _, _, _, -, h, -⟩
      · cases hx
      · cases h
        exact ⟨apiKey, rfl⟩

theorem OperationOpened.follows (h : OperationOpened b spans) (he : e ∈ spans) : e.Follows := by
  cases h with
  | absent => cases he
  | refused =>
    rw [List.mem_singleton.1 he]
    trivial
  | held hu =>
    rcases List.mem_cons.1 he with rfl | he
    · trivial
    · exact follows_flaky hu he

theorem startObservability_ready (hs : Silent {} s t₁)
    (h : startObservability cfg permit w s = (r, s', t)) :
    Ready s' ∧ ∀ e ∈ t, e.Follows := by
  have htel : s.telemetry = false := reports_field hs.reports OpState.telemetry
  obtain ⟨reading, a, spans, held, -, -, rfl, hspans, hr⟩ := startObservability_run htel h
  have hready : Ready s := .of_reports hs.reports ⟨rfl, rfl, rfl⟩
  refine ⟨.of_reports hr ⟨hready.unfinished, hready.closed, hready.unheld⟩, fun e he => ?_⟩
  rcases List.mem_append.1 he with he | he
  · refine follows_announced ?_ he
    nofun
  · exact hspans.follows he

theorem finish_follows (hs : Ready s) (h : finish cfg err w s = (r, s', t)) :
    (∀ e ∈ t, e.Follows) ∧ (err = none → t.countP Event.isClock = 1) := by
  obtain ⟨outcome, cancel, a, reading, b, u, -, -, hu, hcancel, hother, hnone, rfl⟩ :=
    finish_run hs.unfinished hs.closed h
  constructor
  · intro e he
    rcases List.mem_append.1 he with he | he
    · by_cases hc : outcome = .cancelled
      · obtain ⟨reading', rfl⟩ := hcancel hc
        refine follows_announced ?_ he
        nofun
      · rw [hother hc] at he
        cases he
    rcases List.mem_cons.1 he with rfl | he
    · trivial
    rcases List.mem_append.1 he with he | he
    · unfold spanEnded at he
      split at he
      · rcases List.mem_cons.1 he with rfl | he
        · trivial
        · exact follows_flaky hu he
      · cases he
    · split at he
      · rw [List.mem_singleton.1 he]
        nofun
      · cases he
  · intro herr
    have hc : outcome ≠ .cancelled := by
      rw [hnone herr]
      nofun
    rw [hother hc, List.nil_append, List.countP_cons_of_pos rfl, List.countP_append,
      samples_spanEnded hu rfl]
    split <;> rfl

theorem LoopPaced.nothing (cfg : RuntimeConfig) (hk : k ≤ cfg.maxAttempts) (hc : Counts n x) :
    LoopPaced w cfg permit p k (.error x) [] where
  numbered := rfl
  limited := Nat.le_succ_of_le hk
  paced := .of_forall fun e he => by cases he
  retried := fun g q u he => by cases g <;> cases he
  accepted := fun result hr => by cases hr
  stopped := fun y hy => by
    cases hy
    obtain ⟨e, he, -⟩ := hc
    exact ⟨e, he⟩

theorem prelude_run (hs : Silent {} s₁ t₁)
    (hi : ∀ e ∈ t₁, e.Idle) (hstart : startObservability cfg permit w s₁ = (.ok (), s₂, t₂))
    (hprep : prepare codec cfg permit schema group member input w s₂ = (r, s₃, t₃)) :
    Ready s₃ ∧ (∀ e ∈ t₁ ++ (t₂ ++ t₃), e.Follows) ∧
      ∀ hook : Event, hook.kind = .hook → (t₁ ++ (t₂ ++ t₃)).count hook ≤ 1 := by
  obtain ⟨hready, hfollows⟩ := startObservability_ready hs hstart
  have hsilent := (Silent.calm w).prepare nofun nofun hprep
  have hunsent : Loose w (· ≠ .send) (Only fun e => e.kind ≠ .send) :=
    Only.loose w (fun _ => nofun) fun _ h => h
  have hsends := hunsent.prepare nofun nofun hprep
  refine ⟨hready.of_reports hsilent.reports, fun e he => ?_, fun hook hk => ?_⟩
  · rcases List.mem_append.1 he with he | he
    · exact follows_silent hs (hi e he).1 he
    rcases List.mem_append.1 he with he | he
    · exact hfollows e he
    · exact follows_silent hsilent (hsends e he) he
  · have ht₂ := (idle_loose w).startObservability ⟨nofun, nofun⟩ hstart
    rw [List.count_append, List.count_append, count_idle hk hi, count_idle hk ht₂, Nat.zero_add,
      Nat.zero_add]
    exact prepare_calls hk hprep

structure Phased (o : Operation Schema Data Payload) (w : World) (p : Prepared)
    (before attempts after : List Event) : Prop where
  log : o.log w = before ++ (attempts ++ after)
  follows : ∀ e ∈ before ++ after, e.Follows
  hooks : ∀ hook : Event, hook.kind = .hook → before.count hook ≤ 1
  hookless : ∀ e ∈ attempts ++ after, e.kind ≠ .hook
  headers : ∃ apiKey, p.headers = requestHeaders o.cfg apiKey p.key
  loop : LoopPaced w o.cfg o.permit p 1 (o.result w) attempts
  finished : ∀ result, o.result w = .ok result → after.countP Event.isClock = 1

theorem Operation.phased (o : Operation Schema Data Payload) (w : World) :
    ∃ p before attempts after, Phased o w p before attempts after := by
  have hreport : EventKind.report ≠ .hook := nofun
  have hhookless : Loose w (· ≠ .hook) (Only fun e => e.kind ≠ .hook) :=
    Only.loose w (fun _ => nofun) fun _ h => h
  obtain ⟨r, s', t, hrun⟩ : ∃ r s' t, o.run w = (r, s', t) := ⟨_, _, _, rfl⟩
  have hresult : o.result w = r := congrArg (·.1) hrun
  have hlog : o.log w = t := congrArg (·.2.2) hrun
  -- Any headers do where no attempt is made.
  let unsent : Prepared :=
    { eventType := [], customerID := [], timestamp := [], key := [],
      headers := requestHeaders o.cfg [] [], body := [] }
  cases sendAdmitted_run hrun with
  | refused hcheck =>
    have hs := (Silent.calm w).steady.checkTerminal hcheck
    have hi := (idle_loose w).steady.checkTerminal hcheck
    refine ⟨unsent, t, [], [], ?_, ?_, ?_, ?_, ⟨[], rfl⟩, ?_, ?_⟩
    · rw [hlog, List.append_nil, List.append_nil]
    · intro e he
      rw [List.append_nil] at he
      exact follows_silent hs (hi e he).1 he
    · intro hook hk
      rw [count_idle hk hi]
      exact Nat.zero_le 1
    · intro e he
      cases he
    · rw [hresult]
      exact .nothing o.cfg o.cfg.attempts_pos (checkTerminal_stops hcheck)
    · intro result hr
      rw [hresult] at hr
      cases hr
  | @unprepared s₁ t₁ s₂ t₂ s₃ t₃ x _ t₄ hs hi hstart hprep hfinish =>
    obtain ⟨hready, hfollows, hhooks⟩ := prelude_run hs hi hstart hprep
    have hends := finish_follows hready hfinish
    refine ⟨unsent, t₁ ++ (t₂ ++ t₃), [], t₄, ?_, ?_, hhooks, ?_, ⟨[], rfl⟩, ?_, ?_⟩
    · rw [hlog]
      simp
    · exact List.forall_mem_append.2 ⟨hfollows, hends.1⟩
    · exact hhookless.finish hreport hfinish
    · rw [hresult]
      exact .nothing o.cfg o.cfg.attempts_pos (prepare_stops hprep)
    · intro result hr
      rw [hresult] at hr
      cases hr
  | @attempted s₁ t₁ s₂ t₂ s₃ t₃ p _ s₄ t₄ _ t₅ hs hi hstart hprep hloop hfinish =>
    obtain ⟨hready, hfollows, hhooks⟩ := prelude_run hs hi hstart hprep
    obtain ⟨hpaced, hended⟩ := attemptLoop_paced hready one_ne_zero rfl
      (Nat.ne_of_gt o.cfg.attempts_pos) hloop
    have hends := finish_follows hended hfinish
    refine ⟨p, t₁ ++ (t₂ ++ t₃), t₄, t₅, ?_, ?_, hhooks, ?_, prepare_headers hprep, ?_, ?_⟩
    · rw [hlog]
      simp
    · exact List.forall_mem_append.2 ⟨hfollows, hends.1⟩
    · exact List.forall_mem_append.2 ⟨hhookless.attemptLoop hreport nofun nofun hloop,
        hhookless.finish hreport hfinish⟩
    · rw [hresult]
      exact hpaced
    · intro result hr
      rw [hresult] at hr
      rw [hr] at hends
      exact hends.2 rfl

theorem readings_mem (h : c ∈ readings t) : .clock (some c) ∈ t := by
  obtain ⟨e, he, hc⟩ := List.mem_filterMap.1 h
  cases e with
  | clock reading =>
    cases hc
    exact he
  | _ => cases hc

theorem mem_readings (h : .clock (some c) ∈ t) : c ∈ readings t :=
  List.mem_filterMap.2 ⟨_, h, rfl⟩

theorem readings_before (hsorted : (readings (g ++ .clock (some now) :: u)).Pairwise (· ≤ ·))
    (hnow : now < deadline) : ∀ c ∈ readings (g ++ [.clock (some now)]), c < deadline := by
  rw [readings_append] at hsorted
  intro c hc
  rw [readings_append] at hc
  rcases List.mem_append.1 hc with hc | hc
  · exact lt_of_le_of_lt ((List.pairwise_append.1 hsorted).2.2 c hc now
      (mem_readings List.mem_cons_self)) hnow
  · cases readings_mem hc with
    | head => exact hnow
    | tail _ h => cases h

structure Disciplined (o : Operation Schema Data Payload) (w : World) (timeout : Int)
    (remaining : Option Int) : Prop where
  deadline : o.permit.exclusiveDeadline =
    exclusiveDeadline o.permit.startedNanos timeout remaining
  numbered : (sends (o.log w)).map (·.attemptNumber) = List.range' 1 (sends (o.log w)).length
  limited : (sends (o.log w)).length ≤ o.cfg.maxAttempts
  shared : ∃ apiKey key body, ∀ q ∈ sends (o.log w), q.body = body ∧ q.apiURL = o.cfg.endpoint ∧
    ∃ propagation, q.headers = requestHeaders o.cfg apiKey key ++ propagation
  hooks : ∀ hook : Event, hook.kind = .hook → (o.log w).count hook ≤ 1 ∧
    ∀ g q u, o.log w = g ++ .send q :: u → hook ∉ u
  budget : ∀ g q u, o.log w = g ++ .send q :: u → ∃ g₁ before now after opening,
    g = g₁ ++ (checks before now after ++ opening ++ [.beginCall]) ∧
    Opening o.cfg q.attemptNumber opening ∧ 0 < q.attemptTimeout ∧
    q.attemptTimeout ≤ min o.cfg.attemptTimeout (o.permit.exclusiveDeadline - now) ∧
    ∀ c ∈ readings (g₁ ++ checks before now after), c < o.permit.exclusiveDeadline
  started : ∀ g e u, o.log w = g ++ .observer e :: u → e.kind = .attemptStart →
    ∃ g₁ reading reading', g = g₁ ++ [.clock reading, .clock reading'] ∧
      ∀ c ∈ readings g₁, c < o.permit.exclusiveDeadline
  spanned : ∀ g k u, o.log w = g ++ .attemptSpan k :: u → ∃ g₁ reading reading' b,
    g = g₁ ++ .clock reading ::
      announced o.cfg { kind := .attemptStart, attemptNumber := k } reading' b ∧
    ∀ c ∈ readings g₁, c < o.permit.exclusiveDeadline
  accepted : ∀ result, o.result w = .ok result → ∃ g now u,
    o.log w = g ++ .clock (some now) :: u ∧
    (∀ c ∈ readings (g ++ [.clock (some now)]), c < o.permit.exclusiveDeadline) ∧
    u.countP Event.isClock = if o.cfg.observer then 3 else 2
  retried : ∃ p, ∀ g q u, o.log w = g ++ .send q :: u → 1 < q.attemptNumber →
    Retried w o.cfg p g q
  returns : ∀ x, o.result w = .error x → ∃ e, x = .error e

section Discipline
variable {o : Operation Schema Data Payload} {w : World} {p : Prepared}
  {before attempts after : List Event}

theorem Phased.sends_eq (h : Phased o w p before attempts after) :
    sends (o.log w) = sends attempts := by
  have hnone : ∀ t : List Event, (∀ e ∈ t, e.Follows) → sends t = [] := by
    intro t ht
    apply sends_eq_nil
    intro e he
    have hf := ht e he
    cases e with
    | send q => exact absurd hf id
    | _ => nofun
  obtain ⟨hbefore, hafter⟩ := List.forall_mem_append.1 h.follows
  rw [h.log, sends_append, sends_append, hnone before hbefore, hnone after hafter,
    List.nil_append, List.append_nil]

theorem Phased.paced (h : Phased o w p before attempts after) :
    Each (Paced w o.cfg o.permit p) (o.log w) := by
  obtain ⟨hbefore, hafter⟩ := List.forall_mem_append.1 h.follows
  rw [h.log]
  exact .append Paced.after (.of_forall fun e he g => (hbefore e he).paced g)
    (.append Paced.after h.loop.paced (.of_forall fun e he g => (hafter e he).paced g))

theorem Phased.split (h : Phased o w p before attempts after)
    (he : o.log w = g ++ .send q :: u) :
    ∃ g₁ u₁, g = before ++ g₁ ∧ u = u₁ ++ after ∧ attempts = g₁ ++ .send q :: u₁ := by
  obtain ⟨hbefore, hafter⟩ := List.forall_mem_append.1 h.follows
  have hsend : ¬ Event.Follows (.send q) := id
  rw [h.log] at he
  rcases append_eq_append_cons he with ⟨v, rfl⟩ | ⟨g₁, rfl, hrest⟩
  · exact absurd (hbefore _ (by simp)) hsend
  rcases append_eq_append_cons hrest with ⟨u₁, rfl⟩ | ⟨v, rfl, rfl⟩
  · refine ⟨g₁, u₁, rfl, ?_, rfl⟩
    simpa using hrest.symm
  · exact absurd (hafter _ (by simp)) hsend

theorem Phased.shared (h : Phased o w p before attempts after) : ∃ apiKey, ∀ q ∈ sends (o.log w),
    q.body = p.body ∧ q.apiURL = o.cfg.endpoint ∧
    ∃ propagation, q.headers = requestHeaders o.cfg apiKey p.key ++ propagation := by
  obtain ⟨apiKey, hheaders⟩ := h.headers
  refine ⟨apiKey, fun q hq => ?_⟩
  obtain ⟨g, u, he⟩ := mem_sends.1 hq
  obtain ⟨_, _, now, _, _, propagation, -, -, -, hrequest⟩ := h.paced g _ u he
  rw [hrequest]
  exact ⟨rfl, rfl, propagation, congrArg (· ++ propagation) hheaders⟩

theorem Phased.hooks_once (h : Phased o w p before attempts after) {hook : Event}
    (hk : hook.kind = .hook) : (o.log w).count hook ≤ 1 ∧
      ∀ g q u, o.log w = g ++ .send q :: u → hook ∉ u := by
  constructor
  · have hnone : (attempts ++ after).count hook = 0 :=
      List.count_eq_zero.2 fun hm => h.hookless hook hm hk
    rw [h.log, List.count_append, hnone]
    exact h.hooks hook hk
  · intro g q u he hm
    obtain ⟨g₁, u₁, rfl, rfl, hattempts⟩ := h.split he
    refine h.hookless hook ?_ hk
    rw [hattempts]
    simp only [List.append_assoc, List.cons_append, List.mem_append, List.mem_cons]
    exact .inr (.inr (List.mem_append.1 hm))

theorem Phased.accepted (h : Phased o w p before attempts after)
    (hresult : o.result w = .ok result) : ∃ g now u, o.log w = g ++ .clock (some now) :: u ∧
      now < o.permit.exclusiveDeadline ∧
      u.countP Event.isClock = if o.cfg.observer then 3 else 2 := by
  obtain ⟨g, now, u, rfl, hnow, hu⟩ := h.loop.accepted result hresult
  refine ⟨before ++ g, now, u ++ after, ?_, hnow, ?_⟩
  · rw [h.log]
    simp
  · rw [List.countP_append, hu, h.finished result hresult]
    split <;> rfl

theorem Phased.retried (h : Phased o w p before attempts after)
    (he : o.log w = g ++ .send q :: u) (hq : 1 < q.attemptNumber) : Retried w o.cfg p g q := by
  obtain ⟨g₁, u₁, rfl, rfl, hattempts⟩ := h.split he
  exact (h.loop.retried g₁ q u₁ hattempts hq).after

theorem Operation.timely (hc : Nondecreasing o.permit w) :
    (readings (o.log w)).Pairwise (· ≤ ·) ∧ ∀ c ∈ readings (o.log w), o.permit.startedNanos ≤ c := by
  have htimely : Timely w {} (o.run w).2.1 (o.log w) :=
    (Timely.loose hc).sendAdmitted trivial trivial trivial trivial rfl
  refine ⟨htimely.sorted, fun c hm => ?_⟩
  obtain ⟨i, -, -, hclock⟩ := htimely.sampled c hm
  exact hc.started i c hclock

theorem Granted.budget (h : Granted permit limit remaining) (hstarted : permit.startedNanos ≤ now)
    (hnow : now < permit.exclusiveDeadline) :
    int64 (permit.exclusiveDeadline - now) = permit.exclusiveDeadline - now := by
  have hle : permit.exclusiveDeadline ≤ permit.startedNanos + limit := by
    rw [h.deadline]
    exact exclusiveDeadline_le h.started.1 (le_of_lt h.positive.1)
  have hlimit := h.positive.2
  exact int64_of_range (by omega) (by omega)

/-- Every attempt is made within the budget of its operation. -/
theorem attempts_disciplined (o : Operation Schema Data Payload) (w : World)
    (hgranted : Granted o.permit timeout remaining) (htimeout : 0 < o.cfg.attemptTimeout)
    (hclock : Nondecreasing o.permit w) : Disciplined o w timeout remaining := by
  obtain ⟨p, before, attempts, after, h⟩ := o.phased w
  obtain ⟨hsorted, hstarted⟩ := Operation.timely hclock
  have hearlier : ∀ {g u now}, o.log w = g ++ .clock (some now) :: u →
      now < o.permit.exclusiveDeadline →
      ∀ c ∈ readings (g ++ [.clock (some now)]), c < o.permit.exclusiveDeadline := by
    intro g u now he
    rw [he] at hsorted
    exact readings_before hsorted
  refine ⟨hgranted.deadline, ?_, ?_, ?_, fun hook hk => h.hooks_once hk, ?_, ?_, ?_, ?_,
    ⟨p, fun g q u => h.retried⟩, h.loop.stopped⟩
  · rw [h.sends_eq]
    exact h.loop.numbered
  · rw [h.sends_eq]
    have := h.loop.limited
    omega
  · obtain ⟨apiKey, hshared⟩ := h.shared
    exact ⟨apiKey, p.key, p.body, hshared⟩
  · intro g q u he
    obtain ⟨g₁, before, now, after, opening, headers, rfl, hafter, hopening, hq⟩ :=
      h.paced g _ u he
    have hreadings := hearlier (g := g₁ ++ [.clock (some before), .clock (some now)])
      (u := opening ++ .beginCall :: .send q :: u) (by rw [he]; simp [checks]) hafter
    rw [List.append_assoc] at hreadings
    have hnow : now < o.permit.exclusiveDeadline :=
      hreadings now (mem_readings (by simp))
    have hbegan : o.permit.startedNanos ≤ now :=
      hstarted now (mem_readings (by rw [he]; simp [checks]))
    refine ⟨g₁, before, now, after, opening, rfl, hopening, ?_, ?_, hreadings⟩
    · rw [hq]
      simp only [attemptRequest, hgranted.budget hbegan hnow]
      omega
    · rw [hq]
      simp only [attemptRequest, hgranted.budget hbegan hnow]
      omega
  · intro g e u he hk
    obtain ⟨g₁, before, now, after, reading, reading', rfl, hafter⟩ := h.paced g _ u he hk
    refine ⟨g₁ ++ checks before now after, reading, reading', by simp, ?_⟩
    have hreadings := hearlier (g := g₁ ++ [.clock (some before), .clock (some now)])
      (u := .clock reading :: .clock reading' :: .observer e :: u) (by rw [he]; simp [checks])
      hafter
    rw [List.append_assoc] at hreadings
    exact hreadings
  · intro g k u he
    obtain ⟨g₁, before, now, after, reading, reading', b, rfl, hafter⟩ := h.paced g _ u he
    refine ⟨g₁ ++ checks before now after, reading, reading', b, by simp, ?_⟩
    have hreadings := hearlier (g := g₁ ++ [.clock (some before), .clock (some now)])
      (by rw [he]; simp [checks]; rfl) hafter
    rw [List.append_assoc] at hreadings
    exact hreadings
  · intro result hresult
    obtain ⟨g, now, u, he, hnow, hu⟩ := h.accepted hresult
    exact ⟨g, now, u, he, hearlier he hnow, hu⟩

end Discipline

namespace Sample

/-- A clock that reaches the deadline at one observation and stays there. -/
def lateWorld (late : Nat) : World :=
  { world accepts accepts with clock := fun i => some (if i < late then 1 else 120000000000) }

def grantingConfig : AdmissionConfig := { admissionConfig with operationTimeout := 120000000000 }

theorem operation_granted : Granted operation.permit 120000000000 none where
  admission := ⟨newRuntimeState grantingConfig, _, {}, _, rfl, rfl, rfl, rfl, rfl⟩
  started := by decide
  positive := by decide

theorem lateWorld_nondecreasing (late : Nat) :
    Nondecreasing operation.permit (lateWorld late) where
  started := by
    intro i now h
    cases h
    show (0 : Int) ≤ if i < late then 1 else 120000000000
    split <;> decide
  mono := by
    intro i j a b hij ha hb
    cases ha
    cases hb
    show (if i < late then (1 : Int) else 120000000000) ≤ if j < late then 1 else 120000000000
    split <;> split <;> omega

end Sample

theorem Sample.accepting_disciplined :
    Disciplined Sample.operation (Sample.lateWorld 72) 120000000000 none :=
  attempts_disciplined _ _ Sample.operation_granted (by decide)
    (Sample.lateWorld_nondecreasing 72)

/-- The samples that only time the reports may reach the deadline, and the result is returned. -/
theorem Sample.accepted_with_late_sample :
    Nondecreasing Sample.operation.permit (Sample.lateWorld 72) ∧
      (∃ result, Sample.operation.result (Sample.lateWorld 72) = .ok result) ∧
      ∃ c ∈ readings (Sample.operation.log (Sample.lateWorld 72)),
        Sample.operation.permit.exclusiveDeadline ≤ c := by
  refine ⟨Sample.lateWorld_nondecreasing 72, ?_, ?_⟩
  · exact ⟨{ id := lit "msg_1", type := lit "order.created", customerID := lit "cus_1"
             timestamp := lit "2026-01-01T00:00:00Z" }, by decide +kernel⟩
  · exact ⟨120000000000, by decide +kernel, by decide⟩

end Repost
