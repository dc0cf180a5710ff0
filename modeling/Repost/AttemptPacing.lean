import Repost.AttemptEnds
import Repost.ReportRuns

namespace Repost
open GoText Traced
set_option autoImplicit true

def Event.sent? : Event → Option AttemptRequest
  | .send request => some request
  | _ => none

def sends (h : List Event) : List AttemptRequest := h.filterMap Event.sent?

theorem sends_append (h t : List Event) : sends (h ++ t) = sends h ++ sends t :=
  List.filterMap_append

theorem sends_eq_nil (ht : ∀ e ∈ t, e.kind ≠ .send) : sends t = [] := by
  apply List.filterMap_eq_nil_iff.2
  intro e he
  cases e with
  | send request => exact absurd rfl (ht _ he)
  | _ => rfl

theorem sends_idle (ht : ∀ e ∈ t, e.Idle) : sends t = [] :=
  sends_eq_nil fun e he => (ht e he).1

theorem mem_sends : q ∈ sends h ↔ ∃ g u, h = g ++ .send q :: u := by
  constructor
  · intro hq
    obtain ⟨e, he, hs⟩ := List.mem_filterMap.1 hq
    cases e with
    | send request =>
      cases hs
      exact List.append_of_mem he
    | _ => cases hs
  · rintro ⟨g, u, rfl⟩
    exact List.mem_filterMap.2 ⟨.send q, List.mem_append_right _ List.mem_cons_self, rfl⟩

structure Ready (s : OpState) : Prop where
  unfinished : s.finished = false
  closed : s.attemptNumber = 0
  unheld : s.attemptTelemetry = false

theorem Ready.of_reports (hr : s'.reports = s.reports) (h : Ready s) : Ready s' :=
  ⟨(reports_field hr OpState.finished).trans h.unfinished,
    (reports_field hr OpState.attemptNumber).trans h.closed,
    (reports_field hr OpState.attemptTelemetry).trans h.unheld⟩

structure Underway (k : Nat) (s : OpState) : Prop where
  unfinished : s.finished = false
  number : s.attemptNumber = k
  positive : k ≠ 0

theorem Underway.of_reports (hr : s'.reports = s.reports) (h : Underway k s) : Underway k s' :=
  ⟨(reports_field hr OpState.finished).trans h.unfinished,
    (reports_field hr OpState.attemptNumber).trans h.number, h.positive⟩

theorem Underway.ended (h : Underway k s)
    (he : endAttempt cfg err retryable w s = (r, s', t)) : Ready s' := by
  obtain ⟨_, _, _, _, _, _, -, -, -, -, -, -, -, hr⟩ :=
    endAttempt_run (h.number.trans_ne h.positive) he
  exact .of_reports hr ⟨h.unfinished, rfl, rfl⟩

theorem Waits.ready (hs : Ready s) (h : Waits w cfg last k s r s' t) : Ready s' := by
  cases h with
  | gaveUp hs' _ => exact hs.of_reports hs'.reports
  | waited hs₁ hr hs₂ _ =>
    have h₁ := hs.of_reports hs₁.reports
    obtain ⟨_, _, -, -, hrep⟩ := reportRetry_run h₁.unfinished hr
    exact .of_reports hs₂.reports (.of_reports hrep ⟨h₁.unfinished, h₁.closed, h₁.unheld⟩)

theorem Closes.ready (hs : Underway k s) (h : Closes w cfg permit k s r s' t) : Ready s' := by
  cases h with
  | failed hs' he _ | accepted hs' _ he => exact (hs.of_reports hs'.reports).ended he
  | retried hs' he _ hw => exact hw.ready ((hs.of_reports hs'.reports).ended he)

theorem Ready.started (hs : Ready s) (hk : k ≠ 0)
    (h : startAttempt cfg k w s = (r, s', t)) : Underway k s' := by
  obtain ⟨_, _, _, _, _, _, _, -, -, -, -, -, -, hr⟩ :=
    startAttempt_run hs.unfinished hs.unheld h
  exact .of_reports hr ⟨hs.unfinished, rfl, hk⟩

theorem AttemptRun.ready (hs : Ready s) (hk : k ≠ 0) (h : AttemptRun w cfg permit p k s r s' t) :
    Ready s' := by
  cases h with
  | unstarted hs' _ _ => exact hs.of_reports hs'.reports
  | started hs' _ _ hstart hcl _ _ => exact hcl.ready ((hs.of_reports hs'.reports).started hk hstart)

/-- The three samples before an attempt is started, for its budget between two checks. -/
def checks (before now after : Int) : List Event :=
  [.clock (some before), .clock (some now), .clock (some after)]

def Opening (cfg : RuntimeConfig) (k : Nat) (t : List Event) : Prop :=
  ∃ reading reading' b spans held, SpanOpened k held spans ∧
    t = .clock reading :: (announced cfg { kind := .attemptStart, attemptNumber := k } reading' b ++
      spans)

def Budgeted (w : World) (cfg : RuntimeConfig) (permit : Permit) (p : Prepared) (g : List Event)
    (q : AttemptRequest) : Prop :=
  ∃ g₁ before now after opening headers, g = g₁ ++ (checks before now after ++ opening ++ [.beginCall]) ∧
    after < permit.exclusiveDeadline ∧ Opening cfg q.attemptNumber opening ∧
    q = attemptRequest cfg permit p w.operationID q.attemptNumber now headers

def Started (permit : Permit) (g : List Event) : Prop :=
  ∃ g₁ before now after reading reading',
    g = g₁ ++ (checks before now after ++ [.clock reading, .clock reading']) ∧
    after < permit.exclusiveDeadline

def Spanned (cfg : RuntimeConfig) (permit : Permit) (k : Nat) (g : List Event) : Prop :=
  ∃ g₁ before now after reading reading' b,
    g = g₁ ++ (checks before now after ++ .clock reading ::
      announced cfg { kind := .attemptStart, attemptNumber := k } reading' b) ∧
    after < permit.exclusiveDeadline

/-- The attempt before this one ended in an error that may be retried. -/
def Retried (w : World) (cfg : RuntimeConfig) (p : Prepared) (g : List Event) (q : AttemptRequest) :
    Prop :=
  ∃ st before committed e, .settled st ∈ g ∧ st.request.attemptNumber + 1 = q.attemptNumber ∧
    attemptError cfg p w.operationID st.request.attemptNumber before committed st.effective =
      some e ∧ e.retryable = true

def Paced (w : World) (cfg : RuntimeConfig) (permit : Permit) (p : Prepared) (g : List Event) :
    Event → Prop
  | .send q => Budgeted w cfg permit p g q
  | .observer e => e.kind = .attemptStart → Started permit g
  | .attemptSpan k => Spanned cfg permit k g
  | _ => True

theorem Paced.after (t g : List Event) (e : Event) (h : Paced w cfg permit p g e) :
    Paced w cfg permit p (t ++ g) e := by
  cases e with
  | send q =>
    obtain ⟨g₁, before, now, after, opening, headers, rfl, ha, ho, hq⟩ := h
    exact ⟨t ++ g₁, before, now, after, opening, headers, (List.append_assoc ..).symm, ha, ho, hq⟩
  | observer e =>
    intro hk
    obtain ⟨g₁, before, now, after, reading, reading', rfl, ha⟩ := h hk
    exact ⟨t ++ g₁, before, now, after, reading, reading', (List.append_assoc ..).symm, ha⟩
  | attemptSpan k =>
    obtain ⟨g₁, before, now, after, reading, reading', b, rfl, ha⟩ := h
    exact ⟨t ++ g₁, before, now, after, reading, reading', b, (List.append_assoc ..).symm, ha⟩
  | _ => trivial

theorem Retried.after (h : Retried w cfg p g q) : Retried w cfg p (t ++ g) q := by
  obtain ⟨st, before, committed, e, hm, hrest⟩ := h
  exact ⟨st, before, committed, e, List.mem_append_right _ hm, hrest⟩

def Event.Follows : Event → Prop
  | .send _ | .attemptSpan _ => False
  | .observer e => e.kind ≠ .attemptStart
  | _ => True

theorem Event.Follows.paced (h : Event.Follows e) (g : List Event) :
    Paced w cfg permit p g e := by
  cases e with
  | send q | attemptSpan k => exact absurd h id
  | observer e => exact fun hk => absurd hk h
  | _ => trivial

theorem mem_announced (h : e ∈ announced cfg event reading a) :
    e = .clock reading ∨ e = .observer { event with timestamp := a } := by
  unfold announced at h
  split at h
  · rcases List.mem_cons.1 h with rfl | h
    · exact .inl rfl
    · exact .inr (List.mem_singleton.1 h)
  · cases h

theorem follows_announced (hk : event.kind ≠ .attemptStart)
    (h : e ∈ announced cfg event reading a) : e.Follows := by
  rcases mem_announced h with rfl | rfl
  · trivial
  · exact hk

theorem follows_flaky (hu : Flaky u) (h : e ∈ u) : e.Follows := by
  rcases hu with rfl | rfl
  · cases h
  · rw [List.mem_singleton.1 h]
    trivial

theorem follows_silent (hs : Silent s s' t) (hi : e.kind ≠ .send) (h : e ∈ t) : e.Follows := by
  have hr := hs.events e h
  cases e with
  | send q => exact absurd rfl hi
  | observer e | attemptSpan k => exact absurd rfl hr
  | _ => trivial

theorem Underway.follows (hs : Underway k s)
    (he : endAttempt cfg err retryable w s = (r, s', t)) (h : e ∈ t) : e.Follows := by
  obtain ⟨reading, a, reading', b, summary, u, -, -, -, -, -, hu, rfl, -⟩ :=
    endAttempt_run (hs.number.trans_ne hs.positive) he
  rcases List.mem_cons.1 h with rfl | h
  · trivial
  rcases List.mem_append.1 h with h | h
  · refine follows_announced ?_ h
    nofun
  · unfold spanEnded at h
    split at h
    · rcases List.mem_cons.1 h with rfl | h
      · trivial
      · exact follows_flaky hu h
    · cases h

theorem Waits.follows (hs : Ready s) (h : Waits w cfg last k s r s' t) (hi : e.kind ≠ .send)
    (he : e ∈ t) : e.Follows := by
  cases h with
  | gaveUp hs' _ => exact follows_silent hs' hi he
  | waited hs₁ hr hs₂ _ =>
    obtain ⟨reading, a, -, rfl, -⟩ := reportRetry_run (hs.of_reports hs₁.reports).unfinished hr
    rcases List.mem_append.1 he with he | he
    · exact follows_silent hs₁ hi he
    rcases List.mem_append.1 he with he | he
    · refine follows_announced ?_ he
      nofun
    · exact follows_silent hs₂ hi he

theorem Closes.follows (hs : Underway k s) (h : Closes w cfg permit k s r s' t)
    (hi : e.kind ≠ .send) (he : e ∈ t) : e.Follows := by
  cases h with
  | failed hs' hend _ | accepted hs' _ hend =>
    rcases List.mem_append.1 he with he | he
    · exact follows_silent hs' hi he
    · exact (hs.of_reports hs'.reports).follows hend he
  | retried hs' hend _ hw =>
    have hopen := hs.of_reports hs'.reports
    rcases List.mem_append.1 he with he | he
    · exact follows_silent hs' hi he
    rcases List.mem_append.1 he with he | he
    · exact hopen.follows hend he
    · exact hw.follows (hopen.ended hend) hi he

theorem paced_checks : Each (Paced w cfg permit p) (checks before now after) := by
  refine .of_forall fun e he g => ?_
  simp only [checks, List.mem_cons, List.not_mem_nil, or_false] at he
  rcases he with rfl | rfl | rfl <;> trivial

theorem Opening.paced (h : Opening cfg k t) (ha : after < permit.exclusiveDeadline) :
    Each (Paced w cfg permit p) (checks before now after ++ t) := by
  obtain ⟨reading, reading', b, spans, held, hspans, rfl⟩ := h
  have hannounced : Each (Paced w cfg permit p) (checks before now after ++ .clock reading ::
      announced cfg { kind := .attemptStart, attemptNumber := k } reading' b) := by
    unfold announced
    split
    · have hclocks : Each (Paced w cfg permit p)
          (checks before now after ++ [.clock reading] ++ [.clock reading']) :=
        .concat (.concat paced_checks trivial) trivial
      have hlast := hclocks.concat (e := .observer
        { kind := .attemptStart, attemptNumber := k, timestamp := b })
        fun _ => ⟨[], before, now, after, reading, reading', by simp, ha⟩
      simpa using hlast
    · exact .concat paced_checks trivial
  rw [← List.cons_append, ← List.append_assoc]
  cases hspans with
  | absent => rwa [List.append_nil]
  | refused => exact hannounced.concat trivial
  | held hu =>
    have hspanned : Spanned cfg permit k (checks before now after ++ .clock reading ::
        announced cfg { kind := .attemptStart, attemptNumber := k } reading' b) :=
      ⟨[], before, now, after, reading, reading', b, rfl, ha⟩
    have hpaced : Paced w cfg permit p _ (.attemptSpan k) := hspanned
    rw [List.append_cons]
    exact (hannounced.concat hpaced).append Paced.after
      (.of_forall fun e he g => (follows_flaky hu he).paced g)

theorem AttemptRun.paced (hs : Ready s) (hk : k ≠ 0) (h : AttemptRun w cfg permit p k s r s' t) :
    Each (Paced w cfg permit p) t := by
  cases h with
  | unstarted hs' hi _ =>
    exact .of_forall fun e he g => (follows_silent hs' (hi e he).1 he).paced g
  | @started s₁ s₂ t₁ headers _ _ t₂ before now after hs' _ ha hstart hcl hcall _ =>
    have hready := hs.of_reports hs'.reports
    have hopen := hready.started hk hstart
    have hfollows : ∀ e ∈ t₂, e.kind ≠ .send → e.Follows := fun e he hi => hcl.follows hopen hi he
    obtain ⟨_, reading, a, reading', b, spans, held, -, -, -, ht, hspans, -, -⟩ :=
      startAttempt_run hready.unfinished hready.unheld hstart
    have hopening : Opening cfg k t₁ := ⟨reading, reading', b, spans, held, hspans, ht⟩
    have hstarted : Each (Paced w cfg permit p) (checks before now after ++ t₁) :=
      hopening.paced ha
    rw [← List.append_assoc]
    rcases hcall with hi | ⟨t₃, rfl, hi⟩
    · exact .append Paced.after hstarted
        (.of_forall fun e he g => (hfollows e he (hi e he).1).paced g)
    · have hcalled : Each (Paced w cfg permit p) (checks before now after ++ t₁ ++ [.beginCall] ++
          [.send (attemptRequest cfg permit p w.operationID k now headers)]) := by
        refine .concat (hstarted.concat trivial) ?_
        exact ⟨[], before, now, after, t₁, headers, rfl, ha, hopening, rfl⟩
      have hrest := hcalled.append Paced.after (t := t₃) (.of_forall fun e he g =>
        (hfollows e (List.mem_cons_of_mem _ (List.mem_cons_of_mem _ he)) (hi e he).1).paced g)
      simpa [checks] using hrest

theorem AttemptRun.sends (h : AttemptRun w cfg permit p k s r s' t) :
    sends t = [] ∧ (∃ x, r = .error x) ∨ ∃ q, sends t = [q] ∧ q.attemptNumber = k := by
  cases h with
  | unstarted _ hi _ => exact .inl ⟨sends_idle hi, _, rfl⟩
  | @started s₁ s₂ t₁ headers _ _ t₂ before now after _ _ _ hstart _ hcall hok =>
    have hopening : Repost.sends t₁ = [] :=
      sends_idle ((idle_loose w).startAttempt ⟨nofun, nofun⟩ hstart)
    rw [sends_append, sends_append, hopening]
    rcases hcall with hi | ⟨t₃, rfl, hi⟩
    · refine .inl ⟨sends_idle hi, ?_⟩
      cases r with
      | error x => exact ⟨x, rfl⟩
      | ok v =>
        obtain ⟨st, t₃, t₄, -, rfl, -⟩ := hok v rfl
        exact absurd rfl (hi (.send st.request) (by simp)).1
    · refine .inr ⟨attemptRequest cfg permit p w.operationID k now headers, ?_, rfl⟩
      exact congrArg (List.cons _) (sends_idle hi)

theorem AttemptRun.retried (h : AttemptRun w cfg permit p k s (.ok (.retry c)) s' t) :
    k ≠ cfg.maxAttempts ∧ ∀ q : AttemptRequest, q.attemptNumber = k + 1 → Retried w cfg p t q := by
  generalize hr : (Except.ok (.retry c) : Except Stop Verdict) = r at h
  cases h with
  | unstarted _ _ _ => cases hr
  | started _ _ _ _ _ _ hok =>
    subst hr
    obtain ⟨st, t₃, t₄, hst, rfl, hretry⟩ := hok _ rfl
    obtain ⟨hmax, before, committed, e, he, hretryable⟩ := hretry c rfl
    have hnumber : st.request.attemptNumber = k := by
      rw [hst]
      rfl
    refine ⟨hmax, fun q hq => ⟨st, before, committed, e, by simp, ?_, ?_, hretryable⟩⟩
    · rw [hnumber, hq]
    · rw [hnumber]
      exact he

def Event.isClock : Event → Bool
  | .clock _ => true
  | _ => false

theorem samples_announced : (announced cfg e reading a).countP Event.isClock =
    if cfg.observer then 1 else 0 := by
  unfold announced
  split <;> rfl

theorem samples_flaky (hu : Flaky u) : u.countP Event.isClock = 0 := by
  rcases hu with rfl | rfl <;> rfl

theorem samples_spanEnded (hu : Flaky u) (he : e.isClock = false) :
    (spanEnded held e u).countP Event.isClock = 0 := by
  unfold spanEnded
  split
  · rw [List.countP_cons_of_neg (by rw [he]; nofun), samples_flaky hu]
  · rfl

theorem Underway.samples (hs : Underway k s)
    (he : endAttempt cfg err retryable w s = (r, s', t)) :
    t.countP Event.isClock = if cfg.observer then 2 else 1 := by
  obtain ⟨reading, a, reading', b, summary, u, -, -, -, -, -, hu, rfl, -⟩ :=
    endAttempt_run (hs.number.trans_ne hs.positive) he
  rw [List.countP_cons_of_pos rfl, List.countP_append, samples_announced,
    samples_spanEnded hu rfl]
  split <;> rfl

theorem AttemptRun.accepted (hs : Ready s) (hk : k ≠ 0)
    (h : AttemptRun w cfg permit p k s (.ok (.accepted result)) s' t) :
    ∃ g now u, t = g ++ .clock (some now) :: u ∧ now < permit.exclusiveDeadline ∧
      u.countP Event.isClock = if cfg.observer then 2 else 1 := by
  generalize hr : (Except.ok (.accepted result) : Except Stop Verdict) = r at h
  cases h with
  | unstarted _ _ _ => cases hr
  | @started _ _ t₁ _ _ _ _ before now after hs' _ _ hstart hcl _ _ =>
    have hopen := (hs.of_reports hs'.reports).started hk hstart
    cases hcl with
    | failed _ _ _ => cases hr
    | @accepted _ t₂ now' _ t₃ _ hsilent hn hend =>
      refine ⟨checks before now after ++ (t₁ ++ t₂), now', t₃, by simp [checks], hn, ?_⟩
      exact (hopen.of_reports hsilent.reports).samples hend
    | @retried _ _ _ _ _ r _ _ _ _ _ _ _ => cases r <;> cases hr

theorem Closes.counts (h : Closes w cfg permit k s r s' t) (hr : r = .error x) : Counts k x := by
  cases h with
  | failed _ _ hc =>
    cases hr
    exact ⟨_, rfl, hc⟩
  | accepted _ _ _ => cases hr
  | @retried _ _ _ _ _ r _ _ _ _ _ _ hw =>
    cases r with
    | ok _ => cases hr
    | error y =>
      cases hr
      cases hw with
      | gaveUp _ hc => exact hc
      | waited _ _ _ hx => exact hx x rfl

theorem AttemptRun.counts (h : AttemptRun w cfg permit p k s (.error x) s' t) :
    Counts (k - 1) x ∨ Counts k x := by
  generalize hr : (Except.error x : Except Stop Verdict) = r at h
  cases h with
  | unstarted _ _ hx =>
    cases hr
    exact .inl hx
  | started _ _ _ _ hcl _ _ => exact .inr (hcl.counts hr.symm)

structure LoopPaced (w : World) (cfg : RuntimeConfig) (permit : Permit) (p : Prepared) (k : Nat)
    (r : Except Stop SendResult) (t : List Event) : Prop where
  numbered : (sends t).map (·.attemptNumber) = List.range' k (sends t).length
  limited : k + (sends t).length ≤ cfg.maxAttempts + 1
  paced : Each (Paced w cfg permit p) t
  retried : ∀ g q u, t = g ++ .send q :: u → k < q.attemptNumber → Retried w cfg p g q
  accepted : ∀ result, r = .ok result → ∃ g now u, t = g ++ .clock (some now) :: u ∧
    now < permit.exclusiveDeadline ∧ u.countP Event.isClock = if cfg.observer then 2 else 1
  stopped : ∀ x, r = .error x → ∃ e, x = .error e

theorem AttemptRun.last (hs : Ready s) (hk : k ≠ 0) (hmax : k ≤ cfg.maxAttempts)
    (h : AttemptRun w cfg permit p k s r s' t)
    {r' : Except Stop SendResult}
    (hok : ∀ result, r' = .ok result → r = .ok (.accepted result))
    (herr : ∀ x, r' = .error x → r = .error x) : LoopPaced w cfg permit p k r' t where
  numbered := by
    rcases h.sends with ⟨hn, -⟩ | ⟨q, hq, hnumber⟩
    · rw [hn]
      rfl
    · rw [hq]
      simp [hnumber]
  limited := by
    rcases h.sends with ⟨hn, -⟩ | ⟨q, hq, -⟩
    · rw [hn, List.length_nil]
      omega
    · rw [hq, List.length_singleton]
      omega
  paced := h.paced hs hk
  retried := by
    intro g q u he hlt
    have hq : q ∈ Repost.sends t := mem_sends.2 ⟨g, u, he⟩
    rcases h.sends with ⟨hn, -⟩ | ⟨q', hq', hnumber⟩
    · rw [hn] at hq
      cases hq
    · rw [hq', List.mem_singleton] at hq
      rw [hq, hnumber] at hlt
      exact absurd hlt (lt_irrefl _)
  accepted := by
    intro result hres
    have hrun := hok result hres
    subst hrun
    exact h.accepted hs hk
  stopped := by
    intro x hx
    have hrun := herr x hx
    subst hrun
    rcases h.counts with ⟨e, he, -⟩ | ⟨e, he, -⟩
    · exact ⟨e, he⟩
    · exact ⟨e, he⟩

theorem AttemptRun.andThen (hs : Ready s) (hk : k ≠ 0)
    (h : AttemptRun w cfg permit p k s (.ok (.retry c)) s' t)
    (hrest : LoopPaced w cfg permit p (k + 1) r t') : LoopPaced w cfg permit p k r (t ++ t') := by
  obtain ⟨q₀, hq₀, hnumber⟩ : ∃ q, Repost.sends t = [q] ∧ q.attemptNumber = k := by
    rcases h.sends with ⟨-, x, hx⟩ | hq
    · cases hx
    · exact hq
  have hsends : Repost.sends (t ++ t') = q₀ :: Repost.sends t' := by
    rw [sends_append, hq₀, List.singleton_append]
  refine ⟨?_, ?_, .append Paced.after (h.paced hs hk) hrest.paced, ?_, ?_, hrest.stopped⟩
  · rw [hsends, List.map_cons, List.length_cons, List.range'_succ, hnumber, hrest.numbered]
  · rw [hsends, List.length_cons]
    have := hrest.limited
    omega
  · intro g q u he hlt
    rcases append_eq_append_cons he with ⟨v, hv⟩ | ⟨v, rfl, hv⟩
    · have hq : q ∈ Repost.sends t := mem_sends.2 ⟨g, v, hv⟩
      rw [hq₀, List.mem_singleton] at hq
      rw [hq, hnumber] at hlt
      exact absurd hlt (lt_irrefl _)
    · by_cases hnext : q.attemptNumber = k + 1
      · obtain ⟨st, before, committed, e, hm, hfacts⟩ := h.retried.2 q hnext
        exact ⟨st, before, committed, e, List.mem_append_left _ hm, hfacts⟩
      · exact (hrest.retried v q u hv (by omega)).after
  · intro result hr
    obtain ⟨g, now, u, rfl, hn, hu⟩ := hrest.accepted result hr
    exact ⟨t ++ g, now, u, (List.append_assoc ..).symm, hn, hu⟩

/-- By induction on the attempts left: an attempt that is not the last one leaves at least one. -/
theorem attemptLoop_paced (hs : Ready s) (hk : k ≠ 0) (hleft : left + k = cfg.maxAttempts + 1)
    (hpos : left ≠ 0) (h : attemptLoop cfg permit p left k committed w s = (r, s', t)) :
    LoopPaced w cfg permit p k r t ∧ Ready s' := by
  induction left generalizing s k committed t with
  | zero => exact absurd rfl hpos
  | succ left ih =>
    rw [attemptLoop] at h
    rcases bind_run h with ⟨x, hx, rfl⟩ | ⟨verdict, s₁, t₁, t₂, hattempt, hrest, rfl⟩
    · have hrun := attemptOnce_run hx
      have hpaced : LoopPaced w cfg permit p k (.error x) t := by
        apply hrun.last hs hk (by omega)
        · intro result hr
          cases hr
        · intro y hy
          cases hy
          rfl
      exact ⟨hpaced, hrun.ready hs hk⟩
    · have hrun := attemptOnce_run hattempt
      cases verdict with
      | accepted result =>
        cases hrest
        rw [List.append_nil]
        have hpaced : LoopPaced w cfg permit p k (.ok result) t₁ := by
          apply hrun.last hs hk (by omega)
          · intro result' hr
            cases hr
            rfl
          · intro y hy
            cases hy
        exact ⟨hpaced, hrun.ready hs hk⟩
      | retry committed' =>
        have hmax := hrun.retried.1
        obtain ⟨hpaced, hready⟩ :=
          ih (hrun.ready hs hk) (Nat.succ_ne_zero k) (by omega) (by omega) hrest
        exact ⟨hrun.andThen hs hk hpaced, hready⟩

end Repost
