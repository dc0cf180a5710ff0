import Repost.AttemptPacing
import Repost.DeliveryFloor

namespace Repost
open GoText Traced
set_option autoImplicit true

def Event.observed? : Event → Option ObserverEvent
  | .observer e => some e
  | _ => none

/-- The handles of the telemetry: where one is obtained and where it is ended. -/
inductive Span where
  | operation | operationEnd
  | attempt (k : Nat) | attemptEnd (k : Nat)
  deriving DecidableEq

def Event.span? : Event → Option Span
  | .operationSpan => some .operation
  | .operationSpanEnd => some .operationEnd
  | .attemptSpan k => some (.attempt k)
  | .attemptSpanEnd k => some (.attemptEnd k)
  | _ => none

def observed (h : List Event) : List ObserverEvent := h.filterMap Event.observed?

def spans (h : List Event) : List Span := h.filterMap Event.span?

theorem observed_append (h t : List Event) : observed (h ++ t) = observed h ++ observed t :=
  List.filterMap_append

theorem spans_append (h t : List Event) : spans (h ++ t) = spans h ++ spans t :=
  List.filterMap_append

def Rising (a : Int) : List Int → Int → Prop
  | [], b => a ≤ b
  | c :: l, b => a ≤ c ∧ Rising c l b

theorem Rising.append (h : Rising a l b) (h' : Rising b l' c) : Rising a (l ++ l') c := by
  induction l generalizing a with
  | nil =>
    cases l' with
    | nil => exact le_trans h h'
    | cons d l' => exact ⟨le_trans h h'.1, h'.2⟩
  | cons d l ih => exact ⟨h.1, ih h.2⟩

theorem Rising.pairwise (h : Rising a l b) : (a :: l).Pairwise (· ≤ ·) := by
  induction l generalizing a with
  | nil => exact List.pairwise_singleton _ _
  | cons c l ih =>
    have hc := ih h.2
    refine List.pairwise_cons.2 ⟨fun d hd => ?_, hc⟩
    rcases List.mem_cons.1 hd with rfl | hd
    · exact h.1
    · exact le_trans h.1 ((List.pairwise_cons.1 hc).1 d hd)

structure Reports (cfg : RuntimeConfig) (s s' : OpState) (t : List Event)
    (events : List ObserverEvent) (handles : List Span) : Prop where
  observed : observed t = if cfg.observer then events else []
  spans : spans t = handles
  stamped : Rising s.lastTimestamp (events.map (·.timestamp)) s'.lastTimestamp

theorem Reports.append (h : Reports cfg s s₁ t es sp) (h' : Reports cfg s₁ s' t' es' sp') :
    Reports cfg s s' (t ++ t') (es ++ es') (sp ++ sp') where
  observed := by
    rw [observed_append, h.observed, h'.observed]
    split <;> rfl
  spans := by rw [spans_append, h.spans, h'.spans]
  stamped := by
    rw [List.map_append]
    exact h.stamped.append h'.stamped

theorem nothing_reported (ht : ∀ e ∈ t, e.kind ≠ .report) : observed t = [] ∧ spans t = [] := by
  constructor
  · apply List.filterMap_eq_nil_iff.2
    intro e he
    cases e with
    | observer e => exact absurd rfl (ht _ he)
    | _ => rfl
  · apply List.filterMap_eq_nil_iff.2
    intro e he
    cases e with
    | operationSpan | operationSpanEnd | attemptSpan k | attemptSpanEnd k =>
      exact absurd rfl (ht _ he)
    | _ => rfl

theorem Silent.reported (h : Silent s s' t) : Reports cfg s s' t [] [] where
  observed := by
    rw [(nothing_reported h.events).1]
    split <;> rfl
  spans := (nothing_reported h.events).2
  stamped := (reports_field h.reports OpState.lastTimestamp).ge

@[simp] theorem observed_announced : observed (announced cfg e reading a) =
    if cfg.observer then [{ e with timestamp := a }] else [] := by
  unfold announced
  split <;> rfl

@[simp] theorem spans_announced : spans (announced cfg e reading a) = [] := by
  unfold announced
  split <;> rfl

theorem flaky_reported (h : Flaky u) : observed u = [] ∧ spans u = [] := by
  rcases h with rfl | rfl <;> exact ⟨rfl, rfl⟩

structure Lasting (s s' : OpState) : Prop where
  telemetry : s'.telemetry = s.telemetry
  startedAt : s'.startedAt = s.startedAt

theorem Lasting.trans (h : Lasting s s₁) (h' : Lasting s₁ s') : Lasting s s' :=
  ⟨h'.telemetry.trans h.telemetry, h'.startedAt.trans h.startedAt⟩

theorem Lasting.of_reports {u : OpState} (h : s'.reports = u.reports)
    (ht : u.telemetry = s.telemetry := by rfl) (hs : u.startedAt = s.startedAt := by rfl) :
    Lasting s s' :=
  ⟨(reports_field h OpState.telemetry).trans ht, (reports_field h OpState.startedAt).trans hs⟩

def startEvent (k : Nat) (timestamp : Int) : ObserverEvent :=
  { kind := .attemptStart, attemptNumber := k, timestamp := timestamp }

def handle (held : Bool) (span : Span) : List Span := if held then [span] else []

theorem SpanOpened.spans (h : SpanOpened k b t) :
    observed t = [] ∧ spans t = handle b (.attempt k) := by
  cases h with
  | absent => exact ⟨rfl, rfl⟩
  | refused => exact ⟨rfl, rfl⟩
  | held hu =>
    refine ⟨(flaky_reported hu).1, ?_⟩
    exact congrArg (List.cons _) (flaky_reported hu).2

theorem spanEnded_spans (hu : Flaky u) (ho : e.observed? = none) (hs : e.span? = some span) :
    observed (spanEnded held e u) = [] ∧ spans (spanEnded held e u) = handle held span := by
  cases held with
  | false => exact ⟨rfl, rfl⟩
  | true =>
    constructor
    · exact (List.filterMap_cons_none ho).trans (flaky_reported hu).1
    · exact (List.filterMap_cons_some hs).trans (congrArg (List.cons _) (flaky_reported hu).2)

structure OpenFrom (s s' : OpState) (k : Nat) (held : Bool) : Prop where
  number : s'.attemptNumber = k
  handle : s'.attemptTelemetry = held
  summaries : s'.summaries = s.summaries
  lasting : Lasting s s'

theorem startAttempt_reported (hs : Ready s) (h : startAttempt cfg k w s = (r, s', t)) :
    ∃ a held, Reports cfg s s' t [startEvent k a] (handle held (.attempt k)) ∧
      (held = true → s.telemetry = true) ∧ OpenFrom s s' k held := by
  obtain ⟨headers, reading, a, reading', b, opened, held, -, hle, hle', rfl, hopened, hheld, hr⟩ :=
    startAttempt_run hs.unfinished hs.unheld h
  refine ⟨b, held, ⟨?_, ?_, ?_⟩, hheld, ⟨?_, ?_, ?_, ?_⟩⟩
  · show observed (announced _ _ _ _ ++ opened) = _
    rw [observed_append, observed_announced, hopened.spans.1, List.append_nil]
    rfl
  · show spans (announced _ _ _ _ ++ opened) = _
    rw [spans_append, spans_announced, hopened.spans.2, List.nil_append]
  · refine ⟨le_trans hle hle', ?_⟩
    exact (reports_field hr OpState.lastTimestamp).ge
  · exact reports_field hr OpState.attemptNumber
  · exact reports_field hr OpState.attemptTelemetry
  · exact reports_field hr OpState.summaries
  · exact .of_reports hr

def AttemptSummary.reported (summary : AttemptSummary) (timestamp : Int) : ObserverEvent :=
  { summary.event with timestamp := timestamp }

theorem nonnegativeDuration_nonneg (nanos : Int) : 0 ≤ nonnegativeDuration nanos := by
  unfold nonnegativeDuration
  split <;> omega

theorem endAttempt_reported (hk : s.attemptNumber = k) (hpos : k ≠ 0)
    (hroom : s.summaries.length < 10)
    (h : endAttempt cfg err retryable w s = (r, s', t)) :
    ∃ summary a, summary.attemptNumber = k ∧ 0 ≤ summary.duration ∧
      Reports cfg s s' t [summary.reported a] (handle s.attemptTelemetry (.attemptEnd k)) ∧
      s'.summaries = s.summaries ++ [summary] ∧ Lasting s s' := by
  obtain ⟨reading, a, reading', b, summary, u, -, hle, hle', hnumber, hduration, hu, rfl, hr⟩ :=
    endAttempt_run (hk.trans_ne hpos) h
  have hspans : observed (spanEnded s.attemptTelemetry (.attemptSpanEnd s.attemptNumber) u) = [] ∧
      spans (spanEnded s.attemptTelemetry (.attemptSpanEnd s.attemptNumber) u) =
        handle s.attemptTelemetry (.attemptEnd s.attemptNumber) := spanEnded_spans hu rfl rfl
  refine ⟨summary, b, hnumber.trans hk, ?_, ⟨?_, ?_, ?_⟩, ?_, ?_⟩
  · rw [hduration]
    exact nonnegativeDuration_nonneg _
  · show observed (announced _ _ _ _ ++ _) = _
    rw [observed_append, observed_announced, hspans.1, List.append_nil]
    rfl
  · show spans (announced _ _ _ _ ++ _) = _
    rw [spans_append, spans_announced, hspans.2, List.nil_append, hk]
  · refine ⟨le_trans hle hle', ?_⟩
    exact (reports_field hr OpState.lastTimestamp).ge
  · have hsummaries : s'.summaries = if s.summaries.length < 10 then s.summaries ++ [summary]
        else s.summaries := reports_field hr OpState.summaries
    rwa [if_pos hroom] at hsummaries
  · exact .of_reports hr

theorem Waits.reported (hs : Ready s) (h : Waits w cfg last k s r s' t) :
    ∃ delay : Option ObserverEvent, Reports cfg s s' t delay.toList [] ∧
      (∀ e ∈ delay, ∃ nanos a, e = { retryDelayEvent nanos last with timestamp := a }) ∧
      (r = .ok () → delay.isSome) ∧ s'.summaries = s.summaries ∧ Lasting s s' := by
  cases h with
  | gaveUp hs' _ =>
    refine ⟨none, hs'.reported, ?_, ?_, ?_, .of_reports hs'.reports⟩
    · intro e he
      cases he
    · intro hr
      cases hr
    · exact reports_field hs'.reports OpState.summaries
  | @waited s₁ t₁ delay s₂ t₂ _ t₃ r hs₁ hr hs₂ _ =>
    obtain ⟨reading, a, hle, rfl, hrep⟩ :=
      reportRetry_run (hs.of_reports hs₁.reports).unfinished hr
    have hreports : Reports cfg s₁ s₂ (announced cfg (retryDelayEvent delay last) reading a)
        [{ retryDelayEvent delay last with timestamp := a }] [] :=
      ⟨observed_announced, spans_announced, hle,
        (reports_field hrep OpState.lastTimestamp).ge⟩
    refine ⟨some { retryDelayEvent delay last with timestamp := a }, ?_, ?_, fun _ => rfl, ?_, ?_⟩
    · exact hs₁.reported.append (hreports.append hs₂.reported)
    · intro e he
      cases he
      exact ⟨delay, a, rfl⟩
    · have h₁ := reports_field hs₁.reports OpState.summaries
      have h₂ : s₂.summaries = s₁.summaries := reports_field hrep OpState.summaries
      have h₃ := reports_field hs₂.reports OpState.summaries
      exact h₃.trans (h₂.trans h₁)
    · have hlasting : Lasting s₁ s₂ := .of_reports hrep
      exact (Lasting.of_reports hs₁.reports).trans (hlasting.trans (.of_reports hs₂.reports))

structure Round where
  number : Nat
  startedAt : Int
  summary : AttemptSummary
  endedAt : Int
  delay : Option ObserverEvent

def Round.events (round : Round) : List ObserverEvent :=
  startEvent round.number round.startedAt :: round.summary.reported round.endedAt ::
    round.delay.toList

structure Round.Valid (round : Round) : Prop where
  summarised : round.summary.attemptNumber = round.number
  lasted : 0 ≤ round.summary.duration
  delayed : ∀ e ∈ round.delay, ∃ nanos last a, last.attemptCount = round.number ∧
    e = { retryDelayEvent nanos last with timestamp := a }

structure Concludes (cfg : RuntimeConfig) (k : Nat) (s s' : OpState) (r : Except Stop Verdict)
    (t : List Event) (round : Round) : Prop where
  valid : round.Valid
  number : round.number = k
  reports : Reports cfg s s' t (round.summary.reported round.endedAt :: round.delay.toList)
    (handle s.attemptTelemetry (.attemptEnd k))
  summaries : s'.summaries = s.summaries ++ [round.summary]
  lasting : Lasting s s'
  retried : ∀ c, r = .ok (.retry c) → round.delay.isSome

theorem endAttempt_concludes (startedAt : Int) (hs : Silent s s₁ t₁) (hopen : Underway k s)
    (hroom : s.summaries.length < 10)
    (h : endAttempt cfg err retryable w s₁ = (.ok (), s', t₂)) :
    ∃ round : Round, round.startedAt = startedAt ∧ round.delay = none ∧
      ∀ r : Except Stop Verdict, (∀ c, r ≠ .ok (.retry c)) →
        Concludes cfg k s s' r (t₁ ++ t₂) round := by
  have hsummaries := reports_field hs.reports OpState.summaries
  have hheld := reports_field hs.reports OpState.attemptTelemetry
  have hopen₁ := hopen.of_reports hs.reports
  obtain ⟨summary, a, hnumber, hduration, hreports, hkept, hlasting⟩ :=
    endAttempt_reported hopen₁.number hopen.positive (by rwa [hsummaries]) h
  rw [hheld] at hreports
  rw [hsummaries] at hkept
  refine ⟨⟨k, startedAt, summary, a, none⟩, rfl, rfl, fun r hr => ?_⟩
  exact ⟨⟨hnumber, hduration, fun e he => by cases he⟩, rfl, hs.reported.append hreports, hkept,
    (Lasting.of_reports hs.reports).trans hlasting, fun c hc => absurd hc (hr c)⟩

theorem Closes.concludes (startedAt : Int) (hopen : Underway k s) (hroom : s.summaries.length < 10)
    (h : Closes w cfg permit k s r s' t) :
    ∃ round : Round, round.startedAt = startedAt ∧ Concludes cfg k s s' r t round := by
  cases h with
  | failed hs he hc | accepted hs _ he =>
    obtain ⟨round, hat, -, hround⟩ := endAttempt_concludes startedAt hs hopen hroom he
    exact ⟨round, hat, hround _ nofun⟩
  | @retried s₁ t₁ e s₂ t₂ r _ t₃ c hs he hc hw =>
    obtain ⟨round, hat, hnone, hround⟩ := endAttempt_concludes startedAt hs hopen hroom he
    have hended := hround (.error .panic) nofun
    obtain ⟨delay, hreports, hdelay, hgoes, hsame, hlasting⟩ :=
      hw.reported ((hopen.of_reports hs.reports).ended he)
    refine ⟨{ round with delay := delay }, hat, ⟨?_, ?_, ?_⟩, hended.number, ?_, ?_, ?_, ?_⟩
    · exact hended.valid.summarised
    · exact hended.valid.lasted
    · intro event hevent
      obtain ⟨nanos, a, rfl⟩ := hdelay event hevent
      exact ⟨nanos, e, a, hc.trans hended.number.symm, rfl⟩
    · have happend := hended.reports.append hreports
      rw [hnone, List.append_nil, List.append_assoc] at happend
      exact happend
    · exact hsame.trans hended.summaries
    · exact hended.lasting.trans hlasting
    · intro c' hr
      cases r with
      | error x => cases hr
      | ok _ => exact hgoes rfl

def attemptHandles (k : Nat) : List Span := [.attempt k, .attemptEnd k]

structure LoopReported (cfg : RuntimeConfig) (k : Nat) (s s' : OpState)
    (r : Except Stop SendResult) (t : List Event) (rounds : List Round) (held : List Nat) :
    Prop where
  reports : Reports cfg s s' t (rounds.flatMap Round.events) (held.flatMap attemptHandles)
  numbered : rounds.map (·.number) = List.range' k rounds.length
  valid : ∀ round ∈ rounds, round.Valid
  delayed : ∀ round ∈ rounds.dropLast, round.delay.isSome
  summaries : s'.summaries = s.summaries ++ rounds.map (·.summary)
  lasting : Lasting s s'
  counted : ∀ x, r = .error x → Counts (k - 1 + rounds.length) x
  handles : held.Sublist (List.range' k rounds.length)
  unheld : s.telemetry = false → held = []

theorem LoopReported.nothing (hs : Silent s s' t)
    (hx : ∀ x, r = .error x → Counts (k - 1) x) : LoopReported cfg k s s' r t [] [] where
  reports := hs.reported
  numbered := rfl
  valid := fun round h => by cases h
  delayed := fun round h => by cases h
  summaries := by
    rw [List.map_nil, List.append_nil]
    exact reports_field hs.reports OpState.summaries
  lasting := .of_reports hs.reports
  counted := hx
  handles := List.nil_sublist _
  unheld := fun _ => rfl

theorem AttemptRun.reported (hs : Ready s) (hk : k ≠ 0) (hroom : s.summaries.length < 10)
    (h : AttemptRun w cfg permit p k s r s' t) :
    ∃ rounds held, (∀ final : Except Stop SendResult, (∀ x, final = .error x → r = .error x) →
        LoopReported cfg k s s' final t rounds held) ∧
      ∀ c, r = .ok (.retry c) → ∃ round, rounds = [round] ∧ round.delay.isSome := by
  cases h with
  | unstarted hs' _ hx =>
    refine ⟨[], [], fun final hfinal => .nothing hs' fun y hy => ?_, nofun⟩
    cases hfinal y hy
    exact hx
  | @started s₁ s₂ t₁ headers r _ t₂ before now after hs' _ _ hstart hcl _ _ =>
    have hready := hs.of_reports hs'.reports
    have hsummaries := reports_field hs'.reports OpState.summaries
    have hlasting := Lasting.of_reports hs'.reports
    obtain ⟨a, held, hstarted, hheld, hopen⟩ := startAttempt_reported hready hstart
    obtain ⟨round, rfl, hround⟩ := hcl.concludes a (hready.started hk hstart)
      (by rwa [hopen.summaries, hsummaries])
    have hreports := hs'.reported.append (hstarted.append hround.reports)
    rw [hopen.handle] at hreports
    refine ⟨[round], if held then [k] else [], fun final hfinal => ?_,
      fun c hc => ⟨round, rfl, hround.retried c hc⟩⟩
    refine ⟨?_, congrArg (fun n => [n]) hround.number, ?_, fun round h => (by cases h), ?_,
      hlasting.trans (hopen.lasting.trans hround.lasting), fun x hx => ?_, ?_, fun htel => ?_⟩
    · have hevents : [round].flatMap Round.events = [startEvent k round.startedAt] ++
          (round.summary.reported round.endedAt :: round.delay.toList) := by
        rw [← hround.number]
        exact List.append_nil _
      rw [hevents]
      cases held with
      | true => exact hreports
      | false => exact hreports
    · intro other hother
      rw [List.mem_singleton.1 hother]
      exact hround.valid
    · rw [hround.summaries, hopen.summaries, hsummaries]
      rfl
    · have hcounts := hcl.counts (hfinal x hx)
      rwa [List.length_singleton, Nat.sub_add_cancel (Nat.pos_of_ne_zero hk)]
    · split
      · exact .refl _
      · exact List.nil_sublist _
    · cases held with
      | true =>
        have htrue := hheld rfl
        rw [hlasting.telemetry, htel] at htrue
        cases htrue
      | false => rfl

theorem LoopReported.andThen {round : Round} (hk : k ≠ 0)
    (h : LoopReported cfg k s s₁ r₁ t [round] held)
    (hd : round.delay.isSome) (h' : LoopReported cfg (k + 1) s₁ s' r t' rounds held') :
    LoopReported cfg k s s' r (t ++ t') (round :: rounds) (held ++ held') where
  reports := by
    have hreports := h.reports.append h'.reports
    rwa [← List.flatMap_append, ← List.flatMap_append] at hreports
  numbered := by
    rw [List.map_cons, h'.numbered, List.length_cons, List.range'_succ]
    exact congrArg (· :: _) (List.cons.inj h.numbered).1
  valid := fun other hm => by
    rcases List.mem_cons.1 hm with rfl | hm
    · exact h.valid _ List.mem_cons_self
    · exact h'.valid other hm
  delayed := fun other hm => by
    cases rounds with
    | nil => cases hm
    | cons next rest =>
      rw [List.dropLast_cons_cons] at hm
      rcases List.mem_cons.1 hm with rfl | hm
      · exact hd
      · exact h'.delayed other hm
  summaries := by
    rw [h'.summaries, h.summaries, List.append_assoc]
    rfl
  lasting := h.lasting.trans h'.lasting
  counted := fun x hx => by
    have hcounts := h'.counted x hx
    rwa [Nat.add_sub_cancel, ← Nat.sub_add_cancel (Nat.pos_of_ne_zero hk), Nat.add_assoc,
      Nat.add_comm 1] at hcounts
  handles := by
    rw [List.length_cons, List.range'_succ]
    exact h.handles.append h'.handles
  unheld := fun htel => by
    rw [h.unheld htel, h'.unheld (h.lasting.telemetry.trans htel)]
    rfl

/-- By induction on the attempts left, as for the pace of the attempts. -/
theorem attemptLoop_reported (hs : Ready s) (hk : k ≠ 0) (hleft : left + k = cfg.maxAttempts + 1)
    (hpos : left ≠ 0) (hroom : s.summaries.length + left ≤ 10)
    (h : attemptLoop cfg permit p left k committed w s = (r, s', t)) :
    ∃ rounds held, LoopReported cfg k s s' r t rounds held := by
  induction left generalizing s k committed t with
  | zero => exact absurd rfl hpos
  | succ left ih =>
    rw [attemptLoop] at h
    rcases bind_run h with ⟨x, hx, rfl⟩ | ⟨verdict, s₁, t₁, t₂, hattempt, hrest, rfl⟩
    · obtain ⟨rounds, held, hreported, -⟩ := (attemptOnce_run hx).reported hs hk (by omega)
      refine ⟨rounds, held, hreported _ fun y hy => ?_⟩
      cases hy
      rfl
    · have hrun := attemptOnce_run hattempt
      obtain ⟨rounds, held, hreported, hretried⟩ := hrun.reported hs hk (by omega)
      cases verdict with
      | accepted result =>
        cases hrest
        rw [List.append_nil]
        refine ⟨rounds, held, hreported _ fun y hy => ?_⟩
        cases hy
      | retry committed' =>
        have hmax := hrun.retried.1
        obtain ⟨round, rfl, hdelay⟩ := hretried committed' rfl
        have hone := hreported (.ok ⟨[], [], [], []⟩) fun y hy => (by cases hy)
        have hlength : s₁.summaries.length = s.summaries.length + 1 := by
          rw [hone.summaries, List.length_append, List.length_map, List.length_singleton]
        obtain ⟨rest, others, hothers⟩ :=
          ih (hrun.ready hs hk) (Nat.succ_ne_zero k) (by omega) (by omega) (by omega) hrest
        exact ⟨round :: rest, held ++ others, hone.andThen hk hdelay hothers⟩

theorem OperationOpened.spans (h : OperationOpened b t) :
    observed t = [] ∧ spans t = handle b .operation := by
  cases h with
  | absent => exact ⟨rfl, rfl⟩
  | refused => exact ⟨rfl, rfl⟩
  | held hu =>
    refine ⟨(flaky_reported hu).1, ?_⟩
    exact congrArg (List.cons _) (flaky_reported hu).2

theorem startObservability_reported (hs : Silent {} s t₀)
    (h : startObservability cfg permit w s = (r, s', t)) :
    ∃ start : ObserverEvent, start.kind = .operationStart ∧ start.duration = 0 ∧
      observed t = (if cfg.observer then [start] else []) ∧
      spans t = handle s'.telemetry .operation ∧ s'.lastTimestamp = start.timestamp ∧
      s'.summaries = [] ∧ Ready s' := by
  have htel : s.telemetry = false := reports_field hs.reports OpState.telemetry
  obtain ⟨reading, a, opened, held, -, -, rfl, hopened, hr⟩ := startObservability_run htel h
  have hready : Ready s := .of_reports hs.reports ⟨rfl, rfl, rfl⟩
  have hnone : s.summaries = [] := reports_field hs.reports OpState.summaries
  have hheld : s'.telemetry = held := reports_field hr OpState.telemetry
  refine ⟨{ kind := .operationStart, timestamp := a }, rfl, rfl, ?_, ?_, ?_, ?_, ?_⟩
  · rw [observed_append, observed_announced, hopened.spans.1, List.append_nil]
  · rw [spans_append, spans_announced, hopened.spans.2, hheld, List.nil_append]
  · exact reports_field hr OpState.lastTimestamp
  · exact (reports_field hr OpState.summaries).trans hnone
  · exact .of_reports hr ⟨hready.unfinished, hready.closed, hready.unheld⟩

structure Closing (summaries : List AttemptSummary) (cancel : Option ObserverEvent)
    (last : ObserverEvent) : Prop where
  ends : last.kind = .operationEnd
  lasted : 0 ≤ last.duration
  summarised : last.attemptSummaries = summaries
  cancels : ∀ e ∈ cancel, e.kind = .operationCancel ∧ e.duration = 0
  cancelled : cancel.isSome ↔ last.outcome = some .cancelled

theorem finish_reported (hs : Ready s) (h : finish cfg err w s = (r, s', t)) :
    ∃ cancel last, Closing s.summaries cancel last ∧
      observed t = (if cfg.observer then cancel.toList ++ [last] else []) ∧
      spans t = handle s.telemetry .operationEnd ∧
      Rising s.lastTimestamp ((cancel.toList ++ [last]).map (·.timestamp)) last.timestamp := by
  obtain ⟨outcome, logged, a, reading, b, u, hle, hle', hu, hcancel, hother, -, rfl⟩ :=
    finish_run hs.unfinished hs.closed h
  have hspans : observed (spanEnded s.telemetry .operationSpanEnd u) = [] ∧
      spans (spanEnded s.telemetry .operationSpanEnd u) = handle s.telemetry .operationEnd :=
    spanEnded_spans hu rfl rfl
  let last := { endEvent s.startedAt b s.summaries outcome err with timestamp := b }
  have hlast : observed (if cfg.observer then [Event.observer last] else []) =
      (if cfg.observer then [last] else []) ∧
      spans (if cfg.observer then [Event.observer last] else []) = [] := by
    split <;> exact ⟨rfl, rfl⟩
  -- What follows the report of a cancellation is the same with and without one.
  let rest := .clock reading :: (spanEnded s.telemetry .operationSpanEnd u ++
    (if cfg.observer then [Event.observer last] else []))
  have hrest : observed rest = (if cfg.observer then [last] else []) ∧
      spans rest = handle s.telemetry .operationEnd := by
    constructor
    · show observed (spanEnded _ _ _ ++ _) = _
      rw [observed_append, hspans.1, hlast.1, List.nil_append]
    · show spans (spanEnded _ _ _ ++ _) = _
      rw [spans_append, hspans.2, hlast.2, List.append_nil]
  by_cases hc : outcome = .cancelled
  · obtain ⟨reading', rfl⟩ := hcancel hc
    refine ⟨some { cancelEvent outcome err with timestamp := a }, last,
      ⟨rfl, nonnegativeDuration_nonneg _, rfl, ?_, ?_⟩, ?_, ?_, hle, hle', le_refl _⟩
    · intro e he
      cases he
      exact ⟨rfl, rfl⟩
    · exact ⟨fun _ => congrArg some hc, fun _ => rfl⟩
    · rw [observed_append, observed_announced, hrest.1]
      split <;> rfl
    · rw [spans_append, spans_announced, hrest.2, List.nil_append]
  · rw [hother hc, List.nil_append]
    refine ⟨none, last, ⟨rfl, nonnegativeDuration_nonneg _, rfl, ?_, ?_⟩, hrest.1, hrest.2,
      le_trans hle hle', le_refl _⟩
    · intro e he
      cases he
    · refine ⟨fun h => (by cases h), fun h => absurd (Option.some.inj h) hc⟩

/-- The operation passes its first check and goes on to report. -/
def Operation.ReachesObservability (o : Operation Schema Data Payload) (w : World) : Prop :=
  ∃ s t, checkTerminal o.permit false 0 [] w {} = (.ok (), s, t)

structure WellReported (o : Operation Schema Data Payload) (w : World) (start : ObserverEvent)
    (rounds : List Round) (cancel : Option ObserverEvent) (last : ObserverEvent)
    (held : List Nat) : Prop where
  events : observed (o.log w) = if o.cfg.observer
    then start :: (rounds.flatMap Round.events ++ (cancel.toList ++ [last])) else []
  begins : start.kind = .operationStart
  numbered : rounds.map (·.number) = List.range' 1 rounds.length
  valid : ∀ round ∈ rounds, round.Valid
  delayed : ∀ round ∈ rounds.dropLast, round.delay.isSome
  closing : Closing (rounds.map (·.summary)) cancel last
  stamped : (start :: (rounds.flatMap Round.events ++ (cancel.toList ++ [last]))).Pairwise
    (·.timestamp ≤ ·.timestamp)
  lasted : ∀ e ∈ observed (o.log w), 0 ≤ e.duration
  counted : ∀ x, o.result w = .error x → Counts rounds.length x
  handles : spans (o.log w) = [] ∨
    spans (o.log w) = .operation :: (held.flatMap attemptHandles ++ [.operationEnd])
  nested : held.Sublist (List.range' 1 rounds.length)

theorem Round.Valid.lasting {round : Round} (h : round.Valid) (he : e ∈ round.events) :
    0 ≤ e.duration := by
  rcases List.mem_cons.1 he with rfl | he
  · exact le_refl _
  rcases List.mem_cons.1 he with rfl | he
  · exact h.lasted
  · obtain ⟨nanos, last, a, -, rfl⟩ := h.delayed e (Option.mem_toList.1 he)
    exact le_refl _

/-- What is reported before the attempts, for them and behind them. -/
theorem reported_around {codec : Codec Schema Data Payload} (hs : Silent {} s₁ t₁)
    (hstart : startObservability cfg permit w s₁ = (.ok (), s₂, t₂))
    (hprep : prepare codec cfg permit schema group member input w s₂ = (r₀, s₃, t₃))
    (hloop : LoopReported cfg 1 s₃ s₄ r t₄ rounds held) (hready : Ready s₄)
    (hfinish : finish cfg err w s₄ = (.ok (), s', t₅)) :
    ∃ start cancel last, start.kind = .operationStart ∧ start.duration = 0 ∧
      Closing (rounds.map (·.summary)) cancel last ∧
      observed (t₁ ++ (t₂ ++ (t₃ ++ t₄ ++ t₅))) = (if cfg.observer
        then start :: (rounds.flatMap Round.events ++ (cancel.toList ++ [last])) else []) ∧
      (start :: (rounds.flatMap Round.events ++ (cancel.toList ++ [last]))).Pairwise
        (·.timestamp ≤ ·.timestamp) ∧
      (spans (t₁ ++ (t₂ ++ (t₃ ++ t₄ ++ t₅))) = [] ∨ spans (t₁ ++ (t₂ ++ (t₃ ++ t₄ ++ t₅))) =
        .operation :: (held.flatMap attemptHandles ++ [.operationEnd])) := by
  obtain ⟨start, hkind, hzero, hstarted, hopened, hlast, hnone, -⟩ :=
    startObservability_reported hs hstart
  have hsilent := (Silent.calm w).prepare nofun nofun hprep
  have hquiet := nothing_reported hsilent.events
  have hrefused := nothing_reported hs.events
  obtain ⟨cancel, last, hclosing, hended, hhandle, hrising⟩ := finish_reported hready hfinish
  have hsummaries : s₄.summaries = rounds.map (·.summary) := by
    have h₃ : s₃.summaries = s₂.summaries :=
      reports_field hsilent.reports OpState.summaries
    rw [hloop.summaries, h₃, hnone, List.nil_append]
  have htelemetry : s₃.telemetry = s₂.telemetry :=
    reports_field hsilent.reports OpState.telemetry
  rw [hsummaries] at hclosing
  refine ⟨start, cancel, last, hkind, hzero, hclosing, ?_, ?_, ?_⟩
  · simp only [observed_append, hrefused.1, hstarted, hquiet.1, hloop.reports.observed, hended,
      List.nil_append]
    split
    · simp
    · rfl
  · have hstamps := hloop.reports.stamped.append hrising
    have h₃ : s₃.lastTimestamp = start.timestamp :=
      (reports_field hsilent.reports OpState.lastTimestamp).trans hlast
    rw [h₃, ← List.map_append] at hstamps
    exact List.pairwise_map.1 hstamps.pairwise
  · simp only [spans_append, hrefused.2, hopened, hquiet.2, hloop.reports.spans, hhandle,
      hloop.lasting.telemetry, htelemetry, List.nil_append]
    cases hheld : s₂.telemetry with
    | true => exact .inr (by simp [handle])
    | false =>
      rw [hloop.unheld (htelemetry.trans hheld)]
      exact .inl rfl

theorem Closing.lasting (h : Closing summaries cancel last) (he : e ∈ cancel.toList ++ [last]) :
    0 ≤ e.duration := by
  rcases List.mem_append.1 he with he | he
  · exact (h.cancels e (Option.mem_toList.1 he)).2.ge
  · rw [List.mem_singleton.1 he]
    exact h.lasted

theorem LoopReported.wellReported {o : Operation Schema Data Payload} (hs : Silent {} s₁ t₁)
    (hstart : startObservability o.cfg o.permit w s₁ = (.ok (), s₂, t₂))
    (hprep : prepare o.codec o.cfg o.permit o.schema o.group o.member o.input w s₂ = (r₀, s₃, t₃))
    (hloop : LoopReported o.cfg 1 s₃ s₄ (o.result w) t₄ rounds held) (hready : Ready s₄)
    (hfinish : finish o.cfg err w s₄ = (.ok (), s', t₅))
    (hlog : o.log w = t₁ ++ (t₂ ++ (t₃ ++ t₄ ++ t₅))) :
    ∃ start cancel last, WellReported o w start rounds cancel last held := by
  obtain ⟨start, cancel, last, hkind, hzero, hclosing, hevents, hstamped, hhandles⟩ :=
    reported_around hs hstart hprep hloop hready hfinish
  rw [← hlog] at hevents hhandles
  refine ⟨start, cancel, last, hevents, hkind, hloop.numbered, hloop.valid, hloop.delayed,
    hclosing, hstamped, ?_, ?_, hhandles, hloop.handles⟩
  · intro e he
    rw [hevents] at he
    split at he
    · rcases List.mem_cons.1 he with rfl | he
      · exact hzero.ge
      rcases List.mem_append.1 he with he | he
      · obtain ⟨round, hround, he⟩ := List.mem_flatMap.1 he
        exact (hloop.valid round hround).lasting he
      · exact hclosing.lasting he
    · cases he
  · intro x hx
    have hcounts := hloop.counted x hx
    rwa [Nat.sub_self, Nat.zero_add] at hcounts

/-- The reports of an operation are well formed, whatever the telemetry and the clock do. -/
theorem reports_well_formed (o : Operation Schema Data Payload) (w : World)
    (h : o.ReachesObservability w) :
    ∃ start rounds cancel last held, WellReported o w start rounds cancel last held := by
  obtain ⟨r, s', t, hrun⟩ : ∃ r s' t, o.run w = (r, s', t) := ⟨_, _, _, rfl⟩
  have hresult : o.result w = r := congrArg (·.1) hrun
  have hlog : o.log w = t := congrArg (·.2.2) hrun
  cases sendAdmitted_run hrun with
  | refused hcheck =>
    obtain ⟨s, t', hok⟩ := h
    rw [hok] at hcheck
    cases hcheck
  | @unprepared s₁ t₁ s₂ t₂ s₃ t₃ x _ t₄ hs hi hstart hprep hfinish =>
    obtain ⟨_, -, -, -, -, -, -, hready⟩ := startObservability_reported hs hstart
    have hsilent := (Silent.calm w).prepare nofun nofun hprep
    have hloop : LoopReported o.cfg 1 s₃ s₃ (o.result w) [] [] [] := by
      refine .nothing ((Silent.calm w).refl s₃) fun y hy => ?_
      rw [hresult] at hy
      cases hy
      exact prepare_stops hprep
    obtain ⟨start, cancel, last, hwell⟩ := hloop.wellReported hs hstart hprep
      (hready.of_reports hsilent.reports) hfinish (by rw [hlog, List.append_nil])
    exact ⟨start, [], cancel, last, [], hwell⟩
  | @attempted s₁ t₁ s₂ t₂ s₃ t₃ p _ s₄ t₄ _ t₅ hs hi hstart hprep hloop hfinish =>
    obtain ⟨_, -, -, -, -, -, hnone, hready⟩ := startObservability_reported hs hstart
    have hsilent := (Silent.calm w).prepare nofun nofun hprep
    have hready₃ := hready.of_reports hsilent.reports
    have hempty : s₃.summaries = [] :=
      (reports_field hsilent.reports OpState.summaries).trans hnone
    have hleft := Nat.ne_of_gt o.cfg.attempts_pos
    have hroom : s₃.summaries.length + o.cfg.maxAttempts ≤ 10 := by
      rw [hempty, List.length_nil, Nat.zero_add]
      exact o.cfg.attempts_le
    obtain ⟨rounds, held, hreported⟩ :=
      attemptLoop_reported hready₃ one_ne_zero rfl hleft hroom hloop
    obtain ⟨-, hready₄⟩ := attemptLoop_paced hready₃ one_ne_zero rfl hleft hloop
    rw [← hresult] at hreported
    obtain ⟨start, cancel, last, hwell⟩ :=
      hreported.wellReported hs hstart hprep hready₄ hfinish hlog
    exact ⟨start, rounds, cancel, last, held, hwell⟩

def Sample.tracedOperation : Operation Unit Unit Unit :=
  { Sample.operation with
    cfg := { Sample.operation.cfg with telemetry := true }
    permit := { Sample.operation.permit with telemetryContext := true } }

theorem Sample.traced_reports : ∃ start rounds cancel last held,
    WellReported Sample.tracedOperation
      (Sample.world (Sample.failure .connect false) (Sample.failure .dns false))
      start rounds cancel last held :=
  reports_well_formed _ _ ⟨_, _, rfl⟩

end Repost
