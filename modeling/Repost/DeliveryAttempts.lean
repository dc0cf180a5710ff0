import Repost.DeliveryReports

namespace Repost
open GoText Traced
set_option autoImplicit true

theorem Reported.terminal (hc : Clean S) (ht : TerminalFor (floor S) (some e)) :
    Reported S e.deliveryState := by
  rcases ht e rfl with h | h
  · rw [h]
    exact .commit hc
  · rw [h]
    exact .abort hc

theorem Reported.notSent : Reported [] .notSent :=
  .commit (S := []) (by simp [Clean])

theorem clean_nil : Clean [] := by simp [Clean]

theorem Clean.append (hc : Clean S) (hs : s.malformed = false) : Clean (S ++ [s]) := by
  intro x hx
  rcases List.mem_append.1 hx with hx | hx
  · exact hc x hx
  · rw [List.mem_singleton.1 hx]
    exact hs

def Ended (w : World) (x : Stop) (_ : OpState) (h : List Event) : Prop :=
  ∃ S, Trail w S h ∧ ∀ e, x = .error e → Reported S e.deliveryState

theorem fail_triple {Q : α → OpState → List Event → Prop} (hd : Reported S e.deliveryState) :
    Triple w (fun _ h => Trail w S h) (fail e) Q (Ended w) :=
  Triple.stop fun _ _ hT => ⟨S, hT, by rintro _ ⟨⟩; exact hd⟩

theorem Saying.then {m : Op α} {k : α → Op β} {R : β → OpState → List Event → Prop}
    (hm : Saying w (fun _ => False) m Q)
    (hk : ∀ a, Q a → Triple w (fun _ h => Trail w S h) (k a) R (Ended w)) :
    Triple w (fun _ h => Trail w S h) (m >>= k) R (Ended w) :=
  Triple.bind (Saying.triple hm (fun _ h => h.elim)) fun a => Triple.assume (hk a)

theorem checkTerminal_triple (hc : Clean S) :
    Triple w (fun _ h => Trail w S h) (checkTerminal permit (floor S) attempts key)
      (fun _ _ h => Trail w S h) (Ended w) := by
  refine preAttemptTerminal_spec.then fun terminal ht => ?_
  cases terminal with
  | some e => exact fail_triple (.terminal hc ht)
  | none => exact Triple.pure fun _ _ h => h

abbrev Fresh (w : World) : OpState → List Event → Prop := fun _ h => Trail w [] h

theorem fresh_check {key : Bytes} : Triple w (Fresh w) (checkTerminal permit false attempts key)
    (fun _ => Fresh w) (Ended w) :=
  checkTerminal_triple clean_nil

theorem fail_fresh {Q : α → OpState → List Event → Prop} (hd : e.deliveryState = .notSent) :
    Triple w (Fresh w) (fail e) Q (Ended w) :=
  fail_triple (hd ▸ Reported.notSent)

theorem failDecorated_fresh {Q : α → OpState → List Event → Prop}
    (hd : e.deliveryState = .notSent) :
    Triple w (Fresh w) (failDecorated e) Q (Ended w) :=
  Saying.then (Q := fun e => e.deliveryState = .notSent) (Leaves.ask fun _ => hd) fun _ h =>
    fail_fresh h

theorem failHook_fresh {Q : α → OpState → List Event → Prop} :
    Triple w (Fresh w) (failHook key option cause) Q (Ended w) :=
  Saying.then (Q := fun _ => True) (Leaves.ask fun _ => trivial) fun _ _ => fail_fresh rfl

theorem preparationCall_fresh {call : World → Nat → α} (he : Quiet e) :
    Triple w (Fresh w) (preparationCall permit key e call)
      (fun a _ h => (∃ t, a = call w t) ∧ Trail w [] h) (Ended w) := by
  refine Triple.bind fresh_check fun _ => ?_
  refine Saying.then (boundedPermitCall_spec he) fun value hv => ?_
  cases value with
  | none =>
    refine preAttemptTerminal_spec.then fun terminal ht => ?_
    cases terminal with
    | some e => exact fail_triple (.terminal clean_nil ht)
    | none => exact Triple.stop fun _ _ hT => ⟨[], hT, by rintro _ ⟨⟩⟩
  | some value =>
    exact Triple.bind fresh_check fun _ => Triple.pure fun _ _ hT => ⟨hv value rfl, hT⟩

theorem obtainAPIKey_fresh :
    Triple w (Fresh w) (obtainAPIKey cfg permit) (fun _ => Fresh w) (Ended w) := by
  refine Triple.ite (fun _ => ?_) fun _ => ?_
  · refine Triple.bind (preparationCall_fresh (mute_of_other rfl rfl)) fun provided =>
      Triple.assume fun _ => ?_
    cases provided with
    | none =>
      refine (observe_spec _).then fun _ _ => ?_
      exact Triple.ite (fun _ => failDecorated_fresh rfl) fun _ => failHook_fresh
    | some apiKey =>
      exact Triple.ite (fun _ => Triple.pure fun _ _ h => h) fun _ => failDecorated_fresh rfl
  · exact Triple.ite (fun _ => failDecorated_fresh rfl) fun _ => Triple.pure fun _ _ h => h

theorem obtainIdempotencyKey_fresh :
    Triple w (Fresh w) (obtainIdempotencyKey permit key) (fun _ => Fresh w) (Ended w) := by
  refine Triple.ite (fun _ => ?_) fun _ => ?_
  · exact Triple.ite (fun _ => Triple.pure fun _ _ h => h) fun _ => failDecorated_fresh rfl
  · refine Triple.bind (preparationCall_fresh (mute_of_other rfl rfl)) fun generated =>
      Triple.assume fun _ => ?_
    cases generated with
    | none => exact failHook_fresh
    | some key =>
      exact Triple.ite (fun _ => Triple.pure fun _ _ h => h) fun _ => failDecorated_fresh rfl

variable {codec : Codec Schema Data Payload}

theorem serializePayload_fresh :
    Triple w (Fresh w) (serializePayload codec permit key schema event input timestamp)
      (fun payload _ h => (∃ t, codec.serializeOperation schema event.model input.data timestamp t =
        .data payload) ∧ Trail w [] h) (Ended w) := by
  refine Triple.bind (preparationCall_fresh (mute_of_other rfl rfl)) fun serialized =>
    Triple.assume fun hs => ?_
  obtain ⟨t, hs⟩ := hs
  cases serialized with
  | data payload => exact Triple.pure fun _ _ hT => ⟨⟨t, hs.symm⟩, hT⟩
  | panicked => exact failHook_fresh
  | invalid issues issueCount => exact failDecorated_fresh rfl

theorem marshalBody_fresh :
    Triple w (Fresh w) (marshalBody codec permit key event customerID timestamp payload)
      (fun body _ h => (codec.marshalEnvelope customerID event.type timestamp payload = some body ∧
        body.length ≤ maxPayloadBytes) ∧ Trail w [] h) (Ended w) := by
  refine Triple.bind (preparationCall_fresh (mute_of_other rfl rfl)) fun marshaled =>
    Triple.assume fun hm => ?_
  obtain ⟨t, hm⟩ := hm
  cases marshaled with
  | none => exact failDecorated_fresh rfl
  | some body =>
    refine Triple.ite (fun _ => failDecorated_fresh rfl) fun hl => ?_
    exact Triple.pure fun _ _ hT => ⟨⟨hm.symm, Nat.le_of_not_lt hl⟩, hT⟩

/-- What is prepared is the envelope of this operation's own input. -/
structure Prepared.Of (w : World) (codec : Codec Schema Data Payload) (schema : Schema)
    (group member : Bytes) (input : SendInput Data) (p : Prepared) : Prop where
  customerID : p.customerID = input.customerID
  timestamp : ∃ t, w.generateNow t = some p.timestamp
  envelope : ∃ event payload t, lookupEvent codec schema group member = .ok event ∧
    p.eventType = event.type ∧
    codec.serializeOperation schema event.model input.data p.timestamp t = .data payload ∧
    codec.marshalEnvelope p.customerID p.eventType p.timestamp payload = some p.body
  size : p.body.length ≤ maxPayloadBytes

theorem prepare_fresh :
    Triple w (Fresh w) (prepare codec cfg permit schema group member input)
      (fun p _ h => p.Of w codec schema group member input ∧ Trail w [] h) (Ended w) := by
  unfold prepare
  split
  · exact failDecorated_fresh rfl
  · rename_i event hl
    refine Triple.bind obtainAPIKey_fresh fun apiKey => ?_
    refine Triple.bind fresh_check fun _ => ?_
    refine Triple.bind obtainIdempotencyKey_fresh fun key => ?_
    refine Triple.bind (preparationCall_fresh (mute_of_other rfl rfl)) fun generated =>
      Triple.assume fun hg => ?_
    cases generated with
    | none => exact failHook_fresh
    | some timestamp =>
      refine Triple.bind serializePayload_fresh fun payload => Triple.assume fun hs => ?_
      refine Triple.bind marshalBody_fresh fun body => Triple.assume fun hb => ?_
      refine Saying.then (emit_spec (mute_of_other rfl rfl)) fun _ _ => ?_
      refine Triple.bind fresh_check fun _ => Triple.pure fun _ _ hT => ⟨⟨rfl, ?_, ?_, hb.2⟩, hT⟩
      · obtain ⟨t, hg⟩ := hg
        exact ⟨t, hg.symm⟩
      · obtain ⟨t, hs⟩ := hs
        exact ⟨event, payload, t, hl, rfl, hs, hb.1⟩

theorem reached_mono (h : reached m i = true) (hij : i ≤ j) : reached m j = true := by
  cases m with
  | none => cases h
  | some n =>
    simp only [reached, Option.any_some, decide_eq_true_eq] at h ⊢
    omega

theorem Attempted.From.late (ha : Attempted.From w request a)
    (hc : c = true → isCommitted a look = true) :
    Settled.From w
      { request := request, callEnd := a.callEnd, completed := false, handed := a.outcome,
        effective := timeoutOutcome c, tracker := isCommitted a look } where
  handed := ha.outcome
  inTime := by rintro ⟨⟩
  late _ := ⟨c, rfl, hc⟩
  tracker := ⟨look, by rw [isCommitted, ha.markedAt]⟩
  abandoned := ha.abandoned

theorem timeout_raises :
    attemptCommitted (timeoutOutcome c) tracker = (tracker || c) := by
  simp [attemptCommitted, timeoutOutcome, preCommitFailure]

theorem timeout_wellFormed : malformedOutcome (timeoutOutcome c) = false := rfl

theorem emitSettled_triple (hs : s.From w) :
    Triple w (fun _ h => Trail w S h) (Prog.emit (.settled s) : Op Unit)
      (fun _ _ h => Trail w (S ++ [s]) h) (Ended w) :=
  Triple.emit fun _ _ hT => hT.settle hs

theorem endAttempt_triple (hd : Reported S (reportedState err)) :
    Triple w (fun _ h => Trail w S h) (endAttempt cfg err retryable)
      (fun _ _ h => Trail w S h) (Ended w) := by
  have hs : Saying w (· = reportedState err) (endAttempt cfg err retryable) (fun _ => True) :=
    endAttempt_spec rfl
  exact (hs.triple fun d h => .inr (h ▸ hd)).post fun _ _ _ h => h.2

theorem failAttempt_triple {Q : α → OpState → List Event → Prop}
    (hd : Reported S e.deliveryState) :
    Triple w (fun _ h => Trail w S h) (do endAttempt cfg (some e) false; fail e) Q (Ended w) :=
  Triple.bind (endAttempt_triple hd) fun _ => fail_triple hd

theorem lateOutcome_triple (hc : Clean S) (ha : a.From w request) :
    Triple w (fun _ h => Trail w S h) (lateOutcome cfg permit p request (floor S) a)
      (fun o _ h => (∃ c, o = timeoutOutcome c ∧ (c = true → isCommitted a 2 = true)) ∧
        Trail w S h) (Ended w) := by
  refine closeResponse_spec.then fun _ _ => ?_
  refine preAttemptTerminal_spec.then fun terminal ht => ?_
  cases terminal with
  | none =>
    refine Triple.pure fun _ _ hT => ⟨⟨_, rfl, fun h => ?_⟩, hT⟩
    exact reached_mono h (by decide)
  | some e =>
    have hs : Settled.From w _ := ha.late (c := isCommitted a 0) fun h => h
    refine Triple.bind (emitSettled_triple hs) fun _ => failAttempt_triple ?_
    refine .terminal (hc.append timeout_wellFormed) ?_
    rw [floor_append, floor_singleton, Settled.raises, timeout_raises, Bool.or_self]
    exact ht

theorem settle_triple (hc : Clean S) :
    Triple w (fun _ h => Trail w S h) (settle cfg permit p request (floor S))
      (fun s _ h => (s.From w ∧ s.request = request) ∧ Trail w (S ++ [s]) h) (Ended w) := by
  refine boundedAttemptCall_spec.then fun a ha => ?_
  refine Triple.bind
    (M := fun o _ h => Settled.From w
      { request := request, callEnd := a.callEnd, completed := a.completed, handed := a.outcome,
        effective := o, tracker := isCommitted a 2 } ∧ Trail w S h) ?_ fun o =>
    Triple.assume fun ho => ?_
  · refine Triple.ite (fun hcomp => ?_) fun hcomp => ?_
    · refine Triple.pure fun _ _ hT => ⟨?_, hT⟩
      exact
        { handed := ha.outcome
          inTime := fun _ => ⟨ha.inTime hcomp, rfl⟩
          late := fun h => absurd (hcomp.symm.trans h) (by decide)
          tracker := ⟨2, by rw [isCommitted, ha.markedAt]⟩
          abandoned := ha.abandoned }
    · refine (lateOutcome_triple hc ha).post ?_
      rintro o _ h ⟨⟨c, rfl, hm⟩, hT⟩
      have hcomp : a.completed = false := by simpa using hcomp
      rw [hcomp]
      exact ⟨ha.late hm, hT⟩
  · refine countHeaderLimit_spec.then fun _ _ => ?_
    refine Triple.bind (emitSettled_triple ho) fun _ => ?_
    exact Triple.pure fun _ _ hT => ⟨⟨ho, rfl⟩, hT⟩

theorem failEvidence_triple {Q : α → OpState → List Event → Prop}
    (hd : Reported S e.deliveryState) :
    Triple w (fun _ h => Trail w S h) (fail (withResponseEvidence e last)) Q (Ended w) :=
  fail_triple (by simpa only [withResponseEvidence_deliveryState] using hd)

theorem awaitRetry_triple (hc : Clean S) (hd : Reported S last.deliveryState) :
    Triple w (fun _ h => Trail w S h) (awaitRetry cfg permit last attempt (floor S) delay)
      (fun _ _ h => Trail w S h) (Ended w) := by
  refine reportRetry_spec.then fun _ _ => ?_
  refine callScheduler_spec.then fun slept _ => ?_
  refine preAttemptTerminal_spec.then fun terminal ht => ?_
  cases terminal with
  | some e =>
    have hf : Triple w (fun _ h => Trail w S h) (fail (withResponseEvidence e last) : Op Unit)
        (fun _ _ h => Trail w S h) (Ended w) := failEvidence_triple (.terminal hc ht)
    rcases slept with _ | _ | _ <;> exact hf
  | none =>
    rcases slept with _ | _ | _
    · exact Triple.stop fun _ _ hT => ⟨S, hT, by rintro _ ⟨⟩⟩
    · refine preAttemptTerminal_spec.then fun terminal ht => ?_
      cases terminal with
      | some e => exact failEvidence_triple (.terminal hc ht)
      | none => exact failEvidence_triple hd
    · exact Triple.pure fun _ _ h => h

theorem backoff_triple (hc : Clean S) (hd : Reported S last.deliveryState) :
    Triple w (fun _ h => Trail w S h) (backoff cfg permit last response attempt (floor S))
      (fun _ _ h => Trail w S h) (Ended w) := by
  refine callMonotonicClock_spec.then fun reading _ => ?_
  cases reading with
  | none => exact failEvidence_triple (.commit hc)
  | some now =>
    refine Triple.ite (fun _ => failEvidence_triple (.commit hc)) fun _ => ?_
    refine Saying.then (boundedPermitCall_spec (mute_of_other rfl rfl)) fun sampled _ => ?_
    rcases sampled with _ | (jitter | _ | _)
    · exact checkTerminal_triple hc
    · dsimp only
      split
      · exact failEvidence_triple hd
      · exact awaitRetry_triple hc hd
      · exact awaitRetry_triple hc hd
    · exact failEvidence_triple hd
    · exact failEvidence_triple hd

theorem retryOrFail_triple (hc : Clean S) (hd : Reported S e.deliveryState) :
    Triple w (fun _ h => Trail w S h) (retryOrFail cfg permit e response attempt (floor S))
      (fun v _ h => v = .retry (floor S) ∧ Trail w S h) (Ended w) := by
  refine preAttemptTerminal_spec.then fun terminal ht => ?_
  cases terminal with
  | some terminal =>
    have hr := Reported.terminal hc ht
    refine failAttempt_triple ?_
    split
    · exact hr
    · exact hr
  | none =>
    refine Triple.ite (fun _ => failAttempt_triple hd) fun _ => ?_
    refine Triple.bind (endAttempt_triple hd) fun _ => ?_
    exact Triple.bind (backoff_triple hc hd) fun _ => Triple.pure fun _ _ hT => ⟨rfl, hT⟩

end Repost
