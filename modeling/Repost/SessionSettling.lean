import Repost.SessionSteps

namespace Repost.H2
open GoText Runs
set_option autoImplicit true

namespace Shared

def settled (s : Shared) (id : Nat) : Bool := (s.object id).any (·.finished)

structure Settles (p : Nat → Prop) (s s' : Shared) : Prop where
  goAway : s'.goAway = s.goAway
  mono : ∀ id, s.settled id = true → s'.settled id = true
  only : ∀ id, s'.settled id = true → s.settled id = true ∨ p id

variable {s s' : Shared}

theorem Settles.of_objects (hg : s'.goAway = s.goAway)
    (ho : s'.objects = s.objects) : Settles p s s' := by
  have hsettled : ∀ id, s'.settled id = s.settled id := by
    intro id
    rw [settled, object, ho, settled, object]
  constructor
  · exact hg
  · intro id h
    rw [hsettled]
    exact h
  · intro id h
    rw [hsettled] at h
    exact .inl h

theorem Settles.refl (p : Nat → Prop) (s : Shared) : Settles p s s := .of_objects rfl rfl

theorem Settles.trans {s t u : Shared} (h : Settles p s t) (h' : Settles p t u) :
    Settles p s u := by
  refine ⟨h'.goAway.trans h.goAway, fun id hs => h'.mono id (h.mono id hs), ?_⟩
  intro id hu
  rcases h'.only id hu with ht | hp
  · exact h.only id ht
  · exact .inr hp

theorem Settles.weaken (h : Settles p s s') (hpq : ∀ id, p id → q id) :
    Settles q s s' :=
  ⟨h.goAway, h.mono, fun id hs => (h.only id hs).imp_right (hpq id)⟩

theorem Settles.of_map (g : Stream → Stream) (hg : s'.goAway = s.goAway)
    (ho : s'.objects = s.objects.map g)
    (hid : ∀ st, (g st).id = st.id) (hmono : ∀ st, st.finished = true → (g st).finished = true)
    (honly : ∀ st, (g st).finished = true → st.finished = true ∨ p st.id) : Settles p s s' := by
  have hobject := object_map g ho hid
  constructor
  · exact hg
  · intro id h
    rw [settled, hobject]
    cases hs : s.object id with
    | none => simp [settled, hs] at h
    | some st =>
      simp only [settled, hs, Option.any_some, Option.map_some] at h ⊢
      exact hmono st h
  · intro id h
    rw [settled, hobject] at h
    cases hs : s.object id with
    | none => simp [hs] at h
    | some st =>
      simp only [settled, hs, Option.any_some, Option.map_some] at h ⊢
      rw [← object_id hs]
      exact honly st h

theorem Settles.of_update (id : Nat) (f : Stream → Stream)
    (hg : s'.goAway = s.goAway) (ho : s'.objects = (s.updateStream id f).objects)
    (hid : ∀ st, (f st).id = st.id) (hf : ∀ st, (f st).finished = st.finished) :
    Settles p s s' := by
  apply Settles.of_map (fun st => if st.id = id then f st else st) hg ho
  · intro st
    split
    · exact hid st
    · rfl
  · intro st h
    split
    · rw [hf]
      exact h
    · exact h
  · intro st h
    split at h
    · rw [hf] at h
      exact .inl h
    · exact .inl h

theorem finishLocked_settles (s : Shared) (id : Nat) (r : Response) (e : Option SessionError) :
    Settles (· = id) s (s.finishLocked id r e) := by
  refine Settles.of_map
    (fun st => if st.id = id then { st with response := r, err := e, finished := true } else st)
    rfl rfl ?_ ?_ ?_
  · intro st
    split <;> rfl
  · intro st h
    split
    · rfl
    · exact h
  · intro st h
    split at h
    · rename_i hid
      exact .inr hid
    · exact .inl h

theorem Finishes.settles {id : Nat} (h : s.Finishes id s') :
    Settles (· = id) s s' := by
  cases h with
  | nothing => exact .refl _ s
  | finish r e => exact finishLocked_settles ..

theorem Touches.settles (h : s.Touches s') : Settles p s s' := by
  cases h with
  | nothing => exact .refl p s
  | update id f hid hf => exact .of_update id f rfl rfl hid hf

theorem finishAll_settles (s : Shared) (e : SessionError) (ids : List Nat) :
    Settles (· ∈ ids) s (s.finishAll e ids) := by
  induction ids generalizing s with
  | nil => exact .refl _ s
  | cons id ids ih =>
    have hhead := (s.finishLocked_settles id {} (some e)).weaken
      (q := (· ∈ id :: ids)) fun _ h => h ▸ List.mem_cons_self
    exact hhead.trans ((ih _).weaken fun _ h => List.mem_cons_of_mem _ h)

theorem debit_settles (p : Nat → Prop) (s : Shared) (id n : Nat) : Settles p s (s.debit id n) :=
  Settles.of_update id (fun st => { st with sendWindow := st.sendWindow - n }) rfl rfl
    (fun _ => rfl) (fun _ => rfl)

theorem openStream_settles (p : Nat → Prop) (s : Shared) : Settles p s s.openStream := by
  have hsettled : ∀ id, s.openStream.settled id = s.settled id := by
    intro id
    simp only [settled, object, openStream, List.find?_append]
    cases s.objects.find? (fun st => st.id == id) with
    | some st => rfl
    | none =>
      simp only [List.find?_cons, List.find?_nil]
      split <;> rfl
  constructor
  · rfl
  · intro id h
    rw [hsettled]
    exact h
  · intro id h
    rw [hsettled] at h
    exact .inl h

theorem applySettings_settles (p : Nat → Prop) (s : Shared) (settings : List Setting) :
    Settles p s (s.applySettings settings).1 := by
  induction settings generalizing s with
  | nil => exact .refl p s
  | cons setting settings ih =>
    unfold applySettings
    split
    · refine Settles.trans ?_ (ih _)
      unfold applySetting
      split
      · refine Settles.of_map _ rfl rfl ?_ ?_ ?_
        · intro st
          split <;> rfl
        · intro st h
          split <;> exact h
        · intro st h
          split at h <;> exact .inl h
      · exact .of_objects rfl rfl
      · exact .of_objects rfl rfl
      · exact .refl p s
    · exact .refl p s

theorem handleWindowUpdate_settles (p : Nat → Prop) (s : Shared) (id increment : Nat) :
    Settles p s (s.handleWindowUpdate id increment).1 := by
  unfold handleWindowUpdate
  split
  · split
    · exact .of_objects rfl rfl
    · exact .of_objects rfl rfl
  · split
    · split
      · exact .of_objects rfl rfl
      · split
        · exact .of_objects rfl rfl
        · exact .of_update _ _ rfl rfl (fun _ => rfl) (fun _ => rfl)
    · exact .of_objects rfl rfl

theorem handleGoAway_settles (s : Shared) (lastStreamID code : Nat) :
    ∃ bound : GoAway, (s.handleGoAway lastStreamID code).goAway = some bound ∧
      (s.goAway = some bound ∨ bound.lastStreamID = lastStreamID) ∧
      (∀ id, s.settled id = true → (s.handleGoAway lastStreamID code).settled id = true) ∧
      ∀ id, (s.handleGoAway lastStreamID code).settled id = true →
        s.settled id = true ∨ bound.lastStreamID < id := by
  have hall := fun (g : GoAway) => finishAll_settles { s with goAway := some g }
    (.goAway g.lastStreamID g.code) (s.streams.filter (· > g.lastStreamID))
  have honly : ∀ (g : GoAway) (id : Nat), id ∈ s.streams.filter (· > g.lastStreamID) →
      g.lastStreamID < id := by
    intro g id hid
    exact of_decide_eq_true (List.mem_filter.1 hid).2
  unfold handleGoAway
  dsimp only
  refine ⟨_, (hall _).goAway, ?_, (hall _).mono, fun id h => ((hall _).only id h).imp_right (honly _ id)⟩
  cases s.goAway with
  | none => exact .inr rfl
  | some g =>
    dsimp only
    split
    · exact .inr rfl
    · exact .inl rfl

end Shared

/-- The frames with which the server ends a stream, resets it or excludes it. -/
def Incoming.ends (id : Nat) : Incoming → Bool
  | .headers frame => frame.streamID = id && frame.streamEnded
  | .data i _ _ ended => i = id && ended
  | .rstStream i _ => i = id
  | .goAway lastStreamID _ => lastStreamID < id
  | _ => false

def ServerDone (received : List Incoming) (id : Nat) : Prop :=
  ∃ frame ∈ received, frame.ends id = true

theorem ServerDone.append {received : List Incoming} {id : Nat} (h : ServerDone received id)
    (more : List Incoming) : ServerDone (received ++ more) id := by
  obtain ⟨frame, hf, he⟩ := h
  exact ⟨frame, List.mem_append_left _ hf, he⟩

def resetQueued (ops : List ReaderOp) (id : Nat) : Prop :=
  ∃ code, ReaderOp.queue (.rstStream id code) ∈ ops

def ReaderOp.Sound (received : List Incoming) (rest : List ReaderOp) : ReaderOp → Prop
  | .finish id _ _ => ServerDone received id ∨ resetQueued rest id
  | .headers frame _ _ => frame.streamEnded = true → ServerDone received frame.streamID
  | .data id _ ended => ended = true → ServerDone received id
  | .goAway lastStreamID _ => ∀ id, lastStreamID < id → ServerDone received id
  | .windowUpdate _ _ | .settings _ => rest = []
  | .queue _ | .observe _ _ _ | .shutdown _ => True

def OpsSound (received : List Incoming) : List ReaderOp → Prop
  | [] => True
  | op :: rest => op.Sound received rest ∧ OpsSound received rest

/-- A DATA frame that is too long to be acknowledged and does not end its stream. -/
def Incoming.oversized : Incoming → Bool
  | .data _ payload _ ended => payload.length > 2 ^ 32 - 1 && !ended
  | _ => false

/-- A header block that `handleHeaders` turns down. -/
def Stream.refusesHeaders (st : Stream) (frame : MetaHeaders) (response : Response) : Bool :=
  if 100 ≤ response.status && response.status < 200 then
    response.status = 101 || frame.streamEnded || st.headersReceived ||
      st.informational + 1 > maxInformationalResponses
  else st.headersReceived

/-- A chunk that `handleData` turns down before it looks for the end of the stream. -/
def Stream.refusesData (st : Stream) (data : Bytes) : Bool :=
  !st.headersReceived || st.response.body.length + data.length > Limits.bodyBytes ||
    st.expectedLength.any (st.response.body.length + data.length > ·)

theorem Incoming.ops_sound (received : List Incoming) (frame : Incoming)
    (h : frame.oversized = false) :
    OpsSound (received ++ [frame]) frame.ops := by
  have hdone : ∀ id, frame.ends id = true → ServerDone (received ++ [frame]) id :=
    fun id he => ⟨frame, List.mem_append_right _ (List.mem_singleton_self _), he⟩
  cases frame with
  | headers frame =>
    rw [Incoming.ops]
    split
    · exact ⟨.inr ⟨_, List.mem_singleton_self _⟩, trivial, trivial⟩
    · refine ⟨fun he => hdone _ ?_, trivial⟩
      simp [Incoming.ends, he]
  | data id payload padding ended =>
    have hended : ended = true → ServerDone (received ++ [.data id payload padding ended]) id := by
      intro he
      apply hdone
      simp [Incoming.ends, he]
    rw [Incoming.ops]
    split
    · exact ⟨hended, trivial⟩
    · split
      · rename_i hbig
        simp only [Incoming.oversized, decide_eq_true hbig, Bool.true_and,
          Bool.not_eq_false'] at h
        exact ⟨.inl (hended h), trivial⟩
      · exact ⟨trivial, hended, trivial⟩
  | rstStream id code => exact ⟨.inl (hdone id (decide_eq_true rfl)), trivial⟩
  | goAway lastStreamID code => exact ⟨fun id hlt => hdone id (decide_eq_true hlt), trivial⟩
  | windowUpdate id increment => exact ⟨rfl, trivial⟩
  | settings ack list =>
    rw [Incoming.ops]
    split
    · trivial
    · exact ⟨rfl, trivial⟩
  | ping ack payload =>
    rw [Incoming.ops]
    split
    · trivial
    · exact ⟨trivial, trivial⟩
  | pushPromise | readError => exact ⟨trivial, trivial⟩
  | other => trivial
  | streamError id code => exact ⟨.inr ⟨_, List.mem_singleton_self _⟩, trivial, trivial⟩

theorem finishOp_sound {id : Nat} (gunzip : GunzipLimited) (response : Response)
    (h : ServerDone received id) (rest : List ReaderOp) :
    (finishOp gunzip id response).Sound received rest := by
  unfold finishOp
  split <;> exact .inl h

theorem Shared.handleHeaders_sound {s : Shared} {frame : MetaHeaders}
    (hended : frame.streamEnded = true → ServerDone received frame.streamID)
    (hrefused : ∀ st, s.lookup frame.streamID = some st → st.finished = false →
      st.refusesHeaders frame response = true → frame.streamEnded = true)
    (hrest : OpsSound received rest) :
    OpsSound received ((s.handleHeaders gunzip frame response expected).2 ++ rest) := by
  unfold Shared.handleHeaders
  dsimp only
  split
  · exact hrest
  · rename_i st hst
    split
    · exact hrest
    · rename_i hf
      have hrefuse := hrefused st hst (Bool.eq_false_iff.2 hf)
      rw [Stream.refusesHeaders] at hrefuse
      split
      · rename_i hinfo
        rw [if_pos hinfo] at hrefuse
        split
        · rename_i hinvalid
          exact ⟨.inl (hended (hrefuse hinvalid)), hrest⟩
        · exact hrest
      · rename_i hinfo
        rw [if_neg hinfo] at hrefuse
        split
        · rename_i hagain
          exact ⟨.inl (hended (hrefuse hagain)), hrest⟩
        · refine ⟨trivial, ?_⟩
          split
          · rename_i hend
            exact ⟨.inl (hended (Bool.and_eq_true_iff.1 hend).1), hrest⟩
          · split
            · rename_i hend
              exact ⟨finishOp_sound gunzip response (hended hend) _, hrest⟩
            · exact hrest

theorem Shared.handleData_sound {s : Shared} {id : Nat}
    (hended : ended = true → ServerDone received id)
    (hrefused : ∀ st, s.lookup id = some st → st.finished = false →
      st.refusesData data = true → ended = true)
    (hrest : OpsSound received rest) :
    OpsSound received ((s.handleData gunzip id data ended).2 ++ rest) := by
  unfold Shared.handleData
  split
  · exact hrest
  · rename_i st hst
    split
    · exact hrest
    · rename_i hf
      have hrefuse := hrefused st hst (Bool.eq_false_iff.2 hf)
      simp only [Stream.refusesData, Bool.or_eq_true] at hrefuse
      split
      · rename_i hh
        exact ⟨.inl (hended (hrefuse (.inl (.inl hh)))), hrest⟩
      · split
        · rename_i hbig
          exact ⟨.inl (hended (hrefuse (.inl (.inr (decide_eq_true hbig))))), hrest⟩
        · dsimp only
          rw [List.length_append]
          split
          · rename_i hmore
            exact ⟨.inl (hended (hrefuse (.inr hmore))), hrest⟩
          · split
            · rename_i hend
              split
              · exact ⟨.inl (hended hend), hrest⟩
              · exact ⟨finishOp_sound gunzip _ (hended hend) _, hrest⟩
            · exact hrest

end Repost.H2
