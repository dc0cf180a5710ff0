import Repost.SessionSettling

namespace Repost.H2
open GoText Runs
set_option autoImplicit true

def Stream.Bare (st : Stream) : Prop :=
  (st.finished = false ∧ st.headersReceived = false) ∨ (st.finished = true ∧ st.err ≠ none)

structure Stream.Aside (st st' : Stream) : Prop where
  headers : st'.headersReceived = st.headersReceived
  observed : st'.observed = st.observed
  outcome : (st'.finished = st.finished ∧ st'.err = st.err ∧ st'.response = st.response) ∨
    (st'.finished = true ∧ st'.err ≠ none)

theorem Stream.Aside.refl (st : Stream) : st.Aside st := ⟨rfl, rfl, .inl ⟨rfl, rfl, rfl⟩⟩

theorem Stream.Aside.trans {st st' st'' : Stream} (h : st.Aside st') (h' : st'.Aside st'') :
    st.Aside st'' := by
  refine ⟨h'.headers.trans h.headers, h'.observed.trans h.observed, ?_⟩
  rcases h'.outcome with ⟨hf', he', hr'⟩ | hend
  · rcases h.outcome with ⟨hf, he, hr⟩ | ⟨hf, he⟩
    · exact .inl ⟨hf'.trans hf, he'.trans he, hr'.trans hr⟩
    · exact .inr ⟨hf'.trans hf, he' ▸ he⟩
  · exact .inr hend

theorem Stream.Bare.aside {st st' : Stream} (h : st.Bare) (ha : st.Aside st') : st'.Bare := by
  rcases ha.outcome with ⟨hf, he, -⟩ | hend
  · unfold Stream.Bare
    rw [hf, he, ha.headers]
    exact h
  · exact .inr hend

namespace Shared

structure Aside (s s' : Shared) : Prop where
  kept : ∀ id st, s.object id = some st → ∃ st', s'.object id = some st' ∧ st.Aside st'
  fresh : ∀ id st', s.object id = none → s'.object id = some st' → st'.Bare

theorem Aside.of_objects {s s' : Shared} (ho : s'.objects = s.objects) : s.Aside s' := by
  have hobject : ∀ id, s'.object id = s.object id := by
    intro id
    rw [object, ho, object]
  refine ⟨fun id st h => ⟨st, by rw [hobject, h], .refl st⟩, ?_⟩
  intro id st' hn h
  rw [hobject, hn] at h
  cases h

variable (s : Shared)

theorem Aside.refl : s.Aside s := .of_objects rfl

theorem Aside.trans {s t u : Shared} (h : s.Aside t) (h' : t.Aside u) : s.Aside u := by
  constructor
  · intro id st hs
    obtain ⟨st', ht, ha⟩ := h.kept id st hs
    obtain ⟨st'', hu, ha'⟩ := h'.kept id st' ht
    exact ⟨st'', hu, ha.trans ha'⟩
  · intro id st'' hs hu
    cases ht : t.object id with
    | none => exact h'.fresh id st'' ht hu
    | some st' =>
      obtain ⟨st₁, hu', ha⟩ := h'.kept id st' ht
      cases hu.symm.trans hu'
      exact (h.fresh id st' hs ht).aside ha

theorem Aside.of_map {s s' : Shared} (g : Stream → Stream) (ho : s'.objects = s.objects.map g)
    (hid : ∀ st, (g st).id = st.id) (hg : ∀ st : Stream, st.Aside (g st)) : s.Aside s' := by
  have hobject := object_map g ho hid
  constructor
  · intro id st hs
    exact ⟨g st, by rw [hobject, hs]; rfl, hg st⟩
  · intro id st' hn h
    rw [hobject, hn] at h
    cases h

theorem Aside.of_update {s s' : Shared} (id : Nat) (f : Stream → Stream)
    (ho : s'.objects = (s.updateStream id f).objects) (hid : ∀ st, (f st).id = st.id)
    (hf : ∀ st : Stream, st.Aside (f st)) : s.Aside s' := by
  apply Aside.of_map (fun st => if st.id = id then f st else st) ho
  · intro st
    split
    · exact hid st
    · rfl
  · intro st
    split
    · exact hf st
    · exact .refl st

theorem finishLocked_aside (id : Nat) (r : Response) (e : SessionError) :
    s.Aside (s.finishLocked id r (some e)) :=
  Aside.of_update id (fun st => { st with response := r, err := some e, finished := true }) rfl
    (fun _ => rfl) fun _ => ⟨rfl, rfl, .inr ⟨rfl, Option.some_ne_none e⟩⟩

theorem cancelStream_aside (id : Nat) (e : SessionError) :
    s.Aside (s.cancelStream id e) := by
  unfold cancelStream
  split
  · split
    · exact .refl s
    · exact finishLocked_aside ..
  · exact .refl s

theorem finishStream_aside (id : Nat) (r : Response) (e : SessionError) :
    s.Aside (s.finishStream id r (some e)) := by
  unfold finishStream
  split
  · split
    · exact .refl s
    · exact finishLocked_aside ..
  · exact .refl s

theorem finishAll_aside (e : SessionError) (ids : List Nat) :
    s.Aside (s.finishAll e ids) := by
  induction ids generalizing s with
  | nil => exact .refl s
  | cons id ids ih => exact (finishLocked_aside ..).trans (ih _)

theorem shutdown_aside (e : SessionError) : s.Aside (s.shutdown e) := by
  unfold shutdown
  split
  · exact .refl s
  · exact Aside.trans (t := { s with closeErr := some e }) (.of_objects rfl) (finishAll_aside ..)

theorem handleGoAway_aside (lastStreamID code : Nat) :
    s.Aside (s.handleGoAway lastStreamID code) := by
  have hall := fun (g : GoAway) (ids : List Nat) =>
    Aside.trans (s := s) (t := { s with goAway := some g }) (.of_objects rfl)
      (finishAll_aside _ (.goAway g.lastStreamID g.code) ids)
  exact (hall _ _).trans (.of_objects rfl)

theorem debit_aside (id n : Nat) : s.Aside (s.debit id n) :=
  Aside.of_update id (fun st => { st with sendWindow := st.sendWindow - n }) rfl (fun _ => rfl)
    fun _ => ⟨rfl, rfl, .inl ⟨rfl, rfl, rfl⟩⟩

theorem openStream_aside : s.Aside s.openStream := by
  have hobject : ∀ id, s.openStream.object id = (s.object id).or
      (([{ id := s.nextStreamID, sendWindow := s.initialStreamWindow }] : List Stream).find?
        fun st => st.id == id) := by
    intro id
    simp only [object, openStream, List.find?_append]
  constructor
  · intro id st hs
    exact ⟨st, by rw [hobject, hs]; rfl, .refl st⟩
  · intro id st' hn h
    rw [hobject, hn, Option.none_or] at h
    obtain rfl := List.mem_singleton.1 (List.mem_of_find?_eq_some h)
    exact .inl ⟨rfl, rfl⟩

theorem applySettings_aside (settings : List Setting) :
    s.Aside (s.applySettings settings).1 := by
  induction settings generalizing s with
  | nil => exact .refl s
  | cons setting settings ih =>
    unfold applySettings
    split
    · refine Aside.trans ?_ (ih _)
      unfold applySetting
      split
      · refine Aside.of_map _ rfl ?_ ?_
        · intro st
          split <;> rfl
        · intro st
          split
          · exact ⟨rfl, rfl, .inl ⟨rfl, rfl, rfl⟩⟩
          · exact .refl st
      · exact .of_objects rfl
      · exact .of_objects rfl
      · exact .refl s
    · exact .refl s

theorem handleWindowUpdate_aside (id increment : Nat) :
    s.Aside (s.handleWindowUpdate id increment).1 := by
  unfold handleWindowUpdate
  split
  · split
    · exact .refl s
    · exact .of_objects rfl
  · split
    · split
      · exact .of_objects rfl
      · split
        · exact .refl s
        · exact .of_update id (fun st => { st with sendWindow := st.sendWindow + increment }) rfl
            (fun _ => rfl) fun _ => ⟨rfl, rfl, .inl ⟨rfl, rfl, rfl⟩⟩
    · exact .of_objects rfl

end Shared

end Repost.H2
