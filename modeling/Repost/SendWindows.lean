import Repost.TableRuns

namespace Repost.H2
open GoText Runs
set_option autoImplicit true

/-- The sum of the entries of a log that are about one stream. -/
def total (log : List (Nat × Nat)) (id : Nat) : Nat :=
  ((log.filter fun entry => entry.1 == id).map Prod.snd).sum

theorem total_append (log more : List (Nat × Nat)) (id : Nat) :
    total (log ++ more) id = total log id + total more id := by
  simp [total]

theorem total_one (id n : Nat) : total [(id, n)] id = n := by
  simp [total]

theorem total_other {m id : Nat} (h : m ≠ id) (n : Nat) : total [(m, n)] id = 0 := by
  simp [total, h]

theorem total_eq_zero {log : List (Nat × Nat)} {id : Nat} (h : ∀ entry ∈ log, entry.1 ≠ id) : total log id = 0 := by
  have hnone : log.filter (fun entry => entry.1 == id) = [] :=
    List.filter_eq_nil_iff.2 fun entry hm heq => h entry hm (beq_iff_eq.1 heq)
  rw [total, hnone]
  rfl

/-- The initial window that a frame of settings leaves, whose settings are applied up to the first
invalid one. -/
def lastInitialWindow (current : Int) : List Setting → Int
  | [] => current
  | setting :: settings =>
    if setting.valid then
      lastInitialWindow (if setting.id = .initialWindowSize then setting.value else current) settings
    else current

namespace Shared

/-- The increment that `handleWindowUpdate` adds to a stream's window. -/
def credit (s : Shared) (id increment : Nat) : List (Nat × Nat) :=
  if id = 0 then []
  else
    match s.lookup id with
    | some st =>
      if st.finished || st.sendWindow + increment > maxWindowSize then [] else [(id, increment)]
    | none => []

/-- With its new initial window a frame of settings keeps every open stream's window within the
bound. -/
def fits (s : Shared) (settings : List Setting) : Bool :=
  s.streams.all fun id => (s.object id).all fun st =>
    st.sendWindow + (lastInitialWindow s.initialStreamWindow settings - s.initialStreamWindow) ≤
      maxWindowSize

def Legal (s : Shared) : Prop :=
  ∀ id ∈ s.streams, ∀ st, s.object id = some st → st.sendWindow ≤ maxWindowSize

structure SameWindows (s s' : Shared) : Prop where
  streams : ∀ id ∈ s'.streams, id ∈ s.streams
  initial : s'.initialStreamWindow = s.initialStreamWindow
  windows : ∀ id st', s'.object id = some st' →
    ∃ st, s.object id = some st ∧ st'.sendWindow = st.sendWindow

def window (s : Shared) (id : Nat) : Option Int := (s.object id).map Stream.sendWindow

structure Shifts (s s' : Shared) : Prop where
  streams : s'.streams = s.streams
  windows : ∀ id ∈ s.streams, s'.window id =
    (s.window id).map (· + (s'.initialStreamWindow - s.initialStreamWindow))

section
variable {s s' t : Shared} {id : Nat}

theorem SameWindows.of_map (g : Stream → Stream) (hs : ∀ id ∈ s'.streams, id ∈ s.streams)
    (hi : s'.initialStreamWindow = s.initialStreamWindow) (ho : s'.objects = s.objects.map g)
    (hg : ∀ st, (g st).id = st.id ∧ (g st).sendWindow = st.sendWindow) : s.SameWindows s' := by
  refine ⟨hs, hi, ?_⟩
  intro id st' h
  rw [object_map g ho fun st => (hg st).1] at h
  obtain ⟨st, hst, rfl⟩ := Option.map_eq_some_iff.1 h
  exact ⟨st, hst, (hg st).2⟩

theorem SameWindows.of_objects (hs : s'.streams = s.streams)
    (hi : s'.initialStreamWindow = s.initialStreamWindow) (ho : s'.objects = s.objects) :
    s.SameWindows s' :=
  .of_map (fun st => st) (fun _ h => hs ▸ h) hi (ho.trans (List.map_id' s.objects).symm)
    fun _ => ⟨rfl, rfl⟩

theorem SameWindows.refl (s : Shared) : s.SameWindows s := .of_objects rfl rfl rfl

theorem SameWindows.trans (h : s.SameWindows t) (h' : t.SameWindows s') : s.SameWindows s' := by
  refine ⟨fun id hid => h.streams id (h'.streams id hid), h'.initial.trans h.initial, ?_⟩
  intro id st' hs'
  obtain ⟨st, ht, hw⟩ := h'.windows id st' hs'
  obtain ⟨st₀, hs, hw₀⟩ := h.windows id st ht
  exact ⟨st₀, hs, hw.trans hw₀⟩

theorem SameWindows.of_update (f : Stream → Stream) (hs : ∀ id ∈ s'.streams, id ∈ s.streams)
    (hi : s'.initialStreamWindow = s.initialStreamWindow)
    (ho : s'.objects = (s.updateStream id f).objects)
    (hf : ∀ st, (f st).id = st.id ∧ (f st).sendWindow = st.sendWindow) : s.SameWindows s' := by
  refine .of_map _ hs hi ho ?_
  intro st
  split
  · exact hf st
  · exact ⟨rfl, rfl⟩

theorem finishLocked_sameWindows (s : Shared) (id : Nat) (r : Response)
    (e : Option SessionError) : s.SameWindows (s.finishLocked id r e) :=
  .of_update (fun st => { st with response := r, err := e, finished := true })
    (fun _ h => List.mem_of_mem_erase h) rfl rfl fun _ => ⟨rfl, rfl⟩

theorem Finishes.sameWindows (h : s.Finishes id s') : s.SameWindows s' := by
  cases h with
  | nothing => exact .refl s
  | finish r e => exact finishLocked_sameWindows ..

theorem finishAll_sameWindows (s : Shared) (e : SessionError) (ids : List Nat) :
    s.SameWindows (s.finishAll e ids) := by
  induction ids generalizing s with
  | nil => exact .refl s
  | cons id ids ih => exact (finishLocked_sameWindows ..).trans (ih _)

theorem shutdown_sameWindows (s : Shared) (e : SessionError) : s.SameWindows (s.shutdown e) := by
  unfold Shared.shutdown
  split
  · exact .refl s
  · have hset : s.SameWindows { s with closeErr := some e } := .of_objects rfl rfl rfl
    exact hset.trans (finishAll_sameWindows ..)

theorem handleGoAway_sameWindows (s : Shared) (lastStreamID code : Nat) :
    s.SameWindows (s.handleGoAway lastStreamID code) := by
  rw [handleGoAway_eq]
  have hset : s.SameWindows { s with goAway := some (s.goAwayBound lastStreamID code) } :=
    .of_objects rfl rfl rfl
  exact (hset.trans (finishAll_sameWindows ..)).trans (.of_objects rfl rfl rfl)

theorem handleHeaders_sameWindows (gunzip : GunzipLimited) (s : Shared) (frame : MetaHeaders)
    (r : Response) (expected : Option Nat) :
    s.SameWindows (s.handleHeaders gunzip frame r expected).1 := by
  unfold Shared.handleHeaders
  dsimp only
  split
  · exact .refl s
  · split
    · exact .refl s
    · split
      · exact .of_update _ (fun _ h => h) rfl rfl fun _ => ⟨rfl, rfl⟩
      · split
        · exact .refl s
        · exact .of_update _ (fun _ h => h) rfl rfl fun _ => ⟨rfl, rfl⟩

theorem handleData_sameWindows (gunzip : GunzipLimited) (s : Shared) (id : Nat) (data : Bytes)
    (ended : Bool) : s.SameWindows (s.handleData gunzip id data ended).1 := by
  unfold Shared.handleData
  split
  · exact .refl s
  · split
    · exact .refl s
    · split
      · exact .refl s
      · split
        · exact .refl s
        · exact .of_update _ (fun _ h => h) rfl rfl fun _ => ⟨rfl, rfl⟩

theorem Shifts.of_objects (hs : s'.streams = s.streams)
    (hi : s'.initialStreamWindow = s.initialStreamWindow) (ho : s'.objects = s.objects) :
    s.Shifts s' := by
  refine ⟨hs, fun id _ => ?_⟩
  rw [window, object, ho, hi, Int.sub_self]
  cases hw : s.window id with
  | none => exact hw
  | some w => exact hw.trans (congrArg some (Int.add_zero w).symm)

theorem Shifts.refl (s : Shared) : s.Shifts s := .of_objects rfl rfl rfl

theorem Shifts.trans (h : s.Shifts t) (h' : t.Shifts s') : s.Shifts s' := by
  refine ⟨h'.streams.trans h.streams, ?_⟩
  intro id hid
  rw [h'.windows id (h.streams ▸ hid), h.windows id hid, Option.map_map]
  congr 1
  funext w
  rw [Function.comp_apply]
  omega

theorem Shifts.before (h : s.Shifts s') (id : Nat) (hid : id ∈ s.streams)
    (hst' : s'.object id = some st') : ∃ st, s.object id = some st ∧
      st'.sendWindow = st.sendWindow + (s'.initialStreamWindow - s.initialStreamWindow) := by
  have hw := h.windows id hid
  rw [window, window, hst', Option.map_map] at hw
  obtain ⟨st, hst, heq⟩ := Option.map_eq_some_iff.1 hw.symm
  exact ⟨st, hst, heq.symm⟩

theorem Shifts.after (h : s.Shifts s') (id : Nat) (hid : id ∈ s.streams)
    (hst : s.object id = some st) : ∃ st', s'.object id = some st' ∧
      st'.sendWindow = st.sendWindow + (s'.initialStreamWindow - s.initialStreamWindow) := by
  have hw := h.windows id hid
  rw [window, window, hst] at hw
  exact Option.map_eq_some_iff.1 hw

theorem applySetting_shifts (s : Shared) (setting : Setting) :
    s.Shifts (s.applySetting setting) := by
  unfold Shared.applySetting
  split
  · refine ⟨rfl, ?_⟩
    intro id hid
    rw [window, object_map (s := s) _ rfl (fun st => by split <;> rfl), window]
    cases ho : s.object id with
    | none => rfl
    | some st =>
      rw [Option.map_some, object_id ho, if_pos (List.contains_iff_mem.2 hid)]
      rfl
  · exact .of_objects rfl rfl rfl
  · exact .of_objects rfl rfl rfl
  · exact .refl s

theorem applySettings_shifts (s : Shared) (settings : List Setting) :
    s.Shifts (s.applySettings settings).1 := by
  induction settings generalizing s with
  | nil => exact .refl s
  | cons setting settings ih =>
    unfold Shared.applySettings
    split
    · exact (applySetting_shifts s setting).trans (ih _)
    · exact .refl s

theorem applySettings_initial (s : Shared) (settings : List Setting) :
    (s.applySettings settings).1.initialStreamWindow =
      lastInitialWindow s.initialStreamWindow settings := by
  induction settings generalizing s with
  | nil => rfl
  | cons setting settings ih =>
    unfold Shared.applySettings lastInitialWindow
    split
    · rw [ih]
      congr 1
      unfold Shared.applySetting
      split <;> simp_all [signalFlowLocked, signalAdmissionLocked]
    · rfl

theorem lastInitialWindow_le (settings : List Setting)
    (h : current ≤ maxWindowSize) : lastInitialWindow current settings ≤ maxWindowSize := by
  induction settings generalizing current with
  | nil => exact h
  | cons setting settings ih =>
    unfold lastInitialWindow
    split
    · rename_i hvalid
      apply ih
      split
      · have hle := setting.bounded hvalid ‹_›
        unfold maxWindowSize
        omega
      · exact h
    · exact h

theorem object_moved {n : Nat} (d : Int) (ho : s'.objects =
      (s.updateStream n fun st => { st with sendWindow := st.sendWindow + d }).objects)
    (h : s'.object id = some st') : ∃ st, s.object id = some st ∧
      ((id = n ∧ st'.sendWindow = st.sendWindow + d) ∨ (id ≠ n ∧ st' = st)) := by
  rw [object_update ho fun _ => rfl] at h
  split at h
  · rename_i hid
    obtain ⟨st, hst, rfl⟩ := Option.map_eq_some_iff.1 h
    exact ⟨st, hst, .inl ⟨hid, rfl⟩⟩
  · rename_i hid
    exact ⟨st', h, .inr ⟨hid, rfl⟩⟩

theorem handleWindowUpdate_windows (s : Shared) (n increment : Nat) {st' : Stream}
    (h : (s.handleWindowUpdate n increment).1.object id = some st') :
    ∃ st, s.object id = some st ∧
      st'.sendWindow = st.sendWindow + total (s.credit n increment) id ∧
      (st.sendWindow ≤ maxWindowSize → st'.sendWindow ≤ maxWindowSize) := by
  have hkeep : ∀ {s' : Shared}, s'.objects = s.objects → s'.object id = some st' →
      ∃ st, s.object id = some st ∧ st'.sendWindow = st.sendWindow + total [] id ∧
        (st.sendWindow ≤ maxWindowSize → st'.sendWindow ≤ maxWindowSize) := by
    intro s' ho hs'
    rw [Shared.object, ho] at hs'
    exact ⟨st', hs', (Int.add_zero _).symm, fun hle => hle⟩
  unfold Shared.handleWindowUpdate at h
  unfold credit
  split at h
  · rename_i hn
    rw [if_pos hn]
    split at h
    · exact hkeep rfl h
    · exact hkeep rfl h
  · rename_i hn
    rw [if_neg hn]
    cases hl : s.lookup n with
    | some st =>
      simp only [hl] at h
      dsimp only
      split at h
      · rename_i hf
        rw [if_pos (by rw [hf]; rfl)]
        exact hkeep rfl h
      · rename_i hf
        split at h
        · rename_i hover
          rw [if_pos (by rw [decide_eq_true hover, Bool.or_true])]
          exact hkeep rfl h
        · rename_i hfit
          rw [if_neg (by simp [hf, hfit])]
          obtain ⟨st₀, hst₀, ⟨rfl, hw⟩ | ⟨hid, rfl⟩⟩ := object_moved (increment : Int) rfl h
          · cases (lookup_object hl).symm.trans hst₀
            refine ⟨st, hst₀, ?_, fun _ => ?_⟩
            · rw [total_one]
              exact hw
            · rw [hw]
              exact Int.not_lt.1 hfit
          · refine ⟨st', hst₀, ?_, fun hle => hle⟩
            rw [total_other fun heq => hid heq.symm]
            exact (Int.add_zero _).symm
    | none =>
      simp only [hl] at h
      exact hkeep rfl h

def MovesWindows : ReaderOp → Prop
  | .windowUpdate _ _ | .settings _ => True
  | _ => False

theorem perform_sameWindows (s : Shared) (gunzip : GunzipLimited) {op : ReaderOp}
    (h : ¬MovesWindows op) : s.SameWindows (s.perform gunzip op).1 := by
  cases op with
  | finish id r e => exact (finishStream_finishes ..).sameWindows
  | queue reply => exact .refl s
  | headers frame r expected => exact handleHeaders_sameWindows ..
  | observe id status headers =>
    exact .of_update _ (fun _ hid => hid) rfl rfl fun _ => ⟨rfl, rfl⟩
  | data id payload ended => exact handleData_sameWindows ..
  | goAway lastStreamID code => exact handleGoAway_sameWindows ..
  | shutdown e => exact shutdown_sameWindows ..
  | windowUpdate id increment | settings list => exact absurd trivial h

theorem openStream_object (h : s.openStream.object id = some st) :
    s.object id = some st ∨ (id = s.nextStreamID ∧ st.sendWindow = s.initialStreamWindow) := by
  simp only [object, openStream, List.find?_append] at h
  cases ho : s.objects.find? (fun st => st.id == id) with
  | some st₀ =>
    rw [ho] at h
    exact .inl (ho.trans h)
  | none =>
    rw [ho, Option.none_or] at h
    have hid := List.find?_some h
    obtain rfl := List.mem_singleton.1 (List.mem_of_find?_eq_some h)
    exact .inr ⟨(beq_iff_eq.1 hid).symm, rfl⟩

theorem debit_windows (s : Shared) (n size : Nat) {st' : Stream}
    (h : (s.debit n size).object id = some st') :
    ∃ st, s.object id = some st ∧ st'.sendWindow = st.sendWindow - total [(n, size)] id := by
  obtain ⟨st, hst, ⟨rfl, hw⟩ | ⟨hid, rfl⟩⟩ := object_moved (s := s) (-(size : Int)) rfl h
  · exact ⟨st, hst, by rw [total_one]; exact hw⟩
  · refine ⟨st', hst, ?_⟩
    rw [total_other fun heq => hid heq.symm]
    exact (Int.sub_zero _).symm

theorem handleWindowUpdate_initial (s : Shared) (n increment : Nat) :
    (s.handleWindowUpdate n increment).1.initialStreamWindow = s.initialStreamWindow := by
  unfold Shared.handleWindowUpdate
  split
  · split <;> rfl
  · split
    · split_ifs <;> rfl
    · rfl

end

end Shared

end Repost.H2
