import Repost.SessionAnswers
import Repost.StreamFollowing

namespace Repost.H2
open GoText Runs
set_option autoImplicit true

namespace Shared

/-- The bound of the last GOAWAY frame once another one arrived. -/
def goAwayBound (s : Shared) (lastStreamID code : Nat) : GoAway :=
  match s.goAway with
  | some g => if lastStreamID < g.lastStreamID then ⟨lastStreamID, code⟩ else g
  | none => ⟨lastStreamID, code⟩

/-- The streams that `finishStream` hands to `finishLocked`, which closes their channel. -/
def finishStreamCloses (s : Shared) (id : Nat) : List Nat :=
  match s.lookup id with
  | some st => if st.finished then [] else [id]
  | none => []

def cancelStreamCloses (s : Shared) (id : Nat) : List Nat :=
  match s.object id with
  | some st => if st.finished then [] else [id]
  | none => []

def shutdownCloses (s : Shared) : List Nat :=
  match s.closeErr with
  | some _ => []
  | none => s.streams

def handleGoAwayCloses (s : Shared) (lastStreamID code : Nat) : List Nat :=
  s.streams.filter (· > (s.goAwayBound lastStreamID code).lastStreamID)

/-- The streams whose channel an operation of the read loop closes, in order. -/
def closes (s : Shared) : ReaderOp → List Nat
  | .finish id _ _ => s.finishStreamCloses id
  | .goAway lastStreamID code => s.handleGoAwayCloses lastStreamID code
  | .shutdown _ => s.shutdownCloses
  | _ => []

structure Tabled (s : Shared) (closed : List Nat) : Prop where
  next_odd : s.nextStreamID % 2 = 1
  distinct : s.streams.Nodup
  known : ∀ id ∈ s.streams, ∃ st ∈ s.objects, st.id = id
  unique : (s.objects.map Stream.id).Nodup
  numbered : ∀ st ∈ s.objects,
    st.id % 2 = 1 ∧ st.id < s.nextStreamID ∧ st.id ≤ maxStreamID
  logged : ∀ id ∈ closed, id < s.nextStreamID
  accounted : ∀ st ∈ s.objects,
    (st.finished = false ∧ st.id ∈ s.streams ∧ closed.count st.id = 0) ∨
      (st.finished = true ∧ st.id ∉ s.streams ∧ closed.count st.id = 1)

structure SameTable (s s' : Shared) : Prop where
  streams : s'.streams = s.streams
  nextStreamID : s'.nextStreamID = s.nextStreamID
  objects : ∃ g : Stream → Stream, s'.objects = s.objects.map g ∧
    ∀ st, (g st).id = st.id ∧ (g st).finished = st.finished

section
variable {s s' t : Shared} {closed : List Nat} {id : Nat}

theorem SameTable.of_objects (hs : s'.streams = s.streams)
    (hn : s'.nextStreamID = s.nextStreamID) (ho : s'.objects = s.objects) : s.SameTable s' :=
  ⟨hs, hn, fun st => st, ho.trans (List.map_id' s.objects).symm, fun _ => ⟨rfl, rfl⟩⟩

theorem SameTable.refl (s : Shared) : s.SameTable s := .of_objects rfl rfl rfl

theorem SameTable.trans (h : s.SameTable t) (h' : t.SameTable s') : s.SameTable s' := by
  obtain ⟨g, hg, hgs⟩ := h.objects
  obtain ⟨g', hg', hgs'⟩ := h'.objects
  refine ⟨h'.streams.trans h.streams, h'.nextStreamID.trans h.nextStreamID, g' ∘ g, ?_, ?_⟩
  · rw [hg', hg, List.map_map]
  · exact fun st => ⟨(hgs' _).1.trans (hgs st).1, (hgs' _).2.trans (hgs st).2⟩

theorem SameTable.of_update (f : Stream → Stream) (hs : s'.streams = s.streams)
    (hn : s'.nextStreamID = s.nextStreamID) (ho : s'.objects = (s.updateStream id f).objects)
    (hf : ∀ st, (f st).id = st.id ∧ (f st).finished = st.finished) : s.SameTable s' := by
  refine ⟨hs, hn, _, ho, ?_⟩
  intro st
  split
  · exact hf st
  · exact ⟨rfl, rfl⟩

theorem Touches.sameTable (h : s.Touches s') : s.SameTable s' := by
  cases h with
  | nothing => exact .refl s
  | update id f hid hf => exact .of_update f rfl rfl rfl fun st => ⟨hid st, hf st⟩

theorem debit_sameTable (s : Shared) (id n : Nat) : s.SameTable (s.debit id n) :=
  .of_update (fun st => { st with sendWindow := st.sendWindow - n }) rfl rfl rfl
    fun _ => ⟨rfl, rfl⟩

theorem handleWindowUpdate_sameTable (s : Shared) (id increment : Nat) :
    s.SameTable (s.handleWindowUpdate id increment).1 := by
  unfold Shared.handleWindowUpdate
  split
  · split
    · exact .refl s
    · exact .of_objects rfl rfl rfl
  · split
    · split_ifs
      · exact .of_objects rfl rfl rfl
      · exact .refl s
      · exact .of_update (fun st => { st with sendWindow := st.sendWindow + increment }) rfl rfl rfl
          fun _ => ⟨rfl, rfl⟩
    · exact .of_objects rfl rfl rfl

theorem applySetting_sameTable (s : Shared) (setting : Setting) :
    s.SameTable (s.applySetting setting) := by
  unfold Shared.applySetting
  split
  · refine ⟨rfl, rfl, _, rfl, ?_⟩
    intro st
    split <;> exact ⟨rfl, rfl⟩
  · exact .of_objects rfl rfl rfl
  · exact .of_objects rfl rfl rfl
  · exact .refl s

theorem applySettings_sameTable (s : Shared) (settings : List Setting) :
    s.SameTable (s.applySettings settings).1 := by
  induction settings generalizing s with
  | nil => exact .refl s
  | cons setting settings ih =>
    unfold Shared.applySettings
    split
    · exact (applySetting_sameTable s setting).trans (ih _)
    · exact .refl s

theorem Tabled.same (h : s.Tabled closed) (hs : s.SameTable s') : s'.Tabled closed := by
  obtain ⟨hstreams, hnext, g, hg, hgs⟩ := hs
  have hids : s'.objects.map Stream.id = s.objects.map Stream.id := by
    rw [hg, List.map_map]
    exact List.map_congr_left fun st _ => (hgs st).1
  have hmem : ∀ st' ∈ s'.objects, ∃ st ∈ s.objects, st.id = st'.id ∧
      st.finished = st'.finished := by
    intro st' hm
    rw [hg] at hm
    obtain ⟨st, hst, rfl⟩ := List.mem_map.1 hm
    exact ⟨st, hst, (hgs st).1.symm, (hgs st).2.symm⟩
  constructor
  · rw [hnext]
    exact h.next_odd
  · rw [hstreams]
    exact h.distinct
  · intro id hid
    rw [hstreams] at hid
    obtain ⟨st, hst, rfl⟩ := h.known id hid
    exact ⟨g st, hg ▸ List.mem_map_of_mem hst, (hgs st).1⟩
  · rw [hids]
    exact h.unique
  · intro st' hm
    obtain ⟨st, hst, hid, -⟩ := hmem st' hm
    rw [← hid, hnext]
    exact h.numbered st hst
  · rw [hnext]
    exact h.logged
  · intro st' hm
    obtain ⟨st, hst, hid, hfin⟩ := hmem st' hm
    rw [← hid, ← hfin, hstreams]
    exact h.accounted st hst

theorem Tabled.listed {st : Stream} (h : s.Tabled closed) (ho : s.object id = some st)
    (hf : st.finished = false) : id ∈ s.streams := by
  have hid := object_id ho
  rcases h.accounted st (List.mem_of_find?_eq_some ho) with ⟨-, hl, -⟩ | ⟨hfin, -, -⟩
  · rw [← hid]
    exact hl
  · cases hf.symm.trans hfin

theorem Tabled.finishLocked (h : s.Tabled closed) (hid : id ∈ s.streams) (r : Response)
    (e : Option SessionError) : (s.finishLocked id r e).Tabled (closed ++ [id]) := by
  have hobjects : (s.finishLocked id r e).objects = s.objects.map fun st =>
      if st.id = id then { st with response := r, err := e, finished := true } else st := rfl
  have hmem : ∀ st' ∈ (s.finishLocked id r e).objects, ∃ st ∈ s.objects, st.id = st'.id ∧
      (st.id = id → st'.finished = true) ∧ (st.id ≠ id → st'.finished = st.finished) := by
    intro st' hm
    rw [hobjects] at hm
    obtain ⟨st, hst, rfl⟩ := List.mem_map.1 hm
    refine ⟨st, hst, ?_⟩
    split
    · rename_i heq
      exact ⟨rfl, fun _ => rfl, fun hne => absurd heq hne⟩
    · rename_i hne
      exact ⟨rfl, fun heq => absurd heq hne, fun _ => rfl⟩
  constructor
  · exact h.next_odd
  · exact h.distinct.erase id
  · intro n hn
    obtain ⟨st, hst, rfl⟩ := h.known n (List.mem_of_mem_erase hn)
    refine ⟨_, hobjects ▸ List.mem_map_of_mem hst, ?_⟩
    split <;> rfl
  · have hids : (s.finishLocked id r e).objects.map Stream.id = s.objects.map Stream.id := by
      rw [hobjects, List.map_map]
      refine List.map_congr_left fun st _ => ?_
      rw [Function.comp_apply]
      split <;> rfl
    rw [hids]
    exact h.unique
  · intro st' hm
    obtain ⟨st, hst, hst', -⟩ := hmem st' hm
    rw [← hst']
    exact h.numbered st hst
  · intro n hn
    rcases List.mem_append.1 hn with hn | hn
    · exact h.logged n hn
    · rw [List.mem_singleton.1 hn]
      obtain ⟨st, hst, rfl⟩ := h.known id hid
      exact (h.numbered st hst).2.1
  · intro st' hm
    obtain ⟨st, hst, hst', hown, hother⟩ := hmem st' hm
    rw [← hst', List.count_append, List.count_singleton]
    by_cases heq : st.id = id
    · refine .inr ⟨hown heq, ?_, ?_⟩
      · rw [heq]
        exact h.distinct.not_mem_erase
      · rcases h.accounted st hst with ⟨-, -, hcount⟩ | ⟨-, hout, -⟩
        · rw [hcount, heq, if_pos (beq_self_eq_true id)]
        · exact absurd (heq ▸ hid) hout
    · have hcount : ¬(id == st.id) = true := fun hb => heq (beq_iff_eq.1 hb).symm
      have hstreams : st.id ∈ (s.finishLocked id r e).streams ↔ st.id ∈ s.streams :=
        List.mem_erase_of_ne heq
      rw [hother heq, hstreams, if_neg hcount, Nat.add_zero]
      exact h.accounted st hst

theorem Tabled.finishAll (h : s.Tabled closed) (e : SessionError) {ids : List Nat}
    (hids : ids.Nodup) (hsub : ∀ id ∈ ids, id ∈ s.streams) :
    (s.finishAll e ids).Tabled (closed ++ ids) := by
  induction ids generalizing s closed with
  | nil =>
    rw [List.append_nil]
    exact h
  | cons id ids ih =>
    obtain ⟨hnot, hnodup⟩ := List.nodup_cons.1 hids
    have hfirst := h.finishLocked (hsub id List.mem_cons_self) {} (some e)
    have hstill : ∀ n ∈ ids, n ∈ (s.finishLocked id {} (some e)).streams := by
      intro n hn
      have hne : n ≠ id := by
        rintro rfl
        exact hnot hn
      exact (List.mem_erase_of_ne hne).2 (hsub n (List.mem_cons_of_mem _ hn))
    have hrest := ih hfirst hnodup hstill
    rw [List.append_assoc] at hrest
    exact hrest

theorem mem_finishAll (h : s.streams.Nodup) (e : SessionError) (ids : List Nat) :
    id ∈ (s.finishAll e ids).streams ↔ id ∈ s.streams ∧ id ∉ ids := by
  induction ids generalizing s with
  | nil => exact (and_iff_left List.not_mem_nil).symm
  | cons n ids ih =>
    have hrest := ih (s := s.finishLocked n {} (some e)) (h.erase n)
    have herase : id ∈ (s.finishLocked n {} (some e)).streams ↔ id ≠ n ∧ id ∈ s.streams :=
      h.mem_erase_iff
    rw [Shared.finishAll, hrest, herase, List.mem_cons, not_or]
    exact ⟨fun ⟨⟨hn, hs⟩, hi⟩ => ⟨hs, hn, hi⟩, fun ⟨hs, hn, hi⟩ => ⟨⟨hn, hs⟩, hi⟩⟩

theorem Tabled.finishStream (h : s.Tabled closed) (r : Response) (e : Option SessionError) :
    (s.finishStream id r e).Tabled (closed ++ s.finishStreamCloses id) := by
  unfold Shared.finishStream finishStreamCloses
  cases hl : s.lookup id with
  | none =>
    rw [List.append_nil]
    exact h
  | some st =>
    dsimp only
    split
    · rw [List.append_nil]
      exact h
    · rename_i hf
      exact h.finishLocked (h.listed (lookup_object hl) (Bool.eq_false_of_not_eq_true hf)) r e

theorem Tabled.cancelStream (h : s.Tabled closed) (e : SessionError) :
    (s.cancelStream id e).Tabled (closed ++ s.cancelStreamCloses id) := by
  unfold Shared.cancelStream cancelStreamCloses
  cases ho : s.object id with
  | none =>
    rw [List.append_nil]
    exact h
  | some st =>
    dsimp only
    split
    · rw [List.append_nil]
      exact h
    · rename_i hf
      exact h.finishLocked (h.listed ho (Bool.eq_false_of_not_eq_true hf)) {} (some e)

theorem Tabled.shutdown (h : s.Tabled closed) (e : SessionError) :
    (s.shutdown e).Tabled (closed ++ s.shutdownCloses) := by
  unfold Shared.shutdown shutdownCloses
  cases s.closeErr with
  | some _ =>
    rw [List.append_nil]
    exact h
  | none =>
    have hset : { s with closeErr := some e }.Tabled closed := h.same (.of_objects rfl rfl rfl)
    exact hset.finishAll e h.distinct fun _ hid => hid

theorem handleGoAway_eq (s : Shared) (lastStreamID code : Nat) :
    s.handleGoAway lastStreamID code =
      ({ s with goAway := some (s.goAwayBound lastStreamID code) }.finishAll
        (.goAway (s.goAwayBound lastStreamID code).lastStreamID
          (s.goAwayBound lastStreamID code).code)
        (s.handleGoAwayCloses lastStreamID code)).signalAdmissionLocked := rfl

theorem Tabled.handleGoAway (h : s.Tabled closed) (lastStreamID code : Nat) :
    (s.handleGoAway lastStreamID code).Tabled
      (closed ++ s.handleGoAwayCloses lastStreamID code) := by
  rw [handleGoAway_eq]
  have hset : { s with goAway := some (s.goAwayBound lastStreamID code) }.Tabled closed :=
    h.same (.of_objects rfl rfl rfl)
  have hopen : ∀ id ∈ s.handleGoAwayCloses lastStreamID code, id ∈ s.streams :=
    fun _ hid => (List.mem_filter.1 hid).1
  have hnodup : (s.handleGoAwayCloses lastStreamID code).Nodup := h.distinct.filter _
  exact (hset.finishAll _ hnodup hopen).same (.of_objects rfl rfl rfl)

theorem Tabled.openStream (h : s.Tabled closed) (hn : s.nextStreamID ≤ maxStreamID) :
    s.openStream.Tabled closed := by
  have hfresh : ∀ st ∈ s.objects, st.id ≠ s.nextStreamID := fun st hst =>
    Nat.ne_of_lt (h.numbered st hst).2.1
  have hnew : s.nextStreamID ∉ s.streams := by
    intro hid
    obtain ⟨st, hst, heq⟩ := h.known _ hid
    exact hfresh st hst heq
  have hunlogged : s.nextStreamID ∉ closed := fun hid => Nat.lt_irrefl _ (h.logged _ hid)
  constructor
  · exact (Nat.add_mod_right ..).trans h.next_odd
  · exact List.nodup_cons.2 ⟨hnew, h.distinct⟩
  · intro id hid
    rcases List.mem_cons.1 hid with rfl | hid
    · exact ⟨_, List.mem_append_right _ (List.mem_singleton.2 rfl), rfl⟩
    · obtain ⟨st, hst, heq⟩ := h.known id hid
      exact ⟨st, List.mem_append_left _ hst, heq⟩
  · have hids : s.openStream.objects.map Stream.id =
        s.objects.map Stream.id ++ [s.nextStreamID] := List.map_append
    rw [hids]
    refine List.nodup_append.2 ⟨h.unique, List.nodup_singleton _, ?_⟩
    intro a ha b hb
    obtain ⟨st, hst, rfl⟩ := List.mem_map.1 ha
    rw [List.mem_singleton.1 hb]
    exact hfresh st hst
  · intro st hm
    rcases List.mem_append.1 hm with hst | hst
    · obtain ⟨hodd, hlt, hmax⟩ := h.numbered st hst
      exact ⟨hodd, Nat.lt_add_right 2 hlt, hmax⟩
    · rw [List.mem_singleton.1 hst]
      exact ⟨h.next_odd, Nat.lt_add_of_pos_right Nat.two_pos, hn⟩
  · exact fun id hid => Nat.lt_add_right 2 (h.logged id hid)
  · intro st hm
    rcases List.mem_append.1 hm with hst | hst
    · have hstreams : st.id ∈ s.openStream.streams ↔ st.id ∈ s.streams :=
        List.mem_cons.trans (or_iff_right (hfresh st hst))
      rw [hstreams]
      exact h.accounted st hst
    · rw [List.mem_singleton.1 hst]
      exact .inl ⟨rfl, List.mem_cons_self, List.count_eq_zero.2 hunlogged⟩

theorem Tabled.perform (h : s.Tabled closed) (gunzip : GunzipLimited) (op : ReaderOp) :
    (s.perform gunzip op).1.Tabled (closed ++ s.closes op) := by
  have hsame : ∀ {s' : Shared}, s.SameTable s' → s'.Tabled (closed ++ []) := by
    intro s' hs
    rw [List.append_nil]
    exact h.same hs
  cases op with
  | finish id r e => exact h.finishStream r e
  | queue reply => exact hsame (.refl s)
  | headers frame r expected => exact hsame (handleHeaders_touches ..).sameTable
  | observe id status headers =>
    exact hsame (.of_update (fun st => { st with observed := some (status, headers) }) rfl rfl rfl
      fun _ => ⟨rfl, rfl⟩)
  | data id payload ended => exact hsame (handleData_touches ..).sameTable
  | goAway lastStreamID code => exact h.handleGoAway lastStreamID code
  | windowUpdate id increment => exact hsame (handleWindowUpdate_sameTable ..)
  | settings list => exact hsame (applySettings_sameTable ..)
  | shutdown e => exact h.shutdown e

end

end Shared

end Repost.H2
