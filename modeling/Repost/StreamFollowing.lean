import Repost.StreamShadow

namespace Repost.H2
open GoText Runs
set_option autoImplicit true

def Incoming.ownedBy (id : Nat) (frame : Incoming) : Bool := frame.target == some id

def ReaderOp.ownedBy (id : Nat) (op : ReaderOp) : Bool := op.target == some id

variable {op : ReaderOp} {id : Nat}

theorem ReaderOp.ownedBy_iff :
    op.ownedBy id = true ↔ op.target = some id := beq_iff_eq

theorem finishOp_target (gunzip : GunzipLimited) (id : Nat) (r : Response) :
    (finishOp gunzip id r).target = some id := by
  unfold finishOp
  split <;> rfl

theorem finishOp_fallible (gunzip : GunzipLimited) (id : Nat) (r : Response) :
    (finishOp gunzip id r).fallible = false := by
  unfold finishOp
  split <;> rfl

def ReaderOp.Last (op : ReaderOp) : Prop :=
  op.fallible = false ∧ ∀ gunzip (s : Shared), (s.perform gunzip op).2 = []

theorem rejectOp_last (id : Nat) (e : SessionError) : (rejectOp id e).Last :=
  ⟨rfl, fun _ _ => rfl⟩

theorem finishOp_last (gunzip : GunzipLimited) (id : Nat) (r : Response) :
    (finishOp gunzip id r).Last := by
  refine ⟨finishOp_fallible gunzip id r, ?_⟩
  unfold finishOp
  split
  · exact fun _ _ => rfl
  · exact fun _ _ => rfl

namespace Shared

variable (gunzip : GunzipLimited) (s : Shared)

theorem handleHeaders_ops (frame : MetaHeaders)
    (r : Response) (expected : Option Nat) :
    ∀ op ∈ (s.handleHeaders gunzip frame r expected).2,
      op.target = some frame.streamID ∧ op.Last := by
  unfold Shared.handleHeaders
  dsimp only
  intro op hm
  split at hm
  · cases hm
  · split_ifs at hm
    all_goals simp only [List.mem_cons, List.not_mem_nil, or_false] at hm
    all_goals rcases hm with rfl | rfl
    all_goals first
      | exact ⟨rfl, rejectOp_last _ _⟩
      | exact ⟨rfl, rfl, fun _ _ => rfl⟩
      | exact ⟨finishOp_target .., finishOp_last ..⟩

theorem handleData_ops (id : Nat) (data : Bytes)
    (ended : Bool) :
    ∀ op ∈ (s.handleData gunzip id data ended).2, op.target = some id ∧ op.Last := by
  unfold Shared.handleData
  dsimp only
  intro op hm
  split at hm
  · cases hm
  · split_ifs at hm
    all_goals simp only [List.mem_cons, List.not_mem_nil, or_false] at hm
    all_goals subst hm
    all_goals first
      | exact ⟨rfl, rejectOp_last _ _⟩
      | exact ⟨finishOp_target .., finishOp_last ..⟩

theorem perform_ops
    (ho : op.target = some id) :
    ∀ op' ∈ (s.perform gunzip op).2, op'.target = some id ∧ op'.Last := by
  cases op with
  | finish n response err | observe n status headers => exact fun _ hm => (List.not_mem_nil hm).elim
  | headers frame response expected =>
    cases ho
    exact handleHeaders_ops gunzip s frame response expected
  | data n payload ended =>
    cases ho
    exact handleData_ops gunzip s id payload ended
  | _ => cases ho

theorem settle_last (h : op.Last) :
    s.settle gunzip op = (s.perform gunzip op).1 := by
  unfold settle
  rw [h.2]
  rfl

theorem foldl_settle_last (ops : List ReaderOp)
    (h : ∀ op ∈ ops, op.Last) :
    ops.foldl (settle gunzip) s = ops.foldl (fun s op => (s.perform gunzip op).1) s := by
  induction ops generalizing s with
  | nil => rfl
  | cons op ops ih =>
    rw [List.foldl_cons, List.foldl_cons, settle_last gunzip s (h op List.mem_cons_self)]
    exact ih _ fun op hm => h op (List.mem_cons_of_mem _ hm)

theorem foldl_settle_cons
    (ho : op.target = some id) (rest : List ReaderOp) :
    ((s.perform gunzip op).2 ++ rest).foldl (settle gunzip) (s.perform gunzip op).1 =
      (op :: rest).foldl (settle gunzip) s := by
  rw [List.foldl_append, List.foldl_cons,
    foldl_settle_last gunzip _ _ fun op' hm => (perform_ops gunzip s ho op' hm).2]
  rfl

end Shared

theorem Incoming.ops_target (frame : Incoming) :
    ∀ op ∈ frame.ops, op.target = frame.target ∨ op.target = none := by
  intro op hm
  cases frame with
  | headers frame =>
    rw [Incoming.ops] at hm
    split at hm
    · simp only [List.mem_cons, List.not_mem_nil, or_false] at hm
      rcases hm with rfl | rfl
      · exact .inl rfl
      · exact .inr rfl
    · obtain rfl := List.mem_singleton.1 hm
      exact .inl rfl
  | data id payload padding ended =>
    rw [Incoming.ops] at hm
    split_ifs at hm
    · obtain rfl := List.mem_singleton.1 hm
      exact .inl rfl
    · obtain rfl := List.mem_singleton.1 hm
      exact .inl rfl
    · simp only [List.mem_cons, List.not_mem_nil, or_false] at hm
      rcases hm with rfl | rfl
      · exact .inr rfl
      · exact .inl rfl
  | streamError id code =>
    simp only [Incoming.ops, List.mem_cons, List.not_mem_nil, or_false] at hm
    rcases hm with rfl | rfl
    · exact .inl rfl
    · exact .inr rfl
  | settings ack list | ping ack payload =>
    rw [Incoming.ops] at hm
    split at hm
    · cases hm
    · obtain rfl := List.mem_singleton.1 hm
      exact .inl rfl
  | other => cases hm
  | _ =>
    obtain rfl := List.mem_singleton.1 hm
    exact .inl rfl

theorem Incoming.ops_fallible (frame : Incoming) (P : ReaderOp → Prop) :
    frame.ops.Pairwise fun op later => op.fallible = true → P later := by
  cases frame with
  | headers frame =>
    rw [Incoming.ops]
    split
    · exact List.pairwise_pair.2 fun h => by cases h
    · exact List.pairwise_singleton ..
  | data n payload padding ended =>
    rw [Incoming.ops]
    split_ifs
    · exact List.pairwise_singleton ..
    · exact List.pairwise_singleton ..
    · exact List.pairwise_pair.2 fun h => by cases h
  | streamError n code => exact List.pairwise_pair.2 fun h => by cases h
  | settings ack list | ping ack payload =>
    rw [Incoming.ops]
    split
    · exact .nil
    · exact List.pairwise_singleton ..
  | other => exact .nil
  | _ => exact List.pairwise_singleton ..

namespace Shared

variable (gunzip : GunzipLimited)

theorem settle_queue (s : Shared) (reply : Reply) :
    s.settle gunzip (.queue reply) = s := rfl

/-- A frame of a stream is settled by its operations on the stream alone. -/
theorem receive_own {frame : Incoming} (s : Shared)
    (hf : frame.target = some id) :
    s.receive gunzip frame = (frame.ops.filter (ReaderOp.ownedBy id)).foldl (settle gunzip) s := by
  unfold receive
  cases frame with
  | headers frame =>
    cases hf
    rw [Incoming.ops]
    split
    · simp [ReaderOp.ownedBy, ReaderOp.target, settle_queue]
    · simp [ReaderOp.ownedBy, ReaderOp.target]
  | data n payload padding ended =>
    cases hf
    rw [Incoming.ops]
    split_ifs
    · simp [ReaderOp.ownedBy, ReaderOp.target]
    · simp [ReaderOp.ownedBy, ReaderOp.target]
    · simp [ReaderOp.ownedBy, ReaderOp.target, settle_queue]
  | rstStream n code =>
    cases hf
    simp [Incoming.ops, ReaderOp.ownedBy, ReaderOp.target]
  | streamError n code =>
    cases hf
    simp [Incoming.ops, ReaderOp.ownedBy, ReaderOp.target, settle_queue]
  | _ => cases hf

theorem settlement_perform {s : Shared}
    (ho : op.target = some id) (h : s.settlement id = some result) :
    (s.perform gunzip op).1.settlement id = some result ∧ (s.perform gunzip op).2 = [] := by
  obtain ⟨st, hs, hst⟩ := Option.bind_eq_some_iff.1 h
  have hfinished : st.finished = true := by
    unfold Stream.settlement at hst
    split at hst
    · assumption
    · cases hst
  have hdone : s.Done id st := ⟨hs, hfinished⟩
  cases op with
  | finish n response err =>
    cases ho
    rw [perform, hdone.finishStream]
    exact ⟨h, rfl⟩
  | headers frame response expected =>
    cases ho
    rw [perform, hdone.handleHeaders]
    exact ⟨h, rfl⟩
  | observe n status headers =>
    cases ho
    have hobject := object_updateStream s id
      (fun st => { st with observed := some (status, headers) }) fun _ => rfl
    rw [perform, settlement, hobject, hs]
    exact ⟨hst, rfl⟩
  | data n payload ended =>
    cases ho
    rw [perform, hdone.handleData]
    exact ⟨h, rfl⟩
  | _ => cases ho

theorem settlement_settle {s : Shared}
    (ops : List ReaderOp) (ho : ∀ op ∈ ops, op.target = some id)
    (h : s.settlement id = some result) :
    (ops.foldl (settle gunzip) s).settlement id = some result := by
  induction ops generalizing s with
  | nil => exact h
  | cons op ops ih =>
    have hop := settlement_perform gunzip (ho op List.mem_cons_self) h
    refine ih (fun op hm => ho op (List.mem_cons_of_mem _ hm)) ?_
    unfold settle
    rw [hop.2]
    exact hop.1

end Shared

/-- A request gives up or resets a stream that is not settled yet. -/
def Session.cancels (s : Session) (id : Nat) : Act → Bool
  | .call i _ =>
    match s.calls[i]? with
    | some c =>
      c.stream = id && !s.shared.settled id && match c.point with
        | .fail _ | .afterReset _ _ => true
        | _ => false
    | none => false
  | _ => false

def Session.Lets (id : Nat) (s : Session) (a : Act) : Prop := s.cancels id a = false

instance (id : Nat) (s : Session) (a : Act) : Decidable (Session.Lets id s a) :=
  inferInstanceAs (Decidable (_ = _))

theorem Shared.cancelStream_settled {s : Shared} (h : s.settled id = true)
    (e : SessionError) : s.cancelStream id e = s := by
  unfold Shared.settled at h
  unfold Shared.cancelStream
  cases hs : s.object id with
  | none => rfl
  | some st =>
    rw [hs] at h
    exact if_pos h

theorem Call.Move.spares {s u : Session} {c c' : Call} (h : c.Move s i choice u c')
    (hi : s.calls[i]? = some c) (hlet : Session.Lets id s (.call i choice)) :
    s.shared.Spares u.shared id := by
  have hgiven : (∃ e, c.point = .fail e) ∨ (∃ cause err, c.point = .afterReset cause err) →
      ∀ e, s.shared.Spares (s.shared.cancelStream c.stream e) id := by
    intro hp e
    by_cases hid : id = c.stream
    · subst hid
      have hsettled : s.shared.settled c.stream = true := by
        unfold Session.Lets Session.cancels at hlet
        simp only [hi] at hlet
        rcases hp with ⟨e, hp⟩ | ⟨cause, err, hp⟩
        · simpa [hp] using hlet
        · simpa [hp] using hlet
      rw [Shared.cancelStream_settled hsettled]
      exact .refl ..
    · exact (Shared.cancelStream_finishes ..).spares hid
  cases h with
  | turn ht => exact .refl ..
  | acquired hp hc hg hn hroom => exact Shared.openStream_spares _
  | sent hp hx hroom => exact .of_objects rfl rfl
  | reserved n hp hctx ho hf hpos hbody hframe hconn hstream => exact Shared.debit_spares ..
  | failed hp => exact hgiven (.inl ⟨_, hp⟩) _
  | wasReset hp => exact hgiven (.inr ⟨_, _, hp⟩) _

structure Session.Following (gunzip : GunzipLimited) (id : Nat) (start : Shared)
    (before : List Incoming) (s : Session) : Prop where
  orderly : s.reader.Pairwise fun op later => op.fallible = true → later.target ≠ some id
  follows : ∃ frames r, s.received = before ++ frames ∧ s.shared.Alike r id ∧
    (s.reader.filter (ReaderOp.ownedBy id)).foldl (Shared.settle gunzip) r =
      start.receiveAll gunzip (frames.filter (Incoming.ownedBy id))

section
variable {gunzip : GunzipLimited} {id : Nat} {start : Shared} {before : List Incoming}
  {s s' : Session}

theorem Session.Following.spare (h : s.Following gunzip id start before)
    (hs : s.shared.Spares s'.shared id) (hr : s'.reader = s.reader)
    (hreceived : s'.received = s.received) : s'.Following gunzip id start before := by
  obtain ⟨horderly, frames, r, hframes, halike, hfold⟩ := h
  refine ⟨by rw [hr]; exact horderly, frames, r, ?_, halike.spare hs, ?_⟩
  · rw [hreceived]
    exact hframes
  · rw [hr]
    exact hfold

theorem Session.Following.receive (h : s.Following gunzip id start before) (hr : s.reader = [])
    (frame : Incoming) :
    { s with reader := frame.ops, received := s.received ++ [frame] }.Following gunzip id start
      before := by
  obtain ⟨-, frames, r, hframes, halike, hfold⟩ := h
  rw [hr] at hfold
  refine ⟨frame.ops_fallible _, frames ++ [frame], r, ?_, halike, ?_⟩
  · rw [hframes, List.append_assoc]
  · have hreceive : start.receiveAll gunzip ((frames ++ [frame]).filter (Incoming.ownedBy id)) =
        ([frame].filter (Incoming.ownedBy id)).foldl (Shared.receive gunzip) r := by
      have hr : r = start.receiveAll gunzip (frames.filter (Incoming.ownedBy id)) := hfold
      rw [List.filter_append, Shared.receiveAll, List.foldl_append, hr, Shared.receiveAll]
    rw [hreceive]
    by_cases hf : frame.target = some id
    · have hown : [frame].filter (Incoming.ownedBy id) = [frame] :=
        List.filter_eq_self.2 fun x hx => by
          rw [List.mem_singleton.1 hx]
          exact beq_iff_eq.2 hf
      rw [hown]
      exact (Shared.receive_own gunzip r hf).symm
    · have hother : [frame].filter (Incoming.ownedBy id) = [] :=
        List.filter_eq_nil_iff.2 fun x hx => by
          rw [List.mem_singleton.1 hx]
          exact fun hown => hf (beq_iff_eq.1 hown)
      have hops : frame.ops.filter (ReaderOp.ownedBy id) = [] :=
        List.filter_eq_nil_iff.2 fun op hm hown => by
          rcases frame.ops_target op hm with ht | ht
          · exact hf (ht ▸ ReaderOp.ownedBy_iff.1 hown)
          · cases ht.symm.trans (ReaderOp.ownedBy_iff.1 hown)
      rw [hother, hops]
      rfl

inductive Session.GoesOn (gunzip : GunzipLimited) (s : Session) (op : ReaderOp)
    (rest : List ReaderOp) : List ReaderOp → Prop where
  | proceeds : GoesOn gunzip s op rest ((s.shared.perform gunzip op).2 ++ rest)
  | acknowledges (ho : op = .settings list) :
      GoesOn gunzip s op rest (.queue .settingsAck :: rest)
  | fails (e : SessionError) (ho : op.fallible = true) : GoesOn gunzip s op rest [.shutdown e]
  | ends (ho : op = .shutdown e) : GoesOn gunzip s op rest []

theorem readerStep_goesOn (h : s.readerStep gunzip rest op choice = some s') :
    s'.received = s.received ∧ s.GoesOn gunzip op rest s'.reader := by
  unfold Session.readerStep at h
  split at h
  · cases h
    exact ⟨rfl, .proceeds⟩
  · split at h
    · cases h
      exact ⟨rfl, .proceeds⟩
    · cases h
  · split at h
    · cases h
      exact ⟨rfl, .proceeds⟩
    · cases h
  · cases h
    exact ⟨rfl, .proceeds⟩
  · cases h
    exact ⟨rfl, .proceeds⟩
  · cases h
    exact ⟨rfl, .proceeds⟩
  · cases h
    exact ⟨rfl, .proceeds⟩
  · rename_i n increment
    cases h
    refine ⟨rfl, ?_⟩
    have hproceeds : s.GoesOn gunzip (.windowUpdate n increment) rest _ := .proceeds
    rw [Shared.perform] at hproceeds
    rw [Session.orShutdown]
    cases hresult : (s.shared.handleWindowUpdate n increment).2 with
    | none =>
      rw [hresult] at hproceeds
      exact hproceeds
    | some e => exact .fails e rfl
  · rename_i list
    cases h
    refine ⟨rfl, ?_⟩
    rw [Session.orShutdown]
    cases (s.shared.applySettings list).2 with
    | none => exact .acknowledges rfl
    | some e => exact .fails e rfl
  · cases h
    exact ⟨rfl, .ends rfl⟩
  · cases h

theorem Shared.perform_ops_other (gunzip : GunzipLimited) (s : Shared)
    (ho : op.target ≠ some id) : ∀ op' ∈ (s.perform gunzip op).2, op'.target ≠ some id := by
  intro op' hm
  cases ht : op.target with
  | some n =>
    rw [(Shared.perform_ops gunzip s ht op' hm).1, ← ht]
    exact ho
  | none =>
    cases op with
    | windowUpdate n increment | settings list =>
      rw [Shared.perform, Option.mem_toList] at hm
      obtain ⟨e, -, rfl⟩ := Option.map_eq_some_iff.1 hm
      intro h
      cases h
    | queue reply | goAway lastStreamID code | shutdown e => exact (List.not_mem_nil hm).elim
    | _ => cases ht

theorem Shared.perform_ops_fallible (op : ReaderOp) (gunzip : GunzipLimited) (s : Shared) :
    ∀ op' ∈ (s.perform gunzip op).2, op'.fallible = false := by
  intro op' hm
  cases ht : op.target with
  | some n => exact (Shared.perform_ops gunzip s ht op' hm).2.1
  | none =>
    cases op with
    | windowUpdate n increment | settings list =>
      rw [Shared.perform, Option.mem_toList] at hm
      obtain ⟨e, -, rfl⟩ := Option.map_eq_some_iff.1 hm
      rfl
    | queue reply | goAway lastStreamID code | shutdown e => exact (List.not_mem_nil hm).elim
    | _ => cases ht

theorem Shared.perform_orderly (op : ReaderOp) (gunzip : GunzipLimited) (s : Shared)
    {P : ReaderOp → Prop} (h : rest.Pairwise fun op later => op.fallible = true → P later) :
    ((s.perform gunzip op).2 ++ rest).Pairwise fun op later => op.fallible = true → P later := by
  have hops := Shared.perform_ops_fallible op gunzip s
  refine List.pairwise_append.2 ⟨?_, h, ?_⟩
  · exact List.pairwise_of_forall_mem_list fun op' hm _ _ hf =>
      Bool.noConfusion ((hops op' hm).symm.trans hf)
  · intro op' hm later _ hf
    exact Bool.noConfusion ((hops op' hm).symm.trans hf)

theorem Session.Following.own (h : s.Following gunzip id start before)
    (hr : s.reader = op :: rest) (ho : op.target = some id)
    (hshared : s'.shared = (s.shared.perform gunzip op).1) (hreceived : s'.received = s.received)
    (hgo : s.GoesOn gunzip op rest s'.reader) : s'.Following gunzip id start before := by
  obtain ⟨horderly, frames, r, hframes, halike, hfold⟩ := h
  rw [hr] at horderly hfold
  obtain ⟨-, hrest⟩ := List.pairwise_cons.1 horderly
  have hreader : s'.reader = (s.shared.perform gunzip op).2 ++ rest := by
    generalize s'.reader = reader at hgo
    cases hgo with
    | proceeds => rfl
    | acknowledges he =>
      subst he
      cases ho
    | fails e hf =>
      cases op with
      | windowUpdate n increment => cases ho
      | settings list => cases ho
      | _ => cases hf
    | ends he =>
      subst he
      cases ho
  obtain ⟨halike', hops⟩ := halike.perform gunzip ho
  constructor
  · rw [hreader]
    exact Shared.perform_orderly op gunzip s.shared hrest
  · refine ⟨frames, (r.perform gunzip op).1, ?_, ?_, ?_⟩
    · rw [hreceived]
      exact hframes
    · rw [hshared]
      exact halike'
    · have hall : (r.perform gunzip op).2.filter (ReaderOp.ownedBy id) =
          (r.perform gunzip op).2 := List.filter_eq_self.2 fun op' hm =>
        ReaderOp.ownedBy_iff.2 (Shared.perform_ops gunzip r ho op' hm).1
      rw [hreader, hops, List.filter_append, hall, Shared.foldl_settle_cons gunzip r ho, ← hfold,
        List.filter_cons_of_pos (ReaderOp.ownedBy_iff.2 ho)]

theorem Session.Following.others (h : s.Following gunzip id start before)
    (hr : s.reader = op :: rest) (ho : op.target ≠ some id)
    (hshared : s.shared.Spares s'.shared id) (hreceived : s'.received = s.received)
    (hgo : s.GoesOn gunzip op rest s'.reader) (hend : ∀ e, op ≠ .shutdown e) :
    s'.Following gunzip id start before := by
  obtain ⟨horderly, frames, r, hframes, halike, hfold⟩ := h
  rw [hr] at horderly hfold
  obtain ⟨hhead, hrest⟩ := List.pairwise_cons.1 horderly
  rw [List.filter_cons_of_neg fun hown => ho (ReaderOp.ownedBy_iff.1 hown)] at hfold
  have hreader : (s'.reader.Pairwise fun op later => op.fallible = true →
        later.target ≠ some id) ∧
      s'.reader.filter (ReaderOp.ownedBy id) = rest.filter (ReaderOp.ownedBy id) := by
    generalize s'.reader = reader at hgo
    cases hgo with
    | proceeds =>
      constructor
      · exact Shared.perform_orderly op gunzip s.shared hrest
      · have hnone : (s.shared.perform gunzip op).2.filter (ReaderOp.ownedBy id) = [] :=
          List.filter_eq_nil_iff.2 fun op' hm hown =>
            Shared.perform_ops_other gunzip s.shared ho op' hm (ReaderOp.ownedBy_iff.1 hown)
        rw [List.filter_append, hnone, List.nil_append]
    | acknowledges hn =>
      constructor
      · exact List.pairwise_cons.2 ⟨fun _ _ hf => Bool.noConfusion hf, hrest⟩
      · exact List.filter_cons_of_neg Bool.false_ne_true
    | fails e hf =>
      refine ⟨List.pairwise_singleton .., ?_⟩
      have hnone : rest.filter (ReaderOp.ownedBy id) = [] :=
        List.filter_eq_nil_iff.2 fun later hm hown =>
          hhead later hm hf (ReaderOp.ownedBy_iff.1 hown)
      rw [hnone]
      rfl
    | ends he => exact absurd he (hend _)
  refine ⟨hreader.1, frames, r, ?_, halike.spare hshared, ?_⟩
  · rw [hreceived]
    exact hframes
  · rw [hreader.2]
    exact hfold

/-- A session that is still up and has not been told to go away. -/
def Shared.Up (s : Shared) : Prop := s.closeErr = none ∧ s.goAway = none

theorem Session.Following.read (h : s.Following gunzip id start before)
    (hr : s.reader = op :: rest) (hstep : s.readerStep gunzip rest op choice = some s')
    (hup : s'.shared.Up) : s'.Following gunzip id start before := by
  have hshared := readerStep_perform hstep
  obtain ⟨hreceived, hgo⟩ := readerStep_goesOn hstep
  obtain ⟨hclose, hgoAway⟩ := hup
  by_cases ho : op.target = some id
  · exact h.own hr ho hshared hreceived hgo
  · refine h.others hr ho ?_ hreceived hgo ?_
    · rw [hshared] at hclose hgoAway ⊢
      exact Shared.perform_spares gunzip s.shared ho hclose hgoAway
    · rintro e rfl
      rw [hshared] at hclose
      exact Shared.shutdown_ne_none s.shared e hclose

end

theorem Shared.perform_up {s : Shared} (gunzip : GunzipLimited) (op : ReaderOp)
    (h : (s.perform gunzip op).1.Up) : s.Up := by
  have hkept : ∀ {p : Nat → Prop} {s' : Shared}, s.Kept s' → Settles p s s' → s'.Up → s.Up := by
    intro p s' hk hset hup
    refine ⟨?_, hset.goAway.symm.trans hup.2⟩
    cases hc : s.closeErr with
    | none => rfl
    | some e =>
      have hclosed := hk.closed (by rw [hc]; rfl)
      rw [hup.1] at hclosed
      cases hclosed
  cases op with
  | finish n response err =>
    have hf := finishStream_finishes s n response err
    exact hkept hf.kept hf.settles h
  | queue reply => exact h
  | headers frame response expected =>
    have ht := handleHeaders_touches gunzip s frame response expected
    exact hkept ht.kept (ht.settles (p := fun _ => False)) h
  | observe n status headers => exact h
  | data n payload ended =>
    have ht := handleData_touches gunzip s n payload ended
    exact hkept ht.kept (ht.settles (p := fun _ => False)) h
  | goAway lastStreamID code =>
    obtain ⟨bound, hbound, -⟩ := handleGoAway_settles s lastStreamID code
    cases hbound.symm.trans h.2
  | windowUpdate n increment =>
    refine ⟨?_, (handleWindowUpdate_settles (fun _ => False) s n increment).goAway.symm.trans h.2⟩
    have hc := h.1
    rw [perform] at hc
    unfold handleWindowUpdate at hc
    split_ifs at hc
    all_goals (try split at hc)
    all_goals (try split_ifs at hc)
    all_goals exact hc
  | settings list =>
    exact hkept (applySettings_kept s list) (applySettings_settles (fun _ => False) s list) h
  | shutdown e => exact absurd h.1 (shutdown_ne_none s e)

end Repost.H2
