import Repost.TableRuns

namespace Repost.H2
open GoText Runs
set_option autoImplicit true

/-- The length of a DATA frame as the peer counts it: the data and the rest of the frame's payload,
which is the pad length and the padding. -/
def Incoming.flowControlled : Incoming → Nat
  | .data _ payload padding _ => payload.length + padding
  | _ => 0

def Incoming.padding : Incoming → Nat
  | .data _ _ padding _ => padding
  | _ => 0

def Incoming.framed (frame : Incoming) : Bool := frame.flowControlled < 2 ^ 24

def ReaderOp.returns : ReaderOp → Nat
  | .queue (.windowUpdates _ increment) => increment
  | _ => 0

def Session.returns (s : Session) : Act → List Nat
  | .reader .go =>
    match s.reader with
    | .queue (.windowUpdates _ increment) :: _ => [increment]
    | _ => []
  | _ => []

/-- A session with the connection-level increments queued so far. -/
structure Returning where
  session : Session
  returned : List Nat := []

def returning (gunzip : GunzipLimited) : System Returning Act where
  Init t := (session gunzip).Init t.session ∧ t.returned = []
  step t a := (sessionStep gunzip t.session a).map fun s =>
    { session := s, returned := t.returned ++ t.session.returns a }

/-- The framer hands over only frames whose length it can read. -/
def Returning.Framed (_ : Returning) : Act → Prop
  | .receive frame => frame.framed = true
  | _ => True

instance (t : Returning) (a : Act) : Decidable (t.Framed a) := by
  cases a <;> unfold Returning.Framed <;> infer_instance

def Session.owed (s : Session) : Nat := (s.reader.map ReaderOp.returns).sum

def Session.dataReceived (s : Session) : Nat :=
  (s.received.map fun frame => frame.flowControlled - frame.padding).sum

structure Returning.Settled (t : Returning) : Prop where
  orderly : t.session.reader.Pairwise fun op later => op.fallible = true → later.returns = 0
  settled : t.session.shared.closeErr = none →
    t.returned.sum + t.session.owed = t.session.dataReceived

theorem ReaderOp.returns_target {op : ReaderOp} {id : Nat} (h : op.target = some id) : op.returns = 0 := by
  cases op with
  | queue reply => cases h
  | _ => rfl

theorem Shared.perform_returns (op : ReaderOp) (gunzip : GunzipLimited) (s : Shared) :
    ∀ op' ∈ (s.perform gunzip op).2, op'.returns = 0 := by
  intro op' hm
  cases ht : op.target with
  | some n => exact ReaderOp.returns_target (Shared.perform_ops gunzip s ht op' hm).1
  | none =>
    cases op with
    | windowUpdate n increment | settings list =>
      rw [Shared.perform, Option.mem_toList] at hm
      obtain ⟨e, -, rfl⟩ := Option.map_eq_some_iff.1 hm
      rfl
    | queue reply | goAway lastStreamID code | shutdown e => exact (List.not_mem_nil hm).elim
    | _ => cases ht

theorem returns_sum_zero {ops : List ReaderOp} (h : ∀ op ∈ ops, op.returns = 0) :
    (ops.map ReaderOp.returns).sum = 0 := by
  refine List.sum_eq_zero fun n hn => ?_
  obtain ⟨op, hm, rfl⟩ := List.mem_map.1 hn
  exact h op hm

theorem Incoming.ops_returns (frame : Incoming) (h : frame.framed = true) :
    (frame.ops.map ReaderOp.returns).sum = frame.flowControlled - frame.padding := by
  cases frame with
  | headers frame | settings ack list | ping ack payload =>
    rw [Incoming.ops]
    split <;> rfl
  | data id payload padding ended =>
    have hlength : payload.length + padding < 2 ^ 24 := of_decide_eq_true h
    have hsmall : ¬payload.length > 2 ^ 32 - 1 := by omega
    rw [Incoming.ops, if_neg hsmall, Incoming.flowControlled, Incoming.padding,
      Nat.add_sub_cancel]
    split
    · rename_i hp
      rw [hp]
      rfl
    · rfl
  | _ => rfl

section
variable {gunzip : GunzipLimited} {s s' : Session} {t : Returning}

theorem Returning.Settled.keep (h : t.Settled) (hr : s'.reader = t.session.reader)
    (hreceived : s'.received = t.session.received)
    (hlive : s'.shared.closeErr = none → t.session.shared.closeErr = none) :
    (Returning.mk s' (t.returned ++ [])).Settled := by
  rw [List.append_nil]
  constructor
  · rw [hr]
    exact h.orderly
  · intro hc
    have hs := h.settled (hlive hc)
    rw [Session.owed, Session.dataReceived] at hs ⊢
    rw [hr, hreceived]
    exact hs

theorem Returning.Settled.receive (h : t.Settled) (hr : t.session.reader = [])
    {frame : Incoming} (hf : frame.framed = true) :
    (Returning.mk { t.session with
      reader := frame.ops, received := t.session.received ++ [frame] } (t.returned ++ [])).Settled := by
  rw [List.append_nil]
  refine ⟨frame.ops_fallible _, fun hc => ?_⟩
  have hs := h.settled hc
  rw [Session.owed, hr] at hs
  rw [Session.owed, Session.dataReceived, frame.ops_returns hf, List.map_append, List.sum_append]
  rw [Session.dataReceived] at hs
  simp only [List.map_nil, List.sum_nil, List.map_cons, List.sum_cons] at hs ⊢
  omega

theorem Returning.Settled.read (h : t.Settled) (hr : t.session.reader = op :: rest)
    (hread : t.session.readerStep gunzip rest op choice = some s') :
    (Returning.mk s' (t.returned ++ t.session.returns (.reader choice))).Settled := by
  obtain ⟨horderly, hsettled⟩ := h
  have hquiet := readerStep_quiet hread
  have hperform := readerStep_perform hread
  obtain ⟨hreceived, hgo⟩ := readerStep_goesOn hread
  have hlive : s'.shared.closeErr = none → t.session.shared.closeErr = none := by
    intro hc
    cases hclose : t.session.shared.closeErr with
    | none => rfl
    | some e =>
      have hclosed := hquiet.closed (by rw [hclose]; rfl)
      rw [hc] at hclosed
      cases hclosed
  rw [hr] at horderly
  obtain ⟨hhead, hrest⟩ := List.pairwise_cons.1 horderly
  have howed : t.session.owed = op.returns + (rest.map ReaderOp.returns).sum := by
    rw [Session.owed, hr, List.map_cons, List.sum_cons]
  -- The increment of the operation itself is queued by this step, unless the session is shut down.
  have hqueued : s'.shared.closeErr = none →
      (t.session.returns (.reader choice)).sum = op.returns := by
    intro hc
    cases op with
    | queue reply =>
      cases choice with
      | go =>
        rw [Session.returns, hr]
        cases reply <;> rfl
      | context => cases hread
      | session =>
        simp only [Session.readerStep] at hread
        split at hread
        · rename_i hclosed
          rw [hlive hc] at hclosed
          cases hclosed
        · cases hread
    | _ =>
      cases choice with
      | go =>
        rw [Session.returns, hr]
        rfl
      | _ => rfl
  have hreader : (s'.reader.Pairwise fun op later => op.fallible = true → later.returns = 0) ∧
      (s'.shared.closeErr = none →
        (s'.reader.map ReaderOp.returns).sum = (rest.map ReaderOp.returns).sum) := by
    generalize s'.reader = reader at hgo
    cases hgo with
    | proceeds =>
      have hops := Shared.perform_returns op gunzip t.session.shared
      refine ⟨Shared.perform_orderly op gunzip t.session.shared hrest, fun _ => ?_⟩
      rw [List.map_append, List.sum_append, returns_sum_zero hops, Nat.zero_add]
    | acknowledges he =>
      refine ⟨List.pairwise_cons.2 ⟨fun _ _ hf => Bool.noConfusion hf, hrest⟩, fun _ => ?_⟩
      rw [List.map_cons, List.sum_cons]
      exact Nat.zero_add _
    | fails e hf =>
      refine ⟨List.pairwise_singleton .., fun _ => ?_⟩
      rw [returns_sum_zero fun later hm => hhead later hm hf]
      rfl
    | ends he =>
      refine ⟨.nil, fun hc => ?_⟩
      subst he
      rw [hperform] at hc
      exact absurd hc (Shared.shutdown_ne_none _ _)
  refine ⟨hreader.1, fun hc => ?_⟩
  have hs := hsettled (hlive hc)
  have hq := hqueued hc
  have ho := hreader.2 hc
  rw [Session.dataReceived] at hs
  rw [Session.owed, Session.dataReceived, hreceived, List.sum_append]
  dsimp only
  omega

theorem Returning.Settled.step (h : t.Settled) (ha : t.Framed a)
    (hm : t.session.Moves gunzip a s') :
    (Returning.mk s' (t.returned ++ t.session.returns a)).Settled := by
  have hlive := hm.live
  cases hm with
  | start block body | cancel i cause hi hctx | close => exact h.keep rfl rfl hlive
  | call i choice hi hm => exact h.keep hm.beside.reader hm.beside.received hlive
  | writer choice hw => cases hw <;> exact h.keep rfl rfl hlive
  | receive frame hr => exact h.receive hr ha
  | reader choice hr hread => exact h.read hr hread

theorem returning_invariant (gunzip : GunzipLimited) :
    (returning gunzip).Invariant Returning.Framed Returning.Settled := by
  constructor
  · rintro ⟨s, returned⟩ ⟨⟨settings, hs⟩, rfl⟩
    obtain ⟨shared, rfl, -⟩ := newSession_kept hs
    exact ⟨.nil, fun _ => rfl⟩
  · intro t a t' h ha hstep
    obtain ⟨s', hs', rfl⟩ := Option.map_eq_some_iff.1 hstep
    exact h.step ha (sessionStep_moves hs')

end

theorem flowControlled_padding (frames : List Incoming) :
    (frames.map Incoming.flowControlled).sum =
      (frames.map fun frame => frame.flowControlled - frame.padding).sum +
        (frames.map Incoming.padding).sum := by
  induction frames with
  | nil => rfl
  | cons frame frames ih =>
    have hle : frame.padding ≤ frame.flowControlled := by
      cases frame with
      | data id payload padding ended => exact Nat.le_add_left ..
      | _ => exact Nat.le_refl _
    simp only [List.map_cons, List.sum_cons, ih]
    omega

/-- Whenever a session that is up has dealt with the frames it received, it has queued increments of
the connection's window for all of their data. They make up for the whole length of the DATA frames
exactly if none of these is padded. -/
theorem receive_credit_iff (gunzip : GunzipLimited) {t : Returning}
    (h : (returning gunzip).Reachable Returning.Framed t)
    (hlive : t.session.shared.closeErr = none) (hidle : t.session.reader = []) :
    t.returned.sum = t.session.dataReceived ∧
      (t.returned.sum = (t.session.received.map Incoming.flowControlled).sum ↔
        ∀ id payload padding ended,
          Incoming.data id payload padding ended ∈ t.session.received → padding = 0) := by
  have hsettled := ((returning_invariant gunzip).reachable h).settled hlive
  have hreturned : t.returned.sum = t.session.dataReceived := by
    rw [Session.owed, hidle] at hsettled
    exact hsettled
  refine ⟨hreturned, ?_⟩
  rw [flowControlled_padding, hreturned, Session.dataReceived]
  have hzero : (t.session.received.map Incoming.padding).sum = 0 ↔
      ∀ frame ∈ t.session.received, frame.padding = 0 := by
    rw [List.sum_eq_zero_iff, List.forall_mem_map]
  constructor
  · intro hsum id payload padding ended hm
    exact hzero.1 (by omega) _ hm
  · intro hall
    have hnone := hzero.2 fun frame hm => by
      cases frame with
      | data id payload padding ended => exact hall id payload padding ended hm
      | _ => rfl
    omega

namespace Sample

def credited (padding : Nat) : List Act :=
  [.receive (.data 5 [1, 2, 3] padding false), .reader .go, .reader .go]

end Sample

/-- One frame with five bytes of padding: three bytes are given back, and the peer counts eight. -/
theorem padded_credit_lost : ∃ t : Returning,
    (returning Sample.noGunzip).exec Returning.Framed ⟨{}, []⟩ (Sample.credited 5) = some t ∧
      t.session.shared.closeErr = none ∧ t.session.reader = [] ∧ t.returned = [3] ∧
      (t.session.received.map Incoming.flowControlled).sum = 8 :=
  ⟨_, rfl, rfl, rfl, rfl, rfl⟩

theorem unpadded_credit_returned : ∃ t : Returning,
    t.session.shared.closeErr = none ∧ t.session.reader = [] ∧ t.returned = [3] ∧
      t.returned.sum = (t.session.received.map Incoming.flowControlled).sum := by
  obtain ⟨t, ht, hlive, hidle, hreturned, hreceived⟩ :
      ∃ t ∈ (returning Sample.noGunzip).exec Returning.Framed ⟨{}, []⟩ (Sample.credited 0),
        t.session.shared.closeErr = none ∧ t.session.reader = [] ∧ t.returned = [3] ∧
          t.session.received = [.data 5 [1, 2, 3] 0 false] := ⟨_, rfl, rfl, rfl, rfl, rfl⟩
  refine ⟨t, hlive, hidle, hreturned, ?_⟩
  refine (receive_credit_iff Sample.noGunzip
    (System.exec_reachable ⟨⟨[], rfl⟩, rfl⟩ ht) hlive hidle).2.2 ?_
  intro id payload padding ended hm
  rw [hreceived] at hm
  cases List.mem_singleton.1 hm
  rfl

end Repost.H2
