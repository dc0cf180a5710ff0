import Repost.SessionAside

namespace Repost.H2
open GoText Runs
set_option autoImplicit true

structure Response.Proper (r : Response) : Prop where
  status_ge : 200 ≤ r.status
  status_le : r.status ≤ 599
  compressed : 0 ≤ r.compressedBytes
  decompressed : 0 ≤ r.decompressedBytes

def ReaderOp.observes : ReaderOp → Bool
  | .observe _ _ _ => true
  | _ => false

structure Response.Parsed (r : Response) : Prop where
  status_ge : 100 ≤ r.status
  status_le : r.status ≤ 599
  compressed : r.compressedBytes = 0
  decompressed : r.decompressedBytes = 0

def ReaderOp.Harmless : ReaderOp → Prop
  | .observe _ _ _ => False
  | .finish _ _ err => err ≠ none
  | .headers _ r _ => r.Parsed
  | _ => True

theorem ReaderOp.Harmless.observes {op : ReaderOp} (h : op.Harmless) : op.observes = false := by
  cases op with
  | observe id status headers => exact h.elim
  | _ => rfl

namespace Session

/-- The headers that a stream's request has been shown, counting those it is just being shown. -/
def seen (s : Session) (id : Nat) (st : Stream) : Option (Int × List HeaderField) :=
  match s.reader with
  | .observe i status headers :: _ => if i = id then some (status, headers) else st.observed
  | _ => st.observed

theorem seen_plain {s : Session} {id : Nat} (h : ∀ op ∈ s.reader, op.observes = false) :
    s.seen id st = st.observed := by
  unfold seen
  split
  · rename_i hr
    have hop := h _ (by rw [hr]; exact List.mem_cons_self)
    cases hop
  · rfl

def Shown (s : Session) (id : Nat) (r : Response) : Prop :=
  r.Proper ∧ ∃ st, s.shared.object id = some st ∧ st.headersReceived = true ∧
    s.seen id st = some (r.status, r.headers)

structure Told (s : Session) (id : Nat) (r : Response) : Prop where
  shown : s.Shown id r
  told : ∃ st, s.shared.object id = some st ∧ st.observed = some (r.status, r.headers)

/-- Every response that is there, about to be handed over, or handed over, is shown. -/
structure Observing (s : Session) : Prop where
  objects : ∀ id st, s.shared.object id = some st → st.Bare ∨ s.Shown id st.response ∧
    (st.finished = true → st.observed = some (st.response.status, st.response.headers))
  finishing : ∀ id r, ReaderOp.finish id r none ∈ s.reader → s.Shown id r
  returned : ∀ c ∈ s.calls, ∀ r, c.point = .returned (.ok r) → s.Told c.stream r
  later : ∀ op ∈ s.reader.tail, op.observes = false
  parsed : ∀ frame r expected, ReaderOp.headers frame r expected ∈ s.reader → r.Parsed

section
variable {s s' : Session} {id : Nat} {r : Response}

theorem Shown.aside (h : s.Shown id r) (ha : s.shared.Aside s'.shared)
    (hseen : ∀ id (st st' : Stream), st'.observed = st.observed → s'.seen id st' = s.seen id st) :
    s'.Shown id r := by
  obtain ⟨hp, st, hs, hh, hv⟩ := h
  obtain ⟨st', hs', hst⟩ := ha.kept id st hs
  exact ⟨hp, st', hs', hst.headers.trans hh, (hseen id st st' hst.observed).trans hv⟩

theorem Told.aside (h : s.Told id r) (ha : s.shared.Aside s'.shared)
    (hseen : ∀ id (st st' : Stream), st'.observed = st.observed → s'.seen id st' = s.seen id st) :
    s'.Told id r := by
  obtain ⟨st, hs, hv⟩ := h.told
  obtain ⟨st', hs', hst⟩ := ha.kept id st hs
  exact ⟨h.shown.aside ha hseen, st', hs', hst.observed.trans hv⟩

theorem Observing.objects_aside (h : s.Observing) (ha : s.shared.Aside s'.shared)
    (hseen : ∀ id (st st' : Stream), st'.observed = st.observed → s'.seen id st' = s.seen id st)
    (id : Nat) (st' : Stream) (hs' : s'.shared.object id = some st') :
    st'.Bare ∨ s'.Shown id st'.response ∧
      (st'.finished = true → st'.observed = some (st'.response.status, st'.response.headers)) := by
  cases hs : s.shared.object id with
  | none => exact .inl (ha.fresh id st' hs hs')
  | some st =>
    obtain ⟨st₁, hs₁, hst⟩ := ha.kept id st hs
    cases hs'.symm.trans hs₁
    rcases h.objects id st hs with hb | ⟨hshown, hfin⟩
    · exact .inl (hb.aside hst)
    · rcases hst.outcome with ⟨hf, -, hr⟩ | hend
      · rw [hr, hf, hst.observed]
        exact .inr ⟨hshown.aside ha hseen, hfin⟩
      · exact .inl (.inr hend)

theorem Observing.beside (h : s.Observing) (ha : s.shared.Aside s'.shared)
    (hr : s'.reader = s.reader)
    (hc : ∀ c ∈ s'.calls, ∀ r, c.point = .returned (.ok r) → s.Told c.stream r) :
    s'.Observing := by
  have hseen : ∀ id (st st' : Stream), st'.observed = st.observed →
      s'.seen id st' = s.seen id st := by
    intro id st st' ho
    unfold seen
    rw [hr, ho]
  constructor
  · exact h.objects_aside ha hseen
  · intro id r hf
    rw [hr] at hf
    exact (h.finishing id r hf).aside ha hseen
  · intro c hm r hp
    exact (hc c hm r hp).aside ha hseen
  · rw [hr]
    exact h.later
  · rw [hr]
    exact h.parsed

/-- Steps of the read loop that are not about a response. -/
theorem Observing.reads (h : s.Observing) (hop : ∀ op ∈ s.reader, op.observes = false)
    (ha : s.shared.Aside s'.shared) (hc : s'.calls = s.calls)
    (hr : ∀ op ∈ s'.reader, op ∈ s.reader ∨ op.Harmless) : s'.Observing := by
  have hop' : ∀ op ∈ s'.reader, op.observes = false := by
    intro op hm
    rcases hr op hm with hold | hnew
    · exact hop op hold
    · exact hnew.observes
  have hseen : ∀ id (st st' : Stream), st'.observed = st.observed →
      s'.seen id st' = s.seen id st := by
    intro id st st' ho
    rw [seen_plain hop', seen_plain hop, ho]
  constructor
  · exact h.objects_aside ha hseen
  · intro id r hf
    rcases hr _ hf with hold | hnew
    · exact (h.finishing id r hold).aside ha hseen
    · exact absurd rfl hnew
  · intro c hm r hp
    rw [hc] at hm
    exact (h.returned c hm r hp).aside ha hseen
  · intro op hm
    exact hop' op (List.mem_of_mem_tail hm)
  · intro frame r expected hm
    rcases hr _ hm with hold | hnew
    · exact h.parsed frame r expected hold
    · exact hnew

section
variable {f : Stream → Stream}

theorem Shown.update (h : s.Shown i r) (hf : ∀ st, (f st).id = st.id)
    (ho : s'.shared.objects = (s.shared.updateStream id f).objects)
    (hself : ∀ st, s.shared.object id = some st → st.headersReceived = true →
      (f st).headersReceived = true ∧ s'.seen id (f st) = s.seen id st)
    (hother : ∀ i st, i ≠ id → s'.seen i st = s.seen i st) : s'.Shown i r := by
  obtain ⟨hp, st, hs, hh, hv⟩ := h
  have hobject := Shared.object_update ho hf i
  by_cases hi : i = id
  · subst hi
    obtain ⟨hh', hv'⟩ := hself st hs hh
    refine ⟨hp, f st, ?_, hh', hv'.trans hv⟩
    rw [hobject, if_pos rfl, hs]
    rfl
  · refine ⟨hp, st, ?_, hh, (hother i st hi).trans hv⟩
    rw [hobject, if_neg hi, hs]

theorem Told.update (h : s.Told i r) (hf : ∀ st, (f st).id = st.id)
    (ho : s'.shared.objects = (s.shared.updateStream id f).objects)
    (hshown : ∀ i r, s.Shown i r → s'.Shown i r)
    (hobs : ∀ st, (f st).observed = st.observed ∨ (f st).observed = s.seen id st) :
    s'.Told i r := by
  refine ⟨hshown i r h.shown, ?_⟩
  obtain ⟨st, hs, hv⟩ := h.told
  have hobject := Shared.object_update ho hf i
  by_cases hi : i = id
  · subst hi
    rw [if_pos rfl, hs] at hobject
    refine ⟨f st, hobject, ?_⟩
    rcases hobs st with he | he
    · exact he.trans hv
    · obtain ⟨-, st₁, hs₁, -, hv₁⟩ := h.shown
      cases hs.symm.trans hs₁
      exact he.trans hv₁
  · rw [if_neg hi, hs] at hobject
    exact ⟨st, hobject, hv⟩

theorem Observing.update (h : s.Observing) (hf : ∀ st, (f st).id = st.id)
    (ho : s'.shared.objects = (s.shared.updateStream id f).objects)
    (hshown : ∀ i r, s.Shown i r → s'.Shown i r)
    (hobs : ∀ st, (f st).observed = st.observed ∨ (f st).observed = s.seen id st)
    (hnew : ∀ st, s.shared.object id = some st → (f st).Bare ∨ s'.Shown id (f st).response ∧
      ((f st).finished = true →
        (f st).observed = some ((f st).response.status, (f st).response.headers)))
    (hc : s'.calls = s.calls)
    (hfinish : ∀ i r, ReaderOp.finish i r none ∈ s'.reader →
      ReaderOp.finish i r none ∈ s.reader ∨ s'.Shown i r)
    (hlater : ∀ op ∈ s'.reader.tail, op.observes = false)
    (hparsed : ∀ frame r expected, ReaderOp.headers frame r expected ∈ s'.reader →
      ReaderOp.headers frame r expected ∈ s.reader) : s'.Observing := by
  constructor
  · intro i st' hs'
    rw [Shared.object_update ho hf i] at hs'
    by_cases hi : i = id
    · subst hi
      rw [if_pos rfl] at hs'
      obtain ⟨st, hs, rfl⟩ := Option.map_eq_some_iff.1 hs'
      exact hnew st hs
    · rw [if_neg hi] at hs'
      exact (h.objects i st' hs').imp_right fun ⟨hs, hfin⟩ => ⟨hshown i _ hs, hfin⟩
  · intro i r hm
    rcases hfinish i r hm with hold | hs
    · exact hshown i r (h.finishing i r hold)
    · exact hs
  · intro c hm r hp
    rw [hc] at hm
    exact (h.returned c hm r hp).update hf ho hshown hobs
  · exact hlater
  · intro frame r expected hm
    exact h.parsed frame r expected (hparsed frame r expected hm)

end

theorem Shown.change (h : s.Shown i r) (f : Stream → Stream) (hf : ∀ st, (f st).id = st.id)
    (hhead : ∀ st, (f st).headersReceived = st.headersReceived)
    (hseen : ∀ st, (f st).observed = st.observed)
    (ho : s'.shared.objects = (s.shared.updateStream id f).objects)
    (hplain : ∀ op ∈ s.reader, op.observes = false)
    (hplain' : ∀ op ∈ s'.reader, op.observes = false) : s'.Shown i r := by
  refine h.update hf ho ?_ ?_
  · intro st _ hh
    rw [hhead, seen_plain hplain', seen_plain hplain, hseen]
    exact ⟨hh, rfl⟩
  · intro i st _
    rw [seen_plain hplain', seen_plain hplain]

section
variable {rest : List ReaderOp}

theorem Observing.behind (h : s.Observing) (hr : s.reader = op :: rest) :
    ∀ op ∈ rest, op.observes = false := by
  have hlater := h.later
  rw [hr] at hlater
  exact hlater

theorem Observing.plain (h : s.Observing) (hr : s.reader = op :: rest)
    (hop : op.observes = false) : ∀ op ∈ s.reader, op.observes = false := by
  rw [hr, List.forall_mem_cons]
  exact ⟨hop, h.behind hr⟩

theorem Observing.finish (h : s.Observing) (hr : s.reader = .finish id r err :: rest) :
    ({ s with shared := s.shared.finishStream id r err, reader := rest } : Session).Observing := by
  have hplain := h.plain hr rfl
  have hrest := h.behind hr
  have hreads : ∀ shared : Shared, s.shared.Aside shared →
      ({ s with shared := shared, reader := rest } : Session).Observing := by
    intro shared ha
    refine h.reads hplain ha rfl fun op hm => .inl ?_
    rw [hr]
    exact List.mem_cons_of_mem _ hm
  cases err with
  | some e => exact hreads _ (Shared.finishStream_aside ..)
  | none =>
    have hshown := h.finishing id r (by rw [hr]; exact List.mem_cons_self)
    unfold Shared.finishStream
    cases hl : s.shared.lookup id with
    | none => exact hreads _ (.refl _)
    | some st =>
      dsimp only
      split
      · exact hreads _ (.refl _)
      · have hkeep : ∀ i r', s.Shown i r' →
            ({ s with shared := s.shared.finishLocked id r none, reader := rest } :
              Session).Shown i r' := by
          intro i r' hi
          exact hi.change (fun st => { st with response := r, err := none, finished := true })
            (fun _ => rfl) (fun _ => rfl) (fun _ => rfl) rfl hplain hrest
        refine h.update (f := fun st => { st with response := r, err := none, finished := true })
          (fun _ => rfl) rfl hkeep (fun _ => .inl rfl) ?_ rfl ?_ ?_ ?_
        · intro st hs
          have hkept := hkeep id r hshown
          obtain ⟨-, st₁, hs₁, -, hv⟩ := hshown
          cases hs.symm.trans hs₁
          exact .inr ⟨hkept, fun _ => (seen_plain hplain).symm.trans hv⟩
        · intro i r' hm
          rw [hr]
          exact .inl (List.mem_cons_of_mem _ hm)
        · intro op hm
          exact hrest op (List.mem_of_mem_tail hm)
        · intro frame r' expected hm
          rw [hr]
          exact List.mem_cons_of_mem _ hm

theorem Observing.observe (h : s.Observing)
    (hr : s.reader = .observe id status headers :: rest) :
    ({ s with
      shared := s.shared.updateStream id fun st => { st with observed := some (status, headers) }
      reader := rest } : Session).Observing := by
  have hrest := h.behind hr
  have hself : ∀ st, s.seen id st = some (status, headers) := by
    intro st
    unfold seen
    rw [hr]
    exact if_pos rfl
  have hother : ∀ i st, i ≠ id → s.seen i st = st.observed := by
    intro i st hi
    unfold seen
    rw [hr]
    exact if_neg hi.symm
  have hkeep : ∀ i r, s.Shown i r →
      ({ s with
        shared := s.shared.updateStream id fun st => { st with observed := some (status, headers) }
        reader := rest } : Session).Shown i r := by
    intro i r hi
    refine hi.update (f := fun st => { st with observed := some (status, headers) }) (fun _ => rfl)
      rfl ?_ ?_
    · intro st _ hh
      exact ⟨hh, (seen_plain hrest).trans (hself st).symm⟩
    · intro i st hi
      exact (seen_plain hrest).trans (hother i st hi).symm
  refine h.update (f := fun st => { st with observed := some (status, headers) }) (fun _ => rfl) rfl
    hkeep (fun st => .inr (hself st).symm) ?_ rfl ?_ ?_ ?_
  · intro st hs
    refine (h.objects id st hs).imp_right fun hanswer => ⟨hkeep id _ hanswer.1, fun _ => ?_⟩
    have hshown := hanswer.1
    obtain ⟨-, st₁, hs₁, -, hv⟩ := hshown
    cases hs.symm.trans hs₁
    exact (hself st).symm.trans hv
  · intro i r hm
    rw [hr]
    exact .inl (List.mem_cons_of_mem _ hm)
  · intro op hm
    exact hrest op (List.mem_of_mem_tail hm)
  · intro frame r expected hm
    rw [hr]
    exact List.mem_cons_of_mem _ hm

end

end

end Session

end Repost.H2
