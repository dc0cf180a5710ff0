import Repost.SessionTracking

namespace Repost.H2
open GoText Runs
set_option autoImplicit true

variable {s : Session}

theorem Session.begun_opening {id : Nat} (h : id ∈ s.begun) : id ∈ s.opening := by
  rcases List.mem_append.1 h with h | h
  · exact List.mem_append_left _ h
  · apply List.mem_append_right
    rw [List.flatMap_append]
    apply List.mem_append_left
    cases hw : s.writer <;> rw [hw] at h <;> first | exact h | cases h

theorem Session.Phase.unbegun (h : s.Phase i c w) (hl : s.Linked)
    (hs : (s.writes[w]?).any (·.started) = false) : c.stream ∉ s.begun := by
  obtain ⟨-, call, hcall, -, hphase⟩ := h
  have hcalled : call.started = false := by
    rw [hcall] at hs
    exact hs
  rcases hphase with ⟨-, job, hf, hid⟩ | ⟨-, hst⟩ | ⟨-, -, -, hnot⟩
  · intro hb
    rcases List.mem_append.1 hb with hb | hb
    · exact hl.not_opened hf hid hb
    · obtain ⟨job', hjob', hopens⟩ := List.mem_flatMap.1 hb
      cases hw : s.writer with
      | running v running =>
        rw [hw] at hjob'
        have hrunning : (v, job') ∈ s.flights := by
          rw [Session.flights, hw, List.mem_singleton.1 hjob']
          exact List.mem_cons_self
        have hwv : w = v := congrArg Prod.fst (hl.one_flight hf hrunning hid hopens)
        obtain ⟨call', hcall', hst⟩ := hl.started v running (.inr hw)
        rw [← hwv] at hcall'
        cases hcall.symm.trans hcall'
        rw [hcalled] at hst
        cases hst
      | _ => rw [hw] at hjob'; cases hjob'
  · rw [hcalled] at hst
    cases hst
  · exact fun hb => hnot (Session.begun_opening hb)

variable {c c' : Call}

theorem Session.Linked.never (h : s.Linked)
    (hi : s.calls[i]? = some c) (hpos : 0 < c.stream) (hbegun : c.stream ∉ s.begun)
    (hctx : c'.ctx ≠ none) (hun : c'.unopened = []) :
    Session.NeverOpens { s with calls := s.calls.set i c' } c.stream := by
  refine ⟨hpos, h.streams c (List.mem_of_getElem? hi), hbegun, ?_⟩
  intro d hd hstream
  obtain ⟨j, hj⟩ := List.mem_iff_getElem?.1 hd
  rcases getElem?_set_cases hj with ⟨-, rfl⟩ | ⟨hne, hj'⟩
  · exact ⟨hun, hctx⟩
  · exact absurd hstream (h.other_stream hi hj' hne hpos)

/-- The write of a chunk comes back with an error because the request's context has ended. -/
def Call.dataFails (s : Session) (c : Call) (choice : Choice) : Bool :=
  match c.point, choice with
  | .check (.data _), _ => c.ctx.isSome
  | .enqueue (.data _), .context => c.ctx.isSome
  | .await (.data _) w, .context => c.ctx.isSome && !(s.writes[w]?).any (·.started)
  | .await (.data _) w, .go | .awaitStarted (.data _) w, .go =>
    ((s.writes[w]?).bind (·.done)).any (·.isSome)
  | _, _ => false

theorem Call.wrote_headers {c : Call} (hl : s.Linked) (hi : s.calls[i]? = some c)
    (hpos : 0 < c.stream) (hctx : c.ctx ≠ none) (hbegun : c.stream ∉ s.begun) (e : SessionError) :
    Session.Stage { s with calls := s.calls.set i (c.wrote .headers (some e)) } i
      (c.wrote .headers (some e)) := by
  show Session.NeverOpens _ c.stream
  exact hl.never hi hpos hbegun hctx rfl

theorem Session.Stage.phase {c : Call} (h : s.Stage i c)
    (hp : c.point = .await .headers w ∨ c.point = .awaitStarted .headers w) : s.Phase i c w := by
  rcases hp with hp | hp <;> simpa only [Session.Stage, hp] using h

theorem Session.Stage.handed {c : Call} (h : s.Stage i c)
    (hp : c.point = .await (.reset cause) w ∨ c.point = .awaitStarted (.reset cause) w) :
    s.Handed c.stream := by
  rcases hp with hp | hp <;> simpa only [Session.Stage, hp] using h

theorem Session.Stage.proceed (s : Session) (i : Nat) (c : Call) : s.Stage i c.proceed := by
  rw [Call.proceed]
  split <;> trivial

theorem Session.Phase.dropped (h : s.Phase i c w)
    (hw : (s.writes[w]?).bind (·.done) = some (some e)) : c.ctx ≠ none ∧ c.stream ∉ s.begun := by
  obtain ⟨-, call, hcall, -, hphase⟩ := h
  have hdone : call.done = some (some e) := by
    rw [hcall] at hw
    exact hw
  rcases hphase with ⟨hd, -⟩ | ⟨hd, -⟩ | ⟨-, -, hctx, hnot⟩
  · rw [hdone] at hd
    cases hd
  · rw [hdone] at hd
    cases hd
  · exact ⟨hctx, fun hb => hnot (Session.begun_opening hb)⟩

theorem Call.Turn.stage (h : c.Turn s choice c') (hl : s.Linked)
    (hs : s.Stage i c) (hi : s.calls[i]? = some c) (hlive : s.shared.closeErr = none)
    (hdata : c.dataFails s choice = false) :
    Session.Stage { s with calls := s.calls.set i c' } i c' := by
  have hc := List.mem_of_getElem? hi
  -- Before they are on the channel the HEADERS are not being written.
  have hunsent : c.stream ∈ c.unopened → 0 < c.stream ∧ c.stream ∉ s.begun := by
    intro hun
    obtain ⟨hpos, hnot⟩ := hl.fresh c hc c.stream hun
    exact ⟨hpos, fun hb => hnot (Session.begun_opening hb)⟩
  cases h with
  | checkEnded hp he =>
    cases ‹Purpose› with
    | headers =>
      obtain ⟨hpos, hbegun⟩ := hunsent (by simp only [Call.unopened, hp, List.mem_singleton])
      have hctx : c.ctx = some ‹ContextError› := he
      exact Call.wrote_headers hl hi hpos (by rw [hctx]; intro h; cases h) hbegun _
    | data n =>
      have hctx : c.ctx = some ‹ContextError› := he
      simp [Call.dataFails, hp, hctx] at hdata
    | reset cause => cases he
  | enqueueEnded hp hx he =>
    cases ‹Purpose› with
    | headers =>
      obtain ⟨hpos, hbegun⟩ := hunsent (by simp only [Call.unopened, hp, List.mem_singleton])
      have hctx : c.ctx = some ‹ContextError› := he
      exact Call.wrote_headers hl hi hpos (by rw [hctx]; intro h; cases h) hbegun _
    | data n =>
      have hctx : c.ctx = some ‹ContextError› := he
      simp [Call.dataFails, hp, hx, hctx] at hdata
    | reset cause => cases he
  | written hp hx hw =>
    rename_i r
    cases ‹Purpose› with
    | headers =>
      have hphase := hs.phase hp
      cases r with
      | none => exact Session.Stage.proceed ..
      | some e =>
        obtain ⟨hctx, hbegun⟩ := hphase.dropped hw
        exact Call.wrote_headers hl hi hphase.1 hctx hbegun e
    | data n =>
      cases r with
      | none => exact Session.Stage.proceed ..
      | some e => rcases hp with hp | hp <;> simp [Call.dataFails, hp, hx, hw] at hdata
    | reset cause => exact hs.handed hp
  | awaitEnded hp hx he hst =>
    cases ‹Purpose› with
    | headers =>
      have hphase := hs.phase (.inl hp)
      have hctx : c.ctx = some ‹ContextError› := he
      exact Call.wrote_headers hl hi hphase.1 (by rw [hctx]; intro h; cases h) (hphase.unbegun hl hst) _
    | data n =>
      have hctx : c.ctx = some ‹ContextError› := he
      simp [Call.dataFails, hp, hx, hctx, hst] at hdata
    | reset cause => cases he
  | awaitStarted hp =>
    cases ‹Purpose› with
    | headers => exact hs.phase (.inl hp)
    | data n => trivial
    | reset cause => exact hs.handed (.inl hp)
  | writeDone hp hd e =>
    rw [hlive] at hd
    cases hd
  | reserveStopped hp hstop e =>
    rcases hstop with hctx | ⟨st, ho, hf⟩ | hd
    · exact .inl hctx
    · right
      show s.shared.settled c.stream = true
      rw [Shared.settled, ho]
      exact hf
    · rw [hlive] at hd
      cases hd
  | reserveFails hp hctx ho hf =>
    have hstop : c.ctx ≠ none ∨ s.shared.settled c.stream = true := by
      simpa only [Session.Stage, hp] using hs
    rcases hstop with hne | hset
    · exact absurd hctx hne
    · rw [Shared.settled, ho, Option.any_some, hf] at hset
      cases hset
  | _ => trivial

structure Session.Beside (s u : Session) : Prop where
  calls : u.calls = s.calls
  writer : u.writer = s.writer
  wire : u.wire = s.wire
  reader : u.reader = s.reader
  received : u.received = s.received
  flights : ∀ f ∈ s.flights, f ∈ u.flights
  writes : ∀ (w : Nat) (call : WriteCall), s.writes[w]? = some call → u.writes[w]? = some call
  nextStreamID : s.shared.nextStreamID ≤ u.shared.nextStreamID

theorem Session.Beside.of_shared {shared : Shared}
    (h : s.shared.nextStreamID ≤ shared.nextStreamID) : s.Beside { s with shared := shared } :=
  ⟨rfl, rfl, rfl, rfl, rfl, fun _ hf => hf, fun _ _ hc => hc, h⟩

variable {s u : Session}

theorem Call.Move.beside (h : c.Move s i choice u c') :
    s.Beside u := by
  cases h with
  | turn ht | reserved n hp hctx ho hf hpos hbody hframe hconn hstream =>
    exact .of_shared (Nat.le_refl _)
  | acquired hp hc hg hn hroom => exact .of_shared (Nat.le_add_right _ 2)
  | sent hp hx hroom =>
    refine ⟨rfl, rfl, rfl, rfl, rfl, ?_, fun _ _ hc => getElem?_append_kept _ hc, Nat.le_refl _⟩
    rw [s.flights_send]
    exact fun _ hf => List.mem_append_left _ hf
  | failed hp | wasReset hp =>
    exact .of_shared (Nat.le_of_eq (Shared.cancelStream_kept ..).nextStreamID.symm)

def Call.settling (c : Call) (id : Nat) : Prop :=
  id = c.stream ∧ ((∃ e, c.point = .fail e) ∨ ∃ cause err, c.point = .afterReset cause err)

theorem Call.Move.settles (h : c.Move s i choice u c') :
    Shared.Settles c.settling s.shared u.shared := by
  cases h with
  | turn ht => exact .refl _ _
  | acquired hp hc hg hn hroom => exact Shared.openStream_settles ..
  | sent hp hx hroom => exact .refl _ _
  | reserved n hp hctx ho hf hpos hbody hframe hconn hstream => exact Shared.debit_settles ..
  | failed hp =>
    exact (Shared.cancelStream_finishes ..).settles.weaken fun id hid => ⟨hid, .inl ⟨_, hp⟩⟩
  | wasReset hp =>
    exact (Shared.cancelStream_finishes ..).settles.weaken fun id hid => ⟨hid, .inr ⟨_, _, hp⟩⟩

theorem Call.Move.opening {c c' d : Call} (h : c.Move s i choice u c')
    (hl : s.Linked) (hi : s.calls[i]? = some c) (hj : s.calls[j]? = some d) (hne : j ≠ i)
    (hd : d.stream ∉ s.opening) : d.stream ∉ u.opening := by
  cases h with
  | sent hp hx hroom =>
    rename_i p
    rw [Session.opening_send]
    intro ho
    rcases List.mem_append.1 ho with ho | ho
    · exact hd ho
    · cases p with
      | headers =>
        have hun : c.stream ∈ c.unopened := by simp only [Call.unopened, hp, List.mem_singleton]
        obtain ⟨hpos, -⟩ := hl.fresh c (List.mem_of_getElem? hi) c.stream hun
        exact hl.other_stream hi hj hne hpos (List.mem_singleton.1 ho)
      | data n => cases ho
      | reset cause => cases ho
  | _ => exact hd

theorem Call.Move.never {id : Nat} (h : c.Move s i choice u c')
    (hi : s.calls[i]? = some c) (hn : s.NeverOpens id) :
    Session.NeverOpens { u with calls := u.calls.set i c' } id := by
  have hb := h.beside
  have hc := List.mem_of_getElem? hi
  have hown : c'.stream = id → c.stream = id ∧ (c.unopened = [] → c'.unopened = []) ∧
      (c.ctx ≠ none → c'.ctx ≠ none) := by
    intro hid
    cases h with
    | turn ht =>
      obtain ⟨hstream, hctx, -⟩ := ht.stream
      rw [hctx, ← hid, hstream]
      refine ⟨rfl, ?_, fun hne => hne⟩
      intro hun
      rw [List.eq_nil_iff_forall_not_mem] at hun ⊢
      exact fun x hx => hun x (ht.unopened x hx)
    | acquired hp hcl hg hn' hroom => exact absurd hn.below (by rw [← hid]; exact Nat.lt_irrefl _)
    | sent hp hx hroom | failed hp | wasReset hp => exact ⟨hid, fun _ => rfl, fun hne => hne⟩
    | reserved n hp hctx ho hf hpos hbody hframe hconn hstream =>
      exact ⟨hid, fun _ => rfl, fun hne => hne⟩
  apply hn.keep
  · exact hb.nextStreamID
  · intro hbegun
    left
    rw [Session.begun, Session.opened, ← hb.wire, ← hb.writer]
    exact hbegun
  · intro d hd hid
    rw [hb.calls] at hd
    rcases List.mem_or_eq_of_mem_set hd with hd | rfl
    · exact ⟨d, hd, hid, fun hu => hu, fun hctx => hctx⟩
    · exact ⟨c, hc, hown hid⟩

theorem Call.Move.stage (h : c.Move s i choice u c')
    (hl : s.Linked) (hs : s.Stage i c) (hi : s.calls[i]? = some c)
    (hlive : u.shared.closeErr = none) (hdata : c.dataFails s choice = false) :
    Session.Stage { u with calls := u.calls.set i c' } i c' := by
  cases h with
  | turn ht => exact ht.stage hl hs hi hlive hdata
  | sent hp hx hroom =>
    rename_i p
    have hflight : (s.writes.length, c.job p) ∈ (s.send (p.owner i) (c.job p)).flights := by
      rw [s.flights_send]
      exact List.mem_append_right _ (List.mem_singleton_self _)
    cases p with
    | headers =>
      have hun : c.stream ∈ c.unopened := by simp only [Call.unopened, hp, List.mem_singleton]
      obtain ⟨hpos, -⟩ := hl.fresh c (List.mem_of_getElem? hi) c.stream hun
      refine ⟨hpos, { owner := some i }, List.getElem?_concat_length, rfl, .inl ⟨rfl, _, hflight, ?_⟩⟩
      exact List.mem_singleton_self _
    | data n => trivial
    | reset cause => exact ⟨errCodeCancel, .inr ⟨_, hflight⟩⟩
  | _ => trivial

theorem Call.Move.tracked (h : c.Move s i choice u c')
    (hl : s.Linked) (hs : s.Tracked) (hi : s.calls[i]? = some c)
    (hlive : u.shared.closeErr = none) (hdata : c.dataFails s choice = false) :
    Session.Tracked { u with calls := u.calls.set i c' } := by
  have hb := h.beside
  have hset := h.settles
  have hown := hs.stages i c hi
  have hhanded : ∀ id, s.Handed id → Session.Handed { u with calls := u.calls.set i c' } id := by
    intro id hh
    apply hh.keep
    · rw [← hb.wire]
      exact fun _ hf => hf
    · exact hb.flights
  constructor
  · intro j d hj
    rw [hb.calls] at hj
    rcases getElem?_set_cases hj with ⟨rfl, rfl⟩ | ⟨hne, hj'⟩
    · exact h.stage hl hown hi hlive hdata
    · apply (hs.stages j d hj').keep
      · intro w hp
        apply hp.keep
        · exact fun call hcall => ⟨call, hb.writes w call hcall, rfl, rfl, fun hst => hst⟩
        · exact hb.flights
        · exact h.opening hl hi hj' hne
      · exact h.never hi
      · exact hhanded _
      · exact hset.mono _
  · intro id hid
    rcases hset.only id hid with hid | ⟨rfl, ⟨e, hp⟩ | ⟨cause, err, hp⟩⟩
    · apply (hs.settled id hid).keep
      · rw [← hb.received]
        exact fun hd => hd
      · exact hhanded id
      · rw [← hb.reader]
        exact .inl
      · exact h.never hi
    · have hnever : s.NeverOpens c.stream := by simpa only [Session.Stage, hp] using hown
      exact .inr (.inr (.inr (h.never hi hnever)))
    · have hh : s.Handed c.stream := by simpa only [Session.Stage, hp] using hown
      exact .inr (.inl (hhanded _ hh))
  · show OpsSound u.received u.reader
    rw [hb.received, hb.reader]
    exact hs.ops
  · show ∀ g, u.shared.goAway = some g → ∀ id, g.lastStreamID < id → ServerDone u.received id
    rw [hb.received, hset.goAway]
    exact hs.goAway

end Repost.H2
