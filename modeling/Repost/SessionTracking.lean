import Repost.SessionLinks
import Repost.SessionSettling

namespace Repost.H2
open GoText Runs
set_option autoImplicit true

def Writer.writing : Writer → List Job
  | .running _ job => [job]
  | _ => []

def Session.begun (s : Session) : List Nat := s.opened ++ s.writer.writing.flatMap Job.opens

/-- An RST_STREAM frame for a stream is on the wire or on its way there. -/
def Session.Handed (s : Session) (id : Nat) : Prop :=
  ∃ code, .rstStream id code ∈ s.wire ∨ ∃ w, (w, .reply (.rstStream id code)) ∈ s.flights

structure Session.NeverOpens (s : Session) (id : Nat) : Prop where
  positive : 0 < id
  below : id < s.shared.nextStreamID
  begun : id ∉ s.begun
  ended : ∀ c ∈ s.calls, c.stream = id → c.unopened = [] ∧ c.ctx ≠ none

def Session.Phase (s : Session) (i : Nat) (c : Call) (w : Nat) : Prop :=
  0 < c.stream ∧ ∃ call, s.writes[w]? = some call ∧ call.owner = some i ∧
    ((call.done = none ∧ ∃ job, (w, job) ∈ s.flights ∧ c.stream ∈ job.opens) ∨
      (call.done = some none ∧ call.started = true) ∨
      ∃ e, call.done = some (some e) ∧ c.ctx ≠ none ∧ c.stream ∉ s.opening)

def Session.Stage (s : Session) (i : Nat) (c : Call) : Prop :=
  match c.point with
  | .await .headers w | .awaitStarted .headers w => s.Phase i c w
  | .fail _ => s.NeverOpens c.stream
  | .await (.reset _) _ | .awaitStarted (.reset _) _ | .afterReset _ _ => s.Handed c.stream
  | .reserveFailed _ => c.ctx ≠ none ∨ s.shared.settled c.stream = true
  | _ => True

def Session.Noticed (s : Session) (id : Nat) : Prop :=
  ServerDone s.received id ∨ s.Handed id ∨ resetQueued s.reader id ∨ s.NeverOpens id

structure Session.Tracked (s : Session) : Prop where
  stages : ∀ (i : Nat) (c : Call), s.calls[i]? = some c → s.Stage i c
  settled : ∀ id, s.shared.settled id = true → s.Noticed id
  ops : OpsSound s.received s.reader
  goAway : ∀ g, s.shared.goAway = some g → ∀ id, g.lastStreamID < id → ServerDone s.received id

/-- A session that is not shut down and whose write loop has not failed. -/
def Session.Live (s : Session) : Prop :=
  s.shared.closeErr = none ∧ ∀ job err, s.writer ≠ .failed job err

variable {s s' : Session} {id : Nat}

theorem Session.Handed.keep (h : s.Handed id)
    (hwire : ∀ frame ∈ s.wire, frame ∈ s'.wire) (hflights : ∀ f ∈ s.flights, f ∈ s'.flights) :
    s'.Handed id := by
  obtain ⟨code, hw | ⟨w, hf⟩⟩ := h
  · exact ⟨code, .inl (hwire _ hw)⟩
  · exact ⟨code, .inr ⟨w, hflights _ hf⟩⟩

theorem Session.NeverOpens.keep (h : s.NeverOpens id)
    (hnext : s.shared.nextStreamID ≤ s'.shared.nextStreamID)
    (hbegun : id ∈ s'.begun → id ∈ s.begun ∨ ∃ c ∈ s.calls, c.stream = id ∧ c.ctx = none)
    (hcalls : ∀ c' ∈ s'.calls, c'.stream = id → ∃ c ∈ s.calls, c.stream = id ∧
      (c.unopened = [] → c'.unopened = []) ∧ (c.ctx ≠ none → c'.ctx ≠ none)) :
    s'.NeverOpens id := by
  constructor
  · exact h.positive
  · exact Nat.lt_of_lt_of_le h.below hnext
  · intro hb
    rcases hbegun hb with hb | ⟨c, hc, hs, hctx⟩
    · exact h.begun hb
    · exact (h.ended c hc hs).2 hctx
  · intro c' hc' hs'
    obtain ⟨c, hc, hs, hun, hctx⟩ := hcalls c' hc' hs'
    obtain ⟨hun', hctx'⟩ := h.ended c hc hs
    exact ⟨hun hun', hctx hctx'⟩

theorem Session.Phase.keep (h : s.Phase i c w)
    (hwrites : ∀ call, s.writes[w]? = some call → ∃ call', s'.writes[w]? = some call' ∧
      call'.owner = call.owner ∧ call'.done = call.done ∧ (call.started = true → call'.started = true))
    (hflights : ∀ f ∈ s.flights, f ∈ s'.flights)
    (hopening : c.stream ∉ s.opening → c.stream ∉ s'.opening) : s'.Phase i c w := by
  obtain ⟨hpos, call, hcall, howner, hphase⟩ := h
  obtain ⟨call', hcall', ho, hd, hs⟩ := hwrites call hcall
  refine ⟨hpos, call', hcall', ho.trans howner, ?_⟩
  rw [hd]
  rcases hphase with ⟨hdone, job, hf, hid⟩ | ⟨hdone, hstarted⟩ | ⟨e, hdone, hctx, hnot⟩
  · exact .inl ⟨hdone, job, hflights _ hf, hid⟩
  · exact .inr (.inl ⟨hdone, hs hstarted⟩)
  · exact .inr (.inr ⟨e, hdone, hctx, hopening hnot⟩)

theorem Session.Stage.keep (h : s.Stage i c)
    (hphase : ∀ w, s.Phase i c w → s'.Phase i c w)
    (hnever : s.NeverOpens c.stream → s'.NeverOpens c.stream)
    (hhanded : s.Handed c.stream → s'.Handed c.stream)
    (hsettled : s.shared.settled c.stream = true → s'.shared.settled c.stream = true) :
    s'.Stage i c := by
  unfold Session.Stage at h ⊢
  split at h
  · exact hphase _ h
  · exact hphase _ h
  · exact hnever h
  · exact hhanded h
  · exact hhanded h
  · exact hhanded h
  · exact h.imp_right hsettled
  · trivial

theorem Session.Noticed.keep (h : s.Noticed id)
    (hreceived : ServerDone s.received id → ServerDone s'.received id)
    (hhanded : s.Handed id → s'.Handed id)
    (hreader : resetQueued s.reader id → resetQueued s'.reader id ∨ s'.Handed id)
    (hnever : s.NeverOpens id → s'.NeverOpens id) : s'.Noticed id := by
  rcases h with h | h | h | h
  · exact .inl (hreceived h)
  · exact .inr (.inl (hhanded h))
  · rcases hreader h with h | h
    · exact .inr (.inr (.inl h))
    · exact .inr (.inl h)
  · exact .inr (.inr (.inr (hnever h)))

section Quiet
variable {s s' : Session} (h : s.Quiet s')

include h

theorem Session.Quiet.flights : ∀ f ∈ s.flights, f ∈ s'.flights := by
  intro f hf
  rw [Session.flights, h.writer]
  rcases List.mem_append.1 hf with hf | hf
  · exact List.mem_append_left _ hf
  · apply List.mem_append_right
    rcases h.sends with ⟨hq, -⟩ | ⟨r, hq, -⟩ <;> rw [hq]
    · exact hf
    · exact List.mem_append_left _ hf

theorem Session.Quiet.handed (hs : s.Handed id) : s'.Handed id := by
  apply hs.keep
  · rw [h.wire]
    exact fun _ hf => hf
  · exact h.flights

theorem Session.Quiet.never (hs : s.NeverOpens id) : s'.NeverOpens id := by
  apply hs.keep
  · exact Nat.le_of_eq h.nextStreamID.symm
  · rw [Session.begun, Session.opened, h.wire, h.writer]
    exact .inl
  · rw [h.calls]
    exact fun c hc hid => ⟨c, hc, hid, fun hu => hu, fun hctx => hctx⟩

theorem Session.Quiet.phase (hs : s.Phase i c w) : s'.Phase i c w := by
  apply hs.keep
  · intro call hcall
    refine ⟨call, ?_, rfl, rfl, fun hst => hst⟩
    rcases h.sends with ⟨-, hw⟩ | ⟨r, -, hw⟩ <;> rw [hw]
    · exact hcall
    · exact getElem?_append_kept _ hcall
  · exact h.flights
  · rw [h.opening]
    exact fun hn => hn

theorem Session.Tracked.read (hs : s.Tracked) (hreceived : s'.received = s.received)
    (hmono : ∀ id, s.shared.settled id = true → s'.shared.settled id = true)
    (honly : ∀ id, s'.shared.settled id = true → s.shared.settled id = true ∨
      ServerDone s.received id ∨ resetQueued s'.reader id)
    (hreader : ∀ id, resetQueued s.reader id → resetQueued s'.reader id ∨ s'.Handed id)
    (hops : OpsSound s.received s'.reader)
    (hgoAway : ∀ g, s'.shared.goAway = some g → ∀ id, g.lastStreamID < id →
      ServerDone s.received id) : s'.Tracked := by
  constructor
  · intro i c hc
    rw [h.calls] at hc
    exact (hs.stages i c hc).keep (fun _ => h.phase) h.never h.handed (hmono _)
  · intro id hid
    rcases honly id hid with hid | hid | hid
    · apply (hs.settled id hid).keep
      · rw [hreceived]
        exact fun hd => hd
      · exact h.handed
      · exact hreader id
      · exact h.never
    · left
      rw [hreceived]
      exact hid
    · exact .inr (.inr (.inl hid))
  · rw [hreceived]
    exact hops
  · rw [hreceived]
    exact hgoAway

theorem Session.Tracked.readOn (hs : s.Tracked) (hreceived : s'.received = s.received)
    (hset : Shared.Settles p s.shared s'.shared)
    (hp : ∀ id, p id → ServerDone s.received id ∨ resetQueued s'.reader id)
    (hreader : ∀ id, resetQueued s.reader id → resetQueued s'.reader id ∨ s'.Handed id)
    (hops : OpsSound s.received s'.reader) : s'.Tracked := by
  apply hs.read h hreceived hset.mono
  · exact fun id hid => (hset.only id hid).imp_right (hp id)
  · exact hreader
  · exact hops
  · rw [hset.goAway]
    exact hs.goAway

end Quiet

/-- The read loop is about to turn down a frame that does not end its stream. -/
def Session.refuses (s : Session) : Bool :=
  match s.reader with
  | .headers frame response _ :: _ =>
    (s.shared.lookup frame.streamID).any fun st =>
      !st.finished && st.refusesHeaders frame response && !frame.streamEnded
  | .data id payload ended :: _ =>
    (s.shared.lookup id).any fun st => !st.finished && st.refusesData payload && !ended
  | _ => false

theorem resetQueued.tail {op : ReaderOp} (h : resetQueued (op :: rest) id)
    (hop : ∀ r, op ≠ .queue r) : resetQueued rest id := by
  obtain ⟨code, hc⟩ := h
  rcases List.mem_cons.1 hc with hc | hc
  · exact absurd hc.symm (hop _)
  · exact ⟨code, hc⟩

theorem resetQueued.append (h : resetQueued rest id) (ops : List ReaderOp) :
    resetQueued (ops ++ rest) id := by
  obtain ⟨code, hc⟩ := h
  exact ⟨code, List.mem_append_right _ hc⟩

theorem orShutdown_ops (s : Session) (result : Shared × Option SessionError)
    (h : OpsSound received rest) : OpsSound received (s.orShutdown result rest).reader := by
  unfold Session.orShutdown
  dsimp only
  split
  · exact h
  · exact ⟨trivial, trivial⟩

theorem readerStep_tracked (hs : s.Tracked) (hr : s.reader = op :: rest)
    (hstep : s.readerStep gunzip rest op choice = some s') (hlive : s'.shared.closeErr = none)
    (hrefuses : s.refuses = false) : s'.Tracked := by
  have hq := readerStep_quiet hstep
  have hops := hs.ops
  rw [hr] at hops
  obtain ⟨hop, hrest⟩ := hops
  have hpending' : (∀ r, op ≠ .queue r) → ∀ id, resetQueued s.reader id → resetQueued rest id := by
    intro hne id hid
    rw [hr] at hid
    exact hid.tail hne
  have hpending : (∀ r, op ≠ .queue r) → ∀ id, resetQueued s.reader id →
      resetQueued rest id ∨ s'.Handed id := fun hne id hid => .inl (hpending' hne id hid)
  cases choice with
  | context => cases op <;> cases hstep
  | session =>
    cases op with
    | queue r =>
      simp only [Session.readerStep] at hstep
      split at hstep
      · rename_i hc
        cases hstep
        rw [hlive] at hc
        cases hc
      · cases hstep
    | _ => cases hstep
  | go =>
    cases op with
    | finish id r e =>
      cases hstep
      refine hs.readOn hq rfl (s.shared.finishStream_finishes id r e).settles ?_ (hpending fun _ h => by cases h) hrest
      rintro _ rfl
      exact hop
    | queue r =>
      simp only [Session.readerStep] at hstep
      split at hstep
      · cases hstep
        refine hs.readOn hq rfl (.refl (fun _ => False) s.shared) (fun _ hid => hid.elim) ?_ hrest
        intro id hid
        rw [hr] at hid
        obtain ⟨code, hc⟩ := hid
        rcases List.mem_cons.1 hc with hc | hc
        · cases hc
          refine .inr ⟨code, .inr ⟨s.writes.length, ?_⟩⟩
          exact List.mem_append_right _ (List.mem_append_right _ (List.mem_singleton_self _))
        · exact .inl ⟨code, hc⟩
      · cases hstep
    | headers frame r expected =>
      cases hstep
      refine hs.readOn hq rfl
        (s.shared.handleHeaders_touches gunzip frame r expected).settles
        (fun _ (hid : False) => hid.elim) ?_ ?_
      · exact fun id hid => .inl ((hpending' (fun _ h => by cases h) id hid).append _)
      · refine Shared.handleHeaders_sound hop ?_ hrest
        intro st hst hf hrefused
        simpa [Session.refuses, hr, hst, hf, hrefused] using hrefuses
    | observe id status headers =>
      cases hstep
      exact hs.readOn hq rfl
        (.of_update (p := fun _ => False) id _ rfl rfl (fun _ => rfl) (fun _ => rfl))
        (fun _ hid => hid.elim) (hpending fun _ h => by cases h) hrest
    | data id payload ended =>
      cases hstep
      refine hs.readOn hq rfl
        (s.shared.handleData_touches gunzip id payload ended).settles
        (fun _ (hid : False) => hid.elim) ?_ ?_
      · exact fun id hid => .inl ((hpending' (fun _ h => by cases h) id hid).append _)
      · refine Shared.handleData_sound hop ?_ hrest
        intro st hst hf hrefused
        simpa [Session.refuses, hr, hst, hf, hrefused] using hrefuses
    | goAway lastStreamID code =>
      cases hstep
      obtain ⟨bound, hbound, hfrom, hmono, honly⟩ :=
        s.shared.handleGoAway_settles lastStreamID code
      have hdone : ∀ id, bound.lastStreamID < id → ServerDone s.received id := by
        rcases hfrom with hg | hlast
        · exact hs.goAway bound hg
        · rw [hlast]
          exact hop
      refine hs.read hq rfl hmono ?_ (hpending fun _ h => by cases h) hrest ?_
      · exact fun id hid => (honly id hid).imp_right fun hlt => .inl (hdone id hlt)
      · intro g hg
        cases hbound.symm.trans hg
        exact hdone
    | windowUpdate id increment =>
      cases hstep
      refine hs.readOn hq rfl (s.shared.handleWindowUpdate_settles (fun _ => False) id increment)
        (fun _ hid => hid.elim) ?_ (orShutdown_ops s _ hrest)
      intro id hid
      cases hop
      obtain ⟨_, hc⟩ := hpending' (fun _ h => by cases h) id hid
      cases hc
    | settings list =>
      cases hstep
      refine hs.readOn hq rfl (s.shared.applySettings_settles (fun _ => False) list)
        (fun _ hid => hid.elim) ?_ (orShutdown_ops s _ ⟨trivial, hrest⟩)
      intro id hid
      cases hop
      obtain ⟨_, hc⟩ := hpending' (fun _ h => by cases h) id hid
      cases hc
    | shutdown e =>
      cases hstep
      exact (Shared.shutdown_ne_none _ _ hlive).elim

theorem Session.Tracked.write (hs : s.Tracked) (hcalls : s'.calls = s.calls)
    (hshared : s'.shared = s.shared) (hreader : s'.reader = s.reader)
    (hreceived : s'.received = s.received)
    (hphase : ∀ (i : Nat) (c : Call) (w : Nat), s.calls[i]? = some c → s.Phase i c w →
      s'.Phase i c w)
    (hbegun : ∀ id ∈ s'.begun, id ∈ s.begun ∨ ∃ c ∈ s.calls, c.stream = id ∧ c.ctx = none)
    (hhanded : ∀ id, s.Handed id → s'.Handed id) : s'.Tracked := by
  have hnever : ∀ id, s.NeverOpens id → s'.NeverOpens id := by
    intro id hn
    apply hn.keep
    · exact Nat.le_of_eq (congrArg Shared.nextStreamID hshared.symm)
    · exact hbegun id
    · rw [hcalls]
      exact fun c hc hid => ⟨c, hc, hid, fun hu => hu, fun hctx => hctx⟩
  constructor
  · intro i c hc
    rw [hcalls] at hc
    apply (hs.stages i c hc).keep (fun w => hphase i c w hc) (hnever _) (hhanded _)
    rw [hshared]
    exact fun hset => hset
  · rw [hshared]
    intro id hid
    apply (hs.settled id hid).keep
    · rw [hreceived]
      exact fun hd => hd
    · exact hhanded id
    · rw [hreader]
      exact .inl
    · exact hnever id
  · rw [hreceived, hreader]
    exact hs.ops
  · rw [hreceived, hshared]
    exact hs.goAway

variable {s : Session}

theorem Session.Linked.context (h : s.Linked) (hf : (v, job) ∈ s.flights)
    (hid : id ∈ job.opens) (hc : s.writeContext v = none) :
    ∃ c ∈ s.calls, c.stream = id ∧ c.ctx = none := by
  obtain ⟨call, hcall, -, hopens, -⟩ := h.carries _ hf
  obtain ⟨i, c, howner, hci, hstream⟩ := hopens id hid
  refine ⟨c, List.mem_of_getElem? hci, hstream, ?_⟩
  simpa only [Session.writeContext, Session.contextOf, hcall, howner, hci, Option.bind_some] using hc

theorem Session.Tracked.going (hs : s.Tracked) (hcalls : s'.calls = s.calls)
    (hshared : s'.shared = s.shared) (hreader : s'.reader = s.reader)
    (hreceived : s'.received = s.received) (hwire : s'.wire = s.wire)
    (hflights : s'.flights = s.flights)
    (hwrites : ∀ (w : Nat) (call : WriteCall), s.writes[w]? = some call →
      ∃ call', s'.writes[w]? = some call' ∧ call'.owner = call.owner ∧ call'.done = call.done ∧
        (call.started = true → call'.started = true))
    (hbegun : ∀ id ∈ s'.begun, id ∈ s.begun ∨ ∃ c ∈ s.calls, c.stream = id ∧ c.ctx = none) :
    s'.Tracked := by
  have hkept : ∀ f ∈ s.flights, f ∈ s'.flights := by
    rw [hflights]
    exact fun _ hf => hf
  apply hs.write hcalls hshared hreader hreceived
  · intro i c w _ hp
    apply hp.keep (hwrites w) hkept
    rw [s'.opening_flights, Session.opened, hwire, hflights, s.opening_flights, Session.opened]
    exact fun hn => hn
  · exact hbegun
  · intro id hh
    apply hh.keep ?_ hkept
    rw [hwire]
    exact fun _ hf => hf

theorem Session.Phase.others (h : s.Phase i c w)
    (hw : s.writer.flight = [(v, job)]) (hne : w ≠ v) (hflights : s'.flights = s.writeCh)
    (hwrites : s'.writes[w]? = s.writes[w]?)
    (hopening : ∀ id ∈ s'.opening, id ∈ s.opening) : s'.Phase i c w := by
  obtain ⟨hpos, call, hcall, howner, hphase⟩ := h
  refine ⟨hpos, call, hwrites.trans hcall, howner, ?_⟩
  rcases hphase with ⟨hdone, job', hf, hid⟩ | hdone | ⟨e, hdone, hctx, hnot⟩
  · refine .inl ⟨hdone, job', ?_, hid⟩
    rw [Session.flights, hw] at hf
    rw [hflights]
    rcases List.mem_cons.1 hf with hf | hf
    · cases hf
      exact absurd rfl hne
    · exact hf
  · exact .inr (.inl hdone)
  · exact .inr (.inr ⟨e, hdone, hctx, fun ho => hnot (hopening _ ho)⟩)

theorem Session.Phase.head (h : s.Phase i c v) (hl : s.Linked)
    (hw : s.writer.flight = [(v, job)]) :
    0 < c.stream ∧ c.stream ∈ job.opens ∧
      ∃ call, s.writes[v]? = some call ∧ call.owner = some i := by
  have hflight : (v, job) ∈ s.flights := by
    rw [Session.flights, hw]
    exact List.mem_cons_self
  obtain ⟨hpos, call, hcall, howner, hphase⟩ := h
  obtain ⟨call', hcall', hnone, -⟩ := hl.carries _ hflight
  cases hcall.symm.trans hcall'
  refine ⟨hpos, ?_, call, hcall, howner⟩
  rcases hphase with ⟨-, job', hf, hid⟩ | ⟨hdone, -⟩ | ⟨e, hdone, -⟩
  · rw [Session.flights, hw] at hf
    rcases List.mem_cons.1 hf with hf | hf
    · cases hf
      exact hid
    · exact absurd rfl (hl.head hw _ hf)
  · rw [hnone] at hdone
    cases hdone
  · rw [hnone] at hdone
    cases hdone

theorem Session.Tracked.skip (hs : s.Tracked) (hl : s.Linked)
    (hw : s.writer = .started v job) (hc : s.writeContext v = some e) :
    Session.Tracked { s.updateWrite v (fun c => { c with done := some (some (.context e)) }) with
      writer := .idle } := by
  have hflight : s.writer.flight = [(v, job)] := by rw [hw]; rfl
  have hmem : (v, job) ∈ s.flights := by
    rw [Session.flights, hflight]
    exact List.mem_cons_self
  have hopening := (Session.Writes.skip hw hc).opening
  refine hs.write rfl rfl rfl rfl ?_ ?_ ?_
  · intro i c w hci hp
    by_cases hwv : w = v
    · subst hwv
      obtain ⟨hpos, hid, call, hcall, howner⟩ := hp.head hl hflight
      refine ⟨hpos, _, getElem?_modify_kept _ w hcall, ?_⟩
      rw [if_pos rfl]
      refine ⟨howner, .inr (.inr ⟨.context e, rfl, ?_, ?_⟩)⟩
      · simp only [Session.writeContext, Session.contextOf, hcall, howner, hci,
          Option.bind_some] at hc
        rw [hc]
        intro h
        cases h
      · have hnodup := hl.nodup
        rw [s.opening_flights, Session.flights, hflight, List.singleton_append,
          List.flatMap_cons] at hnodup
        have hdisjoint := (List.nodup_append.1 (List.nodup_append.1 hnodup).2.1).2.2
        rw [Session.opening_flights]
        intro ho
        rcases List.mem_append.1 ho with ho | ho
        · exact hl.not_opened hmem hid ho
        · exact hdisjoint _ hid _ ho rfl
    · exact hp.others hflight hwv rfl (Session.updateWrite_other hwv _)
        fun _ ho => hopening.subset ho
  · intro id hid
    refine .inl ?_
    rw [Session.begun, hw]
    exact hid
  · intro id hh
    obtain ⟨code, hwire | ⟨w, hf⟩⟩ := hh
    · exact ⟨code, .inl hwire⟩
    · rw [Session.flights, hflight] at hf
      rcases List.mem_cons.1 hf with hf | hf
      · cases hf
        obtain ⟨call, hcall, -, -, hreply⟩ := hl.carries _ hmem
        simp only [Session.writeContext, Session.contextOf, hcall, hreply _ rfl,
          Option.bind_some] at hc
        cases hc
      · exact ⟨code, .inr ⟨w, hf⟩⟩

theorem Session.Tracked.wrote (hs : s.Tracked) (hl : s.Linked)
    (hw : s.writer = .running v job) :
    Session.Tracked { s.updateWrite v (fun c => { c with done := some none }) with
      wire := s.wire ++ job.frames s.shared.maxFrameSize
      marked := s.marked ++ s.marks v job
      writer := .idle } := by
  have hflight : s.writer.flight = [(v, job)] := by rw [hw]; rfl
  have hopening := (Session.Writes.wrote hw).opening
  refine hs.write rfl rfl rfl rfl ?_ ?_ ?_
  · intro i c w hci hp
    by_cases hwv : w = v
    · subst hwv
      obtain ⟨hpos, hid, call, hcall, howner⟩ := hp.head hl hflight
      obtain ⟨call', hcall', hstarted⟩ := hl.started w job (.inr hw)
      cases hcall.symm.trans hcall'
      refine ⟨hpos, _, getElem?_modify_kept _ w hcall, ?_⟩
      rw [if_pos rfl]
      exact ⟨howner, .inr (.inl ⟨rfl, hstarted⟩)⟩
    · exact hp.others hflight hwv rfl (Session.updateWrite_other hwv _)
        fun _ ho => hopening.subset ho
  · intro id hid
    refine .inl ?_
    simp only [Session.begun, Session.opened, Writer.writing, List.flatMap_append,
      Job.frames_opens, List.flatMap_nil, List.append_nil] at hid
    simpa only [Session.begun, Session.opened, hw, Writer.writing, List.flatMap_cons,
      List.flatMap_nil, List.append_nil] using hid
  · intro id hh
    obtain ⟨code, hwire | ⟨w, hf⟩⟩ := hh
    · exact ⟨code, .inl (List.mem_append_left _ hwire)⟩
    · rw [Session.flights, hflight] at hf
      rcases List.mem_cons.1 hf with hf | hf
      · cases hf
        exact ⟨code, .inl (List.mem_append_right _ (List.mem_singleton_self _))⟩
      · exact ⟨code, .inr ⟨w, hf⟩⟩

theorem Session.Writes.tracked (h : s.Writes s') (hl : s.Linked)
    (hs : s.Tracked) (hlive : s'.Live) : s'.Tracked := by
  have hsame : ∀ (w : Nat) (call : WriteCall), s.writes[w]? = some call →
      ∃ call', s.writes[w]? = some call' ∧ call'.owner = call.owner ∧ call'.done = call.done ∧
        (call.started = true → call'.started = true) :=
    fun _ call hcall => ⟨call, hcall, rfl, rfl, fun hst => hst⟩
  cases h with
  | receive hw hq =>
    refine hs.going rfl rfl rfl rfl rfl ?_ hsame ?_
    · simp only [Session.flights, hw, hq, Writer.flight, List.nil_append, List.singleton_append]
    · rw [Session.begun, Session.begun, hw]
      exact fun _ hid => .inl hid
  | start hw =>
    refine hs.going rfl rfl rfl rfl rfl ?_ ?_ ?_
    · simp only [Session.flights, hw, Writer.flight, Session.updateWrite]
    · intro w call hcall
      refine ⟨_, getElem?_modify_kept _ _ hcall, ?_⟩
      split
      · exact ⟨rfl, rfl, fun _ => rfl⟩
      · exact ⟨rfl, rfl, fun hst => hst⟩
    · rw [Session.begun, Session.begun, hw]
      exact fun _ hid => .inl hid
  | skip hw hc => exact hs.skip hl hw hc
  | run hw hc =>
    refine hs.going rfl rfl rfl rfl rfl ?_ hsame ?_
    · simp only [Session.flights, hw, Writer.flight]
    · intro id hid
      rcases List.mem_append.1 hid with hid | hid
      · exact .inl (List.mem_append_left _ hid)
      · right
        obtain ⟨job, hjob, hopens⟩ := List.mem_flatMap.1 hid
        cases List.mem_singleton.1 hjob
        refine hl.context ?_ hopens hc
        rw [Session.flights, hw]
        exact List.mem_cons_self
  | wrote hw => exact hs.wrote hl hw
  | stop hw hc =>
    have hnone : s.shared.closeErr = none := hlive.1
    rw [hnone] at hc
    cases hc
  | broke after err hw ha => exact absurd rfl (hlive.2 _ _)
  | shut e hw =>
    exact (Shared.shutdown_ne_none _ _ hlive.1).elim

end Repost.H2
