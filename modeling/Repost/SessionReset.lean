import Repost.SessionStages

namespace Repost.H2
open GoText Runs
set_option autoImplicit true

/-- The steps in which the client gives up a stream without telling the server: the write of a chunk
fails because the request's context has ended, or the read loop turns down a frame that does not end
its stream. -/
def Session.abandons (s : Session) : Act → Bool
  | .call i choice => (s.calls[i]?).any fun c => c.dataFails s choice
  | .receive frame => frame.oversized
  | .reader _ => s.refuses
  | _ => false

abbrev Notifies (s : Session) (a : Act) : Prop := s.abandons a = false

theorem Session.Moves.alive {s s' : Session} (h : s.Moves gunzip a s') (hlive : s'.Live) :
    s.Live := by
  refine ⟨h.live hlive.1, ?_⟩
  intro job err hw
  have hkept : s'.writer = s.writer → False := fun heq => hlive.2 job err (heq.trans hw)
  cases h with
  | start block body => exact hkept rfl
  | cancel i cause hi hc => exact hkept rfl
  | call i choice hi hm => exact hkept hm.beside.writer
  | receive frame hr => exact hkept rfl
  | reader choice hr hread => exact hkept (readerStep_quiet hread).writer
  | close => exact hkept rfl
  | writer choice hwrites =>
    cases hwrites with
    | shut e _ =>
      exact (Shared.shutdown_ne_none _ _ hlive.1).elim
    | receive hw' _ | stop hw' _ | start hw' | skip hw' _ | run hw' _ | wrote hw'
    | broke _ _ hw' _ =>
      cases hw.symm.trans hw'

variable {s : Session}

theorem Session.Stage.cancel {c : Call} (h : s.Stage i c) (cause : ContextError) :
    s.Stage i { c with ctx := some cause } := by
  have hphase : ∀ w, s.Phase i c w → s.Phase i { c with ctx := some cause } w := by
    rintro w ⟨hpos, call, hcall, howner, hp⟩
    refine ⟨hpos, call, hcall, howner, ?_⟩
    rcases hp with hp | hp | ⟨e, hdone, -, hnot⟩
    · exact .inl hp
    · exact .inr (.inl hp)
    · exact .inr (.inr ⟨e, hdone, nofun, hnot⟩)
  revert h
  unfold Session.Stage
  dsimp only
  split
  · exact hphase _
  · exact hphase _
  · exact fun h => h
  · exact fun h => h
  · exact fun h => h
  · exact fun h => h
  · exact fun _ => .inl nofun
  · exact fun h => h

theorem Session.Tracked.environment {calls : List Call} (hs : s.Tracked)
    (hcalls : ∀ d ∈ calls, d.stream = 0 ∨ ∃ c ∈ s.calls, c.stream = d.stream ∧
      (c.unopened = [] → d.unopened = []) ∧ (c.ctx ≠ none → d.ctx ≠ none))
    (hstages : ∀ (i : Nat) (d : Call), calls[i]? = some d → s.Stage i d ∨ d.point = .acquire) :
    Session.Tracked { s with calls := calls } := by
  have hnever : ∀ id, s.NeverOpens id → Session.NeverOpens { s with calls := calls } id := by
    intro id hn
    refine hn.keep (Nat.le_refl _) .inl ?_
    intro d hd hid
    rcases hcalls d hd with hzero | ⟨c, hc, hstream, hkept⟩
    · have hpos := hn.positive
      omega
    · exact ⟨c, hc, hstream.trans hid, hkept⟩
  constructor
  · intro i d hi
    rcases hstages i d hi with hstage | hp
    · exact hstage.keep (fun _ hp => hp) (hnever _) (fun hh => hh) (fun hset => hset)
    · rw [Session.Stage, hp]
      trivial
  · intro id hid
    exact (hs.settled id hid).keep (fun hd => hd) (fun hh => hh) .inl (hnever id)
  · exact hs.ops
  · exact hs.goAway

theorem Session.Tracked.received (hs : s.Tracked) (hr : s.reader = [])
    (hframe : frame.oversized = false) :
    Session.Tracked { s with reader := frame.ops, received := s.received ++ [frame] } := by
  have hq := s.receive_quiet frame
  constructor
  · intro i c hi
    exact (hs.stages i c hi).keep (fun _ => hq.phase) hq.never hq.handed (fun hset => hset)
  · intro id hid
    apply (hs.settled id hid).keep
    · exact fun hd => hd.append _
    · exact hq.handed
    · rw [hr]
      exact fun ⟨_, hc⟩ => (nomatch hc)
    · exact hq.never
  · exact Incoming.ops_sound s.received frame hframe
  · exact fun g hg id hlt => (hs.goAway g hg id hlt).append _

theorem tracked_step {s s' : Session} (hl : s.Linked) (hs : s.Tracked) (h : s.Moves gunzip a s')
    (hok : Notifies s a) (hlive : s'.Live) : s'.Tracked := by
  cases h with
  | start block body =>
    apply hs.environment
    · exact forall_mem_append_one
        (fun c hc => .inr ⟨c, hc, rfl, fun hu => hu, fun hctx => hctx⟩) (.inl rfl)
    · intro i d hi
      rcases getElem?_append_one_cases hi with ⟨-, rfl⟩ | hi'
      · exact .inr rfl
      · exact .inl (hs.stages i d hi')
  | cancel i cause hi hc =>
    apply hs.environment
    · refine forall_mem_set (fun c hc => .inr ⟨c, hc, rfl, fun hu => hu, fun hctx => hctx⟩) ?_
      exact .inr ⟨_, List.mem_of_getElem? hi, rfl, fun hu => hu, fun _ => nofun⟩
    · intro j d hj
      rcases getElem?_set_cases hj with ⟨rfl, rfl⟩ | ⟨-, hj'⟩
      · exact .inl ((hs.stages j _ hi).cancel cause)
      · exact .inl (hs.stages j d hj')
  | call i choice hi hm =>
    refine hm.tracked hl hs hi hlive.1 ?_
    simpa only [Notifies, Session.abandons, hi, Option.any_some] using hok
  | writer choice hw => exact hw.tracked hl hs hlive
  | receive frame hr => exact hs.received hr hok
  | reader choice hr hread => exact readerStep_tracked hs hr hread hlive.1 hok
  | close =>
    exact (Shared.shutdown_ne_none _ _ hlive.1).elim

theorem tracked_init (h : newSession settings = some s) : s.Tracked := by
  obtain ⟨shared, rfl, -, list, hlist⟩ := newSession_kept h
  have hset := Shared.applySettings_settles (fun _ => False) {} list
  rw [hlist] at hset
  constructor
  · exact fun _ _ hc => (nomatch hc)
  · intro id hid
    rcases hset.only id hid with hid | hid
    · cases hid
    · exact hid.elim
  · trivial
  · intro g hg
    cases hset.goAway.symm.trans hg

theorem tracked_invariant (gunzip : GunzipLimited) :
    (session gunzip).Invariant Notifies fun s => s.Linked ∧ (s.Live → s.Tracked) where
  init := fun _ ⟨_, h⟩ => ⟨linked_init h, fun _ => tracked_init h⟩
  step := by
    intro s a s' ⟨hl, hs⟩ hok hstep
    have hm := sessionStep_moves hstep
    exact ⟨linked_step hl hm, fun hlive => tracked_step hl (hs (hm.alive hlive)) hm hok hlive⟩

/-- In every run in which no chunk's write fails for its context and no frame is turned down that
does not end its stream, the server hears of every stream that the client settles first: once its
HEADERS are on the wire, its reset is there, on its way, or the next thing that the read loop puts
on the channel. -/
theorem settled_streams_reset (gunzip : GunzipLimited)
    (h : (session gunzip).Reachable Notifies s) (hlive : s.Live) {id : Nat}
    (hopened : id ∈ s.opened) (hsettled : s.shared.settled id = true)
    (hserver : ¬ ServerDone s.received id) : s.Handed id ∨ resetQueued s.reader id := by
  obtain ⟨-, htracked⟩ := (tracked_invariant gunzip).reachable h
  rcases (htracked hlive).settled id hsettled with hd | hh | hq | hn
  · exact absurd hd hserver
  · exact .inl hh
  · exact .inr hq
  · exact absurd (List.mem_append_left _ hopened) hn.begun

namespace Sample

def opening (body : Bytes) : List Act :=
  [.start [104] body, .call 0 .go, .call 0 .go, .call 0 .go, .writer .go, .writer .go, .writer .go,
    .writer .go, .call 0 .go]

def deserting : List Act :=
  opening [1, 2, 3] ++ [.call 0 .go, .cancel 0 .canceled, .call 0 .go, .call 0 .go]

def interrupting : List Act :=
  opening [] ++ [.receive (.data 1 [7] 0 false), .reader .go, .reader .go, .reader .go]

def canceling : List Act :=
  opening [] ++ [.cancel 0 .canceled, .call 0 .context, .call 0 .go, .call 0 .go, .writer .go,
    .writer .go, .writer .go, .writer .go, .call 0 .go, .call 0 .go]

end Sample

/-- A stream that the client has settled first and of whose end the server never hears. -/
def Session.Deserted (s : Session) (id : Nat) : Prop :=
  s.Live ∧ id ∈ s.opened ∧ s.shared.settled id = true ∧ ¬ ServerDone s.received id ∧
    ¬ (s.Handed id ∨ resetQueued s.reader id)

theorem Session.Deserted.of_idle {id : Nat} (hlive : s.Live) (ho : id ∈ s.opened)
    (hset : s.shared.settled id = true) (hserver : ¬ ServerDone s.received id)
    (hwire : ∀ code, .rstStream id code ∉ s.wire)
    (hflights : ∀ f ∈ s.flights, ∀ code, f.2 ≠ .reply (.rstStream id code))
    (hreader : s.reader = []) : s.Deserted id := by
  refine ⟨hlive, ho, hset, hserver, ?_⟩
  rintro (⟨code, hw | ⟨w, hf⟩⟩ | ⟨code, hq⟩)
  · exact hwire code hw
  · exact hflights _ hf code rfl
  · rw [hreader] at hq
    cases hq

/-- Both a cancellation between reservation and write and a protocol error of the server leave the
stream open on the server's side. -/
theorem deserting_and_interrupting_reset_nothing :
    (∃ s : Session, (session Sample.noGunzip).Reachable System.Any s ∧
      s.received = [] ∧ s.Deserted 1) ∧
    ∃ s : Session, (session Sample.noGunzip).Reachable System.Any s ∧
      s.received = [.data 1 [7] 0 false] ∧ s.Deserted 1 := by
  have hreach : ∀ acts s, (session Sample.noGunzip).exec System.Any {} acts = some s →
      (session Sample.noGunzip).Reachable System.Any s :=
    fun _ _ h => System.exec_reachable ⟨[], rfl⟩ h
  constructor
  · refine ⟨_, hreach Sample.deserting _ rfl, rfl, .of_idle ⟨rfl, nofun⟩ (by decide) rfl ?_ ?_ ?_ rfl⟩
    · rintro ⟨frame, hf, -⟩
      cases hf
    · intro code hw
      cases List.mem_singleton.1 hw
    · exact fun f hf => (nomatch hf)
  · refine ⟨_, hreach Sample.interrupting _ rfl, rfl, .of_idle ⟨rfl, nofun⟩ (by decide) rfl ?_ ?_ ?_ rfl⟩
    · rintro ⟨frame, hf, he⟩
      cases List.mem_singleton.1 hf
      cases he
    · intro code hw
      cases List.mem_singleton.1 hw
    · intro f hf code
      cases List.mem_singleton.1 hf
      exact nofun

theorem canceling_resets_stream : ∃ s : Session,
    (session Sample.noGunzip).exec Notifies {} Sample.canceling = some s ∧
      s.shared.settled 1 = true ∧ (s.Handed 1 ∨ resetQueued s.reader 1) := by
  obtain ⟨s, hs, hlive, ho, hset, hserver⟩ :
      ∃ s ∈ (session Sample.noGunzip).exec Notifies {} Sample.canceling, s.Live ∧ 1 ∈ s.opened ∧
        s.shared.settled 1 = true ∧ ¬ ServerDone s.received 1 := by
    refine ⟨_, rfl, ⟨rfl, nofun⟩, by decide, rfl, ?_⟩
    rintro ⟨frame, hf, -⟩
    cases hf
  refine ⟨s, hs, hset, ?_⟩
  exact settled_streams_reset Sample.noGunzip (System.exec_reachable ⟨[], rfl⟩ hs) hlive ho hset
    hserver

end Repost.H2
