import Repost.StreamTable

namespace Repost.H2
open GoText Runs
set_option autoImplicit true

namespace Shared

structure Narrows (s s' : Shared) : Prop where
  streams : ∀ id ∈ s'.streams, id ∈ s.streams
  goAway : s'.goAway = s.goAway
  closeErr : s'.closeErr = s.closeErr

structure Restrained (s : Shared) : Prop where
  bounded : ∀ g, s.goAway = some g → ∀ id ∈ s.streams, id ≤ g.lastStreamID
  emptied : s.closeErr.isSome = true → s.streams = []

def Told (s : Shared) (lastStreamID : Nat) : Prop :=
  s.closeErr.isSome = true ∨ ∃ g, s.goAway = some g ∧ g.lastStreamID ≤ lastStreamID

section
variable {s s' t : Shared} {id : Nat}

theorem Narrows.of_streams (hs : s'.streams = s.streams) (hg : s'.goAway = s.goAway)
    (hc : s'.closeErr = s.closeErr) : s.Narrows s' := ⟨fun _ h => hs ▸ h, hg, hc⟩

theorem Narrows.refl (s : Shared) : s.Narrows s := .of_streams rfl rfl rfl

theorem Narrows.trans (h : s.Narrows t) (h' : t.Narrows s') : s.Narrows s' :=
  ⟨fun id hid => h.streams id (h'.streams id hid), h'.goAway.trans h.goAway,
    h'.closeErr.trans h.closeErr⟩

theorem finishLocked_narrows (s : Shared) (id : Nat) (r : Response) (e : Option SessionError) :
    s.Narrows (s.finishLocked id r e) := ⟨fun _ h => List.mem_of_mem_erase h, rfl, rfl⟩

theorem Finishes.narrows (h : s.Finishes id s') : s.Narrows s' := by
  cases h with
  | nothing => exact .refl s
  | finish r e => exact finishLocked_narrows ..

theorem Touches.narrows (h : s.Touches s') : s.Narrows s' := by
  cases h with
  | nothing => exact .refl s
  | update id f hid hf => exact .of_streams rfl rfl rfl

theorem finishAll_narrows (s : Shared) (e : SessionError) (ids : List Nat) :
    s.Narrows (s.finishAll e ids) := by
  induction ids generalizing s with
  | nil => exact .refl s
  | cons id ids ih => exact (finishLocked_narrows ..).trans (ih _)

theorem handleWindowUpdate_narrows (s : Shared) (id increment : Nat) :
    s.Narrows (s.handleWindowUpdate id increment).1 := by
  unfold Shared.handleWindowUpdate
  split
  · split <;> exact .of_streams rfl rfl rfl
  · split
    · split_ifs <;> exact .of_streams rfl rfl rfl
    · exact .of_streams rfl rfl rfl

theorem applySettings_narrows (s : Shared) (settings : List Setting) :
    s.Narrows (s.applySettings settings).1 := by
  induction settings generalizing s with
  | nil => exact .refl s
  | cons setting settings ih =>
    unfold Shared.applySettings
    split
    · refine Narrows.trans ?_ (ih _)
      unfold Shared.applySetting
      split <;> exact .of_streams rfl rfl rfl
    · exact .refl s

def Ends : ReaderOp → Prop
  | .goAway _ _ | .shutdown _ => True
  | _ => False

theorem perform_narrows (s : Shared) (gunzip : GunzipLimited) {op : ReaderOp} (h : ¬Ends op) :
    s.Narrows (s.perform gunzip op).1 := by
  cases op with
  | finish id r e => exact (finishStream_finishes ..).narrows
  | queue reply => exact .refl s
  | headers frame r expected => exact (handleHeaders_touches ..).narrows
  | observe id status headers => exact .of_streams rfl rfl rfl
  | data id payload ended => exact (handleData_touches ..).narrows
  | windowUpdate id increment => exact handleWindowUpdate_narrows ..
  | settings list => exact applySettings_narrows ..
  | goAway lastStreamID code | shutdown e => exact absurd trivial h

theorem Restrained.narrow (h : s.Restrained) (hn : s.Narrows s') : s'.Restrained := by
  constructor
  · intro g hg id hid
    exact h.bounded g (hn.goAway ▸ hg) id (hn.streams id hid)
  · intro hc
    rw [hn.closeErr] at hc
    exact List.eq_nil_iff_forall_not_mem.2 fun id hid =>
      List.not_mem_nil (h.emptied hc ▸ hn.streams id hid)

theorem Told.narrow (h : s.Told last) (hn : s.Narrows s') : s'.Told last := by
  rcases h with hc | ⟨g, hg, hle⟩
  · exact .inl (hn.closeErr ▸ hc)
  · exact .inr ⟨g, hn.goAway.trans hg, hle⟩

theorem shutdown_streams (s : Shared) (e : SessionError) :
    ∀ id ∈ (s.shutdown e).streams, id ∈ s.streams := by
  unfold Shared.shutdown
  split
  · exact fun _ hid => hid
  · exact (finishAll_narrows { s with closeErr := some e } e s.streams).streams

theorem Restrained.shutdown (h : s.Restrained) (hd : s.streams.Nodup) (e : SessionError) :
    (s.shutdown e).Restrained := by
  have hempty : (s.shutdown e).streams = [] := by
    unfold Shared.shutdown
    cases hc : s.closeErr with
    | some _ => exact h.emptied (by rw [hc]; rfl)
    | none =>
      refine List.eq_nil_iff_forall_not_mem.2 fun id hid => ?_
      have hboth := (mem_finishAll (s := { s with closeErr := some e }) hd e s.streams).1 hid
      exact hboth.2 hboth.1
  constructor
  · intro g hg id hid
    rw [hempty] at hid
    cases hid
  · exact fun _ => hempty

theorem goAwayBound_le (s : Shared) (lastStreamID code : Nat) :
    (s.goAwayBound lastStreamID code).lastStreamID ≤ lastStreamID ∧
      ∀ g, s.goAway = some g → (s.goAwayBound lastStreamID code).lastStreamID ≤ g.lastStreamID := by
  unfold goAwayBound
  cases s.goAway with
  | none => exact ⟨Nat.le_refl _, nofun⟩
  | some g =>
    dsimp only
    split
    · rename_i hlt
      exact ⟨Nat.le_refl _, fun g' hg => Option.some.inj hg ▸ Nat.le_of_lt hlt⟩
    · rename_i hge
      exact ⟨Nat.le_of_not_lt hge, fun g' hg => Option.some.inj hg ▸ Nat.le_refl _⟩

theorem handleGoAway_narrows (s : Shared) (lastStreamID code : Nat) :
    { s with goAway := some (s.goAwayBound lastStreamID code) }.Narrows
      (s.handleGoAway lastStreamID code) :=
  (finishAll_narrows ..).trans (.of_streams rfl rfl rfl)

theorem Restrained.handleGoAway (h : s.Restrained) (hd : s.streams.Nodup)
    (lastStreamID code : Nat) : (s.handleGoAway lastStreamID code).Restrained := by
  have hn := handleGoAway_narrows s lastStreamID code
  constructor
  · intro g hg id hid
    have hbound : s.goAwayBound lastStreamID code = g :=
      Option.some.inj (hn.goAway.symm.trans hg)
    have hkept : id ∈ s.streams ∧ id ∉ s.handleGoAwayCloses lastStreamID code :=
      (mem_finishAll (s := { s with goAway := some (s.goAwayBound lastStreamID code) }) hd _ _).1 hid
    rw [← hbound]
    exact Nat.le_of_not_gt fun hgt =>
      hkept.2 (List.mem_filter.2 ⟨hkept.1, decide_eq_true hgt⟩)
  · intro hc
    rw [hn.closeErr] at hc
    exact List.eq_nil_iff_forall_not_mem.2 fun id hid =>
      List.not_mem_nil (h.emptied hc ▸ hn.streams id hid)

theorem handleGoAway_told (s : Shared) (lastStreamID code : Nat) :
    (s.handleGoAway lastStreamID code).Told lastStreamID :=
  .inr ⟨_, (handleGoAway_narrows ..).goAway, (goAwayBound_le ..).1⟩

theorem Told.handleGoAway (h : s.Told last) (lastStreamID code : Nat) :
    (s.handleGoAway lastStreamID code).Told last := by
  have hn := handleGoAway_narrows s lastStreamID code
  rcases h with hc | ⟨g, hg, hle⟩
  · exact .inl (hn.closeErr ▸ hc)
  · exact .inr ⟨_, hn.goAway, ((goAwayBound_le ..).2 g hg).trans hle⟩

theorem perform_streams (s : Shared) (gunzip : GunzipLimited) (op : ReaderOp) :
    ∀ id ∈ (s.perform gunzip op).1.streams, id ∈ s.streams := by
  cases op with
  | goAway lastStreamID code => exact (handleGoAway_narrows s lastStreamID code).streams
  | shutdown e => exact shutdown_streams s e
  | _ => exact (perform_narrows s gunzip id).streams

theorem Restrained.perform (h : s.Restrained) (hd : s.streams.Nodup) (gunzip : GunzipLimited)
    (op : ReaderOp) : (s.perform gunzip op).1.Restrained := by
  cases op with
  | goAway lastStreamID code => exact h.handleGoAway hd lastStreamID code
  | shutdown e => exact h.shutdown hd e
  | _ => exact h.narrow (perform_narrows s gunzip id)

theorem Told.perform (h : s.Told last) (gunzip : GunzipLimited) (op : ReaderOp) :
    (s.perform gunzip op).1.Told last := by
  cases op with
  | goAway lastStreamID code => exact h.handleGoAway lastStreamID code
  | shutdown e => exact .inl (shutdown_closed s e)
  | _ => exact h.narrow (perform_narrows s gunzip id)

theorem Told.bound (h : s.Told last) (hr : s.Restrained) : ∀ id ∈ s.streams, id ≤ last := by
  intro id hid
  rcases h with hc | ⟨g, hg, hle⟩
  · rw [hr.emptied hc] at hid
    cases hid
  · exact (hr.bounded g hg id hid).trans hle

end

end Shared

def Session.closes (s : Session) : Act → List Nat
  | .call i _ =>
    match s.calls[i]? with
    | some c =>
      match c.point with
      | .fail _ | .afterReset _ _ => s.shared.cancelStreamCloses c.stream
      | _ => []
    | none => []
  | .writer _ =>
    match s.writer with
    | .failed _ _ => s.shared.shutdownCloses
    | _ => []
  | .reader _ =>
    match s.reader with
    | op :: _ => s.shared.closes op
    | [] => []
  | .close => s.shared.shutdownCloses
  | _ => []

/-- A session with the log of the streams whose channel was closed. -/
structure Audit where
  session : Session
  closed : List Nat := []

def audited (gunzip : GunzipLimited) : System Audit Act where
  Init t := (session gunzip).Init t.session ∧ t.closed = []
  step t a := (sessionStep gunzip t.session a).map fun s =>
    { session := s, closed := t.closed ++ t.session.closes a }

def Session.handled (s : Session) : List Incoming :=
  if s.reader.isEmpty then s.received else s.received.dropLast

structure Session.Heeding (s : Session) : Prop where
  handled : ∀ last code, Incoming.goAway last code ∈ s.handled → s.shared.Told last
  current : s.reader ≠ [] → ∃ before frame, s.received = before ++ [frame] ∧
    ∀ last code, frame = .goAway last code → s.reader = [.goAway last code]

structure Audit.Sound (t : Audit) : Prop where
  tabled : t.session.shared.Tabled t.closed
  restrained : t.session.shared.Restrained
  heeding : t.session.Heeding

section
variable {gunzip : GunzipLimited} {s s' : Session} {closed : List Nat}

theorem Session.Heeding.keep (h : s.Heeding) (hr : s'.reader = s.reader)
    (hreceived : s'.received = s.received)
    (htold : ∀ last, s.shared.Told last → s'.shared.Told last) : s'.Heeding := by
  have hhandled : s'.handled = s.handled := by
    rw [Session.handled, hr, hreceived, Session.handled]
  constructor
  · intro last code hm
    rw [hhandled] at hm
    exact htold last (h.handled last code hm)
  · rw [hr, hreceived]
    exact h.current

theorem Session.Heeding.receive (h : s.Heeding) (hr : s.reader = []) (frame : Incoming) :
    { s with reader := frame.ops, received := s.received ++ [frame] }.Heeding := by
  have hbefore : s.handled = s.received := if_pos (by rw [hr]; rfl)
  have hold := h.handled
  rw [hbefore] at hold
  constructor
  · intro last code hm
    unfold Session.handled at hm
    dsimp only at hm
    rw [List.dropLast_concat] at hm
    split at hm
    · rename_i hops
      rcases List.mem_append.1 hm with hm | hm
      · exact hold last code hm
      · rw [← List.mem_singleton.1 hm] at hops
        cases hops
    · exact hold last code hm
  · intro _
    refine ⟨s.received, frame, rfl, ?_⟩
    rintro last code rfl
    rfl

theorem Session.Heeding.read (h : s.Heeding) (hr : s.reader = op :: rest)
    (hstep : s.readerStep gunzip rest op choice = some s') : s'.Heeding := by
  have hshared := readerStep_perform hstep
  obtain ⟨hreceived, hgo⟩ := readerStep_goesOn hstep
  have hne : s.reader ≠ [] := by
    rw [hr]
    exact List.cons_ne_nil op rest
  obtain ⟨before, frame, hframe, hgoAway⟩ := h.current hne
  have hbefore : s.handled = before := by
    rw [Session.handled, hr, hframe, List.dropLast_concat]
    rfl
  have hold : ∀ last code, Incoming.goAway last code ∈ before → s'.shared.Told last := by
    intro last code hm
    rw [hshared]
    exact (h.handled last code (hbefore ▸ hm)).perform gunzip op
  have hlast : ∀ last code, frame = .goAway last code →
      s'.shared.Told last ∧ s'.reader = [] := by
    intro last code hf
    have hreader := hgoAway last code hf
    rw [hr] at hreader
    obtain ⟨rfl, rfl⟩ := List.cons.inj hreader
    rw [hshared]
    refine ⟨Shared.handleGoAway_told .., ?_⟩
    generalize s'.reader = reader at hgo
    cases hgo with
    | proceeds => rfl
    | acknowledges he => cases he
    | fails e hf => cases hf
    | ends he => cases he
  constructor
  · intro last code hm
    unfold Session.handled at hm
    rw [hreceived, hframe, List.dropLast_concat] at hm
    split at hm
    · rcases List.mem_append.1 hm with hm | hm
      · exact hold last code hm
      · exact (hlast last code (List.mem_singleton.1 hm).symm).1
    · exact hold last code hm
  · intro hne'
    refine ⟨before, frame, hreceived.trans hframe, ?_⟩
    intro last code hf
    exact absurd (hlast last code hf).2 hne'

theorem Session.Heeding.step (h : s.Heeding) (hm : s.Moves gunzip a s') : s'.Heeding := by
  cases hm with
  | start block body | cancel i cause hi hctx => exact h.keep rfl rfl fun _ ht => ht
  | call i choice hi hm =>
    refine h.keep hm.beside.reader hm.beside.received fun last ht => ?_
    cases hm with
    | turn ht' => exact ht
    | sent hp hx hroom => exact ht
    | acquired hp hc hg hn hroom =>
      rcases ht with hclosed | ⟨g, hgo, -⟩
      · rw [hc] at hclosed
        cases hclosed
      · cases hg.symm.trans hgo
    | reserved n hp hctx ho hf hpos hbody hframe hconn hstream => exact ht
    | failed hp | wasReset hp => exact ht.narrow (Shared.cancelStream_finishes ..).narrows
  | writer choice hw =>
    cases hw with
    | shut e hw => exact h.keep rfl rfl fun _ _ => .inl (Shared.shutdown_closed ..)
    | _ => exact h.keep rfl rfl fun _ ht => ht
  | receive frame hr => exact h.receive hr frame
  | reader choice hr hread => exact h.read hr hread
  | close => exact h.keep rfl rfl fun _ _ => .inl (Shared.shutdown_closed ..)

theorem Call.Turn.keeps {c c' : Call} (h : c.Turn s choice c') :
    (∀ e, c.point ≠ .fail e) ∧ ∀ cause err, c.point ≠ .afterReset cause err := by
  have hpoint : ∀ {p : Point}, c.point = p → (∀ e, p ≠ .fail e) →
      (∀ cause err, p ≠ .afterReset cause err) →
      (∀ e, c.point ≠ .fail e) ∧ ∀ cause err, c.point ≠ .afterReset cause err := by
    intro p hp hf hr
    rw [hp]
    exact ⟨hf, hr⟩
  cases h with
  | written hp hx hw | reserveStopped hp hs e | responded hp ho hf =>
    rcases hp with hp | hp <;> exact hpoint hp nofun nofun
  | writeDone hp hd e => rcases hp with hp | hp | hp <;> exact hpoint hp nofun nofun
  | resetting hp hc => rcases hp with hp | ⟨r, hp⟩ <;> exact hpoint hp nofun nofun
  | refused hp | admissionWait hp | admissionRetry hp | admissionLeft hp | checked hp
  | checkEnded hp | enqueueEnded hp | awaitEnded hp | awaitStarted hp | reserveWait hp
  | flowRetry hp | reserveFails hp | responseDone hp =>
    exact hpoint hp nofun nofun

theorem Session.closes_nothing {c : Call} (hi : s.calls[i]? = some c) (choice : Choice)
    (hf : ∀ e, c.point ≠ .fail e) (hr : ∀ cause err, c.point ≠ .afterReset cause err) :
    s.closes (.call i choice) = [] := by
  rw [Session.closes, hi]
  dsimp only
  split
  · rename_i e hp
    exact absurd hp (hf e)
  · rename_i cause err hp
    exact absurd hp (hr cause err)
  · rfl

theorem Session.closes_giving {c : Call} (hi : s.calls[i]? = some c) (choice : Choice)
    (hp : (∃ e, c.point = .fail e) ∨ ∃ cause err, c.point = .afterReset cause err) :
    s.closes (.call i choice) = s.shared.cancelStreamCloses c.stream := by
  rw [Session.closes, hi]
  dsimp only
  rcases hp with ⟨e, hp⟩ | ⟨cause, err, hp⟩
  · rw [hp]
  · rw [hp]

theorem Call.Move.tabled {u : Session} {c c' : Call} (h : c.Move s i choice u c')
    (hi : s.calls[i]? = some c) (ht : s.shared.Tabled closed) :
    u.shared.Tabled (closed ++ s.closes (.call i choice)) := by
  have hnone : ∀ {p : Point}, c.point = p → (∀ e, p ≠ .fail e) →
      (∀ cause err, p ≠ .afterReset cause err) → u.shared.Tabled closed →
      u.shared.Tabled (closed ++ s.closes (.call i choice)) := by
    intro p hp hf hr hu
    rw [s.closes_nothing hi choice (hp ▸ hf) (hp ▸ hr), List.append_nil]
    exact hu
  cases h with
  | turn h => exact hnone rfl h.keeps.1 h.keeps.2 ht
  | acquired hp hc hg hn hroom => exact hnone hp nofun nofun (ht.openStream hn)
  | sent hp hx hroom => exact hnone hp nofun nofun ht
  | reserved n hp hctx ho hf hpos hbody hframe hconn hstream =>
    exact hnone hp nofun nofun (ht.same (Shared.debit_sameTable ..))
  | failed hp =>
    rw [s.closes_giving hi choice (.inl ⟨_, hp⟩)]
    exact ht.cancelStream _
  | wasReset hp =>
    rw [s.closes_giving hi choice (.inr ⟨_, _, hp⟩)]
    exact ht.cancelStream _

/-- Every step keeps the table sound, with the channels that it closes added to the log. -/
theorem Session.Moves.tabled (hm : s.Moves gunzip a s') (h : s.shared.Tabled closed) :
    s'.shared.Tabled (closed ++ s.closes a) := by
  have hsame : s.shared.SameTable s'.shared → s.closes a = [] →
      s'.shared.Tabled (closed ++ s.closes a) := by
    intro hs hnone
    rw [hnone, List.append_nil]
    exact h.same hs
  cases hm with
  | start block body | cancel i cause hi hctx | receive frame hr => exact hsame (.refl _) rfl
  | call i choice hi hm => exact hm.tabled hi h
  | writer choice hw =>
    cases hw with
    | shut e hw =>
      rw [Session.closes, hw]
      exact h.shutdown e
    | receive hw hq | stop hw hc | start hw | skip hw hc | run hw hc | wrote hw
    | broke after err hw ha =>
      exact hsame (.refl _) (by rw [Session.closes, hw])
  | reader choice hr hread =>
    rw [readerStep_perform hread, Session.closes, hr]
    exact h.perform gunzip _
  | close => exact h.shutdown _

theorem Session.Moves.restrained (hm : s.Moves gunzip a s') (h : s.shared.Restrained)
    (hd : s.shared.streams.Nodup) : s'.shared.Restrained := by
  cases hm with
  | start block body => exact h
  | cancel i cause hi hctx => exact h
  | call i choice hi hm =>
    cases hm with
    | turn ht => exact h
    | sent hp hx hroom => exact h
    | acquired hp hc hg hn hroom =>
      constructor
      · intro g hgo
        cases hg.symm.trans hgo
      · intro hclosed
        have hnone : s.shared.openStream.closeErr = none := hc
        rw [hnone] at hclosed
        cases hclosed
    | reserved n hp hctx ho hf hpos hbody hframe hconn hstream =>
      exact h.narrow (.of_streams rfl rfl rfl)
    | failed hp | wasReset hp => exact h.narrow (Shared.cancelStream_finishes ..).narrows
  | writer choice hw =>
    cases hw with
    | shut e hw => exact h.shutdown hd e
    | _ => exact h
  | receive frame hr => exact h
  | reader choice hr hread =>
    rw [readerStep_perform hread]
    exact h.perform hd gunzip _
  | close => exact h.shutdown hd _

/-- A stream enters the table only while there is room for it and nothing forbids it. -/
theorem Session.Moves.enters (hm : s.Moves gunzip a s') {id : Nat}
    (hnew : id ∈ s'.shared.streams) (hold : id ∉ s.shared.streams) :
    s.shared.streams.length < s.shared.maxConcurrent ∧ s.shared.closeErr = none ∧
      s.shared.goAway = none := by
  have hnarrow : s.shared.Narrows s'.shared → False := fun hn => hold (hn.streams id hnew)
  cases hm with
  | start block body | cancel i cause hi hctx | receive frame hr => exact absurd hnew hold
  | call i choice hi hm =>
    cases hm with
    | turn ht | sent hp hx hroom | reserved n hp hctx ho hf hpos hbody hframe hconn hstream =>
      exact absurd hnew hold
    | acquired hp hc hg hn hroom => exact ⟨hroom, hc, hg⟩
    | failed hp | wasReset hp => exact (hnarrow (Shared.cancelStream_finishes ..).narrows).elim
  | writer choice hw =>
    cases hw with
    | shut e hw => exact absurd (Shared.shutdown_streams _ e id hnew) hold
    | _ => exact absurd hnew hold
  | reader choice hr hread =>
    rw [readerStep_perform hread] at hnew
    exact absurd (Shared.perform_streams _ gunzip _ id hnew) hold
  | close => exact absurd (Shared.shutdown_streams _ _ id hnew) hold

theorem Audit.Sound.step {t t' : Audit} (h : t.Sound)
    (hstep : (audited gunzip).step t a = some t') : t'.Sound := by
  obtain ⟨s', hs', rfl⟩ := Option.map_eq_some_iff.1 hstep
  have hm := sessionStep_moves hs'
  exact ⟨hm.tabled h.tabled, hm.restrained h.restrained h.tabled.distinct, h.heeding.step hm⟩

theorem audit_init (h : newSession settings = some s) : (Audit.mk s []).Sound := by
  obtain ⟨shared, rfl, -, list, hlist⟩ := newSession_kept h
  have hsame := Shared.applySettings_sameTable {} list
  have hnarrow := Shared.applySettings_narrows {} list
  rw [hlist] at hsame hnarrow
  have htabled : ({} : Shared).Tabled [] :=
    ⟨rfl, .nil, nofun, .nil, nofun, nofun, nofun⟩
  have hrestrained : ({} : Shared).Restrained := ⟨nofun, nofun⟩
  refine ⟨htabled.same hsame, hrestrained.narrow hnarrow, ?_, ?_⟩
  · exact fun last code hm => (List.not_mem_nil hm).elim
  · exact fun hne => absurd rfl hne

theorem audit_invariant (gunzip : GunzipLimited) :
    (audited gunzip).Invariant System.Any Audit.Sound := by
  constructor
  · rintro ⟨s, closed⟩ ⟨⟨settings, hs⟩, rfl⟩
    exact audit_init hs
  · exact fun t a t' h _ hstep => h.step hstep

theorem Shared.Tabled.unsettled {s : Shared} {id : Nat} (h : s.Tabled closed)
    (hid : id ∈ s.streams) : s.settled id = false := by
  unfold Shared.settled
  cases ho : s.object id with
  | none => rfl
  | some st =>
    rcases h.accounted st (List.mem_of_find?_eq_some ho) with ⟨hf, -, -⟩ | ⟨-, hout, -⟩
    · exact hf
    · rw [Shared.object_id ho] at hout
      exact absurd hid hout

end

namespace Sample

def leaving : List Act :=
  [.start [104] [], .start [104] [], .call 0 .go, .call 1 .go, .receive (.goAway 1 0), .reader .go]

end Sample

end Repost.H2
