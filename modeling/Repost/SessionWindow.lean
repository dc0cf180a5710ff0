import Repost.SessionSteps

namespace Repost.H2
open GoText Runs
set_option autoImplicit true

def Frame.bytes : Frame → Nat
  | .data _ _ chunk => chunk.length
  | _ => 0

def Job.bytes : Job → Nat
  | .data _ _ chunk _ => chunk.length
  | _ => 0

/-- The call that the write loop has taken from the channel and not finished. -/
def Writer.taken : Writer → List Job
  | .received _ job | .started _ job | .running _ job | .failed job _ => [job]
  | .idle | .stopped => []

/-- The bytes that a request has reserved for a write and not yet put on the channel. -/
def Call.reserved (c : Call) : Nat :=
  match c.point with
  | .check (.data n) | .enqueue (.data n) => n
  | _ => 0

namespace Session

/-- The calls on the channel and in the hands of the write loop. -/
def pending (s : Session) : List Job := s.writer.taken ++ s.writeCh.map Prod.snd

/-- The bytes reserved by writes that are still queued or in progress. -/
def reserved (s : Session) : Int :=
  (s.calls.map fun c => (c.reserved : Int)).sum + (s.pending.map fun job => (job.bytes : Int)).sum

def written (s : Session) : Int := (s.wire.map fun frame => (frame.bytes : Int)).sum

def credited (s : Session) : Int := (s.shared.credits.map fun n : Nat => (n : Int)).sum

/-- The window and the reserved bytes are what the peer granted and was not sent. -/
def Conserved (s : Session) : Prop :=
  s.shared.connectionWindow + s.reserved = defaultWindowSize + s.credited - s.written

def surplus (s : Session) : Int :=
  s.shared.connectionWindow + s.reserved + s.written - s.credited

end Session

/-- The reserved bytes that a request gives up in a step: its context has ended before the write, or
while it waits for room on the channel. -/
def Call.dropped (c : Call) (choice : Choice) : Nat :=
  match c.point, choice with
  | .check (.data n), _ => if c.ctx.isSome then n else 0
  | .enqueue (.data n), .context => n
  | _, _ => 0

/-- The reserved bytes that a step gives up: the write loop drops a call whose context has ended. -/
def Session.dropped (s : Session) : Act → Nat
  | .call i choice =>
    match s.calls[i]? with
    | some c => c.dropped choice
    | none => 0
  | .writer _ =>
    match s.writer with
    | .started w job => if (s.writeContext w).isSome then job.bytes else 0
    | _ => 0
  | _ => 0

def Call.Fits (c : Call) : Prop := c.reserved ≤ c.body.length - c.offset

theorem Call.wrote_reserved (c : Call) (p : Purpose) (r : Option SessionError) :
    (c.wrote p r).reserved = 0 := by
  rcases c.wrote_cases p r with ⟨-, k, h | h⟩ | ⟨e, -, h⟩ | ⟨cause, -, h⟩ <;> rw [h] <;> rfl

theorem Call.dropped_of_context {c : Call} (hp : c.point = .check p) (hc : c.contextFor p = some e)
    (choice : Choice) : c.dropped choice = c.reserved := by
  cases p with
  | headers | reset cause => simp only [Call.dropped, Call.reserved, hp]
  | data n =>
    have hctx : c.ctx = some e := hc
    simp only [Call.dropped, Call.reserved, hp, hctx, Option.isSome_some, if_true]

theorem Call.Turn.reserved {s : Session} {c c' : Call} (h : c.Turn s choice c')
    (hlive : s.shared.closeErr = none) : c'.reserved + c.dropped choice = c.reserved := by
  cases h with
  | checked hp hc =>
    cases ‹Purpose› with
    | headers | reset cause => simp only [Call.dropped, Call.reserved, hp]
    | data n =>
      have hctx : c.ctx = none := hc
      simp only [Call.dropped, Call.reserved, hp, hctx]
      rfl
  | checkEnded hp hc => rw [Call.wrote_reserved, Call.dropped_of_context hp hc, Nat.zero_add]
  | enqueueEnded hp hx hc =>
    rw [Call.wrote_reserved, Nat.zero_add, hx]
    cases ‹Purpose› <;> simp only [Call.dropped, Call.reserved, hp]
  | written hp hx hw =>
    rw [Call.wrote_reserved]
    rcases hp with hp | hp <;> simp only [Call.dropped, Call.reserved, hp]
  | awaitEnded hp hx hc hs =>
    rw [Call.wrote_reserved]
    simp only [Call.dropped, Call.reserved, hp]
  | writeDone hp hd e =>
    rw [hlive] at hd
    cases hd
  | reserveStopped hp hs e => rcases hp with hp | hp <;> simp only [Call.dropped, Call.reserved, hp]
  | responded hp ho hf =>
    rcases hp with hp | hp <;> simp only [Call.dropped, Call.reserved, Call.leave, hp]
  | resetting hp hc =>
    rcases hp with hp | ⟨r, hp⟩ <;> simp only [Call.dropped, Call.reserved, hp]
  | _ => simp only [Call.dropped, Call.reserved, Call.leave, *]

theorem Call.fits_of_reserved {c : Call} (h : c.reserved = 0) : c.Fits := by
  rw [Call.Fits, h]
  exact Nat.zero_le _

theorem Call.Turn.fits {s : Session} {c c' : Call} (h : c.Turn s choice c') (hc : c.Fits) :
    c'.Fits := by
  cases h with
  | checked hp hn =>
    have he : Call.reserved { c with point := .enqueue ‹Purpose› } = c.reserved := by
      cases ‹Purpose› <;> simp only [Call.reserved, hp]
    rw [Call.Fits, he]
    exact hc
  | checkEnded hp he | enqueueEnded hp hx he | written hp hx hw | awaitEnded hp hx he hs
  | writeDone hp hd e =>
    exact Call.fits_of_reserved (Call.wrote_reserved ..)
  | _ => exact Call.fits_of_reserved rfl

theorem Call.job_bytes {c : Call} (hp : c.point = .enqueue p) (hc : c.Fits) :
    (c.job p).bytes = c.reserved := by
  cases p with
  | headers | reset cause => simp only [Call.job, Job.bytes, Call.reserved, hp]
  | data n =>
    have hr : c.reserved = n := by simp only [Call.reserved, hp]
    rw [Call.Fits, hr] at hc
    rw [hr, Call.job, Job.bytes, List.length_take, List.length_drop]
    omega

theorem continuations_bytes (id n fuel : Nat) (block : Bytes) :
    ∀ frame ∈ continuations id n fuel block, frame.bytes = 0 := by
  induction fuel generalizing block with
  | zero => exact fun _ h => (nomatch h)
  | succ fuel ih =>
    cases block with
    | nil => exact fun _ h => (nomatch h)
    | cons b block =>
      intro frame h
      rcases List.mem_cons.1 h with rfl | h
      · rfl
      · exact ih _ frame h

theorem Job.frames_bytes (job : Job) (size : Nat) :
    (∀ frame ∈ job.frames size, frame.bytes = 0) ∧ job.bytes = 0 ∨
      ∃ frame, job.frames size = [frame] ∧ frame.bytes = job.bytes := by
  cases job with
  | headers id block ended =>
    refine .inl ⟨?_, rfl⟩
    intro frame h
    rcases List.mem_cons.1 h with rfl | h
    · rfl
    · exact continuations_bytes _ _ _ _ frame h
  | data id ended chunk first => exact .inr ⟨_, rfl, rfl⟩
  | reply r =>
    refine .inl ⟨?_, rfl⟩
    intro frame h
    cases r <;> simp only [Job.frames, Reply.frames, List.mem_cons, List.not_mem_nil, or_false] at h
    · rw [h]; rfl
    · rcases h with rfl | rfl <;> rfl
    · rw [h]; rfl
    · rw [h]; rfl

theorem sum_bytes_zero {frames : List Frame} (h : ∀ frame ∈ frames, frame.bytes = 0) :
    (frames.map fun frame => (frame.bytes : Int)).sum = 0 := by
  apply List.sum_eq_zero
  intro n hn
  obtain ⟨frame, hf, rfl⟩ := List.mem_map.1 hn
  rw [h frame hf]
  rfl

theorem Job.sum_frames (job : Job) (size : Nat) :
    ((job.frames size).map fun frame => (frame.bytes : Int)).sum = job.bytes := by
  rcases job.frames_bytes size with ⟨hall, h⟩ | ⟨frame, hf, h⟩
  · rw [sum_bytes_zero hall, h]
    rfl
  · rw [hf, ← h]
    exact Int.add_zero _

theorem Job.sum_frames_take {job : Job} (h : k < (job.frames size).length) :
    (((job.frames size).take k).map fun frame => (frame.bytes : Int)).sum = 0 := by
  rcases job.frames_bytes size with ⟨hall, -⟩ | ⟨frame, hf, -⟩
  · exact sum_bytes_zero fun frame hm => hall frame (List.mem_of_mem_take hm)
  · rw [hf] at h ⊢
    have hk : k = 0 := Nat.lt_one_iff.1 h
    rw [hk]
    rfl

theorem Session.reserved_set {s : Session} (hi : s.calls[i]? = some c) (c' : Call) :
    Session.reserved { s with calls := s.calls.set i c' } = s.reserved + (c'.reserved - c.reserved) := by
  have hsum := sum_map_set (f := fun c : Call => (c.reserved : Int)) (y := c') hi
  simp only [Session.reserved, Session.pending] at hsum ⊢
  omega

theorem Session.reserved_send (s : Session) (owner : Option Nat) (job : Job) :
    (s.send owner job).reserved = s.reserved + job.bytes := by
  simp only [Session.reserved, Session.pending, Session.send, List.map_append, List.sum_append,
    List.map_cons, List.map_nil, List.sum_cons, List.sum_nil]
  omega

theorem Session.Writes.surplus {s s' : Session} (h : s.Writes s') (choice : WriterChoice)
    (hlive : s'.shared.closeErr = none) :
    s'.surplus + s.dropped (.writer choice) = s.surplus := by
  cases h with
  | receive hw hq =>
    simp only [Session.surplus, Session.reserved, Session.pending, Session.written,
      Session.credited, Session.dropped, hw, hq, Writer.taken, List.map_append, List.map_cons,
      List.map_nil, List.sum_append, List.sum_cons, List.sum_nil]
    omega
  | stop hw hc =>
    rw [hlive] at hc
    cases hc
  | start hw =>
    simp only [Session.surplus, Session.reserved, Session.pending, Session.written,
      Session.credited, Session.dropped, Session.updateWrite, hw, Writer.taken]
    omega
  | skip hw hc =>
    simp only [Session.surplus, Session.reserved, Session.pending, Session.written,
      Session.credited, Session.dropped, Session.updateWrite, hw, hc, Writer.taken,
      List.map_append, List.map_cons, List.map_nil, List.sum_append, List.sum_cons, List.sum_nil,
      Option.isSome_some, if_true]
    omega
  | run hw hc =>
    simp only [Session.surplus, Session.reserved, Session.pending, Session.written,
      Session.credited, Session.dropped, hw, hc, Writer.taken, Option.isSome_none,
      Bool.false_eq_true, if_false]
    omega
  | wrote hw =>
    simp only [Session.surplus, Session.reserved, Session.pending, Session.written,
      Session.credited, Session.dropped, Session.updateWrite, hw, Writer.taken,
      List.map_append, List.map_cons, List.map_nil, List.sum_append, List.sum_cons, List.sum_nil,
      Job.sum_frames]
    omega
  | broke after err hw ha =>
    simp only [Session.surplus, Session.reserved, Session.pending, Session.written,
      Session.credited, Session.dropped, Session.updateWrite, hw, Writer.taken,
      List.map_append, List.map_cons, List.map_nil, List.sum_append, List.sum_cons, List.sum_nil,
      Job.sum_frames_take ha]
    omega
  | shut e hw =>
    exact (Shared.shutdown_ne_none _ _ hlive).elim

theorem Session.Quiet.surplus {s s' : Session} (h : s.Quiet s') : s'.surplus = s.surplus := by
  have hreserved : s'.reserved = s.reserved := by
    simp only [Session.reserved, Session.pending, h.calls, h.writer]
    rcases h.sends with ⟨hq, -⟩ | ⟨r, hq, -⟩ <;> rw [hq]
    simp [Job.bytes]
  have hwritten : s'.written = s.written := by rw [Session.written, h.wire, Session.written]
  simp only [Session.surplus, Session.credited, hreserved, hwritten]
  rcases h.window with ⟨hw, hc⟩ | ⟨n, hw, hc, -⟩
  · rw [hw, hc]
  · rw [hw, hc, sum_map_append_one]
    omega

theorem Shared.Kept.surplus {s : Session} {shared : Shared} (h : s.shared.Kept shared) :
    Session.surplus { s with shared := shared } = s.surplus :=
  (h.quiet s.reader s.reading).surplus

theorem Session.surplus_set {s : Session} (hi : s.calls[i]? = some c) (c' : Call) :
    Session.surplus { s with calls := s.calls.set i c' } = s.surplus + (c'.reserved - c.reserved) := by
  have hr := Session.reserved_set hi c'
  simp only [Session.surplus, Session.written, Session.credited] at hr ⊢
  omega

theorem Session.surplus_idle {u : Session} {c c' : Call} (hu : u.surplus = t)
    (hi : u.calls[i]? = some c) (hp : c.reserved = 0 ∧ c.dropped choice = 0) (hr : c'.reserved = 0) :
    Session.surplus { u with calls := u.calls.set i c' } + c.dropped choice = t := by
  rw [Session.surplus_set hi, hp.1, hp.2, hr, hu]
  omega

theorem Call.Move.surplus {s u : Session} {c c' : Call} (h : c.Move s i choice u c')
    (hi : s.calls[i]? = some c) (hc : c.Fits) (hlive : u.shared.closeErr = none) :
    Session.surplus { u with calls := u.calls.set i c' } + c.dropped choice = s.surplus := by
  cases h with
  | turn ht =>
    have hr := ht.reserved hlive
    rw [Session.surplus_set hi]
    omega
  | acquired hp hcl hg hn hroom =>
    have hsame : Session.surplus { s with shared := s.shared.openStream } = s.surplus := rfl
    refine Session.surplus_idle hsame hi ?_ rfl
    simp only [Call.reserved, Call.dropped, hp, and_self]
  | sent hp hx hroom =>
    rename_i p
    have hset := Session.surplus_set (s := s.send (p.owner i) (c.job p)) hi
      { c with point := .await p s.writes.length }
    have hsend := s.reserved_send (p.owner i) (c.job p)
    rw [Call.job_bytes hp hc] at hsend
    have hdropped : c.dropped choice = 0 := by
      rw [hx]
      cases p <;> simp only [Call.dropped, hp]
    have hawait : Call.reserved { c with point := .await p s.writes.length } = 0 := rfl
    have hsurplus : (s.send (p.owner i) (c.job p)).surplus = s.surplus + c.reserved := by
      simp only [Session.surplus, hsend]
      simp only [Session.send, Session.written, Session.credited]
      omega
    rw [hset, hsurplus, hdropped, hawait]
    omega
  | reserved n hp hctx ho hf hpos hbody hframe hconn hstream =>
    have hset := Session.surplus_set (s := { s with shared := s.shared.debit c.stream n }) hi
      { c with point := .check (.data n) }
    have hdebit : Session.surplus { s with shared := s.shared.debit c.stream n } = s.surplus - n := by
      simp only [Session.surplus, Session.reserved, Session.written, Session.credited,
        Session.pending, Shared.debit, Shared.updateStream]
      omega
    rw [hset, hdebit]
    simp only [Call.dropped, Call.reserved, hp]
    omega
  | failed hp | wasReset hp =>
    refine Session.surplus_idle (s.shared.cancelStream_kept ..).surplus hi ?_ rfl
    simp only [Call.reserved, Call.dropped, hp, and_self]

structure Session.Sound (s : Session) : Prop where
  fits : ∀ c ∈ s.calls, c.Fits
  nonneg : 0 ≤ s.shared.connectionWindow
  bounded : s.shared.connectionWindow ≤ maxWindowSize

theorem Session.Quiet.sound {s s' : Session} (h : s.Quiet s') (hs : s.Sound) : s'.Sound := by
  have hfits : ∀ c ∈ s'.calls, c.Fits := by
    rw [h.calls]
    exact hs.fits
  have hn := hs.nonneg
  have hb := hs.bounded
  rcases h.window with ⟨hw, -⟩ | ⟨n, hw, -, hle⟩
  · exact ⟨hfits, by omega, by omega⟩
  · exact ⟨hfits, by omega, by omega⟩

theorem Call.Move.sound {s u : Session} {c c' : Call} (h : c.Move s i choice u c') (hs : s.Sound)
    (hi : s.calls[i]? = some c) : Session.Sound { u with calls := u.calls.set i c' } := by
  have hn := hs.nonneg
  have hb := hs.bounded
  have hc := hs.fits c (List.mem_of_getElem? hi)
  cases h with
  | turn ht => exact ⟨forall_mem_set hs.fits (ht.fits hc), hn, hb⟩
  | acquired hp hcl hg hroom =>
    exact ⟨forall_mem_set hs.fits (Call.fits_of_reserved rfl), hn, hb⟩
  | sent hp hx hroom => exact ⟨forall_mem_set hs.fits (Call.fits_of_reserved rfl), hn, hb⟩
  | reserved n hp hctx ho hf hpos hbody hframe hconn hstream =>
    have hfits : Call.Fits { c with point := .check (.data n) } := by
      show n ≤ c.body.length - c.offset
      omega
    have hw : (s.shared.debit c.stream n).connectionWindow = s.shared.connectionWindow - n := rfl
    exact ⟨forall_mem_set hs.fits hfits, by rw [hw]; omega, by rw [hw]; omega⟩
  | failed hp =>
    have hk := (s.shared.cancelStream_kept c.stream ‹SessionError›).window
    exact ⟨forall_mem_set hs.fits (Call.fits_of_reserved rfl), by rw [hk]; exact hn,
      by rw [hk]; exact hb⟩
  | wasReset hp =>
    have hk := (s.shared.cancelStream_kept c.stream (.context ‹ContextError›)).window
    exact ⟨forall_mem_set hs.fits (Call.fits_of_reserved rfl), by rw [hk]; exact hn,
      by rw [hk]; exact hb⟩

theorem sound_step {s s' : Session} (hs : s.Sound) (h : s.Moves gunzip a s') : s'.Sound := by
  cases h with
  | start block body =>
    exact ⟨forall_mem_append_one hs.fits (Call.fits_of_reserved rfl), hs.nonneg, hs.bounded⟩
  | cancel i cause hi hc =>
    have hc := hs.fits _ (List.mem_of_getElem? hi)
    exact ⟨forall_mem_set hs.fits hc, hs.nonneg, hs.bounded⟩
  | call i choice hi hm => exact hm.sound hs hi
  | writer choice hw =>
    obtain ⟨hcalls, hk⟩ := hw.frame
    refine ⟨?_, ?_, ?_⟩
    · rw [hcalls]
      exact hs.fits
    · rw [hk.window]
      exact hs.nonneg
    · rw [hk.window]
      exact hs.bounded
  | receive frame hr => exact (s.receive_quiet frame).sound hs
  | reader choice hr hread => exact (readerStep_quiet hread).sound hs
  | close => exact s.close_quiet.sound hs

/-- Every step of a live session keeps the surplus, except for the bytes that it gives up. -/
theorem surplus_step {s s' : Session} (hs : s.Sound) (h : s.Moves gunzip a s')
    (hlive : s'.shared.closeErr = none) : s'.surplus + s.dropped a = s.surplus := by
  cases h with
  | start block body =>
    simp only [Session.surplus, Session.reserved, Session.pending, Session.written,
      Session.credited, Session.dropped, sum_map_append_one, Call.reserved]
    omega
  | cancel i cause hi hc =>
    rename_i c
    have hsame : Call.reserved { c with ctx := some cause } = c.reserved := rfl
    rw [Session.surplus_set hi, hsame]
    simp only [Session.dropped]
    omega
  | call i choice hi hm =>
    have hmove := hm.surplus hi (hs.fits _ (List.mem_of_getElem? hi)) hlive
    simp only [Session.dropped, hi]
    exact hmove
  | writer choice hw => exact hw.surplus choice hlive
  | receive frame hr =>
    rw [(s.receive_quiet frame).surplus]
    exact Int.add_zero _
  | reader choice hr hread =>
    rw [(readerStep_quiet hread).surplus]
    exact Int.add_zero _
  | close =>
    rw [s.close_quiet.surplus]
    exact Int.add_zero _

theorem sound_init (h : newSession settings = some s) :
    s.Sound ∧ s.surplus = defaultWindowSize := by
  obtain ⟨shared, rfl, hk, -⟩ := newSession_kept h
  have hw : shared.connectionWindow = defaultWindowSize := hk.window
  refine ⟨⟨fun _ hc => (nomatch hc), by rw [hw]; decide, by rw [hw]; decide⟩, ?_⟩
  have hs := Shared.Kept.surplus (s := {}) hk
  rw [hs]
  decide

theorem sound_invariant (gunzip : GunzipLimited) :
    (session gunzip).Invariant System.Any Session.Sound where
  init := fun _ ⟨_, h⟩ => (sound_init h).1
  step := fun _ _ _ hs _ hstep => sound_step hs (sessionStep_moves hstep)

theorem surplus_run (gunzip : GunzipLimited) (h₀ : newSession settings = some s₀)
    (h : (session gunzip).exec System.Any s₀ as = some s) (hlive : s.shared.closeErr = none) :
    s.surplus + (session gunzip).spent Session.dropped s₀ as = defaultWindowSize := by
  obtain ⟨hsound, hsurplus⟩ := sound_init h₀
  have hspent := System.exec_spent Session.Sound (fun s => s.shared.closeErr = none)
    Session.surplus Session.dropped
    (fun _ _ _ hs hstep => sound_step hs (sessionStep_moves hstep))
    (fun _ _ _ hstep hl => (sessionStep_moves hstep).live hl)
    (fun _ _ _ hs hstep hl => surplus_step hs (sessionStep_moves hstep) hl)
    hsound h hlive
  rw [hspent.2, hsurplus]

abbrev Keeps (s : Session) (a : Act) : Prop := s.dropped a = 0

/-- In every run the connection's window stays within its bounds, and a session that is not shut
down accounts for all of it exactly if no step of the run gave up bytes that were reserved. -/
theorem window_conserved_iff (gunzip : GunzipLimited) (h₀ : newSession settings = some s₀)
    (h : (session gunzip).exec System.Any s₀ as = some s) :
    0 ≤ s.shared.connectionWindow ∧ s.shared.connectionWindow ≤ maxWindowSize ∧
      (s.shared.closeErr = none →
        (s.Conserved ↔ (session gunzip).exec Keeps s₀ as = some s)) := by
  have hs := (sound_invariant gunzip).reachable (System.exec_reachable ⟨_, h₀⟩ h)
  refine ⟨hs.nonneg, hs.bounded, ?_⟩
  intro hlive
  have hrun := surplus_run gunzip h₀ h hlive
  rw [System.exec_free_iff h]
  rw [Session.surplus] at hrun
  rw [Session.Conserved]
  omega

namespace Sample

def reserving : List Act :=
  [.start [104] [1, 2, 3], .call 0 .go, .call 0 .go, .call 0 .go, .writer .go, .writer .go,
    .writer .go, .writer .go, .call 0 .go, .call 0 .go]

def abandoning : List Act := reserving ++ [.cancel 0 .canceled, .call 0 .go, .call 0 .go]

def sending : List Act :=
  reserving ++ [.call 0 .go, .call 0 .go, .writer .go, .writer .go, .writer .go, .writer .go]

end Sample

/-- Nothing is queued or in progress any more, and three bytes of the window are gone. -/
theorem abandoning_loses_window : ∃ s : Session,
    (session Sample.noGunzip).exec System.Any {} Sample.abandoning = some s ∧
      s.shared.closeErr = none ∧ s.reserved = 0 ∧ s.written = 0 ∧
      s.shared.connectionWindow = defaultWindowSize - 3 ∧ ¬ s.Conserved := by
  refine ⟨_, rfl, rfl, by decide, by decide, by decide, ?_⟩
  rw [Session.Conserved]
  decide

theorem sending_conserves_window : ∃ s : Session,
    s.written = 3 ∧ s.shared.connectionWindow = defaultWindowSize - 3 ∧ s.Conserved := by
  obtain ⟨s, hs, hlive, hw, hc⟩ : ∃ s ∈ (session Sample.noGunzip).exec Keeps {} Sample.sending,
      s.shared.closeErr = none ∧ s.written = 3 ∧
        s.shared.connectionWindow = defaultWindowSize - 3 := ⟨_, rfl, rfl, by decide, by decide⟩
  have hany : (session Sample.noGunzip).exec System.Any {} Sample.sending = some s := by
    rw [← hs]
    rfl
  have h := window_conserved_iff Sample.noGunzip (show newSession [] = some {} from rfl) hany
  exact ⟨s, hw, hc, (h.2.2 hlive).2 hs⟩

end Repost.H2
