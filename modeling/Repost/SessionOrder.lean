import Repost.SessionSteps

namespace Repost.H2
open GoText Runs
set_option autoImplicit true

def Frame.opens : Frame → List Nat
  | .headers id _ _ _ => [id]
  | _ => []

def Job.opens : Job → List Nat
  | .headers id _ _ => [id]
  | _ => []

/-- The identifiers of the streams opened on the wire, in order. -/
def Session.opened (s : Session) : List Nat := s.wire.flatMap Frame.opens

def Writer.jobs : Writer → List Job
  | .received _ job | .started _ job | .running _ job => [job]
  | _ => []

def Session.opening (s : Session) : List Nat :=
  s.opened ++ (s.writer.jobs ++ s.writeCh.map Prod.snd).flatMap Job.opens

/-- The stream that a request has acquired without having put its headers on the channel. -/
def Call.unopened (c : Call) : List Nat :=
  match c.point with
  | .check .headers | .enqueue .headers => [c.stream]
  | _ => []

theorem continuations_opens (id n fuel : Nat) (block : Bytes) :
    (continuations id n fuel block).flatMap Frame.opens = [] := by
  induction fuel generalizing block with
  | zero => rfl
  | succ fuel ih =>
    cases block with
    | nil => rfl
    | cons b block => exact ih _

theorem Job.frames_opens (job : Job) (n : Nat) :
    (job.frames n).flatMap Frame.opens = job.opens := by
  cases job with
  | headers id block ended =>
    simp only [Job.frames, writeHeaderBlock, List.flatMap_cons, continuations_opens]
    rfl
  | data => rfl
  | reply r => cases r <;> rfl

theorem Job.frames_take_opens (job : Job) (n k : Nat) :
    List.Sublist (((job.frames n).take k).flatMap Frame.opens) job.opens := by
  rw [← job.frames_opens n]
  exact (List.take_sublist k _).flatMap _

structure Session.Ordered (s : Session) : Prop where
  sorted : s.opening.Pairwise (· < ·)
  below : ∀ id ∈ s.opening, id < s.shared.nextStreamID
  ahead : ∀ c ∈ s.calls, ∀ id ∈ c.unopened,
    id < s.shared.nextStreamID ∧ ∀ before ∈ s.opening, before < id

variable {s s' : Session}

theorem Session.Ordered.shrink (h : s.Ordered)
    (hopen : List.Sublist s'.opening s.opening)
    (hnext : s'.shared.nextStreamID = s.shared.nextStreamID)
    (hcalls : ∀ c' ∈ s'.calls, ∀ id ∈ c'.unopened, ∃ c ∈ s.calls, id ∈ c.unopened) :
    s'.Ordered := by
  constructor
  · exact h.sorted.sublist hopen
  · intro id hid
    rw [hnext]
    exact h.below id (hopen.subset hid)
  · intro c' hc' id hid
    obtain ⟨c, hc, hid'⟩ := hcalls c' hc' id hid
    obtain ⟨hlt, hall⟩ := h.ahead c hc id hid'
    rw [hnext]
    exact ⟨hlt, fun before hb => hall before (hopen.subset hb)⟩

theorem unopened_set {calls : List Call} {c c' : Call} (hi : calls[i]? = some c)
    (hc : ∀ id ∈ c'.unopened, id ∈ c.unopened) :
    ∀ d ∈ calls.set i c', ∀ id ∈ d.unopened, ∃ e ∈ calls, id ∈ e.unopened := by
  intro d hd id hid
  rcases List.mem_or_eq_of_mem_set hd with hd | rfl
  · exact ⟨d, hd, hid⟩
  · exact ⟨c, List.mem_of_getElem? hi, hc id hid⟩

theorem Call.wrote_unopened {c : Call} (p : Purpose) (r : Option SessionError) :
    (c.wrote p r).unopened = [] := by
  rcases c.wrote_cases p r with ⟨-, k, h | h⟩ | ⟨e, -, h⟩ | ⟨cause, -, h⟩ <;> rw [h] <;> rfl

variable {s : Session}

theorem Call.Turn.unopened {c c' : Call} (h : c.Turn s choice c') :
    ∀ id ∈ c'.unopened, id ∈ c.unopened := by
  intro id hid
  cases h with
  | checked hp hc =>
    cases ‹Purpose› with
    | headers =>
      simp only [Call.unopened, hp] at hid ⊢
      exact hid
    | data => cases hid
    | reset => cases hid
  | checkEnded hp hc | enqueueEnded hp hx hc | written hp hx hw | awaitEnded hp hx hc hs
  | writeDone hp hd e =>
    rw [Call.wrote_unopened] at hid; cases hid
  | _ => cases hid

theorem Session.opening_send (owner : Option Nat) (job : Job) :
    (s.send owner job).opening = s.opening ++ job.opens := by
  simp only [Session.opening, Session.opened, Session.send, List.map_append, List.map_cons,
    List.map_nil, List.flatMap_append, List.flatMap_cons, List.flatMap_nil, List.append_nil,
    List.append_assoc]

theorem Session.Quiet.opening (h : s.Quiet s') : s'.opening = s.opening := by
  have hq : (s'.writeCh.map Prod.snd).flatMap Job.opens =
      (s.writeCh.map Prod.snd).flatMap Job.opens := by
    rcases h.sends with ⟨he, -⟩ | ⟨r, he, -⟩
    · rw [he]
    · rw [he]
      simp [Job.opens]
  simp only [Session.opening, Session.opened, h.wire, h.writer, List.flatMap_append, hq]

theorem Session.Quiet.ordered (h : s.Quiet s') (hs : s.Ordered) : s'.Ordered := by
  refine hs.shrink (by rw [h.opening]) h.nextStreamID ?_
  intro c hc id hid
  rw [h.calls] at hc
  exact ⟨c, hc, hid⟩

theorem Session.Writes.opening (h : s.Writes s') :
    List.Sublist s'.opening s.opening := by
  cases h with
  | receive hw hq =>
    simp only [Session.opening, Session.opened, hw, hq, Writer.jobs]
    exact .refl _
  | stop hw hc | run hw hc | shut e hw =>
    simp only [Session.opening, Session.opened, hw, Writer.jobs]
    exact .refl _
  | start hw =>
    simp only [Session.opening, Session.opened, Session.updateWrite, hw, Writer.jobs]
    exact .refl _
  | skip hw hc =>
    simp only [Session.opening, Session.opened, Session.updateWrite, hw, Writer.jobs]
    refine List.Sublist.append_left ?_ _
    exact List.Sublist.flatMap (List.sublist_append_right _ _) _
  | wrote hw =>
    simp only [Session.opening, Session.opened, Session.updateWrite, hw, Writer.jobs,
      List.flatMap_append, List.flatMap_cons, List.flatMap_nil, Job.frames_opens,
      List.append_nil, List.nil_append, List.append_assoc]
    exact .refl _
  | broke after err hw ha =>
    simp only [Session.opening, Session.opened, Session.updateWrite, hw, Writer.jobs,
      List.flatMap_append, List.flatMap_cons, List.flatMap_nil, List.append_nil, List.nil_append,
      List.append_assoc]
    refine List.Sublist.append_left ?_ _
    exact List.Sublist.append_right (Job.frames_take_opens _ _ _) _

def Call.opening (c : Call) : Bool :=
  match c.point with
  | .enqueue .headers => true
  | _ => false

/-- Whether every other stream that is acquired and not yet on the channel has a higher identifier
than this one. -/
def Session.lowest (s : Session) (i id : Nat) : Bool :=
  (List.range s.calls.length).all fun j =>
    j == i || (s.calls[j]?).all fun d => d.unopened.all (id < ·)

/-- The condition under which the order is kept: a request puts its headers on the channel only
when its stream is the lowest of those still to be put there. -/
def InTurn (s : Session) : Act → Prop
  | .call i .go => ∀ c ∈ s.calls[i]?, c.opening = true → s.lowest i c.stream = true
  | _ => True

instance (s : Session) : (a : Act) → Decidable (InTurn s a)
  | .call i .go => inferInstanceAs (Decidable (∀ c ∈ s.calls[i]?, _))
  | .call _ .context | .call _ .session | .start .. | .cancel .. | .writer _ | .receive _ | .reader _
  | .close => .isTrue trivial

theorem Session.lowest_lt {id : Nat} (h : s.lowest i id = true) (hj : s.calls[j]? = some d)
    (hne : j ≠ i) : ∀ other ∈ d.unopened, id < other := by
  intro other ho
  simp only [Session.lowest, List.all_eq_true, List.mem_range, Bool.or_eq_true, beq_iff_eq] at h
  have hlt := (List.getElem?_eq_some_iff.1 hj).1
  have hall := (h j hlt).resolve_left hne
  rw [hj] at hall
  simpa using List.all_eq_true.1 hall other ho

theorem Session.Ordered.send (h : s.Ordered) (hi : s.calls[i]? = some c)
    (hp : c.point = .enqueue p) (ho : c.opening = true → s.lowest i c.stream = true)
    (owner : Option Nat) (w : Nat) :
    Session.Ordered { s.send owner (c.job p) with
      calls := s.calls.set i { c with point := .await p w } } := by
  have hc := List.mem_of_getElem? hi
  have hopening : ∀ calls, Session.opening { s.send owner (c.job p) with calls := calls } =
      s.opening ++ (c.job p).opens := fun _ => Session.opening_send (s := s) owner (c.job p)
  by_cases hh : p = .headers
  · subst hh
    have hun : c.unopened = [c.stream] := by simp only [Call.unopened, hp]
    obtain ⟨hlt, hall⟩ := h.ahead c hc c.stream (by rw [hun]; exact List.mem_singleton_self _)
    have hlow := ho (by simp only [Call.opening, hp])
    constructor
    · rw [hopening]
      refine List.pairwise_append.2 ⟨h.sorted, List.pairwise_singleton _ _, ?_⟩
      intro a ha b hb
      rw [Call.job, Job.opens, List.mem_singleton] at hb
      rw [hb]
      exact hall a ha
    · intro id hid
      rw [hopening] at hid
      rcases List.mem_append.1 hid with hid | hid
      · exact h.below id hid
      · rw [Call.job, Job.opens, List.mem_singleton] at hid
        rw [hid]
        exact hlt
    · intro d hd id hid
      obtain ⟨j, hj⟩ := List.mem_iff_getElem?.1 hd
      rw [List.getElem?_set] at hj
      split at hj
      · split at hj
        · cases hj
          cases hid
        · cases hj
      · rename_i hne
        obtain ⟨hnext, hbefore⟩ := h.ahead d (List.mem_of_getElem? hj) id hid
        refine ⟨hnext, ?_⟩
        intro before hb
        rw [hopening] at hb
        rcases List.mem_append.1 hb with hb | hb
        · exact hbefore before hb
        · rw [Call.job, Job.opens, List.mem_singleton] at hb
          rw [hb]
          exact Session.lowest_lt hlow hj (Ne.symm hne) id hid
  · have hnil : (c.job p).opens = [] := by
      cases p with
      | headers => exact absurd rfl hh
      | data n => rfl
      | reset cause => rfl
    apply h.shrink
    · rw [hopening, hnil, List.append_nil]
    · rfl
    · apply unopened_set hi
      intro id hid
      cases hid

theorem Session.Ordered.acquired (h : s.Ordered) (c : Call) :
    Session.Ordered { s with
      shared := s.shared.openStream
      calls := s.calls.set i { c with stream := s.shared.nextStreamID, point := .check .headers } } := by
  have hnext : s.shared.openStream.nextStreamID = s.shared.nextStreamID + 2 := rfl
  constructor
  · exact h.sorted
  · intro id hid
    have hlt := h.below id hid
    show id < s.shared.openStream.nextStreamID
    omega
  · intro d hd id hid
    show id < s.shared.openStream.nextStreamID ∧ ∀ before ∈ s.opening, before < id
    rcases List.mem_or_eq_of_mem_set hd with hd | rfl
    · obtain ⟨hlt, hall⟩ := h.ahead d hd id hid
      exact ⟨by omega, hall⟩
    · cases List.mem_singleton.1 hid
      exact ⟨Nat.lt_add_of_pos_right Nat.zero_lt_two, h.below⟩

/-- One step in turn keeps the order. -/
theorem ordered_step (h : s.Ordered) (hturn : InTurn s a)
    (hstep : sessionStep gunzip s a = some s') : s'.Ordered := by
  cases sessionStep_moves hstep with
  | start block body =>
    refine h.shrink (.refl _) rfl ?_
    intro c hc id hid
    rcases List.mem_append.1 hc with hc | hc
    · exact ⟨c, hc, hid⟩
    · rw [List.mem_singleton] at hc
      subst hc
      cases hid
  | cancel i cause hi hc =>
    exact h.shrink (.refl _) rfl (unopened_set hi fun _ hid => hid)
  | call i choice hi hm =>
    cases hm with
    | turn ht => exact h.shrink (.refl _) rfl (unopened_set hi ht.unopened)
    | acquired hp hc hg hn hroom => exact h.acquired _
    | sent hp hx hroom =>
      subst hx
      exact h.send hi hp (hturn _ hi) _ _
    | reserved n hp hctx ho hf hpos hbody hframe hconn hstream =>
      exact h.shrink (.refl _) rfl (unopened_set hi fun _ hid => (nomatch hid))
    | failed hp | wasReset hp =>
      exact h.shrink (.refl _) (Shared.cancelStream_kept ..).nextStreamID
        (unopened_set hi fun _ hid => (nomatch hid))
  | writer choice hw =>
    obtain ⟨hcalls, hk⟩ := hw.frame
    refine h.shrink hw.opening hk.nextStreamID ?_
    intro c hc id hid
    rw [hcalls] at hc
    exact ⟨c, hc, hid⟩
  | receive frame hr => exact (s.receive_quiet frame).ordered h
  | reader choice hr hread => exact (readerStep_quiet hread).ordered h
  | close => exact s.close_quiet.ordered h

theorem ordered_init (h : newSession settings = some s) : s.Ordered := by
  obtain ⟨shared, rfl, -⟩ := newSession_kept h
  exact ⟨.nil, fun _ hid => (nomatch hid), fun _ hc => (nomatch hc)⟩

theorem ordered_invariant (gunzip : GunzipLimited) :
    (session gunzip).Invariant InTurn Session.Ordered where
  init := fun _ ⟨_, h⟩ => ordered_init h
  step := fun _ _ _ h hturn hstep => ordered_step h hturn hstep

/-- In every run in which each request puts its headers on the channel in the order of the
identifiers, the streams are opened in that order. -/
theorem opened_in_order (gunzip : GunzipLimited)
    (h : (session gunzip).Reachable InTurn s) : s.opened.Pairwise (· < ·) :=
  ((ordered_invariant gunzip).reachable h).sorted.sublist (List.sublist_append_left _ _)

namespace Sample

def enqueueHeaders (i : Nat) : List Act := [.call i .go, .call i .go]

def writeNext : List Act := [.writer .go, .writer .go, .writer .go, .writer .go]

def overtaking : List Act :=
  [.start [104] [], .start [104] [], .call 0 .go, .call 1 .go] ++
    enqueueHeaders 1 ++ writeNext ++ enqueueHeaders 0 ++ writeNext

def queueing : List Act :=
  [.start [104] [], .start [104] [], .call 0 .go, .call 1 .go] ++
    enqueueHeaders 0 ++ enqueueHeaders 1 ++ writeNext ++ writeNext

end Sample

theorem overtaking_opens_3_first : ∃ s : Session,
    (session Sample.noGunzip).Reachable System.Any s ∧ s.opened = [3, 1] ∧
      ¬ s.opened.Pairwise (· < ·) := by
  obtain ⟨s, hs, ho⟩ : ∃ s ∈ (session Sample.noGunzip).exec System.Any {} Sample.overtaking,
      s.opened = [3, 1] := ⟨_, rfl, by decide⟩
  refine ⟨s, System.exec_reachable ⟨[], rfl⟩ hs, ho, ?_⟩
  rw [ho]
  decide

theorem queueing_opens_in_order : ∃ s : Session,
    s.opened = [1, 3] ∧ s.opened.Pairwise (· < ·) := by
  obtain ⟨s, hs, ho⟩ : ∃ s ∈ (session Sample.noGunzip).exec InTurn {} Sample.queueing,
      s.opened = [1, 3] := ⟨_, rfl, by decide⟩
  exact ⟨s, ho, opened_in_order Sample.noGunzip (System.exec_reachable ⟨[], rfl⟩ hs)⟩

end Repost.H2
