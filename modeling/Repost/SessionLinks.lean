import Repost.SessionOrder

namespace Repost.H2
open GoText Runs
set_option autoImplicit true

def Writer.flight : Writer → List (Nat × Job)
  | .received w job | .started w job | .running w job => [(w, job)]
  | _ => []

def Session.flights (s : Session) : List (Nat × Job) := s.writer.flight ++ s.writeCh

theorem Session.opening_flights (s : Session) :
    s.opening = s.opened ++ s.flights.flatMap fun f => f.2.opens := by
  have hw : s.writer.jobs = s.writer.flight.map Prod.snd := by cases s.writer <;> rfl
  rw [Session.opening, Session.flights, hw, ← List.map_append, List.flatMap_map]

variable {s : Session}

theorem Session.mem_opening {id : Nat} (hf : f ∈ s.flights) (hid : id ∈ f.2.opens) :
    id ∈ s.opening := by
  rw [s.opening_flights]
  exact List.mem_append_right _ (List.mem_flatMap.2 ⟨f, hf, hid⟩)

def Call.waiting (c : Call) : Bool :=
  match c.point with
  | .acquire | .awaitAdmission _ => true
  | _ => false

def Session.Carries (s : Session) (f : Nat × Job) : Prop :=
  ∃ call, s.writes[f.1]? = some call ∧ call.done = none ∧
    (∀ id ∈ f.2.opens, ∃ i c, call.owner = some i ∧ s.calls[i]? = some c ∧ c.stream = id) ∧
    (∀ r, f.2 = .reply r → call.owner = none)

structure Session.Linked (s : Session) : Prop where
  numbered : (s.flights.map Prod.fst).Nodup
  carries : ∀ f ∈ s.flights, s.Carries f
  started : ∀ w job, s.writer = .started w job ∨ s.writer = .running w job →
    ∃ call, s.writes[w]? = some call ∧ call.started = true
  nodup : s.opening.Nodup
  positive : 0 < s.shared.nextStreamID
  below : ∀ id ∈ s.opening, 0 < id ∧ id < s.shared.nextStreamID
  streams : ∀ c ∈ s.calls, c.stream < s.shared.nextStreamID
  waiting : ∀ c ∈ s.calls, c.waiting = true → c.stream = 0
  fresh : ∀ c ∈ s.calls, ∀ id ∈ c.unopened, 0 < id ∧ id ∉ s.opening
  unique : ∀ (i j : Nat) (c d : Call), s.calls[i]? = some c → s.calls[j]? = some d → c.stream = d.stream →
    c.stream ≠ 0 → i = j

variable {s s' : Session}

theorem Session.Carries.keep (h : s.Carries f)
    (hpos : ∀ id ∈ f.2.opens, id ≠ 0)
    (hwrites : ∀ call : WriteCall, s.writes[f.1]? = some call →
      ∃ call', s'.writes[f.1]? = some call' ∧ call'.owner = call.owner ∧ call'.done = call.done)
    (hcalls : ∀ (j : Nat) (d : Call), s.calls[j]? = some d → d.stream ≠ 0 →
      ∃ d', s'.calls[j]? = some d' ∧ d'.stream = d.stream) : s'.Carries f := by
  obtain ⟨call, hcall, hdone, hopens, hreply⟩ := h
  obtain ⟨call', hcall', howner, hdone'⟩ := hwrites _ hcall
  refine ⟨call', hcall', hdone'.trans hdone, ?_, ?_⟩
  · intro id hid
    obtain ⟨i, c, ho, hc, rfl⟩ := hopens id hid
    obtain ⟨c', hc', hstream⟩ := hcalls i c hc (hpos _ hid)
    exact ⟨i, c', howner.trans ho, hc', hstream⟩
  · intro r hr
    exact howner.trans (hreply r hr)

theorem Session.Linked.nonzero (h : s.Linked) (hf : f ∈ s.flights) :
    ∀ id ∈ f.2.opens, id ≠ 0 :=
  fun id hid => Nat.ne_of_gt (h.below id (Session.mem_opening hf hid)).1

theorem Session.Linked.one_flight {id : Nat} (h : s.Linked) (hf : f ∈ s.flights)
    (hg : g ∈ s.flights) (hfid : id ∈ f.2.opens) (hgid : id ∈ g.2.opens) : f = g := by
  have hnodup := h.nodup
  rw [s.opening_flights] at hnodup
  have hflat := (List.nodup_append.1 hnodup).2.1
  have hpair := (List.nodup_flatMap.1 hflat).2
  by_contra hne
  have hsymm : Std.Symm (Function.onFun List.Disjoint fun f : Nat × Job => f.2.opens) :=
    ⟨fun _ _ h _ ha hb => h hb ha⟩
  exact hpair.forall hf hg hne hfid hgid

theorem Session.Linked.not_opened {id : Nat} (h : s.Linked) (hf : f ∈ s.flights)
    (hid : id ∈ f.2.opens) : id ∉ s.opened := by
  have hnodup := h.nodup
  rw [s.opening_flights] at hnodup
  intro ho
  exact (List.nodup_append.1 hnodup).2.2 id ho id (List.mem_flatMap.2 ⟨f, hf, hid⟩) rfl

theorem kept_set {calls : List Call} {c c' : Call} (hi : calls[i]? = some c)
    (hstream : c'.stream = c.stream ∨ c.stream = 0) :
    ∀ (j : Nat) (d : Call), calls[j]? = some d → d.stream ≠ 0 →
      ∃ d', (calls.set i c')[j]? = some d' ∧ d'.stream = d.stream := by
  intro j d hd hne
  have hlt := (List.getElem?_eq_some_iff.1 hi).1
  by_cases hji : i = j
  · subst hji
    rw [hi] at hd
    cases hd
    refine ⟨c', ?_, hstream.resolve_right hne⟩
    rw [List.getElem?_set_self hlt]
  · refine ⟨d, ?_, rfl⟩
    rw [List.getElem?_set_ne hji]
    exact hd

theorem Session.Linked.point {c c' : Call} {shared : Shared} (h : s.Linked)
    (hi : s.calls[i]? = some c) (hstream : c'.stream = c.stream)
    (hun : ∀ id ∈ c'.unopened, id ∈ c.unopened) (hwait : c'.waiting = true → c.waiting = true)
    (hnext : shared.nextStreamID = s.shared.nextStreamID) :
    Session.Linked { s with shared := shared, calls := s.calls.set i c' } where
  numbered := h.numbered
  carries f hf := (h.carries f hf).keep (h.nonzero hf) (fun call hc => ⟨call, hc, rfl, rfl⟩)
    (kept_set hi (.inl hstream))
  started := h.started
  nodup := h.nodup
  positive := by
    rw [hnext]
    exact h.positive
  below := by
    rw [hnext]
    exact h.below
  streams := by
    rw [hnext]
    have hc := h.streams c (List.mem_of_getElem? hi)
    exact forall_mem_set h.streams (by rw [hstream]; exact hc)
  waiting := by
    have hc := h.waiting c (List.mem_of_getElem? hi)
    exact forall_mem_set h.waiting (by rw [hstream]; exact fun hw => hc (hwait hw))
  fresh := by
    have hc := h.fresh c (List.mem_of_getElem? hi)
    exact forall_mem_set h.fresh fun id hid => hc id (hun id hid)
  unique := by
    intro j k d e hd he heq hne
    have hstreams : ∀ (j : Nat) (d : Call), (s.calls.set i c')[j]? = some d →
        ∃ d₀, s.calls[j]? = some d₀ ∧ d₀.stream = d.stream := by
      intro j d hd
      rcases getElem?_set_cases hd with ⟨rfl, rfl⟩ | ⟨-, hd⟩
      · exact ⟨c, hi, hstream.symm⟩
      · exact ⟨d, hd, rfl⟩
    obtain ⟨d₀, hd₀, hds⟩ := hstreams j d hd
    obtain ⟨e₀, he₀, hes⟩ := hstreams k e he
    exact h.unique j k d₀ e₀ hd₀ he₀ (by omega) (by omega)

theorem Session.Linked.acquired {c : Call} (h : s.Linked)
    (hi : s.calls[i]? = some c) (hp : c.point = .acquire) :
    Session.Linked { s with
      shared := s.shared.openStream
      calls := s.calls.set i { c with stream := s.shared.nextStreamID, point := .check .headers } } := by
  have hzero : c.stream = 0 := by
    apply h.waiting c (List.mem_of_getElem? hi)
    simp only [Call.waiting, hp]
  have hlt : s.shared.nextStreamID < s.shared.openStream.nextStreamID :=
    Nat.lt_add_of_pos_right Nat.zero_lt_two
  constructor
  · exact h.numbered
  · intro f hf
    exact (h.carries f hf).keep (h.nonzero hf) (fun call hc => ⟨call, hc, rfl, rfl⟩)
      (kept_set hi (.inr hzero))
  · exact h.started
  · exact h.nodup
  · exact Nat.lt_trans h.positive hlt
  · intro id hid
    exact ⟨(h.below id hid).1, Nat.lt_trans (h.below id hid).2 hlt⟩
  · exact forall_mem_set (fun d hd => Nat.lt_trans (h.streams d hd) hlt) hlt
  · exact forall_mem_set h.waiting fun hw => (nomatch hw)
  · refine forall_mem_set h.fresh ?_
    intro id hid
    cases List.mem_singleton.1 hid
    exact ⟨h.positive, fun ho => Nat.lt_irrefl _ (h.below _ ho).2⟩
  · intro j k d e hd he heq hne
    rcases getElem?_set_cases hd with ⟨rfl, rfl⟩ | ⟨hj, hd'⟩
    · rcases getElem?_set_cases he with ⟨rfl, rfl⟩ | ⟨hk, he'⟩
      · rfl
      · have hbelow := h.streams e (List.mem_of_getElem? he')
        rw [← heq] at hbelow
        exact absurd hbelow (Nat.lt_irrefl _)
    · rcases getElem?_set_cases he with ⟨rfl, rfl⟩ | ⟨hk, he'⟩
      · have hbelow := h.streams d (List.mem_of_getElem? hd')
        rw [heq] at hbelow
        exact absurd hbelow (Nat.lt_irrefl _)
      · exact h.unique j k d e hd' he' heq hne

theorem Session.flights_send (s : Session) (owner : Option Nat) (job : Job) :
    (s.send owner job).flights = s.flights ++ [(s.writes.length, job)] :=
  (List.append_assoc ..).symm

theorem Session.Linked.numbered_send (h : s.Linked) (job : Job) :
    ((s.flights ++ [(s.writes.length, job)]).map Prod.fst).Nodup := by
  rw [List.map_append, List.nodup_append]
  refine ⟨h.numbered, List.nodup_singleton _, ?_⟩
  intro w hw w' hw' heq
  obtain ⟨f, hf, rfl⟩ := List.mem_map.1 hw
  obtain ⟨call, hcall, -⟩ := h.carries f hf
  have hlt := (List.getElem?_eq_some_iff.1 hcall).1
  cases List.mem_singleton.1 hw'
  omega

theorem getElem?_append_kept {writes : List WriteCall} {w : Nat} (call : WriteCall)
    (h : writes[w]? = some c) : (writes ++ [call])[w]? = some c := by
  rw [List.getElem?_append_left (List.getElem?_eq_some_iff.1 h).1]
  exact h

theorem Session.Linked.send (h : s.Linked) (owner : Option Nat) (job : Job)
    (hopens : ∀ id ∈ job.opens, id ∉ s.opening ∧ 0 < id ∧ id < s.shared.nextStreamID)
    (hone : job.opens.Nodup)
    (howner : ∀ id ∈ job.opens, ∃ i c, owner = some i ∧ s.calls[i]? = some c ∧ c.stream = id)
    (hreply : ∀ r, job = .reply r → owner = none)
    (hfresh : ∀ c ∈ s.calls, ∀ id ∈ c.unopened, id ∉ job.opens) :
    (s.send owner job).Linked := by
  have hopening := Session.opening_send (s := s) owner job
  constructor
  · rw [s.flights_send]
    exact h.numbered_send job
  · rw [s.flights_send]
    refine forall_mem_append_one ?_ ?_
    · intro f hf
      exact (h.carries f hf).keep (h.nonzero hf)
        (fun call hc => ⟨call, getElem?_append_kept _ hc, rfl, rfl⟩) (fun j d hd _ => ⟨d, hd, rfl⟩)
    · exact ⟨{ owner := owner }, by simp [Session.send], rfl, howner, hreply⟩
  · intro w job hw
    obtain ⟨call, hcall, hs⟩ := h.started w job hw
    exact ⟨call, getElem?_append_kept _ hcall, hs⟩
  · rw [hopening, List.nodup_append]
    refine ⟨h.nodup, hone, ?_⟩
    intro id hid id' hid' heq
    subst heq
    exact (hopens id hid').1 hid
  · exact h.positive
  · rw [hopening]
    intro id hid
    rcases List.mem_append.1 hid with hid | hid
    · exact h.below id hid
    · exact (hopens id hid).2
  · exact h.streams
  · exact h.waiting
  · rw [hopening]
    intro c hc id hid
    refine ⟨(h.fresh c hc id hid).1, ?_⟩
    intro ho
    rcases List.mem_append.1 ho with ho | ho
    · exact (h.fresh c hc id hid).2 ho
    · exact hfresh c hc id hid ho
  · exact h.unique

theorem Call.Turn.stream {c c' : Call} (h : c.Turn s choice c') :
    c'.stream = c.stream ∧ c'.ctx = c.ctx ∧ (c'.waiting = true → c.waiting = true) := by
  have hwrote : ∀ p r, (c.wrote p r).stream = c.stream ∧ (c.wrote p r).ctx = c.ctx ∧
      ((c.wrote p r).waiting = true → c.waiting = true) := by
    intro p r
    rcases c.wrote_cases p r with ⟨-, k, he | he⟩ | ⟨e, -, he⟩ | ⟨cause, -, he⟩ <;> rw [he] <;>
      exact ⟨rfl, rfl, fun hw => (nomatch hw)⟩
  cases h with
  | admissionWait hp | admissionRetry hp =>
    exact ⟨rfl, rfl, fun _ => by simp only [Call.waiting, hp]⟩
  | checkEnded hp hc => exact hwrote ..
  | enqueueEnded hp hx hc => exact hwrote ..
  | written hp hx hw => exact hwrote ..
  | awaitEnded hp hx hc hs => exact hwrote ..
  | writeDone hp hd e => exact hwrote ..
  | _ => exact ⟨rfl, rfl, fun hw => (nomatch hw)⟩

theorem Call.unopened_stream {c : Call} {id : Nat} (h : id ∈ c.unopened) : id = c.stream := by
  unfold Call.unopened at h
  split at h
  · exact List.mem_singleton.1 h
  · exact List.mem_singleton.1 h
  · cases h

theorem Session.Linked.other_stream {i j : Nat} {c d : Call} (h : s.Linked)
    (hi : s.calls[i]? = some c) (hj : s.calls[j]? = some d) (hne : j ≠ i) (hpos : 0 < c.stream) :
    d.stream ≠ c.stream :=
  fun heq => hne (h.unique j i d c hj hi heq (by omega))

theorem Session.Linked.sendHeaders {c : Call} (h : s.Linked)
    (hi : s.calls[i]? = some c) (hp : c.point = .enqueue .headers) (w : Nat) :
    Session.Linked (Session.send { s with calls := s.calls.set i { c with point := .await .headers w } }
      (some i) (c.job .headers)) := by
  have hc := List.mem_of_getElem? hi
  have hun : c.stream ∈ c.unopened := by simp only [Call.unopened, hp, List.mem_singleton]
  obtain ⟨hpos, hfresh⟩ := h.fresh c hc c.stream hun
  have hpoint : Session.Linked
      { s with calls := s.calls.set i { c with point := .await .headers w } } :=
    h.point hi rfl (fun _ hid => by cases hid) (fun hw => by cases hw) rfl
  apply hpoint.send
  · intro id hid
    cases List.mem_singleton.1 hid
    exact ⟨hfresh, hpos, h.streams c hc⟩
  · exact List.nodup_singleton _
  · intro id hid
    cases List.mem_singleton.1 hid
    exact ⟨i, _, rfl, List.getElem?_set_self (List.getElem?_eq_some_iff.1 hi).1, rfl⟩
  · intro r hr
    cases hr
  · intro d hd id hid hjob
    cases List.mem_singleton.1 hjob
    obtain ⟨j, hj⟩ := List.mem_iff_getElem?.1 hd
    rcases getElem?_set_cases hj with ⟨-, rfl⟩ | ⟨hne, hj'⟩
    · cases hid
    · exact h.other_stream hi hj' hne hpos (Call.unopened_stream hid).symm

theorem Session.Linked.sendOther (h : s.Linked) (owner : Option Nat) (job : Job)
    (hjob : job.opens = []) (hreply : ∀ r, job = .reply r → owner = none) :
    (s.send owner job).Linked := by
  apply h.send owner job
  · rw [hjob]
    exact fun _ hid => (nomatch hid)
  · rw [hjob]
    exact List.nodup_nil
  · rw [hjob]
    exact fun _ hid => (nomatch hid)
  · exact hreply
  · rw [hjob]
    exact fun _ _ _ _ hid => (nomatch hid)

theorem Call.Move.linked {s u : Session} {c c' : Call} (h : c.Move s i choice u c')
    (hs : s.Linked) (hi : s.calls[i]? = some c) :
    Session.Linked { u with calls := u.calls.set i c' } := by
  cases h with
  | turn ht =>
    obtain ⟨hstream, -, hwait⟩ := ht.stream
    exact hs.point hi hstream ht.unopened hwait rfl
  | acquired hp hcl hg hn hroom => exact hs.acquired hi hp
  | sent hp hx hroom =>
    rename_i p
    have hpoint : Session.Linked
        { s with calls := s.calls.set i { c with point := .await p s.writes.length } } :=
      hs.point hi rfl (fun _ hid => (nomatch hid)) (fun hw => (nomatch hw)) rfl
    cases p with
    | headers => exact hs.sendHeaders hi hp _
    | data n => exact hpoint.sendOther (some i) (c.job (.data n)) rfl fun _ hr => (nomatch hr)
    | reset cause => exact hpoint.sendOther none (c.job (.reset cause)) rfl fun _ _ => rfl
  | reserved n hp hctx ho hf hpos hbody hframe hconn hstream =>
    exact hs.point hi rfl (fun _ hid => (nomatch hid)) (fun hw => (nomatch hw)) rfl
  | failed hp | wasReset hp =>
    exact hs.point hi rfl (fun _ hid => (nomatch hid)) (fun hw => (nomatch hw))
      (Shared.cancelStream_kept ..).nextStreamID

theorem Session.Linked.advance (h : s.Linked)
    (hflights : List.Sublist s'.flights s.flights) (hopening : List.Sublist s'.opening s.opening)
    (hcalls : s'.calls = s.calls) (hnext : s'.shared.nextStreamID = s.shared.nextStreamID)
    (hwrites : ∀ f ∈ s'.flights, ∀ call : WriteCall, s.writes[f.1]? = some call →
      ∃ call', s'.writes[f.1]? = some call' ∧ call'.owner = call.owner ∧ call'.done = call.done)
    (hstarted : ∀ w job, s'.writer = .started w job ∨ s'.writer = .running w job →
      ∃ call, s'.writes[w]? = some call ∧ call.started = true) : s'.Linked := by
  constructor
  · exact h.numbered.sublist (hflights.map _)
  · intro f hf
    have hf' := hflights.subset hf
    refine (h.carries f hf').keep (h.nonzero hf') (hwrites f hf) ?_
    rw [hcalls]
    exact fun _ d hd _ => ⟨d, hd, rfl⟩
  · exact hstarted
  · exact h.nodup.sublist hopening
  · rw [hnext]
    exact h.positive
  · rw [hnext]
    exact fun id hid => h.below id (hopening.subset hid)
  · rw [hcalls, hnext]
    exact h.streams
  · rw [hcalls]
    exact h.waiting
  · rw [hcalls]
    intro c hc id hid
    exact ⟨(h.fresh c hc id hid).1, fun ho => (h.fresh c hc id hid).2 (hopening.subset ho)⟩
  · rw [hcalls]
    exact h.unique

theorem Session.Quiet.linked (h : s.Quiet s') (hs : s.Linked) : s'.Linked := by
  have hbase : ∀ {t : Session}, t.Linked → s'.calls = t.calls → s'.writer = t.writer →
      s'.wire = t.wire → s'.writeCh = t.writeCh → s'.writes = t.writes →
      s'.shared.nextStreamID = t.shared.nextStreamID → s'.Linked := by
    intro t ht hcalls hwriter hwire hch hwrites hnext
    apply ht.advance
    · rw [Session.flights, hwriter, hch, Session.flights]
    · rw [Session.opening, Session.opened, hwire, hwriter, hch, Session.opening, Session.opened]
    · exact hcalls
    · exact hnext
    · rw [hwrites]
      exact fun _ _ call hc => ⟨call, hc, rfl, rfl⟩
    · rw [hwriter, hwrites]
      exact ht.started
  rcases h.sends with ⟨hch, hwrites⟩ | ⟨r, hch, hwrites⟩
  · exact hbase hs h.calls h.writer h.wire hch hwrites h.nextStreamID
  · exact hbase (hs.sendOther none (.reply r) rfl fun _ _ => rfl) h.calls h.writer h.wire hch
      hwrites h.nextStreamID

theorem getElem?_modify_kept {writes : List WriteCall} {w : Nat} (f : WriteCall → WriteCall)
    (v : Nat) (h : writes[w]? = some call) :
    (writes.modify v f)[w]? = some (if v = w then f call else call) := by
  rw [List.getElem?_modify, h]
  rfl

theorem Session.Writes.flights (h : s.Writes s') :
    List.Sublist s'.flights s.flights := by
  cases h with
  | receive hw hq =>
    simp only [Session.flights, hw, hq, Writer.flight]
    exact .refl _
  | stop hw hc | start hw | run hw hc | shut e hw =>
    simp only [Session.flights, hw, Writer.flight]
    exact .refl _
  | skip hw hc | wrote hw | broke after err hw ha =>
    simp only [Session.flights, hw, Writer.flight]
    exact List.sublist_append_right _ _

theorem Session.Linked.head (h : s.Linked) (hw : s.writer.flight = [(v, job)]) :
    ∀ f ∈ s.writeCh, f.1 ≠ v := by
  intro f hm heq
  have hn := h.numbered
  rw [Session.flights, hw, List.singleton_append, List.map_cons, List.nodup_cons] at hn
  exact hn.1 (List.mem_map.2 ⟨f, hm, heq⟩)

theorem Session.updateWrite_other {v w : Nat} (hne : w ≠ v)
    (f : WriteCall → WriteCall) : (s.updateWrite v f).writes[w]? = s.writes[w]? := by
  rw [Session.updateWrite, List.getElem?_modify]
  cases s.writes[w]? with
  | none => rfl
  | some call => exact congrArg some (if_neg (Ne.symm hne))

theorem Session.Writes.table (h : s.Writes s') (hs : s.Linked) :
    ∀ f ∈ s'.flights, ∀ call : WriteCall, s.writes[f.1]? = some call →
      ∃ call', s'.writes[f.1]? = some call' ∧ call'.owner = call.owner ∧
        call'.done = call.done := by
  intro f hf call hcall
  cases h with
  | receive hw hq | stop hw hc | run hw hc | shut e hw => exact ⟨call, hcall, rfl, rfl⟩
  | start hw =>
    refine ⟨_, getElem?_modify_kept _ _ hcall, ?_⟩
    split <;> exact ⟨rfl, rfl⟩
  | skip hw hc | wrote hw | broke after err hw ha =>
    have hne := hs.head (by rw [hw]; rfl) f hf
    exact ⟨call, (Session.updateWrite_other hne _).trans hcall, rfl, rfl⟩

theorem Session.Writes.linked (h : s.Writes s') (hs : s.Linked) : s'.Linked := by
  obtain ⟨hcalls, hkept⟩ := h.frame
  refine hs.advance h.flights h.opening hcalls hkept.nextStreamID (h.table hs) ?_
  cases h with
  | start hw =>
    rename_i v job
    intro w job' hw'
    rcases hw' with hw' | hw' <;> cases hw'
    have hflight : (v, job) ∈ s.flights := by simp [Session.flights, Writer.flight, hw]
    obtain ⟨call, hcall, -⟩ := hs.carries _ hflight
    refine ⟨_, getElem?_modify_kept _ v hcall, ?_⟩
    rw [if_pos rfl]
  | run hw hc =>
    rename_i v job
    intro w job' hw'
    rcases hw' with hw' | hw' <;> cases hw'
    exact hs.started v job (.inl hw)
  | _ =>
    intro w job' hw'
    rcases hw' with hw' | hw' <;> cases hw'

theorem linked_step (hs : s.Linked) (h : s.Moves gunzip a s') : s'.Linked := by
  cases h with
  | start block body =>
    constructor
    · exact hs.numbered
    · intro f hf
      refine (hs.carries f hf).keep (hs.nonzero hf) (fun call hc => ⟨call, hc, rfl, rfl⟩) ?_
      intro j d hd _
      exact ⟨d, by rw [List.getElem?_append_left (List.getElem?_eq_some_iff.1 hd).1]; exact hd, rfl⟩
    · exact hs.started
    · exact hs.nodup
    · exact hs.positive
    · exact hs.below
    · exact forall_mem_append_one hs.streams hs.positive
    · exact forall_mem_append_one hs.waiting fun _ => rfl
    · exact forall_mem_append_one hs.fresh fun _ hid => (nomatch hid)
    · intro j k d e hd he heq hne
      rcases getElem?_append_one_cases hd with ⟨-, rfl⟩ | hd'
      · exact absurd rfl hne
      · rcases getElem?_append_one_cases he with ⟨-, rfl⟩ | he'
        · exact absurd heq hne
        · exact hs.unique j k d e hd' he' heq hne
  | cancel i cause hi hc =>
    exact hs.point hi rfl (fun _ hid => hid) (fun hw => hw) rfl
  | call i choice hi hm => exact hm.linked hs hi
  | writer choice hw => exact hw.linked hs
  | receive frame hr => exact (s.receive_quiet frame).linked hs
  | reader choice hr hread => exact (readerStep_quiet hread).linked hs
  | close => exact s.close_quiet.linked hs

theorem linked_init (h : newSession settings = some s) : s.Linked := by
  obtain ⟨shared, rfl, hk, -⟩ := newSession_kept h
  have hnext : shared.nextStreamID = 1 := hk.nextStreamID
  constructor
  · exact List.nodup_nil
  · exact fun _ hf => (nomatch hf)
  · intro w job hw
    rcases hw with hw | hw <;> cases hw
  · exact List.nodup_nil
  · rw [hnext]
    exact Nat.one_pos
  · exact fun _ hid => (nomatch hid)
  · exact fun _ hc => (nomatch hc)
  · exact fun _ hc => (nomatch hc)
  · exact fun _ hc => (nomatch hc)
  · exact fun _ _ _ _ hc => (nomatch hc)

end Repost.H2
