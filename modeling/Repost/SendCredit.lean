import Repost.SendWindows
import Repost.SessionWindow

namespace Repost.H2
open GoText Runs
set_option autoImplicit true

def Session.credits (s : Session) : Act → List (Nat × Nat)
  | .reader _ =>
    match s.reader with
    | .windowUpdate id increment :: _ => s.shared.credit id increment
    | _ => []
  | _ => []

/-- The bytes that a step from one state to another reserves on a stream. -/
def Session.reserves (s s' : Session) : Act → List (Nat × Nat)
  | .call i _ =>
    match s.calls[i]?, s'.calls[i]? with
    | some c, some c' =>
      match c.point with
      | .reserve => if c'.reserved = 0 then [] else [(c.stream, c'.reserved)]
      | _ => []
    | _, _ => []
  | _ => []

/-- The steps that keep the windows within the bound. -/
def Session.fits (s : Session) : Act → Bool
  | .reader _ =>
    match s.reader with
    | .settings list :: _ => s.shared.fits list
    | _ => true
  | _ => true

/-- A session with the credit accepted and the bytes reserved so far, each with its stream. -/
structure Ledger where
  session : Session
  credited : List (Nat × Nat) := []
  reserved : List (Nat × Nat) := []

def ledgered (gunzip : GunzipLimited) : System Ledger Act where
  Init t := (session gunzip).Init t.session ∧ t.credited = [] ∧ t.reserved = []
  step t a := (sessionStep gunzip t.session a).map fun s =>
    { session := s
      credited := t.credited ++ t.session.credits a
      reserved := t.reserved ++ t.session.reserves s a }

/-- The credit granted to a stream: the initial window in force and the accepted increments. -/
def Ledger.granted (t : Ledger) (id : Nat) : Int :=
  t.session.shared.initialStreamWindow + total t.credited id

structure Ledger.Balanced (t : Ledger) : Prop where
  tabled : ∃ closed, t.session.shared.Tabled closed
  initial : t.session.shared.initialStreamWindow ≤ maxWindowSize
  credited : ∀ entry ∈ t.credited, entry.1 < t.session.shared.nextStreamID
  reserved : ∀ entry ∈ t.reserved, entry.1 < t.session.shared.nextStreamID
  balanced : ∀ id ∈ t.session.shared.streams, ∀ st, t.session.shared.object id = some st →
    st.sendWindow = t.granted id - total t.reserved id

abbrev Ledger.Legal (t : Ledger) : Prop := t.session.shared.Legal

abbrev Ledger.Fits (t : Ledger) (a : Act) : Prop := t.session.fits a = true

section
variable {gunzip : GunzipLimited} {s s' : Session} {t : Ledger} {closed : List Nat}

theorem Ledger.Balanced.keep (h : t.Balanced) (ht : ∃ closed, s'.shared.Tabled closed)
    (hs : t.session.shared.SameWindows s'.shared)
    (hn : s'.shared.nextStreamID = t.session.shared.nextStreamID) :
    (Ledger.mk s' (t.credited ++ []) (t.reserved ++ [])).Balanced := by
  rw [List.append_nil, List.append_nil]
  refine ⟨ht, ?_, ?_, ?_, ?_⟩
  · rw [hs.initial]
    exact h.initial
  · rw [hn]
    exact h.credited
  · rw [hn]
    exact h.reserved
  · intro id hid st' hst'
    obtain ⟨st, hst, hw⟩ := hs.windows id st' hst'
    rw [hw, h.balanced id (hs.streams id hid) st hst, Ledger.granted, Ledger.granted, hs.initial]

theorem Shared.Legal.keep {s s' : Shared} (h : s.Legal) (hs : s.SameWindows s') : s'.Legal := by
  intro id hid st' hst'
  obtain ⟨st, hst, hw⟩ := hs.windows id st' hst'
  rw [hw]
  exact h id (hs.streams id hid) st hst

theorem Ledger.Balanced.opened (h : t.Balanced)
    (hn : t.session.shared.nextStreamID ≤ maxStreamID)
    (hs : s'.shared = t.session.shared.openStream) :
    (Ledger.mk s' (t.credited ++ []) (t.reserved ++ [])).Balanced := by
  rw [List.append_nil, List.append_nil]
  obtain ⟨closed, ht⟩ := h.tabled
  refine ⟨⟨closed, hs ▸ ht.openStream hn⟩, ?_, ?_, ?_, ?_⟩
  · rw [hs]
    exact h.initial
  · rw [hs]
    exact fun entry hm => Nat.lt_add_right 2 (h.credited entry hm)
  · rw [hs]
    exact fun entry hm => Nat.lt_add_right 2 (h.reserved entry hm)
  · intro id hid st hst
    rw [hs] at hid hst
    rcases Shared.openStream_object hst with hold | ⟨rfl, hw⟩
    · have hlt : id < t.session.shared.nextStreamID := by
        have hnumbered := ht.numbered st (List.mem_of_find?_eq_some hold)
        rw [← Shared.object_id hold]
        exact hnumbered.2.1
      have hlisted : id ∈ t.session.shared.streams :=
        (List.mem_cons.1 hid).resolve_left (Nat.ne_of_lt hlt)
      rw [h.balanced id hlisted st hold, Ledger.granted, Ledger.granted, hs]
      rfl
    · have hcredit : total t.credited t.session.shared.nextStreamID = 0 :=
        total_eq_zero fun entry hm => Nat.ne_of_lt (h.credited entry hm)
      have hreserved : total t.reserved t.session.shared.nextStreamID = 0 :=
        total_eq_zero fun entry hm => Nat.ne_of_lt (h.reserved entry hm)
      rw [hw, Ledger.granted, hcredit, hreserved, hs]
      simp [Shared.openStream]

theorem Shared.Legal.opened {s : Shared} (h : s.Legal) (ht : s.Tabled closed)
    (hi : s.initialStreamWindow ≤ maxWindowSize) : s.openStream.Legal := by
  intro id hid st hst
  rcases Shared.openStream_object hst with hold | ⟨rfl, hw⟩
  · have hnumbered := ht.numbered st (List.mem_of_find?_eq_some hold)
    rw [Shared.object_id hold] at hnumbered
    exact h id ((List.mem_cons.1 hid).resolve_left (Nat.ne_of_lt hnumbered.2.1)) st hold
  · rw [hw]
    exact hi

theorem Ledger.Balanced.debited (h : t.Balanced) {id n : Nat}
    (hid : id < t.session.shared.nextStreamID)
    (hs : s'.shared = t.session.shared.debit id n) :
    (Ledger.mk s' (t.credited ++ []) (t.reserved ++ [(id, n)])).Balanced := by
  rw [List.append_nil]
  obtain ⟨closed, ht⟩ := h.tabled
  refine ⟨⟨closed, hs ▸ ht.same (Shared.debit_sameTable ..)⟩, ?_, ?_, ?_, ?_⟩
  · rw [hs]
    exact h.initial
  · rw [hs]
    exact h.credited
  · rw [hs]
    exact forall_mem_append_one h.reserved hid
  · intro m hm st' hst'
    rw [hs] at hm hst'
    obtain ⟨st, hst, hw⟩ := Shared.debit_windows _ id n hst'
    have hbalanced := h.balanced m hm st hst
    rw [Ledger.granted] at hbalanced ⊢
    have hinitial : s'.shared.initialStreamWindow = t.session.shared.initialStreamWindow := by
      rw [hs]
      rfl
    dsimp only
    rw [total_append, hinitial]
    omega

theorem Shared.Legal.debited {s : Shared} (h : s.Legal) (id n : Nat) : (s.debit id n).Legal := by
  intro m hm st' hst'
  obtain ⟨st, hst, hw⟩ := Shared.debit_windows s id n hst'
  have hle := h m hm st hst
  omega

theorem Ledger.Balanced.updated (h : t.Balanced) {id increment : Nat}
    (hs : s'.shared = (t.session.shared.handleWindowUpdate id increment).1) :
    (Ledger.mk s' (t.credited ++ t.session.shared.credit id increment)
      (t.reserved ++ [])).Balanced := by
  rw [List.append_nil]
  obtain ⟨closed, ht⟩ := h.tabled
  have hsame := Shared.handleWindowUpdate_sameTable t.session.shared id increment
  have hinitial := Shared.handleWindowUpdate_initial t.session.shared id increment
  have hcredit : ∀ entry ∈ t.session.shared.credit id increment,
      entry.1 < t.session.shared.nextStreamID := by
    intro entry hm
    unfold Shared.credit at hm
    split at hm
    · cases hm
    · split at hm
      · rename_i st hl
        split at hm
        · cases hm
        · rw [List.mem_singleton.1 hm]
          have ho := Shared.lookup_object hl
          have hnumbered := ht.numbered st (List.mem_of_find?_eq_some ho)
          rw [Shared.object_id ho] at hnumbered
          exact hnumbered.2.1
      · cases hm
  refine ⟨⟨closed, hs ▸ ht.same hsame⟩, ?_, ?_, ?_, ?_⟩
  · rw [hs, hinitial]
    exact h.initial
  · rw [hs, hsame.nextStreamID]
    intro entry hm
    rcases List.mem_append.1 hm with hm | hm
    · exact h.credited entry hm
    · exact hcredit entry hm
  · rw [hs, hsame.nextStreamID]
    exact h.reserved
  · intro m hm st' hst'
    rw [hs] at hm hst'
    obtain ⟨st, hst, hw, -⟩ := Shared.handleWindowUpdate_windows _ id increment hst'
    have hbalanced := h.balanced m (hsame.streams ▸ hm) st hst
    rw [Ledger.granted] at hbalanced ⊢
    dsimp only
    rw [total_append, hs, hinitial]
    omega

theorem Shared.Legal.updated {s : Shared} (h : s.Legal) (id increment : Nat) :
    (s.handleWindowUpdate id increment).1.Legal := by
  intro m hm st' hst'
  obtain ⟨st, hst, -, hle⟩ := Shared.handleWindowUpdate_windows s id increment hst'
  exact hle (h m ((Shared.handleWindowUpdate_sameTable s id increment).streams ▸ hm) st hst)

theorem Ledger.Balanced.shifted (h : t.Balanced) {settings : List Setting}
    (hs : s'.shared = (t.session.shared.applySettings settings).1) :
    (Ledger.mk s' (t.credited ++ []) (t.reserved ++ [])).Balanced := by
  rw [List.append_nil, List.append_nil]
  obtain ⟨closed, ht⟩ := h.tabled
  have hsame := Shared.applySettings_sameTable t.session.shared settings
  have hshifts := Shared.applySettings_shifts t.session.shared settings
  refine ⟨⟨closed, hs ▸ ht.same hsame⟩, ?_, ?_, ?_, ?_⟩
  · rw [hs, Shared.applySettings_initial]
    exact Shared.lastInitialWindow_le settings h.initial
  · rw [hs, hsame.nextStreamID]
    exact h.credited
  · rw [hs, hsame.nextStreamID]
    exact h.reserved
  · intro m hm st' hst'
    rw [hs] at hm hst'
    rw [hshifts.streams] at hm
    obtain ⟨st, hst, hw⟩ := hshifts.before m hm hst'
    have hbalanced := h.balanced m hm st hst
    rw [Ledger.granted] at hbalanced ⊢
    dsimp only
    rw [hs]
    omega

theorem Shared.legal_applySettings_iff (s : Shared) (settings : List Setting) :
    (s.applySettings settings).1.Legal ↔ s.fits settings = true := by
  have hshifts := Shared.applySettings_shifts s settings
  have hinitial := Shared.applySettings_initial s settings
  unfold Shared.fits
  rw [List.all_eq_true]
  constructor
  · intro hlegal id hid
    rw [Option.all_eq_true]
    intro st hst
    obtain ⟨st', hst', hw⟩ := hshifts.after id hid hst
    have hle := hlegal id (hshifts.streams ▸ hid) st' hst'
    rw [decide_eq_true_eq, ← hinitial]
    omega
  · intro hfits id hid st' hst'
    rw [hshifts.streams] at hid
    obtain ⟨st, hst, hw⟩ := hshifts.before id hid hst'
    have hfit := (Option.all_eq_true ..).1 (hfits id hid) st hst
    rw [decide_eq_true_eq, ← hinitial] at hfit
    omega

theorem Call.Turn.unreserved {c c' : Call} (h : c.Turn s choice c') (hp : c.point = .reserve) :
    c'.reserved = 0 := by
  cases h with
  | reserveStopped hq hs e => rfl
  | reserveWait hq => rfl
  | written hq hx hw | responded hq ho hf => rcases hq with hq | hq <;> cases hp.symm.trans hq
  | writeDone hq hd e => rcases hq with hq | hq | hq <;> cases hp.symm.trans hq
  | resetting hq hc => rcases hq with hq | ⟨r, hq⟩ <;> cases hp.symm.trans hq
  | refused hq | admissionWait hq | admissionRetry hq | admissionLeft hq | checked hq
  | checkEnded hq | enqueueEnded hq | awaitEnded hq | awaitStarted hq | flowRetry hq
  | reserveFails hq | responseDone hq =>
    cases hp.symm.trans hq

theorem Session.reserves_call {c c' : Call} (hi : s.calls[i]? = some c)
    (hi' : s'.calls[i]? = some c') (choice : Choice)
    (h : ∀ n, c.point = .reserve → c'.reserved ≠ n + 1) :
    s.reserves s' (.call i choice) = [] := by
  rw [Session.reserves, hi, hi']
  dsimp only
  split
  · rename_i hp
    cases hn : c'.reserved with
    | zero => rfl
    | succ n => exact absurd hn (h n hp)
  · rfl

theorem Call.Move.balanced {u : Session} {c c' : Call} (hm : c.Move t.session i choice u c')
    (hi : t.session.calls[i]? = some c) (h : t.Balanced) :
    (Ledger.mk { u with calls := u.calls.set i c' } (t.credited ++ [])
      (t.reserved ++ t.session.reserves { u with calls := u.calls.set i c' }
        (.call i choice))).Balanced ∧
    (∀ id n, (id, n) ∈ t.session.reserves { u with calls := u.calls.set i c' } (.call i choice) →
      ((total t.reserved id + n : Nat) : Int) ≤ t.granted id) ∧
    (t.Legal → u.shared.Legal) := by
  obtain ⟨closed, ht⟩ := h.tabled
  have hi' : (u.calls.set i c')[i]? = some c' := by
    rw [hm.beside.calls]
    exact List.getElem?_set_self (List.getElem?_eq_some_iff.1 hi).1
  have hnone : (∀ n, c.point = .reserve → c'.reserved ≠ n + 1) →
      t.session.reserves { u with calls := u.calls.set i c' } (.call i choice) = [] :=
    Session.reserves_call hi hi' choice
  have hnothing : (∀ n, c.point = .reserve → c'.reserved ≠ n + 1) →
      t.session.shared.SameWindows u.shared →
      u.shared.nextStreamID = t.session.shared.nextStreamID →
      (Ledger.mk { u with calls := u.calls.set i c' } (t.credited ++ [])
        (t.reserved ++ t.session.reserves { u with calls := u.calls.set i c' }
          (.call i choice))).Balanced ∧
      (∀ id n, (id, n) ∈ t.session.reserves { u with calls := u.calls.set i c' }
          (.call i choice) → ((total t.reserved id + n : Nat) : Int) ≤ t.granted id) ∧
      (t.Legal → u.shared.Legal) := by
    intro hr hs hn
    rw [hnone hr]
    exact ⟨h.keep ⟨_, hm.tabled hi ht⟩ hs hn, nofun, fun hl => hl.keep hs⟩
  cases hm with
  | turn hturn =>
    refine hnothing (fun n hp hn => ?_) (.refl _) rfl
    rw [hturn.unreserved hp] at hn
    cases hn
  | acquired hp hc hg hn hroom =>
    rw [hnone fun n hq => nomatch hp.symm.trans hq]
    exact ⟨h.opened hn rfl, nofun, fun hl => hl.opened ht h.initial⟩
  | sent hp hx hroom =>
    exact hnothing (fun n hq => nomatch hp.symm.trans hq) (.refl _) rfl
  | reserved n hp hctx ho hf hpos hbody hframe hconn hstream =>
    have hreserves : t.session.reserves
        { t.session with
          shared := t.session.shared.debit c.stream n
          calls := t.session.calls.set i { c with point := .check (.data n) } }
        (.call i choice) = [(c.stream, n)] := by
      rw [Session.reserves, hi, hi']
      dsimp only
      rw [hp]
      exact if_neg (Nat.ne_of_gt hpos)
    have hlisted := ht.listed ho hf
    have hnumbered := ht.numbered _ (List.mem_of_find?_eq_some ho)
    rw [Shared.object_id ho] at hnumbered
    rw [hreserves]
    refine ⟨h.debited hnumbered.2.1 rfl, ?_, fun hl => hl.debited _ _⟩
    intro id m hm
    obtain ⟨rfl, rfl⟩ := Prod.mk.inj (List.mem_singleton.1 hm)
    have hbalanced := h.balanced c.stream hlisted _ ho
    omega
  | failed hp | wasReset hp =>
    exact hnothing (fun n hq => nomatch hp.symm.trans hq)
      (Shared.cancelStream_finishes ..).sameWindows (Shared.cancelStream_kept ..).nextStreamID

/-- What every step does to the account of the windows. -/
theorem Ledger.Balanced.step (h : t.Balanced) (hm : t.session.Moves gunzip a s') :
    (Ledger.mk s' (t.credited ++ t.session.credits a)
      (t.reserved ++ t.session.reserves s' a)).Balanced ∧
    (∀ id n, (id, n) ∈ t.session.reserves s' a →
      ((total t.reserved id + n : Nat) : Int) ≤ t.granted id) ∧
    (t.Legal → (s'.shared.Legal ↔ t.session.fits a = true)) := by
  obtain ⟨closed, ht⟩ := h.tabled
  have htabled := hm.tabled ht
  have hkeep : t.session.shared.SameWindows s'.shared →
      s'.shared.nextStreamID = t.session.shared.nextStreamID → t.session.credits a = [] →
      t.session.reserves s' a = [] → t.session.fits a = true →
      (Ledger.mk s' (t.credited ++ t.session.credits a)
        (t.reserved ++ t.session.reserves s' a)).Balanced ∧
      (∀ id n, (id, n) ∈ t.session.reserves s' a →
        ((total t.reserved id + n : Nat) : Int) ≤ t.granted id) ∧
      (t.Legal → (s'.shared.Legal ↔ t.session.fits a = true)) := by
    intro hs hn hc hr hf
    rw [hc, hr, hf]
    exact ⟨h.keep ⟨_, htabled⟩ hs hn, nofun, fun hl => ⟨fun _ => rfl, fun _ => hl.keep hs⟩⟩
  cases hm with
  | start block body | cancel i cause hi hctx | receive frame hr =>
    exact hkeep (.refl _) rfl rfl rfl rfl
  | call i choice hi hm =>
    obtain ⟨hbalanced, hreserved, hlegal⟩ := hm.balanced hi h
    exact ⟨hbalanced, hreserved, fun hl => ⟨fun _ => rfl, fun _ => hlegal hl⟩⟩
  | writer choice hw =>
    cases hw with
    | shut e hw =>
      exact hkeep (Shared.shutdown_sameWindows ..) (Shared.shutdown_kept ..).nextStreamID rfl rfl rfl
    | _ => exact hkeep (.refl _) rfl rfl rfl rfl
  | close =>
    exact hkeep (Shared.shutdown_sameWindows ..) (Shared.shutdown_kept ..).nextStreamID rfl rfl rfl
  | reader choice hr hread =>
    rename_i op rest
    have hshared := readerStep_perform hread
    have hnext := (readerStep_quiet hread).nextStreamID
    have hother : ¬Shared.MovesWindows op → t.session.credits (.reader choice) = [] →
        t.session.fits (.reader choice) = true →
        (Ledger.mk s' (t.credited ++ t.session.credits (.reader choice))
          (t.reserved ++ t.session.reserves s' (.reader choice))).Balanced ∧
        (∀ id n, (id, n) ∈ t.session.reserves s' (.reader choice) →
          ((total t.reserved id + n : Nat) : Int) ≤ t.granted id) ∧
        (t.Legal → (s'.shared.Legal ↔ t.session.fits (.reader choice) = true)) := by
      intro hop hc hf
      exact hkeep (hshared ▸ Shared.perform_sameWindows _ gunzip hop) hnext hc rfl hf
    cases op with
    | windowUpdate id increment =>
      have hcredits : t.session.credits (.reader choice) =
          t.session.shared.credit id increment := by rw [Session.credits, hr]
      have hfits : t.session.fits (.reader choice) = true := by rw [Session.fits, hr]
      rw [hcredits, hfits]
      refine ⟨h.updated hshared, nofun, fun hl => ⟨fun _ => rfl, fun _ => ?_⟩⟩
      rw [hshared]
      exact hl.updated id increment
    | settings list =>
      have hcredits : t.session.credits (.reader choice) = [] := by rw [Session.credits, hr]
      have hfits : t.session.fits (.reader choice) = t.session.shared.fits list := by
        rw [Session.fits, hr]
      rw [hcredits, hfits]
      refine ⟨h.shifted hshared, nofun, fun _ => ?_⟩
      rw [hshared]
      exact Shared.legal_applySettings_iff _ list
    | _ => exact hother (fun hop => hop) (by rw [Session.credits, hr]) (by rw [Session.fits, hr])

theorem ledger_init (h : newSession settings = some s) : (Ledger.mk s [] []).Balanced := by
  have hsound := audit_init h
  obtain ⟨shared, rfl, -, list, hlist⟩ := newSession_kept h
  have hinitial := Shared.applySettings_initial {} list
  have hsame := Shared.applySettings_sameTable {} list
  rw [hlist] at hinitial hsame
  refine ⟨⟨_, hsound.tabled⟩, ?_, nofun, nofun, ?_⟩
  · rw [hinitial]
    exact Shared.lastInitialWindow_le list (by decide)
  · intro id hid
    rw [hsame.streams] at hid
    cases hid

theorem ledger_init_legal (h : newSession settings = some s) : s.shared.Legal := by
  obtain ⟨shared, rfl, -, list, hlist⟩ := newSession_kept h
  have hsame := Shared.applySettings_sameTable {} list
  rw [hlist] at hsame
  intro id hid
  rw [hsame.streams] at hid
  cases hid

theorem overflow_ends {id increment : Nat} {st : Stream}
    (ht : s.shared.Tabled closed) (hr : s.reader = .windowUpdate id increment :: rest)
    (hid : id ∈ s.shared.streams) (ho : s.shared.object id = some st)
    (hover : st.sendWindow + increment > maxWindowSize)
    (hread : s.readerStep gunzip rest (.windowUpdate id increment) choice = some s') :
    s'.shared = s.shared ∧ s'.reader = [.shutdown .responseProtocol] := by
  have hunsettled := ht.unsettled hid
  rw [Shared.settled, ho, Option.any_some] at hunsettled
  have hnumbered := ht.numbered st (List.mem_of_find?_eq_some ho)
  have hzero : id ≠ 0 := by
    rw [Shared.object_id ho] at hnumbered
    rintro rfl
    cases hnumbered.1
  have hlookup : s.shared.lookup id = some st := by
    rw [Shared.lookup, if_pos (List.contains_iff_mem.2 hid), ho]
  have hresult : s.shared.handleWindowUpdate id increment =
      (s.shared, some .responseProtocol) := by
    unfold Shared.handleWindowUpdate
    rw [if_neg hzero, hlookup]
    dsimp only
    rw [if_neg (by rw [hunsettled]; exact Bool.false_ne_true), if_pos hover]
  cases choice with
  | go =>
    simp only [Session.readerStep, hresult] at hread
    cases hread
    exact ⟨rfl, rfl⟩
  | _ => cases hread

end

/-- In every run the windows of the open streams stay within the bound exactly if every frame of
settings fits, an increment that does not fit ends the session, and what is reserved on a stream is
within what the peer has granted to it at that moment. -/
theorem stream_windows_legal_iff (gunzip : GunzipLimited) (h₀ : newSession settings = some s₀)
    (h : (ledgered gunzip).exec System.Any ⟨s₀, [], []⟩ as = some t) :
    ((∀ front u, front <+: as →
        (ledgered gunzip).exec System.Any ⟨s₀, [], []⟩ front = some u → u.Legal) ↔
      (ledgered gunzip).exec Ledger.Fits ⟨s₀, [], []⟩ as = some t) ∧
    (∀ a t', (ledgered gunzip).step t a = some t' →
      (∀ id n, (id, n) ∈ t.session.reserves t'.session a →
        ((total t.reserved id + n : Nat) : Int) ≤ t.granted id) ∧
      ∀ id increment rest st, a = .reader .go →
        t.session.reader = .windowUpdate id increment :: rest →
        id ∈ t.session.shared.streams → t.session.shared.object id = some st →
        st.sendWindow + increment > maxWindowSize →
        t'.session.reader = [.shutdown .responseProtocol]) := by
  have hstep : ∀ (u : Ledger) a u', u.Balanced → (ledgered gunzip).step u a = some u' →
      u'.Balanced := by
    intro u a u' hu hs
    obtain ⟨s', hs', rfl⟩ := Option.map_eq_some_iff.1 hs
    exact (hu.step (sessionStep_moves hs')).1
  have hlegal : ∀ (u : Ledger) a u', u.Balanced → u.Legal → (ledgered gunzip).step u a = some u' →
      (u'.Legal ↔ u.Fits a) := by
    intro u a u' hu hl hs
    obtain ⟨s', hs', rfl⟩ := Option.map_eq_some_iff.1 hs
    exact (hu.step (sessionStep_moves hs')).2.2 hl
  have ht : t.Balanced := by
    have hinv : (ledgered gunzip).Invariant System.Any Ledger.Balanced := by
      constructor
      · rintro ⟨s, credited, reserved⟩ ⟨⟨list, hs⟩, rfl, rfl⟩
        exact ledger_init hs
      · exact fun u a u' hu _ hs => hstep u a u' hu hs
    exact hinv.reachable (System.exec_reachable ⟨⟨_, h₀⟩, rfl, rfl⟩ h)
  refine ⟨System.exec_stays_iff Ledger.Balanced Ledger.Legal hstep hlegal (ledger_init h₀)
    (ledger_init_legal h₀) h, ?_⟩
  intro a t' hs
  obtain ⟨s', hs', rfl⟩ := Option.map_eq_some_iff.1 hs
  refine ⟨(ht.step (sessionStep_moves hs')).2.1, ?_⟩
  rintro id increment rest st rfl hr hid ho hover
  obtain ⟨closed, htabled⟩ := ht.tabled
  rw [sessionStep, hr] at hs'
  exact (overflow_ends htabled hr hid ho hover hs').2

namespace Sample

theorem grown_bounded : 65536 ≤ 2 ^ 31 - 1 := by decide

def grown : Setting :=
  { id := .initialWindowSize, value := 65536, bounded := fun _ _ => grown_bounded }

/-- A stream's window is filled to the bound, and then the initial window grows by one. -/
def overfilling : List Act :=
  [.start [104] [1], .call 0 .go, .receive (.windowUpdate 1 2147418112), .reader .go,
    .receive (.settings false [grown]), .reader .go]

end Sample

/-- The session is up and the window of its open stream is beyond the bound. -/
theorem overfilling_exceeds_bound : ∃ t : Ledger,
    (ledgered Sample.noGunzip).exec System.Any ⟨{}, [], []⟩ Sample.overfilling = some t ∧
      t.session.shared.closeErr = none ∧ t.session.shared.streams = [1] ∧
      t.session.shared.window 1 = some (maxWindowSize + 1) ∧ ¬t.Legal := by
  refine ⟨_, rfl, rfl, rfl, rfl, ?_⟩
  intro hlegal
  exact absurd (hlegal 1 (List.mem_singleton.2 rfl) _ rfl) (by decide)

/-- Without the second frame the window is at the bound, and three bytes are reserved of it. -/
theorem sending_windows_legal : ∃ t : Ledger,
    (ledgered Sample.noGunzip).exec System.Any ⟨{}, [], []⟩ Sample.sending = some t ∧
      total t.reserved 1 = 3 ∧ t.Legal := by
  obtain ⟨t, ht, hfits, hreserved⟩ :
      ∃ t ∈ (ledgered Sample.noGunzip).exec System.Any ⟨{}, [], []⟩ Sample.sending,
        (ledgered Sample.noGunzip).exec Ledger.Fits ⟨{}, [], []⟩ Sample.sending = some t ∧
          total t.reserved 1 = 3 := ⟨_, rfl, rfl, rfl⟩
  have hinit : newSession [] = some {} := rfl
  have h := (stream_windows_legal_iff Sample.noGunzip hinit ht).1.2 hfits
  exact ⟨t, ht, hreserved, h Sample.sending t (List.prefix_refl _) ht⟩

end Repost.H2
