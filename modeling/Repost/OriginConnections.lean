import Repost.ConnectionReuse
import Repost.PoolPlaces

namespace Repost.Pool
open GoText Runs
set_option autoImplicit true

/-- Where a call of `Send` is: in its call of `Acquire` or in the exchange on what that leased, about
to replay, in the dial of the replay, in the exchange on the fresh connection, about to close a fresh
session that cannot be used, or done. -/
inductive SendPoint where
  | acquiring (call : Nat)
  | stale
  | redialing
  | replaying
  | refusing
  | returned
  deriving DecidableEq

structure Sending (κ : Type) where
  key : κ
  point : SendPoint

/-- The pool with what was dialed for it, and the calls of `Send`. -/
structure Transport (κ : Type) where
  pool : World κ
  made : List (κ × Mode) := []
  sends : List (Sending κ) := []

/-- One exchange on a leased connection: what the connection does to it, and whether the context has
ended when the exchange has. -/
structure Exchanging where
  connection : RawH1Connection
  wire : H1.Request
  wall : Option Time := none
  ctxErr : Bool := false

/-- How `sendH1` goes on after the exchange: whether it gives the connection back for reuse, and
whether it replays the request. -/
def Exchanging.settle (gzip : H1.GzipReader) (x : Exchanging) (reused : Bool) : Bool × SendPoint :=
  let exchange := exchangeH1 gzip x.connection x.wire x.wall
  if exchange.err.isSome && x.connection.clientCertificateRequested then (false, .returned)
  else if replays reused exchange then (false, .stale)
  else (reusableH1 x.ctxErr exchange, .returned)

inductive SendAct (κ : Type) where
  | send (key : κ)
  | pool (a : Act κ)
  | fail (j : Nat)
  | exchange (j : Nat) (x : Exchanging)
  | exchangeH2 (j : Nat) (reusable : Bool)
  | replay (j : Nat)
  | redialed (j : Nat) (result : Option Mode)
  | finish (j : Nat)

/-- What the pool's callers do is left to the calls of `Send`. -/
def Act.inner : Act κ → Bool
  | .call _ | .release _ _ => false
  | _ => true

namespace Transport

def setSend (t : Transport κ) (j : Nat) (key : κ) (point : SendPoint) : Transport κ :=
  { t with sends := t.sends.set j ⟨key, point⟩ }

/-- The lease that a call of `Acquire` has returned. -/
def granted (t : Transport κ) (i : Nat) : Option (Nat × Lease κ) :=
  match t.pool.calls[i]? with
  | some ⟨_, .returned (.ok l)⟩ => t.pool.leases[l]?.map fun lease => (l, lease)
  | _ => none

variable [DecidableEq κ]

def poolStep (options : Options) (t : Transport κ) (a : Act κ) : Option (Transport κ) :=
  (step options t.pool a).map fun w => { t with pool := w, made := t.made ++ madeBy t.pool a }

/-- `Release`, after which the call of `Send` goes on. -/
def giveBack (options : Options) (t : Transport κ) (j : Nat) (key : κ) (l : Nat)
    (next : Bool × SendPoint) : Option (Transport κ) :=
  (t.poolStep options (.release l next.1)).map fun t => t.setSend j key next.2

end Transport

def sendStep [DecidableEq κ] (gzip : H1.GzipReader) (options : Options) (t : Transport κ) :
    SendAct κ → Option (Transport κ)
  | .send key =>
    (t.poolStep options (.call key)).map fun u =>
      { u with sends := u.sends ++ [⟨key, .acquiring t.pool.calls.length⟩] }
  | .pool a => if a.inner then t.poolStep options a else none
  | .fail j =>
    match t.sends[j]? with
    | some ⟨key, .acquiring i⟩ =>
      match t.pool.calls[i]? with
      | some ⟨_, .returned (.error _)⟩ => some (t.setSend j key .returned)
      | _ => none
    | _ => none
  | .exchange j x =>
    match t.sends[j]? with
    | some ⟨key, .acquiring i⟩ =>
      match t.granted i with
      | some (l, lease) =>
        if (t.pool.heap lease.entry).mode = .exclusive then
          t.giveBack options j key l (x.settle gzip lease.reused)
        else none
      | none => none
    | _ => none
  | .exchangeH2 j reusable =>
    match t.sends[j]? with
    | some ⟨key, .acquiring i⟩ =>
      match t.granted i with
      | some (l, lease) =>
        if (t.pool.heap lease.entry).mode = .shared then
          t.giveBack options j key l (reusable, .returned)
        else none
      | none => none
    | _ => none
  | .replay j =>
    match t.sends[j]? with
    | some ⟨key, .stale⟩ => some (t.setSend j key .redialing)
    | _ => none
  | .redialed j result =>
    match t.sends[j]? with
    | some ⟨key, .redialing⟩ =>
      match result with
      | none => some (t.setSend j key .returned)
      | some .exclusive => some (t.setSend j key .replaying)
      | some .shared => some (t.setSend j key .refusing)
    | _ => none
  | .finish j =>
    match t.sends[j]? with
    | some ⟨key, .replaying⟩ | some ⟨key, .refusing⟩ => some (t.setSend j key .returned)
    | _ => none

/-- Any number of calls of `Send` through one transport. -/
def transport (κ : Type) [DecidableEq κ] (gzip : H1.GzipReader) (options : Options) :
    System (Transport κ) (SendAct κ) where
  Init t := ∃ now, t = { pool := { now := now } }
  step := sendStep gzip options

/-- The call dials for its replay or has the fresh connection. -/
def SendPoint.aside : SendPoint → Bool
  | .redialing | .replaying => true
  | _ => false

section
variable [DecidableEq κ] {gzip : H1.GzipReader} {options : Options} {t t' : Transport κ}

def Transport.aside (t : Transport κ) (key : κ) : Nat :=
  t.sends.countP fun s => s.key = key && s.point.aside

/-- The HTTP/1.1 connections of an origin that are open or being dialed. -/
def Transport.connections (t : Transport κ) (key : κ) : Nat :=
  t.pool.opened t.made key + t.pool.dialing key + t.aside key

/-- The places that an origin takes in the pool, and its connections beside it. -/
def Transport.load (t : Transport κ) (key : κ) : Nat := t.pool.occupied key + t.aside key

/-- A replay dials while the origin has room, and so does `Acquire` while a replay is under way. -/
def Roomy (options : Options) (t : Transport κ) : SendAct κ → Prop
  | .replay j => ∀ s ∈ t.sends[j]?, t.load s.key < options.maxConnections
  | .pool (.acquire i) => ∀ c ∈ t.pool.calls[i]?,
    t.aside c.key = 0 ∨ t.load c.key < options.maxConnections
  | _ => True

/-- What a step does: a section of the pool, and one call of `Send` that moves on. -/
inductive Transport.Moves (options : Options) (t : Transport κ) (act : SendAct κ) :
    Transport κ → Prop
  | send (key : κ) (h : step options t.pool (.call key) = some w) :
      Moves options t act
        { pool := w
          made := t.made ++ madeBy t.pool (.call key)
          sends := t.sends ++ [⟨key, .acquiring t.pool.calls.length⟩] }
  | pool (a : Act κ) (ha : act = .pool a) (h : step options t.pool a = some w) :
      Moves options t act { t with pool := w, made := t.made ++ madeBy t.pool a }
  | giveBack (j : Nat) (hs : t.sends[j]? = some ⟨key, .acquiring i⟩)
      (h : step options t.pool (.release l b) = some w) (hp : point.aside = false) :
      Moves options t act
        { pool := w
          made := t.made ++ madeBy t.pool (.release l b)
          sends := t.sends.set j ⟨key, point⟩ }
  | go (j : Nat) (hs : t.sends[j]? = some ⟨key, old⟩) (hp : new.aside = true → old.aside = true) :
      Moves options t act (t.setSend j key new)
  | replay (j : Nat) (ha : act = .replay j) (hs : t.sends[j]? = some ⟨key, .stale⟩) :
      Moves options t act (t.setSend j key .redialing)

theorem Exchanging.settle_aside (gzip : H1.GzipReader) (x : Exchanging) (reused : Bool) :
    (x.settle gzip reused).2.aside = false := by
  unfold Exchanging.settle
  dsimp only
  split
  · rfl
  · split <;> rfl

theorem giveBack_moves (hs : t.sends[j]? = some ⟨key, .acquiring i⟩)
    (hp : next.2.aside = false) (h : t.giveBack options j key l next = some t') :
    Transport.Moves options t act t' := by
  obtain ⟨u, hu, rfl⟩ := Option.map_eq_some_iff.1 h
  obtain ⟨w, hw, rfl⟩ := Option.map_eq_some_iff.1 hu
  exact .giveBack j hs hw hp

theorem sendStep_moves (h : sendStep gzip options t act = some t') : t.Moves options act t' := by
  cases act with
  | send key =>
    rw [sendStep] at h
    obtain ⟨u, hu, rfl⟩ := Option.map_eq_some_iff.1 h
    obtain ⟨w, hw, rfl⟩ := Option.map_eq_some_iff.1 hu
    exact .send key hw
  | pool a =>
    obtain ⟨-, h⟩ := Option.ite_none_right_eq_some.1 h
    obtain ⟨w, hw, rfl⟩ := Option.map_eq_some_iff.1 h
    exact .pool a rfl hw
  | fail j =>
    unfold sendStep at h
    dsimp only at h
    split at h
    · rename_i hs
      split at h
      · cases h
        exact .go j hs nofun
      · cases h
    · cases h
  | exchange j x =>
    unfold sendStep at h
    dsimp only at h
    split at h
    · rename_i hs
      split at h
      · obtain ⟨-, h⟩ := Option.ite_none_right_eq_some.1 h
        exact giveBack_moves hs (x.settle_aside gzip _) h
      · cases h
    · cases h
  | exchangeH2 j reusable =>
    unfold sendStep at h
    dsimp only at h
    split at h
    · rename_i hs
      split at h
      · obtain ⟨-, h⟩ := Option.ite_none_right_eq_some.1 h
        exact giveBack_moves hs rfl h
      · cases h
    · cases h
  | replay j =>
    unfold sendStep at h
    dsimp only at h
    split at h
    · rename_i hs
      cases h
      exact .replay j rfl hs
    · cases h
  | redialed j result =>
    unfold sendStep at h
    dsimp only at h
    split at h
    · rename_i hs
      split at h
      · cases h
        exact .go j hs nofun
      · cases h
        exact .go j hs (fun _ => rfl)
      · cases h
        exact .go j hs nofun
    · cases h
  | finish j =>
    unfold sendStep at h
    dsimp only at h
    split at h
    · rename_i hs
      cases h
      exact .go j hs nofun
    · rename_i hs
      cases h
      exact .go j hs nofun
    · cases h

theorem aside_set (hs : t.sends[j]? = some ⟨k, old⟩) (new : SendPoint) (key : κ) :
    (t.setSend j k new).aside key + (if k = key ∧ old.aside = true then 1 else 0) =
      t.aside key + if k = key ∧ new.aside = true then 1 else 0 := by
  have hcount := countP_set (p := fun s : Sending κ => decide (s.key = key) && s.point.aside)
    (y := ⟨k, new⟩) hs
  simpa [Transport.aside, Transport.setSend] using hcount

theorem aside_set_le (hs : t.sends[j]? = some ⟨k, old⟩)
    (hp : new.aside = true → old.aside = true) (key : κ) :
    (t.setSend j k new).aside key ≤ t.aside key := by
  have hset := aside_set hs new key
  by_cases hn : k = key ∧ new.aside = true
  · rw [if_pos hn, if_pos ⟨hn.1, hp hn.2⟩] at hset
    omega
  · rw [if_neg hn] at hset
    omega

structure Capped (options : Options) (t : Transport κ) : Prop where
  safe : Safe options t.pool
  prompt : Prompt t.pool
  linked : Linked t.made t.pool
  load : ∀ key, t.load key ≤ options.maxConnections

theorem Capped.poolStep (h : Capped options t) (hw : step options t.pool a = some w)
    (hsends : ∀ key, t'.aside key = t.aside key) (hpool : t'.pool = w)
    (hmade : t'.made = t.made ++ madeBy t.pool a)
    (hroom : ∀ i, a = .acquire i → ∀ c ∈ t.pool.calls[i]?,
      t.aside c.key = 0 ∨ t.load c.key < options.maxConnections) : Capped options t' := by
  have hstepped := step_stepped hw
  have hsafe := hstepped.safe h.safe
  have hprompt := h.prompt.placed hstepped.placed
  refine ⟨hpool ▸ hsafe, hpool ▸ hprompt, ?_, ?_⟩
  · rw [hpool, hmade]
    exact h.linked.placed hstepped.placed
  · intro key
    have hload := h.load key
    unfold Transport.load at hload ⊢
    rw [hpool, hsends]
    rcases hstepped.occupied key with hle | ⟨i, ha, hc, hopen, hle⟩
    · omega
    · -- The pool checks its own places; a replay is not among them.
      rcases hroom i ha _ hc with hnone | hsome
      · have hcap := occupied_capped hsafe hprompt hopen key
        have hnone : t.aside key = 0 := hnone
        omega
      · have hsome : t.pool.occupied key + t.aside key < options.maxConnections := hsome
        omega

theorem Capped.step (h : Capped options t) (hok : Roomy options t act)
    (hm : t.Moves options act t') : Capped options t' := by
  cases hm with
  | send key hw =>
    refine h.poolStep hw ?_ rfl rfl (fun i hi => by cases hi)
    intro k
    simp [Transport.aside, List.countP_append, SendPoint.aside]
  | pool a ha hw =>
    refine h.poolStep hw (fun _ => rfl) rfl rfl ?_
    rintro i rfl
    rw [ha] at hok
    exact hok
  | giveBack j hs hw hp =>
    rename_i key i l b w point
    refine h.poolStep hw ?_ rfl rfl (fun i hi => by cases hi)
    intro k
    have hset := aside_set hs point k
    rw [hp] at hset
    exact Nat.add_right_cancel hset
  | go j hs hp =>
    refine ⟨h.safe, h.prompt, h.linked, fun key => ?_⟩
    have hload := h.load key
    have haside := aside_set_le hs hp key
    unfold Transport.load at hload ⊢
    exact Int.le_trans (Int.ofNat_le.2 (Nat.add_le_add_left haside _)) hload
  | replay j ha hs =>
    rename_i k
    refine ⟨h.safe, h.prompt, h.linked, fun key => ?_⟩
    have hload := h.load key
    have haside := aside_set hs .redialing key
    rw [ha] at hok
    have hroom : t.load k < options.maxConnections := hok ⟨k, .stale⟩ hs
    unfold Transport.load at hload hroom ⊢
    have hpool : (t.setSend j k .redialing).pool.occupied key = t.pool.occupied key := rfl
    rw [hpool]
    simp only [SendPoint.aside, Bool.false_eq_true, and_false, if_false, and_true] at haside
    split at haside
    · rename_i hk
      subst hk
      omega
    · omega

theorem capped_invariant (hmax : 1 ≤ options.maxConnections) :
    (transport κ gzip options).Invariant (Roomy options) (Capped options) where
  init := by
    rintro t ⟨now, rfl⟩
    have hsafe := ((safe_invariant (κ := κ) hmax).init _ ⟨now, rfl⟩).1
    refine ⟨hsafe, fun _ c hc => (nomatch hc), ⟨rfl, fun _ _ hp => (nomatch hp), fun c hc => (nomatch hc)⟩,
      fun key => ?_⟩
    have hnone : Transport.load { pool := { now := now } } key = 0 := rfl
    rw [hnone]
    exact Int.le_trans Int.one_nonneg hmax
  step := by
    intro t act t' h hok hstep
    exact h.step hok (sendStep_moves hstep)

/-- As long as every dial of a replay, and every `Acquire` during one, finds room at its origin, the
open HTTP/1.1 connections of an origin and those being dialed stay within the cap. -/
theorem connections_capped (hmax : 1 ≤ options.maxConnections)
    (hr : (transport κ gzip options).Reachable (Roomy options) t) (key : κ) :
    t.connections key ≤ options.maxConnections := by
  have h := (capped_invariant hmax).reachable hr
  have hload := h.load key
  have hopened := opened_le h.safe h.linked key
  unfold Transport.load at hload
  unfold Transport.connections
  omega

instance : ∀ (t : Transport κ) (act : SendAct κ), Decidable (Roomy options t act)
  | t, .replay j =>
    inferInstanceAs (Decidable (∀ s ∈ t.sends[j]?, t.load s.key < options.maxConnections))
  | t, .pool (.acquire i) =>
    inferInstanceAs (Decidable (∀ c ∈ t.pool.calls[i]?,
      t.aside c.key = 0 ∨ t.load c.key < options.maxConnections))
  | _, .send _ | _, .fail _ | _, .exchange .. | _, .exchangeH2 .. | _, .redialed .. | _, .finish _
  | _, .pool (.call _) | _, .pool (.cancel _) | _, .pool (.dial ..) | _, .pool (.settle _)
  | _, .pool (.discard _) | _, .pool (.wake _) | _, .pool (.release ..) | _, .pool .close
  | _, .pool (.tick _) | _, .pool (.turn ..) => .isTrue trivial

end

namespace Sample

def single : Options := { maxConnections := 1, lifetime := 100, idleTimeout := 10 }

def exchanging (incoming : Bytes) : Exchanging :=
  { connection := { incoming := incoming, ending := { eof := true } }
    wire := (Repost.Sample.exchangeWith incoming).wire }

/-- The connection of a first request is reused for a second one, which finds it dead. -/
def goingStale : List (SendAct Nat) :=
  [.send 7, .pool (.acquire 0), .pool (.dial 0 (some (.exclusive, none))), .pool (.settle 0),
    .exchange 0 (exchanging Repost.Sample.acceptedReply), .send 7, .pool (.acquire 1),
    .exchange 1 (exchanging [])]

end Sample

/-- The second request is replayed beside the pool, with nothing else under way. -/
theorem goingStale_capped :
    ∃ t, (transport Nat (fun _ => none) Sample.single).exec (Roomy Sample.single)
        { pool := { now := 0 } } (Sample.goingStale ++ [.replay 1, .redialed 1 (some .exclusive)]) =
          some t ∧
      t.connections 7 = 1 ∧ t.connections 7 ≤ Sample.single.maxConnections := by
  obtain ⟨t, ht, hone⟩ : ∃ t ∈ (transport Nat (fun _ => none) Sample.single).exec
      (Roomy Sample.single) { pool := { now := 0 } }
      (Sample.goingStale ++ [.replay 1, .redialed 1 (some .exclusive)]), t.connections 7 = 1 :=
    ⟨_, rfl, rfl⟩
  have hinit : (transport Nat (fun _ => none) Sample.single).Init { pool := { now := 0 } } :=
    ⟨0, rfl⟩
  have hreach := System.exec_reachable hinit ht
  exact ⟨t, ht, hone, connections_capped (by decide) hreach 7⟩

/-- While the second request is replayed, a third one finds the pool empty and dials too. -/
theorem goingStale_exceeds_cap :
    ∃ t, (transport Nat (fun _ => none) Sample.single).exec System.Any { pool := { now := 0 } }
        (Sample.goingStale ++ [.send 7, .replay 1, .pool (.acquire 2)]) = some t ∧
      Sample.single.maxConnections = 1 ∧ t.connections 7 = 2 :=
  ⟨_, rfl, rfl, rfl⟩

end Repost.Pool
