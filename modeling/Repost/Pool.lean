import Repost.Runs

namespace Repost.Pool
open Runs
set_option autoImplicit true

inductive Mode where
  | exclusive | shared
  deriving DecidableEq

structure Options where
  maxConnections : Int
  lifetime : Int
  idleTimeout : Int

structure Entry where
  mode : Mode := .exclusive
  createdAt : Int := 0
  lastIdleAt : Int := 0
  active : Int := 0
  acquisitions : UInt64 := 0
  retiring : Bool := false

structure Lease (κ : Type) where
  key : κ
  entry : Nat
  reused : Bool
  released : Bool := false

inductive AcquireError where
  | context | closed | dial
  deriving DecidableEq

/-- Where a call of `Acquire` is: at the head of its loop, in its dial, between the dial and the
second section, about to close a resource that came too late, in the `select`, or done. -/
inductive Phase where
  | entering
  | dialing
  | dialed (result : Option (Nat × Mode))
  | discarding (resource : Nat)
  | waiting (channel : Nat)
  | returned (result : Except AcquireError Nat)

structure Call (κ : Type) where
  key : κ
  phase : Phase

/-- The pool, its callers and its resources. Resources are numbered in the order in which dials
return them, and an entry goes by the number of its resource. The entries of a key are those that
stand beside it in `entries`. Channels are numbered too: `notify` is the one in use. -/
structure World (κ : Type) where
  entries : List (κ × Nat) := []
  pending : κ → Int := fun _ => 0
  notify : Nat := 0
  closed : Bool := false
  heap : Nat → Entry := fun _ => {}
  dialed : Nat := 0
  reusable : Nat → Option Bool := fun _ => none
  closes : Nat → Nat := fun _ => 0
  leases : List (Lease κ) := []
  calls : List (Call κ) := []
  now : Int

/-- `now.Sub(t)`, which saturates. -/
def since (now t : Int) : Int := max (-(2 ^ 63)) (min (2 ^ 63 - 1) (now - t))

def expired (options : Options) (now : Int) (candidate : Entry) : Bool :=
  since now candidate.createdAt ≥ options.lifetime ||
    (candidate.active == 0 && since now candidate.lastIdleAt ≥ options.idleTimeout)

namespace World

def setEntry (w : World κ) (e : Nat) (entry : Entry) : World κ :=
  { w with heap := Function.update w.heap e entry }

def retire (w : World κ) (e : Nat) : World κ := w.setEntry e { w.heap e with retiring := true }

/-- `resource.Close()`. -/
def closeResource (w : World κ) (r : Nat) : World κ :=
  { w with closes := Function.update w.closes r (w.closes r + 1) }

/-- The loop of `expireLocked` and of `Close`: stale entries retire, and those of the retired that
are idle are closed and not kept. -/
def sweep (stale : Entry → Bool) : List Nat → World κ → List Nat × World κ
  | [], w => ([], w)
  | e :: rest, w =>
    let w := if stale (w.heap e) then w.retire e else w
    if (w.heap e).retiring && (w.heap e).active == 0 then sweep stale rest (w.closeResource e)
    else
      let (kept, w) := sweep stale rest w
      (e :: kept, w)

/-- The first entry that can be leased; those that report not to be reusable retire on the way. -/
def available : List Nat → World κ → Option Nat × World κ
  | [], w => (none, w)
  | e :: rest, w =>
    let w := if w.reusable e = some false then w.retire e else w
    if !(w.heap e).retiring && ((w.heap e).mode = .shared || (w.heap e).active == 0) then (some e, w)
    else available rest w

def signalLocked (w : World κ) : World κ :=
  if w.closed then w else { w with notify := w.notify + 1 }

def setCall (w : World κ) (i : Nat) (key : κ) (phase : Phase) : World κ :=
  { w with calls := w.calls.set i ⟨key, phase⟩ }

def grant (w : World κ) (i : Nat) (key : κ) (e : Nat) (reused : Bool) : World κ :=
  { w with
    leases := w.leases ++ [{ key := key, entry := e, reused := reused }]
    calls := w.calls.set i ⟨key, .returned (.ok w.leases.length)⟩ }

variable [DecidableEq κ]

/-- `p.entries[key]`. -/
def entriesOf (w : World κ) (key : κ) : List Nat :=
  (w.entries.filter fun p => p.1 = key).map Prod.snd

/-- `p.entries[key] = kept`, or its deletion when nothing is kept. -/
def setEntries (w : World κ) (key : κ) (kept : List Nat) : World κ :=
  { w with entries := w.entries.filter (fun p => p.1 ≠ key) ++ kept.map (key, ·) }

def filterEntries (stale : Entry → Bool) (w : World κ) (key : κ) : World κ :=
  let (kept, w) := sweep stale (w.entriesOf key) w
  w.setEntries key kept

def expireLocked (options : Options) (w : World κ) (key : κ) : World κ :=
  w.filterEntries (expired options w.now) key

def availableLocked (w : World κ) (key : κ) : Option Nat × World κ := available (w.entriesOf key) w

/-- The first section of `Acquire`. -/
def acquire (options : Options) (w : World κ) (i : Nat) (key : κ) : World κ :=
  let w := w.expireLocked options key
  if w.closed then w.setCall i key (.returned (.error .closed))
  else
    match w.availableLocked key with
    | (some e, w) =>
      let acquisitions := (w.heap e).acquisitions + 1
      let w := w.setEntry e
        { w.heap e with active := (w.heap e).active + 1, acquisitions := acquisitions }
      w.grant i key e (acquisitions > 1)
    | (none, w) =>
      if (w.entriesOf key).length + w.pending key < options.maxConnections then
        World.setCall { w with pending := Function.update w.pending key (w.pending key + 1) } i key
          .dialing
      else w.setCall i key (.waiting w.notify)

/-- The dial returns: an error, or a new resource and what it answers to `Reusable`, if anything. -/
def dial (w : World κ) (i : Nat) (key : κ) (result : Option (Mode × Option Bool)) : World κ :=
  match result with
  | none => w.setCall i key (.dialed none)
  | some (mode, reusable) =>
    World.setCall
      { w with
        dialed := w.dialed + 1
        reusable := Function.update w.reusable w.dialed reusable }
      i key (.dialed (some (w.dialed, mode)))

/-- The second section of `Acquire`. -/
def settle (w : World κ) (i : Nat) (key : κ) (result : Option (Nat × Mode)) : World κ :=
  let w := signalLocked { w with pending := Function.update w.pending key (w.pending key - 1) }
  match result with
  | none => w.setCall i key (.returned (.error .dial))
  | some (r, mode) =>
    if w.closed then w.setCall i key (.discarding r)
    else
      let w := w.setEntry r
        { mode := mode, createdAt := w.now, lastIdleAt := w.now, active := 1, acquisitions := 1 }
      World.grant { w with entries := w.entries ++ [(key, r)] } i key r false

def removeLocked (w : World κ) (key : κ) (target : Nat) : World κ :=
  w.setEntries key ((w.entriesOf key).erase target)

/-- The section of `Release`, which runs once for a lease. -/
def release (w : World κ) (l : Nat) (lease : Lease κ) (reusable : Bool) : World κ :=
  let e := lease.entry
  let w := w.setEntry e
    { w.heap e with
      active := (w.heap e).active - 1
      retiring := (w.heap e).retiring || !reusable || w.closed }
  let w :=
    if (w.heap e).active = 0 then
      let w := w.setEntry e { w.heap e with lastIdleAt := w.now }
      if (w.heap e).retiring then (w.removeLocked lease.key e).closeResource e else w
    else w
  signalLocked { w with leases := w.leases.set l { lease with released := true } }

def keys (w : World κ) : List κ := (w.entries.map Prod.fst).dedup

def close (w : World κ) : World κ :=
  if w.closed then w
  else w.keys.foldl (filterEntries fun _ => true) { w with closed := true }

end World

inductive Act (κ : Type) where
  | call (key : κ)
  | cancel (i : Nat)
  | acquire (i : Nat)
  | dial (i : Nat) (result : Option (Mode × Option Bool))
  | settle (i : Nat)
  | discard (i : Nat)
  | wake (i : Nat)
  | release (l : Nat) (reusable : Bool)
  | close
  | tick (now : Int)
  | turn (resource : Nat) (reusable : Bool)

/-- A closed channel can be received from: one that was replaced, or the last one after `Close`. -/
def World.signalled (w : World κ) (channel : Nat) : Bool := channel < w.notify || w.closed

def step [DecidableEq κ] (options : Options) (w : World κ) : Act κ → Option (World κ)
  | .call key => some { w with calls := w.calls ++ [⟨key, .entering⟩] }
  | .cancel i =>
    match w.calls[i]? with
    | some ⟨key, .entering⟩ | some ⟨key, .waiting _⟩ =>
      some (w.setCall i key (.returned (.error .context)))
    | _ => none
  | .acquire i =>
    match w.calls[i]? with
    | some ⟨key, .entering⟩ => some (w.acquire options i key)
    | _ => none
  | .dial i result =>
    match w.calls[i]? with
    | some ⟨key, .dialing⟩ => some (w.dial i key result)
    | _ => none
  | .settle i =>
    match w.calls[i]? with
    | some ⟨key, .dialed result⟩ => some (w.settle i key result)
    | _ => none
  | .discard i =>
    match w.calls[i]? with
    | some ⟨key, .discarding r⟩ =>
      some ((w.closeResource r).setCall i key (.returned (.error .closed)))
    | _ => none
  | .wake i =>
    match w.calls[i]? with
    | some ⟨key, .waiting channel⟩ =>
      if w.signalled channel then some (w.setCall i key .entering) else none
    | _ => none
  | .release l reusable =>
    match w.leases[l]? with
    | some lease => some (if lease.released then w else w.release l lease reusable)
    | none => none
  | .close => some w.close
  | .tick now => some { w with now := now }
  | .turn resource reusable =>
    if (w.reusable resource).isSome then
      some { w with reusable := Function.update w.reusable resource (some reusable) }
    else none

def system (κ : Type) [DecidableEq κ] (options : Options) : System (World κ) (Act κ) where
  Init w := ∃ now, w = { now := now }
  step := step options

end Repost.Pool
