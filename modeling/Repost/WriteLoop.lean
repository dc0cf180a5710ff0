import Repost.Runs
import Repost.Observability

namespace Repost.H2
open Runs
set_option autoImplicit true

/-- An error of `write`: that of its context, that of its frame function, or the end of the
session. -/
inductive WriteError where
  | context (cause : ContextError)
  | frame (code : Nat)
  | session
  deriving DecidableEq

/-- Where a call of `write` or `queue` stands: before it looks at its context, at the first `select`,
at the second one, at the one after `started`, or at its end. A call of `queue` leaves once it has
put its frame function on the channel. -/
inductive CallerPoint where
  | absent
  | check
  | enqueue
  | await
  | awaitStarted
  | left
  | returned (err : Option WriteError)
  deriving DecidableEq

/-- The function given to `context.AfterFunc`: not registered, registered, running on its own
goroutine, or stopped or done. -/
inductive Cancellation where
  | unset | armed | launched | over
  deriving DecidableEq

/-- `stopCancellation`: a function that runs already is not stopped. -/
def Cancellation.stop : Cancellation → Cancellation
  | .armed => .over
  | c => c

/-- A call of `write` or `queue` with its context and its channels, and `settled` of its turn in the
write loop. -/
structure Caller where
  queued : Bool := false
  ctx : Option ContextError := none
  point : CallerPoint := .absent
  started : Bool := false
  done : Option (Option WriteError) := none
  cancellation : Cancellation := .unset
  settled : Bool := false

inductive LoopPoint where
  | idle
  | received (w : Nat)
  | checking (w : Nat)
  | arming (w : Nat)
  | ready (w : Nat)
  | running (w : Nat)
  | wrote (w : Nat) (err : Option Nat)
  | unblocking (w : Nat) (err : Option Nat)
  | reporting (w : Nat) (err : Option Nat)
  | failing
  | exited
  deriving DecidableEq

inductive WriteEvent where
  | began (w : Nat)
  | ended (w : Nat) (err : Option Nat)
  deriving DecidableEq

/-- `deadline` is the call whose cancellation set the write deadline of the connection. `enqueued` and
`log` record the order on the channel and what the frame functions did. -/
structure Writing where
  callers : Nat → Caller := fun _ => {}
  queue : List Nat := []
  loop : LoopPoint := .idle
  closed : Bool := false
  deadline : Option Nat := none
  enqueued : List Nat := []
  log : List WriteEvent := []

/-- Which branch of a `select` is taken. -/
inductive WriteBranch where
  | go | context | session
  deriving DecidableEq

/-- The steps of the loop: it goes on, takes the end of the session, or its frame function
returns. -/
inductive LoopChoice where
  | go
  | session
  | returns (err : Option Nat)
  deriving DecidableEq

inductive WriteAct where
  | begin (i : Nat) (queued : Bool)
  | cancel (i : Nat) (cause : ContextError)
  | caller (i : Nat) (branch : WriteBranch)
  | loop (choice : LoopChoice)
  | launch (i : Nat)
  | callback (i : Nat)
  | close
  deriving DecidableEq

def writeChSize : Nat := 64

namespace Writing

def update (s : Writing) (i : Nat) (f : Caller → Caller) : Writing :=
  { s with callers := fun j => if j = i then f (s.callers j) else s.callers j }

section
variable {s : Writing} {i j : Nat} {f : Caller → Caller}

theorem update_self : (s.update i f).callers i = f (s.callers i) := if_pos rfl

theorem update_other (h : j ≠ i) : (s.update i f).callers j = s.callers j := if_neg h

theorem update_keeps (g : Caller → α) (j : Nat) (h : ∀ c, g (f c) = g c := by intro c; rfl) :
    g ((s.update i f).callers j) = g (s.callers j) := by
  by_cases hj : j = i
  · subst hj
    rw [update_self, h]
  · rw [update_other hj]

end

abbrev goTo (s : Writing) (i : Nat) (point : CallerPoint) : Writing :=
  s.update i fun c => { c with point := point }

abbrev leave (s : Writing) (i : Nat) (err : Option WriteError) : Writing := s.goTo i (.returned err)

/-- One step of `write` or `queue`. -/
def callerStep (s : Writing) (i : Nat) : CallerPoint → WriteBranch → Option Writing
  | .check, .go =>
    match (s.callers i).ctx with
    | some e => some (s.leave i (some (.context e)))
    | none => some (s.goTo i .enqueue)
  | .enqueue, .go =>
    if s.queue.length < writeChSize then
      some ({ s with queue := s.queue ++ [i], enqueued := s.enqueued ++ [i] }.goTo i
        (if (s.callers i).queued then .left else .await))
    else none
  | .enqueue, .context =>
    if (s.callers i).queued then none
    else (s.callers i).ctx.map fun e => s.leave i (some (.context e))
  | .enqueue, .session =>
    if s.closed then
      some (if (s.callers i).queued then s.goTo i .left else s.leave i (some .session))
    else none
  | .await, .go => (s.callers i).done.map fun err => s.leave i err
  | .await, .context =>
    (s.callers i).ctx.map fun e =>
      if (s.callers i).started then s.goTo i .awaitStarted else s.leave i (some (.context e))
  | .await, .session => if s.closed then some (s.leave i (some .session)) else none
  | .awaitStarted, .go => (s.callers i).done.map fun err => s.leave i err
  | .awaitStarted, .session =>
    if s.closed then (s.callers i).ctx.map fun e => s.leave i (some (.context e)) else none
  | _, _ => none

/-- The error that the loop reports: the context's if the frame function failed and the context has
ended. -/
def reported (s : Writing) (w : Nat) (err : Option Nat) : Option WriteError :=
  err.map fun code =>
    match (s.callers w).ctx with
    | some e => .context e
    | none => .frame code

/-- One step of `writeLoop`. -/
def loopStep (s : Writing) : LoopPoint → LoopChoice → Option Writing
  | .idle, .go =>
    match s.queue with
    | w :: rest => some { s with queue := rest, loop := .received w }
    | [] => none
  | .idle, .session => if s.closed then some { s with loop := .exited } else none
  | .received w, .go =>
    some ({ s with loop := .checking w }.update w fun c => { c with started := true })
  | .checking w, .go =>
    match (s.callers w).ctx with
    | some e =>
      some ({ s with loop := .idle }.update w fun c => { c with done := some (some (.context e)) })
    | none => some { s with loop := .arming w }
  | .arming w, .go =>
    some ({ s with loop := .ready w }.update w fun c => { c with cancellation := .armed })
  | .ready w, .go => some { s with loop := .running w, log := s.log ++ [.began w] }
  | .running w, .returns err =>
    some { s with loop := .wrote w err, log := s.log ++ [.ended w err] }
  | .wrote w err, .go =>
    some ({ s with loop := .unblocking w err }.update w fun c =>
      { c with cancellation := c.cancellation.stop })
  | .unblocking w err, .go =>
    some ({ s with deadline := none, loop := .reporting w err }.update w fun c =>
      { c with settled := true })
  | .reporting w err, .go =>
    some ({ s with loop := if err = none then .idle else .failing }.update w fun c =>
      { c with done := some (s.reported w err) })
  | .failing, .go => some { s with closed := true, loop := .exited }
  | _, _ => none

end Writing

def writeStep (s : Writing) : WriteAct → Option Writing
  | .begin i queued =>
    if (s.callers i).point = .absent then
      some (s.update i fun c =>
        { c with
          queued := queued
          ctx := if queued then none else c.ctx
          point := if queued then .enqueue else .check })
    else none
  | .cancel i cause =>
    if (s.callers i).ctx = none ∧ (s.callers i).queued = false then
      some (s.update i fun c => { c with ctx := some cause })
    else none
  | .caller i branch => s.callerStep i (s.callers i).point branch
  | .loop choice => s.loopStep s.loop choice
  | .launch i =>
    if (s.callers i).cancellation = .armed ∧ (s.callers i).ctx ≠ none then
      some (s.update i fun c => { c with cancellation := .launched })
    else none
  | .callback i =>
    if (s.callers i).cancellation = .launched then
      some ({ s with deadline := if (s.callers i).settled then s.deadline else some i }.update i fun c =>
        { c with cancellation := .over })
    else none
  | .close => some { s with closed := true }

/-- A step of a caller that has only its own point to change: it never leaves the points before the
channel for those after it. -/
inductive Writing.CallerTurn (s : Writing) (i : Nat) : CallerPoint → Prop where
  | enqueue (hp : (s.callers i).point = .check) (hc : (s.callers i).ctx = none) :
      CallerTurn s i .enqueue
  | ended (hc : (s.callers i).ctx = some e)
      (hp : (s.callers i).point ∈ [.check, .enqueue, .await, .awaitStarted]) :
      CallerTurn s i (.returned (some (.context e)))
  | session (hc : s.closed = true) (hp : (s.callers i).point ∈ [.enqueue, .await]) :
      CallerTurn s i (.returned (some .session))
  | left (hp : (s.callers i).point = .enqueue) : CallerTurn s i .left
  | done (hp : (s.callers i).point ∈ [.await, .awaitStarted])
      (hd : (s.callers i).done = some err) : CallerTurn s i (.returned err)
  | awaitStarted (hp : (s.callers i).point = .await) (hs : (s.callers i).started = true) :
      CallerTurn s i .awaitStarted

inductive Writing.Moves (s : Writing) : Writing → Prop where
  | begin (i : Nat) (queued : Bool) (hp : (s.callers i).point = .absent) :
      Moves s (s.update i fun c =>
        { c with
          queued := queued
          ctx := if queued then none else c.ctx
          point := if queued then .enqueue else .check })
  | cancel (i : Nat) (cause : ContextError) (hc : (s.callers i).ctx = none) :
      Moves s (s.update i fun c => { c with ctx := some cause })
  | turn (i : Nat) (h : s.CallerTurn i point) : Moves s (s.goTo i point)
  | send (i : Nat) (hp : (s.callers i).point = .enqueue) (point : CallerPoint)
      (hq : point = .left ∨ point = .await) :
      Moves s ({ s with queue := s.queue ++ [i], enqueued := s.enqueued ++ [i] }.goTo i point)
  | receive (hl : s.loop = .idle) (hq : s.queue = w :: rest) :
      Moves s { s with queue := rest, loop := .received w }
  | exit (hl : s.loop = .idle) : Moves s { s with loop := .exited }
  | start (hl : s.loop = .received w) :
      Moves s ({ s with loop := .checking w }.update w fun c => { c with started := true })
  | skip (hl : s.loop = .checking w) (hc : (s.callers w).ctx = some e) :
      Moves s ({ s with loop := .idle }.update w fun c => { c with done := some (some (.context e)) })
  | pass (hl : s.loop = .checking w) (hc : (s.callers w).ctx = none) :
      Moves s { s with loop := .arming w }
  | arm (hl : s.loop = .arming w) :
      Moves s ({ s with loop := .ready w }.update w fun c => { c with cancellation := .armed })
  | run (hl : s.loop = .ready w) :
      Moves s { s with loop := .running w, log := s.log ++ [.began w] }
  | finish (hl : s.loop = .running w) (err : Option Nat) :
      Moves s { s with loop := .wrote w err, log := s.log ++ [.ended w err] }
  | stop (hl : s.loop = .wrote w err) :
      Moves s ({ s with loop := .unblocking w err }.update w fun c =>
        { c with cancellation := c.cancellation.stop })
  | settle (hl : s.loop = .unblocking w err) :
      Moves s ({ s with deadline := none, loop := .reporting w err }.update w fun c =>
        { c with settled := true })
  | report (hl : s.loop = .reporting w err) :
      Moves s ({ s with loop := if err = none then .idle else .failing }.update w fun c =>
        { c with done := some (s.reported w err) })
  | shut (hl : s.loop = .failing) : Moves s { s with closed := true, loop := .exited }
  | launch (i : Nat) (hc : (s.callers i).cancellation = .armed) :
      Moves s (s.update i fun c => { c with cancellation := .launched })
  | callback (i : Nat) (hc : (s.callers i).cancellation = .launched) :
      Moves s ({ s with deadline := if (s.callers i).settled then s.deadline else some i }.update i fun c =>
        { c with cancellation := .over })
  | close : Moves s { s with closed := true }

variable {s s' : Writing}

theorem Writing.callerStep_moves
    (h : s.callerStep i (s.callers i).point branch = some s') : s.Moves s' := by
  generalize hp : (s.callers i).point = point at h
  unfold Writing.callerStep at h
  have hmem : ∀ {q : CallerPoint} {qs : List CallerPoint}, (s.callers i).point = q → q ∈ qs →
      (s.callers i).point ∈ qs := fun hq hqs => hq ▸ hqs
  split at h
  · split at h
    · rename_i e hc
      cases h
      exact .turn i (.ended hc (hmem hp (by decide)))
    · rename_i hc
      cases h
      exact .turn i (.enqueue hp hc)
  · split at h
    · cases h
      refine .send i hp _ ?_
      split
      · exact .inl rfl
      · exact .inr rfl
    · cases h
  · split at h
    · cases h
    · obtain ⟨e, hc, rfl⟩ := Option.map_eq_some_iff.1 h
      exact .turn i (.ended hc (hmem hp (by decide)))
  · split at h
    · rename_i hclosed
      cases h
      split
      · exact .turn i (.left hp)
      · exact .turn i (.session hclosed (hmem hp (by decide)))
    · cases h
  · obtain ⟨err, hd, rfl⟩ := Option.map_eq_some_iff.1 h
    exact .turn i (.done (hmem hp (by decide)) hd)
  · obtain ⟨e, hc, rfl⟩ := Option.map_eq_some_iff.1 h
    split
    · rename_i hs
      exact .turn i (.awaitStarted hp hs)
    · exact .turn i (.ended hc (hmem hp (by decide)))
  · split at h
    · rename_i hclosed
      cases h
      exact .turn i (.session hclosed (hmem hp (by decide)))
    · cases h
  · obtain ⟨err, hd, rfl⟩ := Option.map_eq_some_iff.1 h
    exact .turn i (.done (hmem hp (by decide)) hd)
  · split at h
    · obtain ⟨e, hc, rfl⟩ := Option.map_eq_some_iff.1 h
      exact .turn i (.ended hc (hmem hp (by decide)))
    · cases h
  · cases h

theorem Writing.loopStep_moves (h : s.loopStep s.loop choice = some s') :
    s.Moves s' := by
  generalize hl : s.loop = loop at h
  unfold Writing.loopStep at h
  split at h
  · split at h
    · rename_i hq
      cases h
      exact .receive hl hq
    · cases h
  · split at h
    · cases h
      exact .exit hl
    · cases h
  · cases h
    exact .start hl
  · split at h
    · rename_i hc
      cases h
      exact .skip hl hc
    · rename_i hc
      cases h
      exact .pass hl hc
  · cases h
    exact .arm hl
  · cases h
    exact .run hl
  · cases h
    exact .finish hl _
  · cases h
    exact .stop hl
  · cases h
    exact .settle hl
  · cases h
    exact .report hl
  · cases h
    exact .shut hl
  · cases h

theorem writeStep_moves (h : writeStep s a = some s') : s.Moves s' := by
  cases a with
  | begin i queued =>
    obtain ⟨hp, h⟩ := Option.ite_none_right_eq_some.1 h
    cases h
    exact .begin i queued hp
  | cancel i cause =>
    obtain ⟨hc, h⟩ := Option.ite_none_right_eq_some.1 h
    cases h
    exact .cancel i cause hc.1
  | caller i branch => exact Writing.callerStep_moves h
  | loop choice => exact Writing.loopStep_moves h
  | launch i =>
    obtain ⟨hc, h⟩ := Option.ite_none_right_eq_some.1 h
    cases h
    exact .launch i hc.1
  | callback i =>
    obtain ⟨hc, h⟩ := Option.ite_none_right_eq_some.1 h
    cases h
    exact .callback i hc
  | close =>
    cases h
    exact .close

/-- Any number of writes on one session, in any order with the loop and the cancellations. -/
def writing : System Writing WriteAct where
  Init s := s = {}
  step := writeStep

end Repost.H2
