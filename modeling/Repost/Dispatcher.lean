import Repost.AdmissionAccounting

namespace Repost
open Runs
set_option autoImplicit true

def observerQueueCapacity : Nat := 1024

/-- Where the dispatcher's goroutine is. The observer runs at `calling`; at `draining` and `drained`
the source has only the number of the events. -/
inductive LoopAt (α : Type) where
  | starting
  | looking
  | selecting
  | claiming (event : α)
  | calling (event : α)
  | failing (event : α)
  | returning (event : α)
  | refusing (event : α)
  | refused (event : α)
  | draining (dropped : List α)
  | drained (dropped : List α)
  | ending
  | ended
  deriving DecidableEq

namespace LoopAt

def current : LoopAt α → List α
  | calling e | failing e | returning e => [e]
  | _ => []

/-- Events counted as dropped that have yet to leave `pending`. -/
def noted : LoopAt α → List α
  | refused e => [e]
  | drained es => es
  | _ => []

/-- Events taken from the queue about which nothing is settled. -/
def undecided : LoopAt α → List α
  | claiming e | refusing e => [e]
  | draining es => es
  | _ => []

def hand (l : LoopAt α) : List α := l.current ++ l.noted ++ l.undecided

def stopping : LoopAt α → Bool
  | draining _ | drained _ | ending | ended => true
  | _ => false

def emptied : LoopAt α → Bool
  | drained _ | ending | ended => true
  | _ => false

end LoopAt

/-- Where an outside call of `close` is. -/
inductive CloseAt where
  | awaitingIdle
  | awaitingDone
  | returned
  deriving DecidableEq

inductive Settlement where
  | delivered
  | dropped
  deriving DecidableEq

def settledAs (k : Settlement) (l : List (α × Settlement)) : List α :=
  (l.filter fun x => x.2 = k).map Prod.fst

/-- The dispatcher, the calls of `emit` that have yet to count their event as dropped, and the
outside calls of `close`. The last fields are histories that no step reads. -/
structure Dispatcher (α : Type) where
  goroutine : Nat
  goroutine_ne : goroutine ≠ 0
  runGID : Nat := 0
  events : List α := []
  stops : Nat := 0
  done : Bool := false
  pending : Int := 0
  active : Bool := false
  closing : Bool := false
  loop : LoopAt α := .starting
  dropping : List α := []
  closes : List CloseAt := []
  emitted : List α := []
  enqueued : List α := []
  rejected : List α := []
  began : List α := []
  settled : List (α × Settlement) := []

inductive LoopAct where
  | next
  | stopped
  | panicked
  deriving DecidableEq

/-- The steps of the dispatcher and its callers. A call of `close` comes from a goroutine. -/
inductive DispatcherAct (α : Type) where
  | emit (event : α)
  | countDropped (i : Nat)
  | loop (a : LoopAct)
  | flush
  | close (gid : Nat)
  | resume (i : Nat)

abbrev Tally := Option (Counter × Int)

def RuntimeState.tally (s : RuntimeState) : Tally → RuntimeState
  | none => s
  | some (c, delta) => s.count c delta

def sameNonzeroGoroutine (current dispatcher : Nat) : Bool :=
  current ≠ 0 && dispatcher ≠ 0 && current = dispatcher

namespace Dispatcher

def isCurrentCallback (d : Dispatcher α) (gid : Nat) : Bool := sameNonzeroGoroutine gid d.runGID

/-- The locked section of `emit`. -/
def emit (d : Dispatcher α) (event : α) : Dispatcher α :=
  let d := { d with emitted := d.emitted ++ [event] }
  if d.closing then { d with dropping := d.dropping ++ [event] }
  else if d.events.length < observerQueueCapacity then
    { d with events := d.events ++ [event], pending := d.pending + 1
             enqueued := d.enqueued ++ [event] }
  else { d with dropping := d.dropping ++ [event] }

/-- The claim on an event, and where the goroutine goes on: to the observer or to the drop. -/
def claimDelivery (d : Dispatcher α) (event : α) : Dispatcher α :=
  if d.closing then { d with loop := .refusing event }
  else { d with active := true, loop := .calling event, began := d.began ++ [event] }

/-- The locked section of `deliver`, after the callback. -/
def deliver (d : Dispatcher α) (event : α) : Dispatcher α :=
  { d with active := false, pending := d.pending - 1, loop := .looking
           settled := d.settled ++ [(event, .delivered)] }

def complete (d : Dispatcher α) (events : List α) (loop : LoopAt α) : Dispatcher α :=
  { d with pending := d.pending - events.length, loop := loop
           settled := d.settled ++ events.map fun e => (e, .dropped) }

/-- One step of `run`. -/
def run (d : Dispatcher α) (a : LoopAct) : Option (Dispatcher α × Tally) :=
  match d.loop, a with
  | .starting, .next => some ({ d with runGID := d.goroutine, loop := .looking }, none)
  | .looking, .next =>
    some (if d.stops > 0 then { d with loop := .draining [] } else { d with loop := .selecting }, none)
  | .selecting, .next =>
    match d.events with
    | e :: rest => some ({ d with events := rest, loop := .claiming e }, none)
    | [] => none
  | .selecting, .stopped => if d.stops > 0 then some ({ d with loop := .draining [] }, none) else none
  | .claiming e, .next => some (d.claimDelivery e, none)
  | .calling e, .next => some ({ d with loop := .returning e }, none)
  | .calling e, .panicked => some ({ d with loop := .failing e }, none)
  | .failing e, .next => some ({ d with loop := .returning e }, some (.observerFailures, 1))
  | .returning e, .next => some (d.deliver e, none)
  | .refusing e, .next => some ({ d with loop := .refused e }, some (.droppedObserverEvents, 1))
  | .refused e, .next => some (d.complete [e] .looking, none)
  | .draining es, .next =>
    match d.events with
    | e :: rest => some ({ d with events := rest, loop := .draining (es ++ [e]) }, none)
    | [] =>
      if es.length > 0 then
        some ({ d with loop := .drained es }, some (.droppedObserverEvents, es.length))
      else some ({ d with loop := .ending }, none)
  | .drained es, .next => some (d.complete es .ending, none)
  | .ending, .next => some ({ d with done := true, loop := .ended }, none)
  | _, _ => none

def inCallback (d : Dispatcher α) : Bool :=
  match d.loop with
  | .calling _ => true
  | _ => false

/-- The locked section of `close`. From the dispatcher's own goroutine it is called in a callback
only; such a call never waits. -/
def close (d : Dispatcher α) (gid : Nat) : Option (Dispatcher α) :=
  if gid = d.goroutine && !d.inCallback then none
  else
    let self := d.isCurrentCallback gid
    if d.closing then
      some (if self then d else { d with closes := d.closes ++ [.awaitingDone] })
    else
      let d := { d with closing := true }
      if self then some { d with stops := d.stops + 1 }
      else if d.active then some { d with closes := d.closes ++ [.awaitingIdle] }
      else some { d with stops := d.stops + 1, closes := d.closes ++ [.awaitingDone] }

/-- A waiting call of `close` looks again. -/
def resume (d : Dispatcher α) (i : Nat) : Option (Dispatcher α) :=
  match d.closes[i]? with
  | some .awaitingIdle =>
    if d.active then none
    else some { d with stops := d.stops + 1, closes := d.closes.set i .awaitingDone }
  | some .awaitingDone => if d.done then some { d with closes := d.closes.set i .returned } else none
  | _ => none

def countDropped (d : Dispatcher α) (i : Nat) : Option (Dispatcher α × Tally) :=
  match d.dropping[i]? with
  | some e =>
    some ({ d with dropping := d.dropping.eraseIdx i, rejected := d.rejected ++ [e] },
      some (.droppedObserverEvents, 1))
  | none => none

def step (d : Dispatcher α) : DispatcherAct α → Option (Dispatcher α × Tally)
  | .emit event => some (d.emit event, none)
  | .countDropped i => d.countDropped i
  | .loop a => d.run a
  | .flush => if d.pending ≠ 0 then none else some (d, none)
  | .close gid => (d.close gid).map fun d => (d, none)
  | .resume i => (d.resume i).map fun d => (d, none)

def delivered (d : Dispatcher α) : List α := settledAs .delivered d.settled

def discarded (d : Dispatcher α) : List α := settledAs .dropped d.settled

def dropped (d : Dispatcher α) : List α := d.rejected ++ d.discarded ++ d.loop.noted

def unsettled (d : Dispatcher α) : List α := d.dropping ++ d.loop.undecided ++ d.events

end Dispatcher
end Repost
