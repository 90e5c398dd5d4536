import Mathlib.Logic.Function.Basic
import PipeWorks.Lib.EvictingQueue
import PipeWorks.Lib.StepSystem

/-!
# The event broker (`ProcessEventBroker` of `conductor/web/process_event_broker.py`)

`publish` runs in other threads than the event loop, one thread for each process.  It registers
the event and takes a snapshot of the subscribers under the lock, and schedules the callbacks
outside of it, one by one and in any order, since the subscribers are a set.  `subscribe` runs on
the loop: it registers its queue and takes a snapshot of the history under the lock, and replays
the history outside of it; publishers may run in between, other callbacks and readers may not.

There is one event loop, so the check of `_loop` in `subscribe` passes.  The subscribers of
status events, who have no history, are not part of this state.

An event carries its number among the events of its process, so that two events are different
even if they say the same.
-/

set_option autoImplicit false

namespace PipeWorks.Conductor

structure Event (α : Type) where
  number : Nat
  payload : α
  deriving DecidableEq, Repr

/-- A queue that `subscribe` has created. -/
structure Subscriber (α : Type) where
  process : String
  queue : EvictingQueue (Event α)
  /-- history: how many events of the process had been published when it subscribed -/
  since : Nat
  /-- history: how many when it unsubscribed -/
  until? : Option Nat

structure State (α : Type) where
  /-- `_loop is not None` -/
  loop : Bool
  subscribers : String → List Nat
  history : String → List (Event α)
  /-- every queue created so far; a subscriber is its position -/
  queues : List (Subscriber α)
  /-- the calls of `_putLatest` that the loop has still to run -/
  callbacks : List (Nat × Event α)
  /-- `publish`, behind its locked section: the subscribers it has still to schedule -/
  publishing : String → Option (Event α × List Nat)
  /-- `subscribe`, behind its locked section: the history it has still to replay -/
  replaying : Option (Nat × List (Event α))
  /-- history: a `put_nowait` of `subscribe` has raised -/
  queueFull : Bool
  /-- history: all events of a process -/
  published : String → List (Event α)

inductive Label (α : Type) where
  | subscribe (processId : String)
  /-- the next round of the replay loop, or its end -/
  | replay
  | unsubscribe (id : Nat)
  /-- `processId` is `none` if the event's is not a `str` -/
  | publish (processId : Option String) (payload : α)
  | schedule (processId : String) (id : Nat)
  | callback
  | read (id : Nat)

variable {α : Type}

/-- `ProcessEventBroker.__init__`. -/
def State.init : State α :=
  { loop := false
    subscribers := fun _ => []
    history := fun _ => []
    queues := []
    callbacks := []
    publishing := fun _ => none
    replaying := none
    queueFull := false
    published := fun _ => [] }

/-- Replace the queue of a subscriber. -/
def State.setQueue (s : State α) (id : Nat) (queue : EvictingQueue (Event α)) : State α :=
  { s with queues := s.queues.modify id fun sub => { sub with queue := queue } }

/-- `subscribe`, under the lock. -/
def State.subscribe (s : State α) (processId : String) : State α :=
  { s with
    loop := true
    subscribers := Function.update s.subscribers processId
      (s.subscribers processId ++ [s.queues.length])
    queues := s.queues ++ [⟨processId, .empty, (s.published processId).length, none⟩]
    replaying := some (s.queues.length, s.history processId) }

/-- One round of the loop of `subscribe`. -/
def State.replay (m : Nat) (s : State α) (id : Nat) : List (Event α) → State α
  | [] => { s with replaying := none }
  | e :: rest =>
    match s.queues[id]?.bind fun sub => sub.queue.putNowait m e with
    | none => { s with replaying := none, queueFull := true }
    | some queue => { s.setQueue id queue with replaying := some (id, rest) }

/-- `unsubscribe`. -/
def State.unsubscribe (s : State α) (id : Nat) (sub : Subscriber α) : State α :=
  { s with
    subscribers := Function.update s.subscribers sub.process
      ((s.subscribers sub.process).erase id)
    queues := s.queues.modify id fun sub =>
      { sub with until? := some (s.published sub.process).length } }

/-- `publish`, under the lock, and its return if there is nobody to notify. -/
def State.publish (m : Nat) (s : State α) (processId : String) (e : Event α) : State α :=
  { s with
    history := Function.update s.history processId ((s.history processId ++ [e]).rtake m)
    published := Function.update s.published processId (s.published processId ++ [e])
    publishing := Function.update s.publishing processId
      (if !s.loop || (s.subscribers processId).isEmpty then none
       else some (e, s.subscribers processId)) }

/-- One round of the loop of `publish`. -/
def State.schedule (s : State α) (processId : String) (id : Nat) (e : Event α)
    (rest : List Nat) : State α :=
  { s with
    callbacks := s.callbacks ++ [(id, e)]
    publishing := Function.update s.publishing processId
      (if (rest.erase id).isEmpty then none else some (e, rest.erase id)) }

/-- `_putLatest`. -/
def State.putLatest (m : Nat) (s : State α) (id : Nat) (e : Event α) : State α :=
  match s.queues[id]? with
  | none => s
  | some sub => s.setQueue id (sub.queue.putLatest m e)

/-- A step; `subscribe`, `unsubscribe`, callbacks and readers need the loop. -/
def step (m : Nat) (s : State α) : Label α → Option (State α)
  | .subscribe processId => if s.replaying.isNone then some (s.subscribe processId) else none
  | .replay => s.replaying.map fun (id, rest) => s.replay m id rest
  | .unsubscribe id =>
    if s.replaying.isNone then
      (s.queues[id]?.filter (·.until?.isNone)).map (s.unsubscribe id)
    else none
  | .publish none _ => some s
  | .publish (some processId) payload =>
    if (s.publishing processId).isNone then
      some (s.publish m processId ⟨(s.published processId).length, payload⟩)
    else none
  | .schedule processId id =>
    match s.publishing processId with
    | none => none
    | some (e, rest) => if id ∈ rest then some (s.schedule processId id e rest) else none
  | .callback =>
    match s.replaying, s.callbacks with
    | none, (id, e) :: callbacks => some { s.putLatest m id e with callbacks := callbacks }
    | _, _ => none
  | .read id =>
    if s.replaying.isNone then
      (s.queues[id]?.bind fun sub => sub.queue.getNowait).map fun (_, queue) => s.setQueue id queue
    else none

end PipeWorks.Conductor
