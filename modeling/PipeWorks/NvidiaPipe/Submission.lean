import PipeWorks.NvidiaPipe.Sender

/-!
# Packets on their way through the `Sender` (`submit` and `queue_packets` of `nvidia_pipe/send.py`)

The pipeline thread puts packets into a bounded queue, throwing the oldest one out when the queue
stays full; the workers, one after the other, take them out again.  `deliveryStep` adds both ends
of the queue to the machine of `Sender`: the calls of `submit`, and the loop of `queue_packets` in
the worker, which looks at the stop event before every `get`.  The queue is an atomic bounded
FIFO; nothing is submitted after `stop`, which closes it, has returned.

Packets are numbered as they are submitted.  What becomes of each of them is history.
-/

set_option autoImplicit false

namespace PipeWorks.NvidiaPipe.Sender

open StepSystem

/-- A submitted packet. -/
structure Submission where
  number : Nat
  packet : Send.EncodedPacket
  deriving DecidableEq, Repr

/-- The pipeline thread. -/
inductive SubmitPc where
  | idle
  /-- in `put(packet, timeout=1)` -/
  | putting (e : Submission)
  /-- the queue was full; about to call `get_nowait` -/
  | evicting (e : Submission)
  /-- about to call `put_nowait` -/
  | replacing (e : Submission)
  deriving DecidableEq, Repr

structure Delivery where
  sender : State
  queue : List Submission
  submit : SubmitPc
  /-- the worker is in `packet_queue.get(timeout=0.5)` -/
  getting : Bool
  /-- history: every packet that has been submitted -/
  submitted : List Submission
  /-- history: the packet in the hands of the worker -/
  held : Option Submission
  /-- history: the packets that have been muxed, by any worker -/
  muxed : List Submission
  /-- history: the packets thrown out by a `submit` that has found the queue full -/
  evicted : List Submission
  /-- history: the packets whose `submit` has found its queue operations failing -/
  refused : List Submission
  /-- history: the packets a worker has passed over while it waited for a keyframe -/
  discarded : List Submission
  /-- history: the packets that were in the hands of a worker when it was stopped or exited, with
      the worker -/
  abandoned : List (Nat × Submission)
  deriving DecidableEq, Repr

inductive DeliveryLabel where
  | submit (p : Send.EncodedPacket)
  | put
  /-- `put` times out -/
  | putFull
  | evict
  /-- `get_nowait` finds the queue empty -/
  | evictEmpty
  | replace
  /-- `put_nowait` finds the queue full -/
  | replaceFull
  /-- the stop event is not set: the worker calls `get` -/
  | get
  | getEmpty
  | take
  | sender (l : Label)
  deriving DecidableEq, Repr

def Delivery.init (now : Int) : Delivery :=
  { sender := State.init now
    queue := []
    submit := .idle
    getting := false
    submitted := []
    held := none
    muxed := []
    evicted := []
    refused := []
    discarded := []
    abandoned := [] }

/-- `submit(p)` begins. -/
def Delivery.call (x : Delivery) (p : Send.EncodedPacket) : Delivery :=
  { x with
    submit := .putting ⟨x.submitted.length, p⟩
    submitted := x.submitted ++ [⟨x.submitted.length, p⟩] }

/-- What `submit` does with the queue. -/
def submitStep (capacity : Nat) (x : Delivery) (l : DeliveryLabel) : Option Delivery :=
  match x.submit, l with
  | .idle, .submit p => some (x.call p)
  | .putting e, .put =>
    if x.queue.length < capacity then some { x with queue := x.queue ++ [e], submit := .idle }
    else none
  | .putting e, .putFull =>
    if x.queue.length < capacity then none else some { x with submit := .evicting e }
  | .evicting e, .evict =>
    match x.queue with
    | [] => none
    | oldest :: rest =>
      some { x with queue := rest, submit := .replacing e, evicted := x.evicted ++ [oldest] }
  | .evicting e, .evictEmpty =>
    match x.queue with
    | [] => some { x with submit := .idle, refused := x.refused ++ [e] }
    | _ :: _ => none
  | .replacing e, .replace =>
    if x.queue.length < capacity then some { x with queue := x.queue ++ [e], submit := .idle }
    else none
  | .replacing e, .replaceFull =>
    if x.queue.length < capacity then none
    else some { x with submit := .idle, refused := x.refused ++ [e] }
  | _, _ => none

/-- The packet in the hands of a live worker. -/
def State.item? (s : State) : Option Send.Item :=
  s.process.bind fun w => if w.alive then w.send.pc.item? else none

/-- The live worker. -/
def State.worker? (s : State) : Option Worker := s.process.filter (·.alive)

/-- The worker is at the head of the loop of `queue_packets`, and its stop event is not set. -/
def mayGet (w : Worker) : Bool := w.send.pc == .fetch && !w.send.shutdown

/-- Where the packet in the hands of a worker goes when the step `l` takes it from there. -/
def Delivery.release (x : Delivery) (l : Label) (e : Submission) : Delivery :=
  match l with
  | .worker (.muxed _) => { x with held := none, muxed := x.muxed ++ [e] }
  | .worker .check =>
    if x.sender.process.any (·.send.shutdown) then
      { x with
        held := none
        abandoned := x.abandoned ++ (x.sender.process.map fun w => (w.pid, e)).toList }
    else { x with held := none, discarded := x.discarded ++ [e] }
  | _ =>
    { x with
      held := none
      abandoned := x.abandoned ++ (x.sender.process.map fun w => (w.pid, e)).toList }

/-- The history after a step `l` of the `Sender` to `t`. -/
def Delivery.after (x : Delivery) (l : Label) (t : State) : Delivery :=
  let x' := match x.held with
    | none => x
    | some e => if t.item?.isSome then x else x.release l e
  { x' with sender := t, getting := x.getting && t.process.isSome }

/-- Only the loop of `queue_packets` delivers packets, and it ends when the stop event is set. -/
def Delivery.allows (x : Delivery) : Label → Bool
  | .worker (.next _) => false
  | .worker .exhausted => !x.getting && x.sender.process.any (·.send.shutdown)
  | _ => true

def deliveryStep (timeout : Int) (capacity : Nat) (x : Delivery) (l : DeliveryLabel) :
    Option Delivery :=
  match l with
  | .get =>
    if x.getting then none
    else (x.sender.worker?.filter mayGet).map fun _ => { x with getting := true }
  | .getEmpty =>
    if x.getting && x.queue.isEmpty && x.sender.worker?.isSome then some { x with getting := false }
    else none
  | .take =>
    match x.getting, x.queue with
    | true, e :: rest =>
      (step timeout x.sender (.worker (.next e.packet))).map fun t =>
        { x with sender := t, queue := rest, getting := false, held := some e }
    | _, _ => none
  | .sender l => if x.allows l then (step timeout x.sender l).map (x.after l) else none
  | l => submitStep capacity x l

/-! ## What a step of `submit` does -/

inductive Submits (capacity : Nat) (x : Delivery) : DeliveryLabel → Delivery → Prop where
  | call (p : Send.EncodedPacket) (hidle : x.submit = .idle) :
    Submits capacity x (.submit p) (x.call p)
  | put (e : Submission) (hputting : x.submit = .putting e)
      (hroom : x.queue.length < capacity) :
    Submits capacity x .put { x with queue := x.queue ++ [e], submit := .idle }
  | putFull (e : Submission) (hputting : x.submit = .putting e)
      (hfull : ¬ x.queue.length < capacity) :
    Submits capacity x .putFull { x with submit := .evicting e }
  | evict (e oldest : Submission) (rest : List Submission) (hevicting : x.submit = .evicting e)
      (hqueue : x.queue = oldest :: rest) :
    Submits capacity x .evict
      { x with queue := rest, submit := .replacing e, evicted := x.evicted ++ [oldest] }
  | evictEmpty (e : Submission) (hevicting : x.submit = .evicting e) (hqueue : x.queue = []) :
    Submits capacity x .evictEmpty { x with submit := .idle, refused := x.refused ++ [e] }
  | replace (e : Submission) (hreplacing : x.submit = .replacing e)
      (hroom : x.queue.length < capacity) :
    Submits capacity x .replace { x with queue := x.queue ++ [e], submit := .idle }
  | replaceFull (e : Submission) (hreplacing : x.submit = .replacing e)
      (hfull : ¬ x.queue.length < capacity) :
    Submits capacity x .replaceFull { x with submit := .idle, refused := x.refused ++ [e] }

theorem submitStep_submits {capacity : Nat} {x y : Delivery} {l : DeliveryLabel}
    (hstep : submitStep capacity x l = some y) : Submits capacity x l y := by
  unfold submitStep at hstep
  split at hstep
  · cases hstep
    exact .call _ ‹_›
  · split at hstep <;> cases hstep
    exact .put _ ‹_› ‹_›
  · split at hstep <;> cases hstep
    exact .putFull _ ‹_› ‹_›
  · split at hstep <;> cases hstep
    exact .evict _ _ _ ‹_› ‹_›
  · split at hstep <;> cases hstep
    exact .evictEmpty _ ‹_› ‹_›
  · split at hstep <;> cases hstep
    exact .replace _ ‹_› ‹_›
  · split at hstep <;> cases hstep
    exact .replaceFull _ ‹_› ‹_›
  · cases hstep

end PipeWorks.NvidiaPipe.Sender
