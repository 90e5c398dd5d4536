import Mathlib.Logic.Function.Basic
import PipeWorks.Conductor.CreateProcess
import PipeWorks.Lib.StepSystem

/-!
# The supervisor (`conductor/process/supervisor.py`)

A `Supervisor` keeps one control connection for each stream process it can reach, and a status
for each process that a heartbeat sets to `running` and that a closed connection or a missing
heartbeat sets to `stopped`.  `step` interleaves

* the receive thread of every connection (`_onMessage`, `_onClose`),
* the monitor thread (`_monitorHeartbeats`),
* the constructor and the request threads (`_openChild`, `startProcess`, `stopProcess`, and the
  requests that are a single statement of the process table),
* the clock, which counts nanoseconds.

A step is a section under a lock, or what a thread does between two of them.  Log messages, which
are handed on without touching this state, are left out.  Connections are numbered in the order
in which they are opened; fields marked *history* are never read by the code.

`Wired` is the part of the invariant that every result about this machine needs: a registered
connection belongs to the process it is registered for.
-/

set_option autoImplicit false

namespace PipeWorks.Conductor.Supervisor

open StepSystem

/-! ## Data -/

inductive ProcessStatus where
  | running
  | stopped
  deriving DecidableEq, Repr

/-- The receive thread of a connection. -/
inductive ReceivePc where
  /-- in `recv_bytes` -/
  | receiving
  /-- `_onMessage` of a heartbeat, behind the section that has recorded this time -/
  | beating (time : Int)
  /-- `_onClose`, about to take the lock of the children -/
  | closing
  /-- `_onClose`, about to mark the process stopped -/
  | closed
  /-- `_setProcessStatus`, about to publish a change to this status -/
  | publishing (status : ProcessStatus)
  | ended
  deriving DecidableEq, Repr

/-- A `StreamConnection` whose `open` has returned `True`. -/
structure Connection where
  process : String
  isOpen : Bool
  thread : ReceivePc
  /-- history: when the latest heartbeat came of a series of handled ones without a pause of more
      than the timeout -/
  beat : Option Int
  deriving DecidableEq, Repr

inductive MonitorPc where
  /-- the constructor has not started it -/
  | absent
  | sleeping
  /-- about to take the lock, having read the clock -/
  | scanning (now : Int)
  /-- about to mark the first of these processes stopped -/
  | marking (expired : List String)
  /-- about to publish that this process is stopped -/
  | publishing (processId : String) (rest : List String)
  deriving DecidableEq, Repr

/-- In `_openChild`. -/
inductive OpenPc where
  /-- about to look the child up -/
  | checking
  /-- about to call `child.open`, with this many attempts left after it -/
  | connecting (attempts : Nat)
  /-- about to register the open connection -/
  | registering (connection : Nat)
  /-- about to send `hello` -/
  | greeting (connection : Nat)
  deriving DecidableEq, Repr

/-- Who has called `_openChild`. -/
inductive Caller where
  /-- the constructor, with the processes it has still to open -/
  | init (rest : List String)
  | startProcess
  deriving DecidableEq, Repr

/-- How a call ends. -/
inductive Outcome where
  | returned
  | alreadyExists
  | invalid
  | notFound
  | notRunning
  /-- the `RuntimeError` of `startProcess` -/
  | timedOut
  /-- any other exception -/
  | raised
  deriving DecidableEq, Repr

/-- The constructor, or a thread that serves a request. -/
inductive Thread where
  | openChild (caller : Caller) (processId : String) (pc : OpenPc)
  /-- `startProcess`, about to look for the process of a row it has found -/
  | locating (processId : String)
  /-- `startProcess`, about to create the process -/
  | spawning (processId : String)
  /-- `stopProcess`, about to look the child of a row up -/
  | stopping (processId : String)
  /-- `stopProcess`, about to ask whether the child is open -/
  | asking (processId : String) (connection : Nat)
  /-- `stopProcess`, about to send `stop` -/
  | sending (connection : Nat)
  /-- `stopProcess`, about to look for the processes to kill -/
  | killing (processId : String)
  | ended (outcome : Outcome)
  deriving DecidableEq, Repr

structure State where
  /-- what `time.monotonic()` answers -/
  now : Int
  repository : ProcessRepository
  children : String → Option Nat
  connections : List Connection
  /-- in the order of insertion -/
  lastHeartbeats : List (String × Int)
  processStatuses : String → Option ProcessStatus
  /-- `_status_publisher is not None` -/
  statusPublisher : Bool
  monitor : MonitorPc
  threads : List Thread
  /-- history: the status events that have been published -/
  published : List (String × ProcessStatus)

/-- A step of a receive thread. -/
inductive ReceiveStep where
  /-- a heartbeat arrives: the section that records its time -/
  | heartbeat
  /-- the section that marks the process running -/
  | markRunning
  /-- the end of the stream, or an error: `_notifyClosed` -/
  | hangUp
  /-- the section of `_onClose` that removes the child -/
  | remove
  /-- the section that marks the process stopped -/
  | markStopped
  | publish
  deriving DecidableEq, Repr

inductive MonitorStep where
  | wake
  | scan
  | mark
  | publish
  deriving DecidableEq, Repr

/-- A step of the constructor or of a request thread, with what it is answered. -/
inductive ThreadStep where
  | check
  | connect (ok : Bool)
  | register
  | greet (ok : Bool)
  /-- `getProcessIds`; `none` if it raises -/
  | locate (processIds : Option (List Nat))
  | spawn (ok : Bool)
  | lookUp
  | ask
  | sendStop (ok : Bool)
  /-- `getProcessIds`, then `taskkill` for each of them -/
  | kill (processIds : Option (List Nat)) (ok : Bool)
  deriving DecidableEq, Repr

inductive Request where
  | addProcess (time : String) (process : CreateProcessRequest)
  | updateProcess (time processId : String) (process : CreateProcessRequest)
  | deleteProcess (processId : String)
  | startProcess (processId : String)
  | stopProcess (processId : String)

inductive Label where
  | receive (connection : Nat) (e : ReceiveStep)
  | monitor (e : MonitorStep)
  | thread (i : Nat) (e : ThreadStep)
  | request (r : Request)
  | setStatusPublisher
  | advance (d : Nat)

/-! ## The code -/

/-- `HEARTBEAT_TIMEOUT_SECONDS = 3.0`. -/
def HEARTBEAT_TIMEOUT : Int := 3000000000

/-- The attempts `startProcess` asks for. -/
def START_ATTEMPTS : Nat := 20

/-- The next round of the loop of the constructor, or its end: the monitor starts. -/
def openNext : List String → MonitorPc × Thread
  | [] => (.sleeping, .ended .returned)
  | processId :: rest => (.absent, .openChild (.init rest) processId .checking)

/-- `Supervisor.__init__`, up to the first call of `_openChild`. -/
def State.init (now : Int) (repository : ProcessRepository) : State :=
  let first := openNext (repository.getAll.map fun row => row.id)
  { now := now
    repository := repository
    children := fun _ => none
    connections := []
    lastHeartbeats := []
    processStatuses := fun _ => none
    statusPublisher := false
    monitor := first.1
    threads := [first.2]
    published := [] }

/-- `_getProcessStatus`. -/
def State.status (s : State) (processId : String) : ProcessStatus :=
  (s.processStatuses processId).getD .stopped

/-- The section of `_setProcessStatus`. -/
def State.setProcessStatus (s : State) (processId : String) (status : ProcessStatus) : State :=
  { s with processStatuses := Function.update s.processStatuses processId (some status) }

/-- The call of the status publisher. -/
def State.publish (s : State) (processId : String) (status : ProcessStatus) : State :=
  if s.statusPublisher then { s with published := s.published ++ [(processId, status)] } else s

def State.setConnection (s : State) (c : Nat) (conn : Connection) : State :=
  { s with connections := s.connections.set c conn }

def State.setThread (s : State) (i : Nat) (thread : Thread) : State :=
  { s with threads := s.threads.set i thread }

/-- `_last_heartbeats[processId] = time`. -/
def recordHeartbeat (processId : String) (time : Int) : List (String × Int) → List (String × Int)
  | [] => [(processId, time)]
  | (p, t) :: rest =>
    if p = processId then (p, time) :: rest else (p, t) :: recordHeartbeat processId time rest

/-- The series of heartbeats goes on, if there is one. -/
def Connection.goOn (conn : Connection) (now : Int) : Option Int :=
  conn.beat.bind fun t => if now - t ≤ HEARTBEAT_TIMEOUT then some now else none

/-- What a receive thread does. -/
def receiveStep (s : State) (c : Nat) (conn : Connection) (e : ReceiveStep) : Option State :=
  match conn.thread, e with
  | .receiving, .heartbeat =>
    some (State.setConnection
      { s with lastHeartbeats := recordHeartbeat conn.process s.now s.lastHeartbeats } c
      { conn with thread := .beating s.now, beat := conn.goOn s.now })
  | .beating time, .markRunning =>
    some ((s.setProcessStatus conn.process .running).setConnection c
      { conn with
        thread := if s.status conn.process = .running then .receiving else .publishing .running
        beat := some time })
  | .receiving, .hangUp =>
    some (s.setConnection c { conn with isOpen := false, thread := .closing })
  | .closing, .remove =>
    some (State.setConnection
      (if s.children conn.process = some c then
        { s with children := Function.update s.children conn.process none }
      else s) c { conn with thread := .closed })
  | .closed, .markStopped =>
    some ((s.setProcessStatus conn.process .stopped).setConnection c
      { conn with
        thread := if s.status conn.process = .stopped then .ended else .publishing .stopped })
  | .publishing .running, .publish =>
    some ((s.publish conn.process .running).setConnection c { conn with thread := .receiving })
  | .publishing .stopped, .publish =>
    some ((s.publish conn.process .stopped).setConnection c { conn with thread := .ended })
  | _, _ => none

/-- The next round of the loop over the expired processes, or its end. -/
def markNext : List String → MonitorPc
  | [] => .sleeping
  | expired => .marking expired

/-- `expired_process_ids`. -/
def State.expired (s : State) (now : Int) : List String :=
  (s.lastHeartbeats.filter fun h => decide (now - h.2 > HEARTBEAT_TIMEOUT)).map Prod.fst

/-- What the monitor thread does. -/
def monitorStep (s : State) (e : MonitorStep) : Option State :=
  match s.monitor, e with
  | .sleeping, .wake => some { s with monitor := .scanning s.now }
  | .scanning now, .scan => some { s with monitor := markNext (s.expired now) }
  | .marking (processId :: rest), .mark =>
    some { s.setProcessStatus processId .stopped with
      monitor := if s.status processId = .stopped then markNext rest
        else .publishing processId rest }
  | .publishing processId rest, .publish =>
    some { s.publish processId .stopped with monitor := markNext rest }
  | _, _ => none

/-- `child.isOpen`. -/
def State.isOpen (s : State) (c : Nat) : Bool :=
  match s.connections[c]? with
  | some conn => conn.isOpen
  | none => false

/-- `_openChild` returns `opened`. -/
def State.openReturns (s : State) (i : Nat) (caller : Caller) (opened : Bool) : State :=
  match caller with
  | .init rest => { s with monitor := (openNext rest).1 }.setThread i (openNext rest).2
  | .startProcess => s.setThread i (.ended (if opened then .returned else .timedOut))

/-- `range(attempts)` of the caller, less the first attempt. -/
def Caller.attempts : Caller → Nat
  | .init _ => 0
  | .startProcess => START_ATTEMPTS - 1

/-- What `_openChild` does. -/
def openStep (s : State) (i : Nat) (caller : Caller) (processId : String) (pc : OpenPc)
    (e : ThreadStep) : Option State :=
  match pc, e with
  | .checking, .check =>
    if (s.children processId).any s.isOpen then some (s.openReturns i caller true)
    else some (s.setThread i (.openChild caller processId (.connecting caller.attempts)))
  | .connecting _, .connect true =>
    some (State.setThread
      { s with connections := s.connections ++ [⟨processId, true, .receiving, none⟩] } i
      (.openChild caller processId (.registering s.connections.length)))
  | .connecting 0, .connect false => some (s.openReturns i caller false)
  | .connecting (n + 1), .connect false =>
    some (s.setThread i (.openChild caller processId (.connecting n)))
  | .registering c, .register =>
    some (State.setThread
      { s with children := Function.update s.children processId (some c) } i
      (.openChild caller processId (.greeting c)))
  | .greeting c, .greet true =>
    if s.isOpen c then some (s.openReturns i caller true) else none
  | .greeting _, .greet false => some (s.setThread i (.ended .raised))
  | _, _ => none

/-- What the constructor or a request thread does. -/
def threadStep (s : State) (i : Nat) (thread : Thread) (e : ThreadStep) : Option State :=
  match thread, e with
  | .openChild caller processId pc, e => openStep s i caller processId pc e
  | .locating processId, .locate (some []) => some (s.setThread i (.spawning processId))
  | .locating _, .locate (some (_ :: _)) => some (s.setThread i (.ended .returned))
  | .locating _, .locate none => some (s.setThread i (.ended .raised))
  | .spawning processId, .spawn true =>
    some (s.setThread i (.openChild .startProcess processId .checking))
  | .spawning _, .spawn false => some (s.setThread i (.ended .raised))
  | .stopping processId, .lookUp =>
    some (s.setThread i (match s.children processId with
      | some c => .asking processId c
      | none => .killing processId))
  | .asking processId c, .ask =>
    some (s.setThread i (if s.isOpen c then .sending c else .killing processId))
  | .sending c, .sendStop true =>
    if s.isOpen c then some (s.setThread i (.ended .returned)) else none
  | .sending _, .sendStop false => some (s.setThread i (.ended .raised))
  | .killing _, .kill none _ => some (s.setThread i (.ended .raised))
  | .killing _, .kill (some []) _ => some (s.setThread i (.ended .notRunning))
  | .killing _, .kill (some (_ :: _)) ok =>
    some (s.setThread i (.ended (if ok then .returned else .raised)))
  | _, _ => none

/-- A new thread that serves a request. -/
def State.spawn (s : State) (thread : Thread) : State := { s with threads := s.threads ++ [thread] }

/-- `addProcess`. -/
def State.addProcess (s : State) (time : String) (process : CreateProcessRequest) : State :=
  match makeRecord process with
  | none => s.spawn (.ended .invalid)
  | some record =>
    match s.repository.add time record with
    | .ok repository => { s with repository := repository }.spawn (.ended .returned)
    | .error .primaryKey => s.spawn (.ended .alreadyExists)
    | .error _ => s.spawn (.ended .raised)

/-- `updateProcess`. -/
def State.updateProcess (s : State) (time processId : String) (process : CreateProcessRequest) :
    State :=
  match makeRecord process with
  | none => s.spawn (.ended .invalid)
  | some record =>
    match s.repository.update time processId record with
    | .ok (found, repository) =>
      { s with repository := repository }.spawn (.ended (if found then .returned else .notFound))
    | .error _ => s.spawn (.ended .raised)

/-- `deleteProcess`. -/
def State.deleteProcess (s : State) (processId : String) : State :=
  let (found, repository) := s.repository.delete processId
  { s with repository := repository }.spawn (.ended (if found then .returned else .notFound))

/-- The first thing a request does. -/
def State.serve (s : State) : Request → State
  | .addProcess time process => s.addProcess time process
  | .updateProcess time processId process => s.updateProcess time processId process
  | .deleteProcess processId => s.deleteProcess processId
  | .startProcess processId =>
    s.spawn (match s.repository.get processId with
      | some _ => .locating processId
      | none => .ended .notFound)
  | .stopProcess processId =>
    s.spawn (match s.repository.get processId with
      | some _ => .stopping processId
      | none => .ended .notFound)

def step (s : State) : Label → Option State
  | .receive c e => s.connections[c]?.bind fun conn => receiveStep s c conn e
  | .monitor e => monitorStep s e
  | .thread i e => s.threads[i]?.bind fun thread => threadStep s i thread e
  | .request r => if s.monitor = .absent then none else some (s.serve r)
  | .setStatusPublisher =>
    if s.monitor = .absent then none else some { s with statusPublisher := true }
  | .advance d => some { s with now := s.now + d }

/-! ## What a step does -/

variable {s t : State} {c i : Nat} {conn : Connection} {thread : Thread} {processId : String}

/-- The process a connection has been opened for. -/
def State.processOf (s : State) (c : Nat) : Option String := s.connections[c]?.map (·.process)

/-- The connection a thread is about to register, or has just registered. -/
def Thread.opened? : Thread → Option (String × Nat)
  | .openChild _ processId (.registering c) | .openChild _ processId (.greeting c) =>
    some (processId, c)
  | _ => none

/-- The status a step of a receive thread writes. -/
def ReceiveStep.marks : ReceiveStep → Option ProcessStatus
  | .markRunning => some .running
  | .markStopped => some .stopped
  | _ => none

/-- `markRunning` apart, a step begins no series of heartbeats. -/
def GoesOn (now : Int) (conn conn' : Connection) : Prop :=
  ∀ time, conn'.beat = some time → now - time ≤ HEARTBEAT_TIMEOUT →
    ∃ time', conn.beat = some time' ∧ now - time' ≤ HEARTBEAT_TIMEOUT

/-- A step of a receive thread replaces its own connection, for the same process; it may remove
    the child of that process, and marks no other process. -/
structure Received (s : State) (conn : Connection) (e : ReceiveStep) (c : Nat) (conn' : Connection)
    (t : State) : Prop where
  connections : t.connections = s.connections.set c conn'
  process : conn'.process = conn.process
  closes : conn'.isOpen = true → conn.isOpen = true
  series : e ≠ .markRunning → GoesOn s.now conn conn'
  children : t.children = s.children ∨
    t.children = Function.update s.children conn.process none
  statuses : t.processStatuses = match e.marks with
    | some status => Function.update s.processStatuses conn.process (some status)
    | none => s.processStatuses
  now : t.now = s.now
  repository : t.repository = s.repository
  threads : t.threads = s.threads
  /-- marking a process stopped does nothing else -/
  stops : e = .markStopped →
    conn'.isOpen = conn.isOpen ∧ conn'.beat = conn.beat ∧ t.children = s.children

theorem publish_frame (s : State) (processId : String) (status : ProcessStatus) :
    s.publish processId status =
      { s with published := (s.publish processId status).published } := by
  unfold State.publish
  split <;> rfl

theorem goesOn_of_eq {now : Int} {conn conn' : Connection} (h : conn'.beat = conn.beat) :
    GoesOn now conn conn' :=
  fun time htime hrecent => ⟨time, h ▸ htime, hrecent⟩

theorem goesOn_goOn {now : Int} {conn conn' : Connection} (h : conn'.beat = conn.goOn now) :
    GoesOn now conn conn' := by
  intro time htime _
  rw [h] at htime
  obtain ⟨time', hbeat, hgo⟩ := Option.bind_eq_some_iff.mp htime
  refine ⟨time', hbeat, ?_⟩
  by_contra hpause
  rw [if_neg hpause] at hgo
  cases hgo

theorem receiveStep_received {e : ReceiveStep} (hstep : receiveStep s c conn e = some t) :
    ∃ conn', Received s conn e c conn' t := by
  unfold receiveStep at hstep
  split at hstep
  · cases hstep
    exact ⟨_, rfl, rfl, id, fun _ => goesOn_goOn rfl, .inl rfl, rfl, rfl, rfl, rfl, nofun⟩
  · cases hstep
    exact ⟨_, rfl, rfl, id, fun h => absurd rfl h, .inl rfl, rfl, rfl, rfl, rfl, nofun⟩
  · cases hstep
    exact ⟨_, rfl, rfl, nofun, fun _ => goesOn_of_eq rfl, .inl rfl, rfl, rfl, rfl, rfl, nofun⟩
  · cases hstep
    split
    · exact ⟨_, rfl, rfl, id, fun _ => goesOn_of_eq rfl, .inr rfl, rfl, rfl, rfl, rfl, nofun⟩
    · exact ⟨_, rfl, rfl, id, fun _ => goesOn_of_eq rfl, .inl rfl, rfl, rfl, rfl, rfl, nofun⟩
  · cases hstep
    exact ⟨_, rfl, rfl, id, fun _ => goesOn_of_eq rfl, .inl rfl, rfl, rfl, rfl, rfl,
      fun _ => ⟨rfl, rfl, rfl⟩⟩
  · cases hstep
    rw [publish_frame]
    exact ⟨_, rfl, rfl, id, fun _ => goesOn_of_eq rfl, .inl rfl, rfl, rfl, rfl, rfl, nofun⟩
  · cases hstep
    rw [publish_frame]
    exact ⟨_, rfl, rfl, id, fun _ => goesOn_of_eq rfl, .inl rfl, rfl, rfl, rfl, rfl, nofun⟩
  · cases hstep

/-- A step of the monitor changes nothing but the status of the process it marks. -/
theorem monitorStep_cases {e : MonitorStep} (hstep : monitorStep s e = some t) :
    ∃ m, (e ≠ .mark ∧ ∃ published, t = { s with monitor := m, published := published }) ∨
      ∃ p rest, e = .mark ∧ s.monitor = .marking (p :: rest) ∧
        t = { s.setProcessStatus p .stopped with monitor := m } := by
  unfold monitorStep at hstep
  split at hstep
  · cases hstep
    exact ⟨_, .inl ⟨nofun, _, rfl⟩⟩
  · cases hstep
    exact ⟨_, .inl ⟨nofun, _, rfl⟩⟩
  · rename_i p rest hmonitor
    cases hstep
    exact ⟨_, .inr ⟨p, rest, rfl, hmonitor, rfl⟩⟩
  · cases hstep
    rw [publish_frame]
    exact ⟨_, .inl ⟨nofun, _, rfl⟩⟩
  · cases hstep

/-- What a step of the constructor or of a request thread does to the rest of the state. -/
inductive Threaded (s : State) (i : Nat) (thread : Thread) : ThreadStep → State → Prop where
  | goOn (e : ThreadStep) (m : MonitorPc) (next : Thread) : next.opened? = none →
      Threaded s i thread e ({ s with monitor := m }.setThread i next)
  | connected (caller : Caller) (processId : String) :
      Threaded s i thread (.connect true) (State.setThread
        { s with connections := s.connections ++ [⟨processId, true, .receiving, none⟩] } i
        (.openChild caller processId (.registering s.connections.length)))
  | registered (caller : Caller) (processId : String) (c : Nat) :
      thread = .openChild caller processId (.registering c) →
      Threaded s i thread .register (State.setThread
        { s with children := Function.update s.children processId (some c) } i
        (.openChild caller processId (.greeting c)))

theorem openReturns_threaded (s : State) (i : Nat) (thread : Thread) (e : ThreadStep)
    (caller : Caller) (opened : Bool) :
    Threaded s i thread e (s.openReturns i caller opened) := by
  cases caller with
  | init rest =>
    apply Threaded.goOn
    cases rest <;> rfl
  | startProcess => exact .goOn e s.monitor _ rfl

theorem Threaded.setThread {e : ThreadStep} {next : Thread} (hnext : next.opened? = none) :
    Threaded s i thread e (s.setThread i next) :=
  .goOn e s.monitor next hnext

theorem openStep_threaded {caller : Caller} {processId : String} {pc : OpenPc} {e : ThreadStep}
    (hstep : openStep s i caller processId pc e = some t) :
    Threaded s i (.openChild caller processId pc) e t := by
  unfold openStep at hstep
  split at hstep
  · split at hstep <;> cases hstep
    · exact openReturns_threaded ..
    · exact .setThread rfl
  · cases hstep
    exact .connected ..
  · cases hstep
    exact openReturns_threaded ..
  · cases hstep
    exact .setThread rfl
  · cases hstep
    exact .registered _ _ _ rfl
  · split at hstep <;> cases hstep
    exact openReturns_threaded ..
  · cases hstep
    exact .setThread rfl
  · cases hstep

theorem threadStep_threaded {e : ThreadStep} (hstep : threadStep s i thread e = some t) :
    Threaded s i thread e t := by
  unfold threadStep at hstep
  split at hstep
  · exact openStep_threaded hstep
  · cases hstep
    exact .setThread rfl
  · cases hstep
    exact .setThread rfl
  · cases hstep
    exact .setThread rfl
  · cases hstep
    exact .setThread rfl
  · cases hstep
    exact .setThread rfl
  · cases hstep
    apply Threaded.setThread
    split <;> rfl
  · cases hstep
    apply Threaded.setThread
    split <;> rfl
  · split at hstep <;> cases hstep
    exact .setThread rfl
  · cases hstep
    exact .setThread rfl
  · cases hstep
    exact .setThread rfl
  · cases hstep
    exact .setThread rfl
  · cases hstep
    exact .setThread rfl
  · cases hstep

/-- A thread as a request leaves it after its first section. -/
def Thread.begins : Thread → Bool
  | .locating _ | .stopping _ | .ended _ => true
  | _ => false

/-- A request changes nothing but the table, and starts a thread. -/
theorem serve_begins (s : State) (r : Request) :
    ∃ repository thread, thread.begins = true ∧
      s.serve r = { s with repository := repository, threads := s.threads ++ [thread] } := by
  cases r with
  | addProcess time process =>
    show ∃ repository thread, _ ∧ s.addProcess time process = _
    unfold State.addProcess
    split
    · exact ⟨_, _, rfl, rfl⟩
    · split <;> exact ⟨_, _, rfl, rfl⟩
  | updateProcess time processId process =>
    show ∃ repository thread, _ ∧ s.updateProcess time processId process = _
    unfold State.updateProcess
    split
    · exact ⟨_, _, rfl, rfl⟩
    · split <;> exact ⟨_, _, rfl, rfl⟩
  | deleteProcess processId => exact ⟨_, _, rfl, rfl⟩
  | startProcess processId =>
    refine ⟨_, _, ?_, rfl⟩
    split <;> rfl
  | stopProcess processId =>
    refine ⟨_, _, ?_, rfl⟩
    split <;> rfl

/-- The thread has opened nothing. -/
theorem serve_cases (s : State) (r : Request) :
    ∃ repository thread, thread.opened? = none ∧
      s.serve r = { s with repository := repository, threads := s.threads ++ [thread] } := by
  obtain ⟨repository, thread, hbegins, heq⟩ := serve_begins s r
  refine ⟨repository, thread, ?_, heq⟩
  cases thread <;> first | rfl | cases hbegins

/-- What a step is. -/
inductive Stepped (s : State) : Label → State → Prop where
  | received (c : Nat) (e : ReceiveStep) (conn conn' : Connection) (t : State)
      (hconn : s.connections[c]? = some conn) (hstep : receiveStep s c conn e = some t)
      (hreceived : Received s conn e c conn' t) : Stepped s (.receive c e) t
  | monitored (e : MonitorStep) (t : State) (hstep : monitorStep s e = some t) :
    Stepped s (.monitor e) t
  | threaded (i : Nat) (e : ThreadStep) (thread : Thread) (t : State)
      (hthread : s.threads[i]? = some thread) (hstep : threadStep s i thread e = some t) :
    Stepped s (.thread i e) t
  | served (r : Request) (hmonitor : s.monitor ≠ .absent) : Stepped s (.request r) (s.serve r)
  | published (hmonitor : s.monitor ≠ .absent) :
    Stepped s .setStatusPublisher { s with statusPublisher := true }
  | advanced (d : Nat) : Stepped s (.advance d) { s with now := s.now + d }

theorem step_stepped {l : Label} (hstep : step s l = some t) : Stepped s l t := by
  cases l with
  | receive c e =>
    obtain ⟨conn, hconn, hstep⟩ := Option.bind_eq_some_iff.mp hstep
    obtain ⟨conn', hreceived⟩ := receiveStep_received hstep
    exact .received c e conn conn' t hconn hstep hreceived
  | monitor e => exact .monitored e t hstep
  | thread i e =>
    obtain ⟨thread, hthread, hstep⟩ := Option.bind_eq_some_iff.mp hstep
    exact .threaded i e thread t hthread hstep
  | request r =>
    simp only [step] at hstep
    split at hstep
    · cases hstep
    · rw [← Option.some.inj hstep]
      exact .served r ‹_›
  | setStatusPublisher =>
    simp only [step] at hstep
    split at hstep
    · cases hstep
    · rw [← Option.some.inj hstep]
      exact .published ‹_›
  | advance d =>
    rw [← Option.some.inj hstep]
    exact .advanced d

/-! ## Connections belong to their process -/

structure Wired (s : State) : Prop where
  registered : ∀ p c, s.children p = some c → s.processOf c = some p
  opening : ∀ thread ∈ s.threads, ∀ p c, thread.opened? = some (p, c) → s.processOf c = some p

theorem processOf_set {conn' : Connection} (hconn : s.connections[c]? = some conn)
    (hconns : t.connections = s.connections.set c conn') (hprocess : conn'.process = conn.process)
    (c' : Nat) : t.processOf c' = s.processOf c' := by
  unfold State.processOf
  rw [hconns, List.getElem?_set]
  split
  · rename_i heq
    subst heq
    rw [hconn, if_pos (List.getElem?_eq_some_iff.mp hconn).1]
    exact congrArg some hprocess
  · rfl

theorem processOf_append {conn : Connection} {p : String}
    (hconns : t.connections = s.connections ++ [conn]) (h : s.processOf c = some p) :
    t.processOf c = some p := by
  unfold State.processOf at h ⊢
  obtain ⟨conn', hconn', rfl⟩ := Option.map_eq_some_iff.mp h
  rw [hconns, List.getElem?_append_left (List.getElem?_eq_some_iff.mp hconn').1, hconn']
  rfl

theorem wired_init (now : Int) (repository : ProcessRepository) :
    Wired (State.init now repository) where
  registered := fun p c h => by cases h
  opening := by
    intro thread hthread p c hopened
    have hfirst : ∀ ids, (openNext ids).2.opened? = none := fun ids => by cases ids <;> rfl
    rw [List.mem_singleton.mp hthread, hfirst] at hopened
    cases hopened

/-- A thread of `setThread` is one of the others or the new one. -/
theorem Wired.setThread (h : Wired s) {next : Thread}
    (hnext : ∀ p c, next.opened? = some (p, c) → s.processOf c = some p) :
    Wired (s.setThread i next) where
  registered := h.registered
  opening := by
    intro thread hthread p c hopened
    rcases List.mem_or_eq_of_mem_set hthread with hold | rfl
    · exact h.opening thread hold p c hopened
    · exact hnext p c hopened

theorem Threaded.wired {e : ThreadStep} (h : Wired s) (hthread : s.threads[i]? = some thread)
    (hstep : Threaded s i thread e t) : Wired t := by
  cases hstep with
  | goOn e m next hnext =>
    have hwired : Wired { s with monitor := m } := ⟨h.registered, h.opening⟩
    apply hwired.setThread
    intro p c hopened
    rw [hnext] at hopened
    cases hopened
  | connected caller p =>
    apply Wired.setThread
    · exact ⟨fun q c hq => processOf_append rfl (h.registered q c hq),
        fun th hth q c hq => processOf_append rfl (h.opening th hth q c hq)⟩
    · intro q c hopened
      cases hopened
      simp [State.processOf]
  | registered caller p c hregistering =>
    have hc : s.processOf c = some p :=
      h.opening thread (List.mem_of_getElem? hthread) p c (by rw [hregistering]; rfl)
    apply Wired.setThread
    · refine ⟨fun q c' hq => ?_, h.opening⟩
      simp only [Function.update_apply] at hq
      split at hq
      · cases hq
        subst_vars
        exact hc
      · exact h.registered q c' hq
    · intro q c' hopened
      cases hopened
      exact hc

theorem Received.children_of {e : ReceiveStep} {conn' : Connection}
    (h : Received s conn e c conn' t)
    {p : String} {c' : Nat} (hchild : t.children p = some c') : s.children p = some c' := by
  rcases h.children with heq | heq
  · rwa [heq] at hchild
  · rw [heq, Function.update_apply] at hchild
    split at hchild
    · cases hchild
    · exact hchild

theorem Received.wired {e : ReceiveStep} {conn' : Connection} (hs : Wired s)
    (hconn : s.connections[c]? = some conn) (h : Received s conn e c conn' t) : Wired t where
  registered := fun p c' hp => by
    rw [processOf_set hconn h.connections h.process]
    exact hs.registered p c' (h.children_of hp)
  opening := fun thread hthread p c' hopened => by
    rw [processOf_set hconn h.connections h.process]
    exact hs.opening thread (h.threads ▸ hthread) p c' hopened

theorem step_wired {l : Label} (h : Wired s) (hstep : step s l = some t) : Wired t := by
  cases step_stepped hstep with
  | received c e conn conn' t hconn _ hreceived => exact hreceived.wired h hconn
  | monitored e t hstep =>
    obtain ⟨m, ⟨-, published, rfl⟩ | ⟨p, rest, -, -, rfl⟩⟩ := monitorStep_cases hstep <;>
      exact ⟨h.registered, h.opening⟩
  | threaded i e thread t hthread hstep => exact (threadStep_threaded hstep).wired h hthread
  | served r _ =>
    obtain ⟨repository, thread, hnone, heq⟩ := serve_cases s r
    rw [heq]
    refine ⟨h.registered, fun th hth p c hopened => ?_⟩
    rcases List.mem_append.mp hth with hth | hth
    · exact h.opening th hth p c hopened
    · rw [List.mem_singleton.mp hth, hnone] at hopened
      cases hopened
  | published _ => exact ⟨h.registered, h.opening⟩
  | advanced d => exact ⟨h.registered, h.opening⟩

/-- A table with one process. -/
def cameraTable : ProcessRepository where
  rows := [⟨⟨"camera", "rtsp://in", "tcp", 30, "rtsp://out", "tcp", 0, some "", 0, 0, 3, "native",
    "pytorch", some "", 0, some "", "stopped", 0⟩, "now", "now"⟩]
  primaryKey := by decide
  checked := by decide

end PipeWorks.Conductor.Supervisor
