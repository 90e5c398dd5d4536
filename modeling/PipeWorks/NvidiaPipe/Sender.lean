import PipeWorks.NvidiaPipe.Send
import PipeWorks.RtspStatus

/-!
# The supervised output process (`Sender` of `nvidia_pipe/send.py`)

A `Sender` runs `send` in a worker process, and a monitor thread that replaces the worker when
it has died or has not muxed anything for `timeout`.  The parent learns about the worker from
three shared values only (`Send.Shared`).

`step` interleaves the main thread (`start`, later `stop`), the monitor thread, the worker and
the clock.  The sections under `_lock` are the steps that need `State.lockFree`; the monitor
keeps the lock from its check to the end of the restart, and `stop` while it reaps the worker.
`_stop_process` is two steps, so that the worker may run on between the stop request and its
end; that `kill` ends a process is taken for granted.
-/

set_option autoImplicit false

namespace PipeWorks.NvidiaPipe.Sender

open StepSystem PipeWorks.NvidiaPipe

/-- A worker process.  Its stop event is the `shutdown` of its `send`. -/
structure Worker where
  pid : Nat
  alive : Bool
  send : Send.State
  /-- history: when its latest successful `mux` was -/
  lastMux : Option Int
  /-- history: an attempt has failed since then -/
  failedSince : Bool
  deriving DecidableEq, Repr

inductive MonitorPc where
  | absent
  /-- in `_monitor_stop.wait(1)` -/
  | waiting
  /-- about to take the lock -/
  | checking
  /-- in `_stop_process`, under the lock -/
  | reaping
  /-- about to look at `_monitor_stop` again, under the lock -/
  | restarting
  | exited
  deriving DecidableEq, Repr

inductive MainPc where
  | created
  | started
  /-- in `_monitor.join(timeout=2)` -/
  | joining
  /-- about to take the lock -/
  | locking
  /-- in `_stop_process`, under the lock -/
  | reaping
  | stopped
  deriving DecidableEq, Repr

structure State where
  /-- what `time.monotonic()` answers -/
  now : Int
  shared : Send.Shared
  process : Option Worker
  monitorStop : Bool
  monitor : MonitorPc
  main : MainPc
  /-- history: how many workers have been started -/
  spawned : Nat
  deriving DecidableEq, Repr

inductive Label where
  | start
  | stopRequested
  /-- the monitor has ended, or the join has timed out -/
  | stopJoined
  | stopLocked
  | stopReaped
  | monitorWake
  | monitorCheck
  | monitorReaped
  | monitorRestart
  | worker (e : Send.Event)
  | workerExit
  | advance (d : Nat)
  deriving DecidableEq, Repr

/-- `Sender.__init__`. -/
def State.init (now : Int) : State :=
  { now := now
    shared := ⟨now, false, true⟩
    process := none
    monitorStop := false
    monitor := .absent
    main := .created
    spawned := 0 }

/-- Neither thread is inside a section under `_lock`. -/
def State.lockFree (s : State) : Bool :=
  s.monitor != .reaping && s.monitor != .restarting && s.main != .reaping

/-- `_start_process`. -/
def State.startProcess (s : State) : State :=
  { s with
    shared := { s.shared with heartbeat := s.now, awaitingMux := true }
    process := some ⟨s.spawned, true, Send.State.init, none, false⟩
    spawned := s.spawned + 1 }

/-- `_stop_process`, up to the first join. -/
def State.requestStop (s : State) : State :=
  { s with process := s.process.map fun w =>
      { w with send := { w.send with shutdown := true } } }

/-- `_stop_process`, once the worker has ended, by itself, terminated or killed. -/
def State.reaped (s : State) : State := { s with process := none }

/-- `not self._process.is_alive() or stalled`. -/
def State.needsRestart (timeout : Int) (s : State) (w : Worker) : Bool :=
  !w.alive || decide (s.now - s.shared.heartbeat ≥ timeout)

/-- The body of the monitor loop up to the joins. -/
def State.monitorCheck (timeout : Int) (s : State) : State :=
  match s.process with
  | none => { s with monitor := .waiting }
  | some w =>
    if s.needsRestart timeout w then { s.requestStop with monitor := .reaping }
    else { s with monitor := .waiting }

/-- The end of the monitor loop. -/
def State.monitorRestart (s : State) : State :=
  if s.monitorStop then { s with monitor := .waiting }
  else { s.startProcess with monitor := .waiting }

/-- An attempt of `send` has failed. -/
def isFailure : Send.Event → Bool
  | .avOpen false | .addStream false | .muxRaises => true
  | _ => false

/-- What a step of `send` does to the history of its worker. -/
def Worker.onEvent (w : Worker) (send : Send.State) : Send.Event → Worker
  | .muxed t => { w with send := send, lastMux := some t, failedSince := false }
  | e => { w with send := send, failedSince := w.failedSince || isFailure e }

/-- The worker may take the step `e`: only its parent sets its stop event, and the clock it reads
    is everybody's. -/
def workerMay (s : State) : Send.Event → Bool
  | .shutdown => false
  | .muxed t => t == s.now
  | _ => true

def State.workerStep (s : State) (e : Send.Event) : Option State :=
  match s.process with
  | none => none
  | some w =>
    if w.alive && workerMay s e then
      (Send.step w.send e).map fun send =>
        { s with shared := s.shared.onEvent e, process := some (w.onEvent send e) }
    else none

/-- The worker process ends: its `send` is over, or it crashes. -/
def State.workerExit (s : State) : State :=
  { s with process := s.process.map fun w => { w with alive := false } }

def step (timeout : Int) (s : State) : Label → Option State
  | .start =>
    if s.main = .created ∧ s.lockFree then
      some { s.startProcess with main := .started, monitor := .waiting }
    else none
  | .stopRequested =>
    if s.main = .started then some { s with monitorStop := true, main := .joining } else none
  | .stopJoined => if s.main = .joining then some { s with main := .locking } else none
  | .stopLocked =>
    if s.main = .locking ∧ s.lockFree then some { s.requestStop with main := .reaping } else none
  | .stopReaped =>
    if s.main = .reaping then some { s.reaped with main := .stopped } else none
  | .monitorWake =>
    if s.monitor = .waiting then
      some { s with monitor := if s.monitorStop then .exited else .checking }
    else none
  | .monitorCheck =>
    if s.monitor = .checking ∧ s.lockFree then some (s.monitorCheck timeout) else none
  | .monitorReaped =>
    if s.monitor = .reaping then some { s.reaped with monitor := .restarting } else none
  | .monitorRestart => if s.monitor = .restarting then some s.monitorRestart else none
  | .worker e => s.workerStep e
  | .workerExit => some s.workerExit
  | .advance d => some { s with now := s.now + d }

/-- `Sender.connection_status`. -/
def State.connectionStatus (timeout : Int) (s : State) : RtspStatus :=
  if !s.shared.hasSuccessfulMux then .disconnected
  else if s.shared.awaitingMux then .disconnected
  else match s.process with
    | none => .disconnected
    | some w =>
      if !w.alive then .disconnected
      else if s.now - s.shared.heartbeat ≥ timeout then .disconnected
      else .connected

/-- What a step of the worker is. -/
theorem workerStep_cases {s t : State} {e : Send.Event} (h : s.workerStep e = some t) :
    ∃ w send, s.process = some w ∧ w.alive = true ∧ workerMay s e = true ∧
      Send.step w.send e = some send ∧
      t = { s with shared := s.shared.onEvent e, process := some (w.onEvent send e) } := by
  unfold State.workerStep at h
  split at h
  · cases h
  · rename_i w hw
    split at h
    · rename_i hmay
      obtain ⟨send, hsend, rfl⟩ := Option.map_eq_some_iff.mp h
      rw [Bool.and_eq_true] at hmay
      exact ⟨w, send, hw, hmay.1, hmay.2, hsend, rfl⟩
    · cases h

/-- What a step does, and what its thread has found. -/
inductive Moves (timeout : Int) (s : State) : Label → State → Prop where
  | start (hcreated : s.main = .created) (hfree : s.lockFree = true) :
      Moves timeout s .start { s.startProcess with main := .started, monitor := .waiting }
  | stopRequested (hstarted : s.main = .started) :
      Moves timeout s .stopRequested { s with monitorStop := true, main := .joining }
  | stopJoined (hjoining : s.main = .joining) :
      Moves timeout s .stopJoined { s with main := .locking }
  | stopLocked (hlocking : s.main = .locking) (hfree : s.lockFree = true) :
      Moves timeout s .stopLocked { s.requestStop with main := .reaping }
  | stopReaped (hreaping : s.main = .reaping) :
      Moves timeout s .stopReaped { s.reaped with main := .stopped }
  | monitorWake (hwaiting : s.monitor = .waiting) :
      Moves timeout s .monitorWake
        { s with monitor := if s.monitorStop then .exited else .checking }
  /-- there is nothing to restart -/
  | monitorIdle (hchecking : s.monitor = .checking) (hfree : s.lockFree = true) :
      Moves timeout s .monitorCheck { s with monitor := .waiting }
  | monitorEnds (w : Worker) (hchecking : s.monitor = .checking) (hfree : s.lockFree = true)
      (hw : s.process = some w) (hneeds : s.needsRestart timeout w = true) :
      Moves timeout s .monitorCheck { s.requestStop with monitor := .reaping }
  | monitorReaped (hreaping : s.monitor = .reaping) :
      Moves timeout s .monitorReaped { s.reaped with monitor := .restarting }
  /-- `stop` has been called meanwhile -/
  | monitorGivesUp (hrestarting : s.monitor = .restarting) (hstop : s.monitorStop = true) :
      Moves timeout s .monitorRestart { s with monitor := .waiting }
  | monitorRestarts (hrestarting : s.monitor = .restarting) (hstop : s.monitorStop = false) :
      Moves timeout s .monitorRestart { s.startProcess with monitor := .waiting }
  | worker {t : State} (e : Send.Event) (hworker : s.workerStep e = some t) :
      Moves timeout s (.worker e) t
  | workerExit : Moves timeout s .workerExit s.workerExit
  | advance (d : Nat) : Moves timeout s (.advance d) { s with now := s.now + d }

theorem moves_monitorCheck {timeout : Int} {s : State} (hchecking : s.monitor = .checking)
    (hfree : s.lockFree = true) : Moves timeout s .monitorCheck (s.monitorCheck timeout) := by
  unfold State.monitorCheck
  split
  · exact .monitorIdle hchecking hfree
  · rename_i w hw
    split
    · exact .monitorEnds w hchecking hfree hw ‹_›
    · exact .monitorIdle hchecking hfree

theorem moves_monitorRestart {timeout : Int} {s : State} (hrestarting : s.monitor = .restarting) :
    Moves timeout s .monitorRestart s.monitorRestart := by
  unfold State.monitorRestart
  split
  · exact .monitorGivesUp hrestarting ‹_›
  · rename_i hstop
    exact .monitorRestarts hrestarting (by simpa using hstop)

/-- **What a step is.** -/
theorem step_moves {timeout : Int} {s t : State} {l : Label} (h : step timeout s l = some t) :
    Moves timeout s l t := by
  cases l with
  | worker e => exact .worker e h
  | workerExit =>
    cases h
    exact .workerExit
  | advance d =>
    cases h
    exact .advance d
  | _ =>
    simp only [step] at h
    split at h <;> cases h
    rename_i hwaited
    first
      | exact .start hwaited.1 hwaited.2
      | exact .stopRequested hwaited
      | exact .stopJoined hwaited
      | exact .stopLocked hwaited.1 hwaited.2
      | exact .stopReaped hwaited
      | exact .monitorWake hwaited
      | exact moves_monitorCheck hwaited.1 hwaited.2
      | exact .monitorReaped hwaited
      | exact moves_monitorRestart hwaited

end PipeWorks.NvidiaPipe.Sender
