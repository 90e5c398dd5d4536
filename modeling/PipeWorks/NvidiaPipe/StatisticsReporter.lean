import PipeWorks.NvidiaPipe.Sender
import PipeWorks.Python.Exception

/-!
# The statistics reporter (`run_pipeline_entry` and `send_frame_statistics` of `nvidia_pipe/cli.py`)

A thread posts the statistics every second until its stop event is set, and `run_pipeline_entry`
posts them once more at the end.  For a snapshot, `connection_status` reads the fields of the
sender one after the other, without its lock, while the threads of `Sender` go on: each read is a
step of its own here.

* `call_reads_status`: reads that nothing comes between give `State.connectionStatus`;
* `reporting_survives_iff`: `is_alive` is never called on `None`, and the loop ends only when its
  stop event is set, exactly in the runs in which every call is `Undisturbed`;
* `restart_ends_reporting`: the monitor takes the process away between the two reads of it.
-/

set_option autoImplicit false

namespace PipeWorks.NvidiaPipe.StatisticsReporter

open StepSystem PipeWorks.Python

/-! ## A call of `send_frame_statistics` -/

inductive CallPc where
  /-- about to look at the global `sender` -/
  | entered
  /-- in `connection_status`, about to read `_has_successful_mux` -/
  | muxed
  /-- about to read `_awaiting_mux` -/
  | awaiting
  /-- about to read `_process`, for `is None` -/
  | process
  /-- about to read `_process` again, for `is_alive()`.  History: the process has been taken away
  since the first read, and no other one has been started -/
  | alive (lost : Bool)
  /-- about to read the clock -/
  | clock
  /-- about to read `_heartbeat` -/
  | heartbeat (now : Int)
  /-- in `urlopen` -/
  | posting (status : RtspStatus)
  | returned
  | raised (e : PyError)
  deriving DecidableEq, Repr

inductive CallEvent where
  | read
  /-- `urlopen` returns, or raises -/
  | posted (raises : Option PyError)
  deriving DecidableEq, Repr

/-- `except (OSError, URLError)`. -/
def caught (e : PyError) : Bool := e.caughtBy [.osError, .other "URLError"]

def callStep (timeout : Int) (sender : Option Sender.State) : CallPc → CallEvent → Option CallPc
  | .entered, .read => some (if sender.isNone then .posting .disconnected else .muxed)
  | .muxed, .read => sender.map fun s =>
    if s.shared.hasSuccessfulMux then .awaiting else .posting .disconnected
  | .awaiting, .read => sender.map fun s =>
    if s.shared.awaitingMux then .posting .disconnected else .process
  | .process, .read => sender.map fun s =>
    if s.process.isNone then .posting .disconnected else .alive false
  | .alive _, .read => sender.map fun s =>
    match s.process with
    | none => .raised .attributeError
    | some w => if w.alive then .clock else .posting .disconnected
  | .clock, .read => sender.map fun s => .heartbeat s.now
  | .heartbeat now, .read => sender.map fun s =>
    .posting (if now - s.shared.heartbeat ≥ timeout then .disconnected else .connected)
  | .posting _, .posted none => some .returned
  | .posting _, .posted (some e) => some (if caught e then .returned else .raised e)
  | _, _ => none

/-- The next read calls `is_alive` on `None`. -/
def CallPc.callsNone (sender : Option Sender.State) : CallPc → Bool
  | .alive _ => sender.any fun s => s.process.isNone
  | _ => false

/-- What a step of the sender adds to the history of a call. -/
def CallPc.onSender (l : Sender.Label) (x y : Sender.State) : CallPc → CallPc
  | .alive lost =>
    match l with
    | .monitorReaped | .stopReaped => .alive true
    | _ => .alive (lost && y.spawned == x.spawned)
  | pc => pc

/-! ## The process -/

inductive Reporter where
  /-- in `stop_event.wait(1)` -/
  | waiting
  | calling (pc : CallPc)
  | ended
  deriving DecidableEq, Repr

/-- `run_pipeline_entry`. -/
inductive Entry where
  /-- in `run_pipeline` -/
  | running
  /-- in `thread.join(timeout=1)` -/
  | joining
  /-- in its own call of `send_frame_statistics` -/
  | calling (pc : CallPc)
  /-- in `sender.stop()` -/
  | stopping
  /-- its call of `send_frame_statistics` has raised -/
  | failed
  deriving DecidableEq, Repr

structure State where
  /-- the global `sender` -/
  sender : Option Sender.State
  reporter : Reporter
  entry : Entry
  stopEvent : Bool
  /-- history: `is_alive` has been called on `None` -/
  noneCalled : Bool
  deriving DecidableEq, Repr

inductive Label where
  /-- `sender = Sender(...)` -/
  | assign (now : Int)
  | sender (l : Sender.Label)
  /-- `stop_event.wait(1)` returns -/
  | wake
  | report (e : CallEvent)
  /-- `run_pipeline` is over, and `stop_event.set()` -/
  | runEnded
  /-- the reporter has ended, or the join has timed out -/
  | joined
  | final (e : CallEvent)
  deriving DecidableEq, Repr

/-- `start_statistics_reporter` has returned. -/
def State.init : State := ⟨none, .waiting, .running, false, false⟩

/-- `run_pipeline` starts the sender, and it is stopped at the end. -/
def Entry.allows (entry : Entry) : Sender.Label → Bool
  | .start => entry == .running
  | .stopRequested => entry == .stopping
  | _ => true

def Reporter.onSender (l : Sender.Label) (x y : Sender.State) : Reporter → Reporter
  | .calling pc => .calling (pc.onSender l x y)
  | r => r

def Entry.onSender (l : Sender.Label) (x y : Sender.State) : Entry → Entry
  | .calling pc => .calling (pc.onSender l x y)
  | entry => entry

def Reporter.after : CallPc → Reporter
  | .returned => .waiting
  | .raised _ => .ended
  | pc => .calling pc

def Entry.after : CallPc → Entry
  | .returned => .stopping
  | .raised _ => .failed
  | pc => .calling pc

def step (timeout : Int) (s : State) : Label → Option State
  | .assign now =>
    if s.entry = .running ∧ s.sender = none then
      some { s with sender := some (Sender.State.init now) }
    else none
  | .sender l =>
    match s.sender with
    | none => none
    | some x =>
      if s.entry.allows l then
        (Sender.step timeout x l).map fun y =>
          { s with
            sender := some y
            reporter := s.reporter.onSender l x y
            entry := s.entry.onSender l x y }
      else none
  | .wake =>
    if s.reporter = .waiting then
      some { s with reporter := if s.stopEvent then .ended else .calling .entered }
    else none
  | .report e =>
    match s.reporter with
    | .calling pc => (callStep timeout s.sender pc e).map fun pc' =>
        { s with
          reporter := .after pc'
          noneCalled := s.noneCalled || pc.callsNone s.sender }
    | _ => none
  | .runEnded =>
    if s.entry = .running then some { s with stopEvent := true, entry := .joining } else none
  | .joined => if s.entry = .joining then some { s with entry := .calling .entered } else none
  | .final e =>
    match s.entry with
    | .calling pc => (callStep timeout s.sender pc e).map fun pc' =>
        { s with
          entry := .after pc'
          noneCalled := s.noneCalled || pc.callsNone s.sender }
    | _ => none

/-- Reporting survives: no status has been asked of `None`, and the loop has not ended before it
should. -/
structure Survives (s : State) : Prop where
  status : s.noneCalled = false
  loop : s.reporter = .ended → s.stopEvent = true

/-- Between its two reads of `_process`, the call has not lost the process for good. -/
def CallPc.Kept : CallPc → Prop
  | .alive lost => lost = false
  | _ => True

/-- An exception that `send_frame_statistics` does not catch. -/
def CallEvent.escapes : CallEvent → Bool
  | .posted (some e) => !caught e
  | _ => false

/-- A call that goes on with the process it has seen or a later one, and whose exceptions are
caught unless the loop is to end anyway. -/
def Undisturbed (s : State) : Label → Prop
  | .report e =>
    match s.reporter with
    | .calling pc => pc.Kept ∧ (e.escapes = true → s.stopEvent = true)
    | _ => True
  | .final _ =>
    match s.entry with
    | .calling pc => pc.Kept
    | _ => True
  | _ => True

/-! ## Undisturbed reads -/

/-- The reads of `connection_status`, when nothing comes between them. -/
theorem call_reads_status (timeout : Int) (x : Sender.State) :
    ∃ n, run (callStep timeout (some x)) .muxed (List.replicate n .read) =
      some (.posting (x.connectionStatus timeout)) := by
  unfold Sender.State.connectionStatus
  by_cases hmux : x.shared.hasSuccessfulMux = true
  · by_cases hawait : x.shared.awaitingMux = true
    · exact ⟨2, by simp [run, callStep, hmux, hawait, List.replicate]⟩
    · cases hprocess : x.process with
      | none => exact ⟨3, by simp [run, callStep, hmux, hawait, hprocess, List.replicate]⟩
      | some w =>
        by_cases halive : w.alive = true
        · refine ⟨6, ?_⟩
          by_cases hstalled : x.now - x.shared.heartbeat ≥ timeout <;>
            simp [run, callStep, hmux, hawait, hprocess, halive, hstalled, List.replicate]
        · exact ⟨4, by simp [run, callStep, hmux, hawait, hprocess, halive, List.replicate]⟩
  · exact ⟨1, by simp [run, callStep, hmux, List.replicate]⟩

/-- How many steps a call has left at most. -/
def CallPc.left : CallPc → Nat
  | .entered => 8
  | .muxed => 7
  | .awaiting => 6
  | .process => 5
  | .alive _ => 4
  | .clock => 3
  | .heartbeat _ => 2
  | .posting _ => 1
  | .returned | .raised _ => 0

/-- A call never waits for another thread, and each step of its own brings it nearer to its end,
whatever the others do in between. -/
theorem callStep_left {timeout : Int} {sender : Option Sender.State} {pc pc' : CallPc}
    {e : CallEvent} (h : callStep timeout sender pc e = some pc') : pc'.left < pc.left := by
  unfold callStep at h
  split at h
  case h_1 =>
    cases h
    split <;> decide
  case h_8 =>
    cases h
    exact Nat.zero_lt_one
  case h_9 =>
    cases h
    split <;> exact Nat.zero_lt_one
  case h_10 => cases h
  all_goals
    obtain ⟨x, -, rfl⟩ := Option.map_eq_some_iff.1 h
  case h_2 | h_3 | h_4 => split <;> simp [CallPc.left]
  case h_5 =>
    split
    · simp [CallPc.left]
    · split <;> simp [CallPc.left]
  case h_6 | h_7 => simp [CallPc.left]

/-! ## The invariant -/

/-- A call between its reads of `_process` knows whether there is one. -/
def CallPc.Tracks (sender : Option Sender.State) : CallPc → Prop
  | .alive lost => ∃ x, sender = some x ∧ (lost = true ↔ x.process = none)
  | _ => True

structure Inv (s : State) : Prop where
  survives : Survives s
  reporter : ∀ pc, s.reporter = .calling pc → pc.Tracks s.sender
  entry : ∀ pc, s.entry = .calling pc → pc.Tracks s.sender

/-- When a step of the sender leaves no process. -/
theorem process_none_iff {timeout : Int} {x y : Sender.State} {l : Sender.Label}
    (h : Sender.step timeout x l = some y) :
    y.process = none ↔
      (l = .monitorReaped ∨ l = .stopReaped) ∨ x.process = none ∧ y.spawned = x.spawned := by
  cases Sender.step_moves h with
  | start | monitorRestarts => simp [Sender.State.startProcess]
  | stopLocked | monitorEnds => simp [Sender.State.requestStop]
  | stopReaped | monitorReaped => simp [Sender.State.reaped]
  | stopRequested | stopJoined | monitorWake | monitorIdle | monitorGivesUp | advance => simp
  | worker e hworker =>
    obtain ⟨w, send, hw, -, -, -, rfl⟩ := Sender.workerStep_cases hworker
    simp [hw]
  | workerExit => simp [Sender.State.workerExit]

theorem CallPc.Tracks.onSender {timeout : Int} {x y : Sender.State} {l : Sender.Label}
    {pc : CallPc} (h : pc.Tracks (some x)) (hy : Sender.step timeout x l = some y) :
    (pc.onSender l x y).Tracks (some y) := by
  cases pc with
  | alive lost =>
    obtain ⟨x', hx', hlost⟩ := h
    cases hx'
    have hprocess := process_none_iff hy
    cases l with
    | monitorReaped => exact ⟨y, rfl, fun _ => hprocess.2 (.inl (.inl rfl)), fun _ => rfl⟩
    | stopReaped => exact ⟨y, rfl, fun _ => hprocess.2 (.inl (.inr rfl)), fun _ => rfl⟩
    | _ =>
      refine ⟨y, rfl, ?_⟩
      rw [hprocess, Bool.and_eq_true, hlost, beq_iff_eq]
      simp
  | _ => trivial

/-- A call that reads `_process` for the first time has seen one. -/
theorem CallPc.Tracks.callStep {timeout : Int} {sender : Option Sender.State} {pc pc' : CallPc}
    {e : CallEvent} (h : callStep timeout sender pc e = some pc') : pc'.Tracks sender := by
  unfold StatisticsReporter.callStep at h
  split at h
  case h_1 =>
    cases h
    split <;> trivial
  case h_8 =>
    cases h
    trivial
  case h_9 =>
    cases h
    split <;> trivial
  case h_10 => cases h
  all_goals
    obtain ⟨x, hx, rfl⟩ := Option.map_eq_some_iff.1 h
  case h_2 | h_3 => split <;> trivial
  case h_4 =>
    split
    · trivial
    · rename_i hsome
      exact ⟨x, hx, by simpa using hsome⟩
  case h_5 =>
    split
    · trivial
    · split <;> trivial
  case h_6 | h_7 => trivial

/-- A call that has kept its process calls `is_alive` on it. -/
theorem callsNone_eq_false {sender : Option Sender.State} {pc : CallPc} (h : pc.Tracks sender)
    (hkept : pc.Kept) : pc.callsNone sender = false := by
  cases pc with
  | alive lost =>
    obtain ⟨x, rfl, hlost⟩ := h
    cases hkept
    have hprocess : x.process ≠ none := by simpa using hlost
    simpa [CallPc.callsNone, Option.isSome_iff_ne_none] using hprocess
  | _ => rfl

/-- One that has lost it does not. -/
theorem callsNone_eq_true {sender : Option Sender.State} {pc : CallPc} (h : pc.Tracks sender)
    (hkept : ¬ pc.Kept) : pc.callsNone sender = true := by
  cases pc with
  | alive lost =>
    obtain ⟨x, rfl, hlost⟩ := h
    have hlost' : lost = true := by simpa [CallPc.Kept] using hkept
    simp [CallPc.callsNone, hlost.1 hlost']
  | _ => exact absurd trivial hkept

/-- The other ways for a call to raise. -/
theorem escapes_of_raised {timeout : Int} {sender : Option Sender.State} {pc : CallPc}
    {e : CallEvent} {error : PyError} (h : callStep timeout sender pc e = some (.raised error)) :
    pc.callsNone sender = true ∨ e.escapes = true := by
  unfold callStep at h
  split at h
  case h_1 =>
    split at h <;> cases h
  case h_8 => cases h
  case h_9 error' =>
    split at h <;> cases h
    rename_i hcaught
    exact .inr (by simpa [CallEvent.escapes] using hcaught)
  case h_10 => cases h
  all_goals
    obtain ⟨x, rfl, hx⟩ := Option.map_eq_some_iff.1 h
  case h_2 | h_3 | h_4 => split at hx <;> cases hx
  case h_5 =>
    split at hx
    · rename_i hprocess
      exact .inl (by simp [CallPc.callsNone, hprocess])
    · split at hx <;> cases hx
  case h_6 | h_7 => cases hx

theorem Reporter.after_eq_calling {pc pc' : CallPc} (h : Reporter.after pc = .calling pc') :
    pc' = pc := by
  cases pc <;> cases h <;> rfl

theorem Reporter.after_eq_ended {pc : CallPc} (h : Reporter.after pc = .ended) :
    ∃ e, pc = .raised e := by
  cases pc <;> cases h
  exact ⟨_, rfl⟩

theorem Entry.after_eq_calling {pc pc' : CallPc} (h : Entry.after pc = .calling pc') :
    pc' = pc := by
  cases pc <;> cases h <;> rfl

theorem Reporter.onSender_eq_calling {l : Sender.Label} {x y : Sender.State} {r : Reporter}
    {pc : CallPc} (h : r.onSender l x y = .calling pc) :
    ∃ pc', r = .calling pc' ∧ pc = pc'.onSender l x y := by
  cases r <;> cases h
  exact ⟨_, rfl, rfl⟩

theorem Reporter.onSender_eq_ended {l : Sender.Label} {x y : Sender.State} {r : Reporter}
    (h : r.onSender l x y = .ended) : r = .ended := by
  cases r <;> cases h
  rfl

theorem Entry.onSender_eq_calling {l : Sender.Label} {x y : Sender.State} {entry : Entry}
    {pc : CallPc} (h : entry.onSender l x y = .calling pc) :
    ∃ pc', entry = .calling pc' ∧ pc = pc'.onSender l x y := by
  cases entry <;> cases h
  exact ⟨_, rfl, rfl⟩

/-- Before there is a sender no call is between its reads of `_process`. -/
theorem CallPc.Tracks.of_none {pc : CallPc} (h : pc.Tracks none) (sender : Option Sender.State) :
    pc.Tracks sender := by
  cases pc with
  | alive lost =>
    obtain ⟨x, hx, -⟩ := h
    cases hx
  | _ => trivial

section

variable {timeout : Int} {s t : State}

theorem step_assign {now : Int} (h : step timeout s (.assign now) = some t) :
    s.sender = none ∧ t = { s with sender := some (Sender.State.init now) } := by
  simp only [step] at h
  split at h <;> cases h
  rename_i hnone
  exact ⟨hnone.2, rfl⟩

theorem step_sender {l : Sender.Label} (h : step timeout s (.sender l) = some t) :
    ∃ x y, s.sender = some x ∧ Sender.step timeout x l = some y ∧
      t = { s with
        sender := some y
        reporter := s.reporter.onSender l x y
        entry := s.entry.onSender l x y } := by
  simp only [step] at h
  split at h
  · cases h
  · rename_i x hx
    split at h
    · obtain ⟨y, hy, rfl⟩ := Option.map_eq_some_iff.1 h
      exact ⟨x, y, hx, hy, rfl⟩
    · cases h

theorem step_report {e : CallEvent} (h : step timeout s (.report e) = some t) :
    ∃ pc pc', s.reporter = .calling pc ∧ callStep timeout s.sender pc e = some pc' ∧
      t = { s with
        reporter := .after pc'
        noneCalled := s.noneCalled || pc.callsNone s.sender } := by
  simp only [step] at h
  split at h
  · rename_i pc hpc
    obtain ⟨pc', hpc', rfl⟩ := Option.map_eq_some_iff.1 h
    exact ⟨pc, pc', hpc, hpc', rfl⟩
  · cases h

theorem step_final {e : CallEvent} (h : step timeout s (.final e) = some t) :
    ∃ pc pc', s.entry = .calling pc ∧ callStep timeout s.sender pc e = some pc' ∧
      t = { s with
        entry := .after pc'
        noneCalled := s.noneCalled || pc.callsNone s.sender } := by
  simp only [step] at h
  split at h
  · rename_i pc hpc
    obtain ⟨pc', hpc', rfl⟩ := Option.map_eq_some_iff.1 h
    exact ⟨pc, pc', hpc, hpc', rfl⟩
  · cases h

theorem step_inv {l : Label} (h : Inv s) (hl : Undisturbed s l)
    (ht : step timeout s l = some t) : Inv t := by
  obtain ⟨⟨hstatus, hloop⟩, hreporter, hentry⟩ := h
  cases l with
  | assign now =>
    obtain ⟨hnone, rfl⟩ := step_assign ht
    rw [hnone] at hreporter hentry
    exact ⟨⟨hstatus, hloop⟩, fun pc hpc => (hreporter pc hpc).of_none _,
      fun pc hpc => (hentry pc hpc).of_none _⟩
  | sender l =>
    obtain ⟨x, y, hx, hy, rfl⟩ := step_sender ht
    rw [hx] at hreporter hentry
    refine ⟨⟨hstatus, fun hended => hloop (Reporter.onSender_eq_ended hended)⟩, fun pc hpc => ?_,
      fun pc hpc => ?_⟩
    · obtain ⟨pc', hpc', rfl⟩ := Reporter.onSender_eq_calling hpc
      exact (hreporter pc' hpc').onSender hy
    · obtain ⟨pc', hpc', rfl⟩ := Entry.onSender_eq_calling hpc
      exact (hentry pc' hpc').onSender hy
  | wake =>
    simp only [step] at ht
    split at ht <;> cases ht
    refine ⟨⟨hstatus, fun hended => ?_⟩, fun pc hpc => ?_, hentry⟩
    · by_contra hstop
      simp [hstop] at hended
    · dsimp only at hpc
      split at hpc <;> cases hpc
      trivial
  | report e =>
    obtain ⟨pc, pc', hpc, hpc', rfl⟩ := step_report ht
    simp only [Undisturbed, hpc] at hl
    have hnone := callsNone_eq_false (hreporter pc hpc) hl.1
    refine ⟨⟨by rw [hstatus, hnone]; rfl, fun hended => ?_⟩, fun pc'' hpc'' => ?_, hentry⟩
    · obtain ⟨error, rfl⟩ := Reporter.after_eq_ended hended
      rcases escapes_of_raised hpc' with hcalls | hescapes
      · rw [hnone] at hcalls
        cases hcalls
      · exact hl.2 hescapes
    · rw [Reporter.after_eq_calling hpc'']
      exact CallPc.Tracks.callStep hpc'
  | runEnded =>
    simp only [step] at ht
    split at ht <;> cases ht
    exact ⟨⟨hstatus, fun _ => rfl⟩, hreporter, fun pc hpc => by cases hpc⟩
  | joined =>
    simp only [step] at ht
    split at ht <;> cases ht
    refine ⟨⟨hstatus, hloop⟩, hreporter, fun pc hpc => ?_⟩
    cases hpc
    trivial
  | final e =>
    obtain ⟨pc, pc', hpc, hpc', rfl⟩ := step_final ht
    simp only [Undisturbed, hpc] at hl
    have hnone := callsNone_eq_false (hentry pc hpc) hl
    refine ⟨⟨by rw [hstatus, hnone]; rfl, hloop⟩, hreporter, fun pc'' hpc'' => ?_⟩
    rw [Entry.after_eq_calling hpc'']
    exact CallPc.Tracks.callStep hpc'

/-- What escapes ends the call. -/
theorem raised_of_escapes {sender : Option Sender.State} {pc pc' : CallPc} {e : CallEvent}
    (h : callStep timeout sender pc e = some pc') (he : e.escapes = true) :
    ∃ error, pc' = .raised error := by
  cases e with
  | read => cases he
  | posted raises =>
    cases raises with
    | none => cases he
    | some error =>
      have hcaught : caught error = false := by simpa [CallEvent.escapes] using he
      cases pc <;> simp [callStep, hcaught] at h
      exact ⟨error, h.symm⟩

/-- The other steps end the reporting, or call `is_alive` on `None`. -/
theorem not_survives_of_disturbed {l : Label} (h : Inv s) (hl : ¬ Undisturbed s l)
    (ht : step timeout s l = some t) : ¬ Survives t := by
  intro hsurvives
  have hnone := hsurvives.status
  cases l with
  | report e =>
    obtain ⟨pc, pc', hpc, hpc', rfl⟩ := step_report ht
    simp only [Undisturbed, hpc, not_and_or, Classical.not_imp] at hl
    rcases hl with hkept | ⟨hescapes, hstop⟩
    · rw [callsNone_eq_true (h.reporter pc hpc) hkept, Bool.or_true] at hnone
      cases hnone
    · obtain ⟨error, rfl⟩ := raised_of_escapes hpc' hescapes
      exact hstop (hsurvives.loop rfl)
  | final e =>
    obtain ⟨pc, pc', hpc, -, rfl⟩ := step_final ht
    simp only [Undisturbed, hpc] at hl
    rw [callsNone_eq_true (h.entry pc hpc) hl, Bool.or_true] at hnone
    cases hnone
  | _ => exact hl trivial

end

theorem inv_init : Inv State.init :=
  ⟨⟨rfl, fun h => by cases h⟩, fun _ h => (by cases h), fun _ h => (by cases h)⟩

/-- **When reporting survives.** -/
theorem reporting_survives_iff (timeout : Int) (labels : List Label) :
    Always (step timeout) Survives State.init labels ↔
      StepsMeet (step timeout) Undisturbed State.init labels :=
  always_iff_stepsMeet (fun _ h => h.survives) (fun _ _ _ h hl ht => step_inv h hl ht)
    (fun _ _ _ h hl ht => not_survives_of_disturbed h hl ht) inv_init

/-- A worker that has muxed a packet crashes, and is restarted between the two reads. -/
def restartScript : List Label :=
  let frame : Send.EncodedPacket := ⟨"h264", 640, 360, 1, some 0, [1], true⟩
  [.assign 0, .sender .start, .sender (.worker (.next frame)), .sender (.worker .check),
    .sender (.worker (.avOpen true)), .sender (.worker (.addStream true)),
    .sender (.worker (.muxed 0)), .sender .workerExit, .sender .monitorWake,
    .sender .monitorCheck, .wake, .report .read, .report .read, .report .read, .report .read,
    .sender .monitorReaped, .report .read]

/-- The reporter has ended although nobody has set its stop event. -/
theorem restart_ends_reporting :
    ¬ Always (step 10) Survives State.init restartScript := by
  intro h
  obtain ⟨s, hs⟩ : ∃ s, run (step 10) State.init restartScript = some s := ⟨_, rfl⟩
  have hsurvives := always_iff_runs.1 h _ s (List.prefix_refl _) hs
  cases hs
  have hstop : false = true := hsurvives.loop rfl
  cases hstop

end PipeWorks.NvidiaPipe.StatisticsReporter
