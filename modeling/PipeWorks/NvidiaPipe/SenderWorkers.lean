import PipeWorks.NvidiaPipe.Sender

/-!
# The workers of a `Sender`

Both the monitor and `stop` end the worker, and both the monitor and `start` begin one.  The
machine of `Sender` knows the worker it has registered; here the list of all workers that have
been started and not reaped goes with it, so that a worker that was overwritten would be seen.

`never_resurrects`: this list never holds two workers, and after `stop` has returned it is empty
and stays so, whatever the monitor was doing when `stop` came.  What carries it is who may hold the
lock: while `stop` reaps the worker, the monitor is neither stopping nor restarting it.
-/

set_option autoImplicit false

namespace PipeWorks.NvidiaPipe.Sender

open StepSystem

variable {timeout : Int}

/-- A `Sender` with the workers it has started and nobody has reaped. -/
structure Supervised where
  sender : State
  unreaped : List Nat
  deriving DecidableEq, Repr

/-- The step calls `_start_process`. -/
def State.starts (s : State) : Label → Bool
  | .start => true
  | .monitorRestart => !s.monitorStop
  | _ => false

/-- The step ends a call of `_stop_process`. -/
def reaps : Label → Bool
  | .stopReaped | .monitorReaped => true
  | _ => false

/-- `_start_process` starts the worker with the next number, `_stop_process` reaps the registered
    one. -/
def Supervised.unreapedAfter (x : Supervised) (l : Label) : List Nat :=
  if x.sender.starts l then x.unreaped ++ [x.sender.spawned]
  else if reaps l then x.unreaped.filter fun pid => !x.sender.process.any (·.pid == pid)
  else x.unreaped

def supervisedStep (timeout : Int) (x : Supervised) (l : Label) : Option Supervised :=
  (step timeout x.sender l).map fun t => ⟨t, x.unreapedAfter l⟩

/-- What an observer of the worker processes sees. -/
structure NoResurrection (timeout : Int) (x : Supervised) : Prop where
  one : x.unreaped.length ≤ 1
  /-- only a worker that has not been reaped is alive -/
  alive : ∀ w, x.sender.process = some w → w.alive = true → w.pid ∈ x.unreaped
  /-- when `stop` has returned, every worker has been reaped -/
  gone : x.sender.main = .stopped → x.unreaped = []
  /-- and no later step starts another one -/
  final : x.sender.main = .stopped → ∀ labels y,
    run (supervisedStep timeout) x labels = some y →
      y.unreaped = [] ∧ y.sender.spawned = x.sender.spawned

/-- The registered worker is the only one, and there is none where one may be started. -/
structure Sole (x : Supervised) : Prop where
  registered : x.unreaped = (x.sender.process.map (·.pid)).toList
  created : x.sender.main = .created → x.sender.process = none ∧ x.sender.monitor = .absent
  restarting : x.sender.monitor = .restarting → x.sender.process = none
  /-- `stop` holds the lock, or has held it -/
  locked : x.sender.main = .reaping ∨ x.sender.main = .stopped →
    x.sender.monitor ≠ .reaping ∧ x.sender.monitor ≠ .restarting
  stopped : x.sender.main = .stopped → x.sender.process = none

theorem sole_init (now : Int) : Sole ⟨State.init now, []⟩ :=
  ⟨rfl, fun _ => ⟨rfl, rfl⟩, nofun, fun _ => ⟨nofun, nofun⟩, nofun⟩

/-! ## Steps -/

theorem lockFree_eq_true {s : State} : s.lockFree = true ↔
    s.monitor ≠ .reaping ∧ s.monitor ≠ .restarting ∧ s.main ≠ .reaping := by
  simp [State.lockFree, and_assoc]

theorem unreapedAfter_reaped {x : Supervised} (h : Sole x) {l : Label} (hl : reaps l = true)
    (hstarts : x.sender.starts l = false) : x.unreapedAfter l = [] := by
  unfold Supervised.unreapedAfter
  rw [hstarts, hl, h.registered]
  cases x.sender.process <;> simp

theorem unreapedAfter_other {x : Supervised} {l : Label} (hl : reaps l = false)
    (hstarts : x.sender.starts l = false) : x.unreapedAfter l = x.unreaped := by
  unfold Supervised.unreapedAfter
  rw [hstarts, hl]
  rfl

/-- A worker is started where none is registered. -/
theorem unreapedAfter_started {x : Supervised} (h : Sole x) {l : Label}
    (hstarts : x.sender.starts l = true) (hnone : x.sender.process = none) :
    x.unreapedAfter l = [x.sender.spawned] := by
  unfold Supervised.unreapedAfter
  rw [hstarts, h.registered, hnone]
  rfl

theorem requestStop_pid (s : State) :
    s.requestStop.process.map (·.pid) = s.process.map (·.pid) := by
  unfold State.requestStop
  cases s.process <;> rfl

theorem workerStep_pid {s t : State} {e : Send.Event} (h : s.workerStep e = some t) :
    t.process.map (·.pid) = s.process.map (·.pid) ∧ t.main = s.main ∧ t.monitor = s.monitor ∧
      t.spawned = s.spawned := by
  obtain ⟨w, send, hw, -, -, -, rfl⟩ := workerStep_cases h
  refine ⟨?_, rfl, rfl, rfl⟩
  rw [hw]
  cases e <;> rfl

/-- A step that leaves the registered worker and the program counters alone. -/
theorem Sole.of_frame {s t : State} {unreaped : List Nat} (h : Sole ⟨s, unreaped⟩)
    (hpid : t.process.map (·.pid) = s.process.map (·.pid)) (hmain : t.main = s.main)
    (hmonitor : t.monitor = s.monitor) : Sole ⟨t, unreaped⟩ := by
  have hnone : s.process = none → t.process = none := by
    intro hs
    rw [hs] at hpid
    exact Option.map_eq_none_iff.mp hpid
  refine ⟨?_, fun hcreated => ?_, fun hrestarting => ?_, fun hlocked => ?_, fun hstopped => ?_⟩
  · show unreaped = (t.process.map (·.pid)).toList
    rw [hpid]
    exact h.registered
  · have hcreated := h.created (hmain ▸ hcreated)
    exact ⟨hnone hcreated.1, hmonitor.trans hcreated.2⟩
  · exact hnone (h.restarting (hmonitor ▸ hrestarting))
  · have hlocked := h.locked (hmain ▸ hlocked)
    simp only [hmonitor]
    exact hlocked
  · exact hnone (h.stopped (hmain ▸ hstopped))

/-- The main thread moves on, without the lock. -/
theorem Sole.main {s : State} {unreaped : List Nat} (h : Sole ⟨s, unreaped⟩) {main : MainPc}
    (monitorStop : Bool) (hmain : main = .joining ∨ main = .locking) :
    Sole ⟨{ s with monitorStop := monitorStop, main := main }, unreaped⟩ := by
  refine ⟨h.registered, ?_, h.restarting, ?_, ?_⟩ <;>
    rcases hmain with rfl | rfl <;> simp

theorem Sole.not_created {s : State} {unreaped : List Nat} (h : Sole ⟨s, unreaped⟩)
    (hbegun : s.monitor ≠ .absent) : s.main ≠ .created :=
  fun hcreated => hbegun (h.created hcreated).2

/-- The monitor moves on, without the lock. -/
theorem Sole.monitor {s : State} {unreaped : List Nat} (h : Sole ⟨s, unreaped⟩)
    {monitor : MonitorPc} (hbegun : s.monitor ≠ .absent)
    (hmonitor : monitor = .waiting ∨ monitor = .checking ∨ monitor = .exited) :
    Sole ⟨{ s with monitor := monitor }, unreaped⟩ := by
  refine ⟨h.registered, fun hcreated => absurd hcreated (h.not_created hbegun), ?_, fun _ => ?_,
    h.stopped⟩ <;>
    rcases hmonitor with rfl | rfl | rfl <;> simp

/-- The worker that is to end stays registered until it has been reaped. -/
theorem Sole.registered_requestStop {s : State} {unreaped : List Nat} (h : Sole ⟨s, unreaped⟩) :
    unreaped = (s.requestStop.process.map (·.pid)).toList := by
  rw [requestStop_pid]
  exact h.registered

/-- The monitor ends a worker only where `stop` does not hold the lock, and has not held it. -/
theorem Sole.monitorEnds {s : State} {unreaped : List Nat} {w : Worker} (h : Sole ⟨s, unreaped⟩)
    (hchecking : s.monitor = .checking) (hfree : s.lockFree = true) (hw : s.process = some w) :
    Sole ⟨{ s.requestStop with monitor := .reaping }, unreaped⟩ := by
  have hbegun : s.monitor ≠ .absent := by rw [hchecking]; nofun
  have hmain : ¬ (s.main = .reaping ∨ s.main = .stopped) := by
    rintro (hreaping | hstopped)
    · exact (lockFree_eq_true.mp hfree).2.2 hreaping
    · rw [h.stopped hstopped] at hw
      cases hw
  exact ⟨h.registered_requestStop, fun hcreated => absurd hcreated (h.not_created hbegun),
    nofun, fun hlocked => absurd hlocked hmain, fun hstopped => absurd (.inr hstopped) hmain⟩

/-- The monitor starts a worker where none is registered. -/
theorem Sole.monitorRestarts {s : State} {unreaped : List Nat} (h : Sole ⟨s, unreaped⟩)
    (hrestarting : s.monitor = .restarting) :
    Sole ⟨{ s.startProcess with monitor := .waiting }, [s.spawned]⟩ := by
  have hbegun : s.monitor ≠ .absent := by rw [hrestarting]; nofun
  refine ⟨rfl, fun hcreated => ?_, nofun, fun hlocked => ?_, fun hstopped => ?_⟩
  · exact absurd hcreated (h.not_created hbegun)
  · exact absurd hrestarting (h.locked hlocked).2
  · exact absurd hrestarting (h.locked (.inr hstopped)).2

theorem step_sole {x y : Supervised} {l : Label} (h : Sole x)
    (hstep : supervisedStep timeout x l = some y) : Sole y := by
  obtain ⟨t, ht, rfl⟩ := Option.map_eq_some_iff.mp hstep
  obtain ⟨s, unreaped⟩ := x
  have ht : step timeout s l = some t := ht
  cases step_moves ht with
  | start hcreated hfree =>
    rw [unreapedAfter_started h rfl (h.created hcreated).1]
    exact ⟨rfl, nofun, nofun, nofun, nofun⟩
  | stopRequested hstarted => exact h.main true (.inl rfl)
  | stopJoined hjoining => exact h.main s.monitorStop (.inr rfl)
  | stopLocked hlocking hfree =>
    obtain ⟨hreaping, hrestarting, -⟩ := lockFree_eq_true.mp hfree
    rw [unreapedAfter_other rfl rfl]
    exact ⟨h.registered_requestStop, nofun, fun h => absurd h hrestarting,
      fun _ => ⟨hreaping, hrestarting⟩, nofun⟩
  | stopReaped hreaping =>
    rw [unreapedAfter_reaped h rfl rfl]
    exact ⟨rfl, nofun, fun _ => rfl, fun _ => h.locked (.inl hreaping), fun _ => rfl⟩
  | monitorWake hwaiting =>
    apply h.monitor (by rw [hwaiting]; nofun)
    split
    · exact .inr (.inr rfl)
    · exact .inr (.inl rfl)
  | monitorIdle hchecking hfree =>
    rw [unreapedAfter_other rfl rfl]
    exact h.monitor (by rw [hchecking]; nofun) (.inl rfl)
  | monitorEnds w hchecking hfree hw hneeds =>
    rw [unreapedAfter_other rfl rfl]
    exact h.monitorEnds hchecking hfree hw
  | monitorReaped hreaping =>
    rw [unreapedAfter_reaped h rfl rfl]
    refine ⟨rfl, fun hcreated => ?_, fun _ => rfl, fun hlocked => ?_, fun _ => rfl⟩
    · rw [(h.created hcreated).2] at hreaping
      cases hreaping
    · exact absurd hreaping (h.locked hlocked).1
  | monitorGivesUp hrestarting hstop =>
    rw [unreapedAfter_other rfl (by simp [State.starts, hstop])]
    exact h.monitor (by rw [hrestarting]; nofun) (.inl rfl)
  | monitorRestarts hrestarting hstop =>
    rw [unreapedAfter_started h (by simp [State.starts, hstop]) (h.restarting hrestarting)]
    exact h.monitorRestarts hrestarting
  | worker e hworker =>
    obtain ⟨hpid, hmain, hmonitor, -⟩ := workerStep_pid hworker
    exact h.of_frame hpid hmain hmonitor
  | workerExit =>
    refine h.of_frame ?_ rfl rfl
    unfold State.workerExit
    cases s.process <;> rfl
  | advance d => exact h.of_frame rfl rfl rfl

/-- After `stop` nothing is started. -/
theorem step_stopped {x y : Supervised} {l : Label} (h : Sole x) (hmain : x.sender.main = .stopped)
    (hstep : supervisedStep timeout x l = some y) :
    y.sender.main = .stopped ∧ y.sender.spawned = x.sender.spawned := by
  obtain ⟨t, ht, rfl⟩ := Option.map_eq_some_iff.mp hstep
  obtain ⟨s, unreaped⟩ := x
  have hmain : s.main = .stopped := hmain
  cases step_moves ht with
  | start hpc | stopRequested hpc | stopJoined hpc | stopLocked hpc | stopReaped hpc =>
    rw [hmain] at hpc
    cases hpc
  | monitorEnds w hchecking hfree hw hneeds =>
    rw [h.stopped hmain] at hw
    cases hw
  | monitorReaped hreaping => exact absurd hreaping (h.locked (.inr hmain)).1
  | monitorRestarts hrestarting => exact absurd hrestarting (h.locked (.inr hmain)).2
  | worker e hworker =>
    obtain ⟨-, hmain', -, hspawned⟩ := workerStep_pid hworker
    exact ⟨hmain'.trans hmain, hspawned⟩
  | monitorWake | monitorIdle | monitorGivesUp | workerExit | advance => exact ⟨hmain, rfl⟩

/-! ## Runs -/

theorem run_stopped {x y : Supervised} {labels : List Label} (h : Sole x)
    (hmain : x.sender.main = .stopped) (hrun : run (supervisedStep timeout) x labels = some y) :
    Sole y ∧ y.sender.main = .stopped ∧ y.sender.spawned = x.sender.spawned :=
  run_invariant (I := fun y => Sole y ∧ y.sender.main = .stopped ∧
      y.sender.spawned = x.sender.spawned)
    (fun _ _ _ ⟨h, hmain, hspawned⟩ hstep =>
      have hstopped := step_stopped h hmain hstep
      ⟨step_sole h hstep, hstopped.1, hstopped.2.trans hspawned⟩)
    ⟨h, hmain, rfl⟩ hrun

theorem Sole.unreaped_of_stopped {x : Supervised} (h : Sole x) (hmain : x.sender.main = .stopped) :
    x.unreaped = [] := by
  rw [h.registered, h.stopped hmain]
  rfl

theorem Sole.noResurrection {x : Supervised} (h : Sole x) : NoResurrection timeout x where
  one := by
    rw [h.registered]
    cases x.sender.process <;> simp
  alive := fun w hw _ => by
    rw [h.registered, hw]
    exact List.mem_singleton_self _
  gone := h.unreaped_of_stopped
  final := fun hmain _ _ hrun =>
    have hstopped := run_stopped h hmain hrun
    ⟨hstopped.1.unreaped_of_stopped hstopped.2.1, hstopped.2.2⟩

/-- **A `Sender` never resurrects a worker**: in every state of every run at most one of its
    workers has not been reaped, and when `stop` has returned there is none and none is started. -/
theorem never_resurrects (timeout now : Int) (labels : List Label) :
    Always (supervisedStep timeout) (NoResurrection timeout) ⟨State.init now, []⟩ labels :=
  always_of_invariant (fun _ h => h.noResurrection) (fun _ _ _ h hstep => step_sole h hstep)
    (sole_init now)

end PipeWorks.NvidiaPipe.Sender
