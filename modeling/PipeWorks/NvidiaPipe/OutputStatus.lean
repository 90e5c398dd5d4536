import PipeWorks.NvidiaPipe.Sender

/-!
# The reported status of the RTSP output

`connection_status` is computed from three shared values that only a successful `mux` and the
start of a worker write.  A failed attempt writes none of them, so the status goes on being
`connected` while the worker retries, until the heartbeat is `timeout` old.
`always_outputAccurate_iff` says exactly when a run shows that: when an attempt fails less than
`timeout` after a success of the same worker.
-/

set_option autoImplicit false

namespace PipeWorks.NvidiaPipe.Sender

open StepSystem PipeWorks.NvidiaPipe

/-- `connected` is only reported of a live worker whose latest attempt was a success, and less
    than `timeout` ago. -/
def OutputAccurate (timeout : Int) (s : State) : Prop :=
  s.connectionStatus timeout = .connected →
    ∃ w t, s.process = some w ∧ w.alive = true ∧ w.lastMux = some t ∧ w.failedSince = false ∧
      s.now - t < timeout

/-- A failed attempt comes when the worker's latest success, if it has had one, is already
    `timeout` old. -/
def FailsLate (timeout : Int) (s : State) (l : Label) : Prop :=
  ∀ e w t, l = .worker e → isFailure e = true → s.process = some w → w.lastMux = some t →
    timeout ≤ s.now - t

/-- The shared values mirror the history of the current worker. -/
structure StatusInv (timeout : Int) (s : State) : Prop where
  fresh : ∀ w, s.process = some w → w.lastMux = none → s.shared.awaitingMux = true
  muxed : ∀ w t, s.process = some w → w.lastMux = some t →
    s.shared.awaitingMux = false ∧ s.shared.hasSuccessfulMux = true ∧ s.shared.heartbeat = t
  failed : ∀ w t, s.process = some w → w.lastMux = some t → w.failedSince = true →
    timeout ≤ s.now - t

/-- `connected` says that the flags are set, the worker lives and the heartbeat is recent. -/
theorem connectionStatus_eq_connected {timeout : Int} {s : State} :
    s.connectionStatus timeout = .connected ↔
      s.shared.hasSuccessfulMux = true ∧ s.shared.awaitingMux = false ∧
        ∃ w, s.process = some w ∧ w.alive = true ∧ s.now - s.shared.heartbeat < timeout := by
  unfold State.connectionStatus
  cases s.shared.hasSuccessfulMux <;> cases s.shared.awaitingMux <;>
    cases s.process <;> simp
  rename_i w
  cases w.alive <;> simp

theorem StatusInv.accurate {timeout : Int} {s : State} (h : StatusInv timeout s) :
    OutputAccurate timeout s := by
  intro hconn
  obtain ⟨-, hawait, w, hw, halive, hrecent⟩ := connectionStatus_eq_connected.mp hconn
  cases hlast : w.lastMux with
  | none =>
    rw [h.fresh w hw hlast] at hawait
    cases hawait
  | some t =>
    have hbeat := (h.muxed w t hw hlast).2.2
    refine ⟨w, t, hw, halive, hlast, ?_, by omega⟩
    cases hfailed : w.failedSince with
    | false => rfl
    | true =>
      have := h.failed w t hw hlast hfailed
      omega

/-! ## Steps -/

theorem init_statusInv (timeout now : Int) : StatusInv timeout (State.init now) :=
  ⟨fun _ hw => (by cases hw), fun _ _ hw => (by cases hw), fun _ _ hw => (by cases hw)⟩

/-- A step that leaves the shared values and the worker's history alone. -/
theorem StatusInv.of_frame {timeout : Int} {s t : State} (h : StatusInv timeout s)
    (hshared : t.shared = s.shared) (hnow : s.now ≤ t.now)
    (hworker : ∀ w', t.process = some w' → ∃ w, s.process = some w ∧
      w'.lastMux = w.lastMux ∧ w'.failedSince = w.failedSince) : StatusInv timeout t := by
  refine ⟨fun w' hw' hlast => ?_, fun w' t' hw' hlast => ?_, fun w' t' hw' hlast hfailed => ?_⟩
  · obtain ⟨w, hw, hl, -⟩ := hworker w' hw'
    rw [hshared]
    exact h.fresh w hw (hl ▸ hlast)
  · obtain ⟨w, hw, hl, -⟩ := hworker w' hw'
    rw [hshared]
    exact h.muxed w t' hw (hl ▸ hlast)
  · obtain ⟨w, hw, hl, hf⟩ := hworker w' hw'
    have := h.failed w t' hw (hl ▸ hlast) (hf ▸ hfailed)
    omega

theorem requestStop_worker (s : State) : ∀ w', s.requestStop.process = some w' →
    ∃ w, s.process = some w ∧ w'.lastMux = w.lastMux ∧ w'.failedSince = w.failedSince := by
  intro w' hw'
  obtain ⟨w, hw, rfl⟩ := Option.map_eq_some_iff.mp hw'
  exact ⟨w, hw, rfl, rfl⟩

theorem startProcess_inv (timeout : Int) (s : State) : StatusInv timeout s.startProcess := by
  refine ⟨fun w _ _ => rfl, fun w t hw hlast => ?_, fun w t hw hlast _ => ?_⟩
  · cases hw
    cases hlast
  · cases hw
    cases hlast

theorem StatusInv.withThreads {timeout : Int} {s : State} (h : StatusInv timeout s)
    (monitorStop : Bool) (monitor : MonitorPc) (main : MainPc) :
    StatusInv timeout { s with monitorStop := monitorStop, monitor := monitor, main := main } :=
  ⟨h.fresh, h.muxed, h.failed⟩

theorem StatusInv.requestStop {timeout : Int} {s : State} (h : StatusInv timeout s) :
    StatusInv timeout s.requestStop :=
  h.of_frame rfl (Int.le_refl _) (requestStop_worker s)

theorem StatusInv.reaped {timeout : Int} {s : State} (h : StatusInv timeout s) :
    StatusInv timeout s.reaped :=
  h.of_frame rfl (Int.le_refl _) fun w' hw' => by cases hw'

/-- Anything but a success leaves the shared values and the time of the latest success alone. -/
theorem onEvent_of_not_muxed {e : Send.Event} (he : ∀ t, e ≠ .muxed t) (sh : Send.Shared)
    (w : Worker) (send : Send.State) :
    sh.onEvent e = sh ∧ (w.onEvent send e).lastMux = w.lastMux ∧
      (w.onEvent send e).failedSince = (w.failedSince || isFailure e) ∧
      (w.onEvent send e).alive = w.alive := by
  cases e <;> first
    | exact ⟨rfl, rfl, rfl, rfl⟩
    | exact absurd rfl (he _)

theorem workerStep_inv {timeout : Int} {s t : State} {e : Send.Event} (h : StatusInv timeout s)
    (he : FailsLate timeout s (.worker e)) (hst : s.workerStep e = some t) :
    StatusInv timeout t := by
  obtain ⟨w, send, hw, -, -, -, rfl⟩ := workerStep_cases hst
  by_cases hmux : ∃ t, e = .muxed t
  · obtain ⟨t, rfl⟩ := hmux
    refine ⟨fun w' hw' hlast => ?_, fun w' t' hw' hlast => ?_, fun w' t' hw' hlast hfailed => ?_⟩
    · cases hw'
      cases hlast
    · cases hw'
      cases hlast
      exact ⟨rfl, rfl, rfl⟩
    · cases hw'
      cases hfailed
  · have hne : ∀ t, e ≠ .muxed t := fun t ht => hmux ⟨t, ht⟩
    obtain ⟨hshared, hlast', hfailed', -⟩ := onEvent_of_not_muxed hne s.shared w send
    refine ⟨fun w' hw' hlast => ?_, fun w' t' hw' hlast => ?_, fun w' t' hw' hlast hfailed => ?_⟩
    · cases hw'
      simp only [hshared]
      exact h.fresh w hw (hlast' ▸ hlast)
    · cases hw'
      simp only [hshared]
      exact h.muxed w t' hw (hlast' ▸ hlast)
    · -- a failure: either there was one before, or this one comes late enough
      cases hw'
      rw [hlast'] at hlast
      rw [hfailed', Bool.or_eq_true] at hfailed
      rcases hfailed with hfailed | hfailed
      · exact h.failed w t' hw hlast hfailed
      · exact he e w t' rfl hfailed hw hlast

/-- A step that fails no attempt too early keeps the invariant. -/
theorem step_statusInv {timeout : Int} {s t : State} {l : Label} (h : StatusInv timeout s)
    (hl : FailsLate timeout s l) (hst : step timeout s l = some t) : StatusInv timeout t := by
  cases step_moves hst with
  | start | monitorRestarts => exact (startProcess_inv timeout s).withThreads _ _ _
  | stopRequested | stopJoined | monitorWake | monitorIdle | monitorGivesUp =>
    exact h.withThreads _ _ _
  | stopLocked | monitorEnds => exact h.requestStop.withThreads _ _ _
  | stopReaped | monitorReaped => exact h.reaped.withThreads _ _ _
  | worker e hworker => exact workerStep_inv h hl hworker
  | workerExit =>
    refine h.of_frame rfl (Int.le_refl _) fun w' hw' => ?_
    obtain ⟨w, hw, rfl⟩ := Option.map_eq_some_iff.mp hw'
    exact ⟨w, hw, rfl, rfl⟩
  | advance d =>
    exact h.of_frame rfl (by show s.now ≤ s.now + d; omega) fun w' hw' => ⟨w', hw', rfl, rfl⟩

/-- An attempt that fails too early leaves the status on `connected`. -/
theorem step_not_accurate {timeout : Int} {s t : State} {l : Label} (h : StatusInv timeout s)
    (hl : ¬ FailsLate timeout s l) (hst : step timeout s l = some t) :
    ¬ OutputAccurate timeout t := by
  simp only [FailsLate, not_forall] at hl
  obtain ⟨e, w, t₀, rfl, hfail, hw, hlast, hearly⟩ := hl
  obtain ⟨w', send, hw', halive, -, -, rfl⟩ := workerStep_cases hst
  rw [hw] at hw'
  cases hw'
  have hne : ∀ t, e ≠ .muxed t := fun t ht => by subst ht; cases hfail
  obtain ⟨hshared, -, hfailed, halive'⟩ := onEvent_of_not_muxed hne s.shared w send
  obtain ⟨hawait, hhas, hbeat⟩ := h.muxed w t₀ hw hlast
  intro hacc
  obtain ⟨w', -, hw', -, -, hnot, -⟩ := hacc (connectionStatus_eq_connected.mpr
    ⟨by simpa only [hshared] using hhas, by simpa only [hshared] using hawait, _, rfl,
      halive'.trans halive, by simp only [hshared, hbeat]; omega⟩)
  cases hw'
  rw [hfailed, hfail, Bool.or_true] at hnot
  cases hnot

/-- **When the output status is right**: in every state of a run exactly when no attempt of a
    worker fails less than `timeout` after its latest success. -/
theorem always_outputAccurate_iff (timeout now : Int) (labels : List Label) :
    Always (step timeout) (OutputAccurate timeout) (State.init now) labels ↔
      StepsMeet (step timeout) (FailsLate timeout) (State.init now) labels :=
  always_iff_stepsMeet (fun _ h => h.accurate) (fun _ _ _ h hl hst => step_statusInv h hl hst)
    (fun _ _ _ h hl hst => step_not_accurate h hl hst) (init_statusInv timeout now)

/-- A keyframe is muxed, and one tick later the next packet fails. -/
def retryScript : List Label :=
  let frame : Bool → Send.EncodedPacket := fun key => ⟨"h264", 640, 360, 1, some 0, [1], key⟩
  [.start, .worker (.next (frame true)), .worker .check, .worker (.avOpen true),
    .worker (.addStream true), .worker (.muxed 0), .advance 1, .worker (.next (frame false)),
    .worker .check, .worker .muxRaises]

theorem retry_not_accurate :
    ¬ Always (step 10) (OutputAccurate 10) (State.init 0) retryScript := by
  intro h
  have hacc := always_iff_runs.mp h retryScript _ (List.prefix_refl _) rfl
  obtain ⟨w, t, hw, -, -, hnot, -⟩ := hacc rfl
  cases hw
  cases hnot

end PipeWorks.NvidiaPipe.Sender
