import PipeWorks.Conductor.Supervisor

/-!
# The status of a process that sends heartbeats

A process beats while its registered connection is open and a series of heartbeats handled on it
has not paused for longer than the timeout.  Its status should be `running` then, and
`keepsRunning_iff` says which steps take that away: a mark that the monitor has decided on before
the series began, a mark that the close handler of a superseded connection makes although the new
connection is beating, and a registration that comes behind such a mark.
-/

set_option autoImplicit false

namespace PipeWorks.Conductor.Supervisor

open StepSystem

variable {s t : State} {c : Nat} {conn : Connection} {p : String}

/-- The registered connection of the process is open, and its series of heartbeats has not paused
    for longer than the timeout. -/
def State.Beating (s : State) (p : String) : Prop :=
  ∃ c conn time, s.children p = some c ∧ s.connections[c]? = some conn ∧ conn.isOpen = true ∧
    conn.beat = some time ∧ s.now - time ≤ HEARTBEAT_TIMEOUT

/-- A process that beats is `running`. -/
def KeepsRunning (s : State) : Prop := ∀ p, s.Beating p → s.status p = .running

/-- No process that beats is marked stopped: not by the monitor, which has decided on the mark in
    an earlier section, and not by the close handler of a connection that another one has
    replaced.  And a connection that is registered while it beats belongs to a `running` process. -/
def SparesBeating (s : State) : Label → Prop
  | .monitor .mark => ∀ p rest, s.monitor = .marking (p :: rest) → ¬ s.Beating p
  | .receive c .markStopped => ∀ conn, s.connections[c]? = some conn → ¬ s.Beating conn.process
  | .thread i .register => ∀ caller p c conn time,
      s.threads[i]? = some (.openChild caller p (.registering c)) →
        s.connections[c]? = some conn → conn.isOpen = true → conn.beat = some time →
          s.now - time ≤ HEARTBEAT_TIMEOUT → s.status p = .running
  | _ => True

/-! ## Steps -/

/-- A step after which no other process beats, and that writes no status. -/
theorem KeepsRunning.of_frame (h : KeepsRunning s) (hbeating : ∀ p, t.Beating p → s.Beating p)
    (hstatus : t.processStatuses = s.processStatuses) : KeepsRunning t := by
  intro p hp
  unfold State.status
  rw [hstatus]
  exact h p (hbeating p hp)

/-- A step of a receive thread makes no process beat, unless it handles a heartbeat of it. -/
theorem Received.beating {e : ReceiveStep} {conn' : Connection} (hwired : Wired s)
    (hconn : s.connections[c]? = some conn) (h : Received s conn e c conn' t)
    (hseries : p = conn.process → GoesOn s.now conn conn') (hp : t.Beating p) : s.Beating p := by
  obtain ⟨c', conn'', time, hchild, hconn'', hopen, hbeat, hrecent⟩ := hp
  have hchild := h.children_of hchild
  rw [h.now] at hrecent
  rw [h.connections, List.getElem?_set] at hconn''
  split at hconn''
  · rename_i heq
    subst heq
    rw [if_pos (List.getElem?_eq_some_iff.mp hconn).1] at hconn''
    cases hconn''
    have hprocess := hwired.registered p c hchild
    rw [State.processOf, hconn] at hprocess
    obtain ⟨time', hbeat', hrecent'⟩ :=
      hseries (Option.some.inj hprocess).symm time hbeat hrecent
    exact ⟨c, conn, time', hchild, hconn, h.closes hopen, hbeat', hrecent'⟩
  · exact ⟨c', conn'', time, hchild, hconn'', hopen, hbeat, hrecent⟩

theorem Received.keepsRunning {e : ReceiveStep} {conn' : Connection} (hwired : Wired s)
    (h : KeepsRunning s) (hconn : s.connections[c]? = some conn)
    (hspares : SparesBeating s (.receive c e)) (hreceived : Received s conn e c conn' t) :
    KeepsRunning t := by
  have hstatuses := hreceived.statuses
  cases e with
  | heartbeat | hangUp | remove | publish =>
    exact h.of_frame (fun p hp => hreceived.beating hwired hconn
      (fun _ => hreceived.series nofun) hp) hstatuses
  | markRunning =>
    intro p hp
    unfold State.status
    rw [hstatuses]
    by_cases hpc : p = conn.process
    · simp [hpc, ReceiveStep.marks]
    · simp only [ReceiveStep.marks, Function.update_of_ne hpc]
      exact h p (hreceived.beating hwired hconn (fun heq => absurd heq hpc) hp)
  | markStopped =>
    intro p hp
    have hbefore := hreceived.beating hwired hconn (fun _ => hreceived.series nofun) hp
    have hpc : p ≠ conn.process := by
      rintro rfl
      exact hspares conn hconn hbefore
    unfold State.status
    rw [hstatuses]
    simp only [ReceiveStep.marks, Function.update_of_ne hpc]
    exact h p hbefore

/-- A new connection has handled no heartbeat. -/
theorem beating_append {new : Connection} {threads : List Thread} (hnew : new.beat = none)
    (hp : State.Beating { s with connections := s.connections ++ [new], threads := threads } p) :
    s.Beating p := by
  obtain ⟨c, conn, time, hchild, hconn, hopen, hbeat, hrecent⟩ := hp
  refine ⟨c, conn, time, hchild, ?_, hopen, hbeat, hrecent⟩
  simp only [List.getElem?_append] at hconn
  split at hconn
  · exact hconn
  · have heq := List.mem_singleton.mp (List.mem_of_getElem? hconn)
    rw [heq, hnew] at hbeat
    cases hbeat

theorem Threaded.keepsRunning {i : Nat} {thread : Thread} {e : ThreadStep} (h : KeepsRunning s)
    (hthread : s.threads[i]? = some thread) (hspares : SparesBeating s (.thread i e))
    (hstep : Threaded s i thread e t) : KeepsRunning t := by
  cases hstep with
  | goOn e m next _ => exact h
  | connected caller q => exact h.of_frame (fun p hp => beating_append rfl hp) rfl
  | registered caller q c hregistering =>
    rintro p ⟨c', conn, time, hchild, hconn, hopen, hbeat, hrecent⟩
    simp only [State.setThread, Function.update_apply] at hchild
    split at hchild
    · rename_i heq
      cases hchild
      subst heq
      exact hspares caller p c conn time (hregistering ▸ hthread) hconn hopen hbeat hrecent
    · exact h p ⟨c', conn, time, hchild, hconn, hopen, hbeat, hrecent⟩

theorem monitorStep_keepsRunning {e : MonitorStep} (h : KeepsRunning s)
    (hspares : SparesBeating s (.monitor e)) (hstep : monitorStep s e = some t) :
    KeepsRunning t := by
  obtain ⟨m, ⟨-, published, rfl⟩ | ⟨q, rest, rfl, hmonitor, rfl⟩⟩ := monitorStep_cases hstep
  · exact h
  · intro p hp
    have hne : p ≠ q := by
      rintro rfl
      exact hspares p rest hmonitor hp
    unfold State.status
    simp only [State.setProcessStatus, Function.update_of_ne hne]
    exact h p hp

theorem step_keepsRunning {l : Label} (hwired : Wired s) (h : KeepsRunning s)
    (hspares : SparesBeating s l) (hstep : step s l = some t) : KeepsRunning t := by
  cases step_stepped hstep with
  | received c e conn conn' t hconn _ hreceived =>
    exact hreceived.keepsRunning hwired h hconn hspares
  | monitored e t hstep => exact monitorStep_keepsRunning h hspares hstep
  | threaded i e thread t hthread hstep =>
    exact (threadStep_threaded hstep).keepsRunning h hthread hspares
  | served r _ =>
    obtain ⟨repository, thread, -, heq⟩ := serve_cases s r
    rw [heq]
    exact h
  | published _ => exact h
  | advanced d =>
    refine h.of_frame (fun p hp => ?_) rfl
    obtain ⟨c, conn, time, hchild, hconn, hopen, hbeat, hrecent⟩ := hp
    have hrecent : s.now + d - time ≤ HEARTBEAT_TIMEOUT := hrecent
    exact ⟨c, conn, time, hchild, hconn, hopen, hbeat, by omega⟩

/-- The end of a series leaves the connections as they are. -/
theorem Received.still_beating {conn' : Connection} {p : String}
    (h : Received s conn .markStopped c conn' t) (hconn : s.connections[c]? = some conn)
    (hp : s.Beating p) : t.Beating p := by
  obtain ⟨hopens, hbeats, hchildren⟩ := h.stops rfl
  obtain ⟨c', conn'', time, hchild, hconn'', hopen, hbeat, hrecent⟩ := hp
  by_cases heq : c = c'
  · subst heq
    rw [hconn] at hconn''
    cases hconn''
    refine ⟨c, conn', time, hchildren ▸ hchild, ?_, hopens.trans hopen, hbeats.trans hbeat,
      h.now ▸ hrecent⟩
    rw [h.connections, List.getElem?_set_self (List.getElem?_eq_some_iff.mp hconn).1]
  · refine ⟨c', conn'', time, hchildren ▸ hchild, ?_, hopen, hbeat, h.now ▸ hrecent⟩
    rw [h.connections, List.getElem?_set_ne heq, hconn'']

/-- A process that is marked stopped while it beats goes on beating. -/
theorem step_not_keepsRunning {l : Label} (hspares : ¬ SparesBeating s l)
    (hstep : step s l = some t) : ¬ KeepsRunning t := by
  have hstopped : ∀ p, t.Beating p → t.status p ≠ .running → ¬ KeepsRunning t :=
    fun p hp hne h => hne (h p hp)
  cases l with
  | receive c e =>
    cases e with
    | markStopped =>
      simp only [SparesBeating, not_forall, not_not] at hspares
      obtain ⟨conn, hconn, hbeating⟩ := hspares
      obtain ⟨conn', hconn', hstep⟩ := Option.bind_eq_some_iff.mp hstep
      rw [hconn] at hconn'
      cases hconn'
      obtain ⟨conn', hreceived⟩ := receiveStep_received hstep
      apply hstopped conn.process (hreceived.still_beating hconn hbeating)
      unfold State.status
      rw [hreceived.statuses]
      simp [ReceiveStep.marks]
    | _ => exact absurd trivial hspares
  | monitor e =>
    cases e with
    | mark =>
      simp only [SparesBeating, not_forall, not_not] at hspares
      obtain ⟨p, rest, hmonitor, hbeating⟩ := hspares
      obtain ⟨m, ⟨hne, -⟩ | ⟨q, rest', -, hmonitor', rfl⟩⟩ := monitorStep_cases hstep
      · exact absurd rfl hne
      · rw [hmonitor] at hmonitor'
        cases hmonitor'
        apply hstopped p hbeating
        unfold State.status
        simp [State.setProcessStatus]
    | _ => exact absurd trivial hspares
  | thread i e =>
    cases e with
    | register =>
      simp only [SparesBeating, not_forall] at hspares
      obtain ⟨caller, p, c, conn, time, hthread, hconn, hopen, hbeat, hrecent, hstatus⟩ := hspares
      obtain ⟨thread, hthread', hstep⟩ := Option.bind_eq_some_iff.mp hstep
      rw [hthread] at hthread'
      cases hthread'
      cases hstep
      apply hstopped p _ hstatus
      exact ⟨c, conn, time, by simp [State.setThread], hconn, hopen, hbeat, hrecent⟩
    | _ => exact absurd trivial hspares
  | request r => exact absurd trivial hspares
  | setStatusPublisher => exact absurd trivial hspares
  | advance d => exact absurd trivial hspares

/-! ## Runs -/

/-- **When a live status is kept**: every process that beats is `running` in every state of a run
    exactly when every step of the run spares the processes that beat. -/
theorem keepsRunning_iff (now : Int) (repository : ProcessRepository) (labels : List Label) :
    Always step KeepsRunning (State.init now repository) labels ↔
      StepsMeet step SparesBeating (State.init now repository) labels :=
  always_iff_stepsMeet (I := fun s => Wired s ∧ KeepsRunning s) (fun _ h => h.2)
    (fun _ _ _ h hspares hstep =>
      ⟨step_wired h.1 hstep, step_keepsRunning h.1 h.2 hspares hstep⟩)
    (fun _ _ _ _ hspares hstep => step_not_keepsRunning hspares hstep)
    ⟨wired_init now repository, fun _ ⟨_, _, _, hchild, _⟩ => by cases hchild⟩

/-- The constructor connects to the process, and a heartbeat is handled.  Four seconds later the
    monitor looks; before it marks, the next heartbeat is handled. -/
def lateMarkScript : List Label :=
  [.thread 0 .check, .thread 0 (.connect true), .thread 0 .register, .thread 0 (.greet true),
    .receive 0 .heartbeat, .receive 0 .markRunning, .receive 0 .publish, .advance 4000000000,
    .monitor .wake, .monitor .scan, .receive 0 .heartbeat, .receive 0 .markRunning, .monitor .mark]

theorem lateMark_not_keepsRunning :
    ¬ Always step KeepsRunning (State.init 0 cameraTable) lateMarkScript := by
  intro h
  have hkeeps := always_iff_runs.mp h lateMarkScript _ (List.prefix_refl _) rfl
  have hstatus := hkeeps "camera" ⟨0, _, _, rfl, rfl, rfl, rfl, by decide⟩
  exact absurd hstatus (by decide)

end PipeWorks.Conductor.Supervisor
