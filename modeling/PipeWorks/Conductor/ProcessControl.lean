import PipeWorks.Conductor.Supervisor

/-!
# Controlled processes and the process table

A process with an open registered connection should have a row: the requests that list, stop or
delete it look the row up first.  Two operations can break this, and `definitionsKept_iff` says
that nothing else does: a delete, which does not look at the connections at all, and the
registration of a connection whose row has been deleted since `startProcess` found it.
-/

set_option autoImplicit false

namespace PipeWorks.Conductor.Supervisor

open StepSystem

variable {s t : State} {c i : Nat} {conn : Connection} {p q : String}

/-- The process has an open connection in `_children`. -/
def State.Controlled (s : State) (p : String) : Prop :=
  ∃ c conn, s.children p = some c ∧ s.connections[c]? = some conn ∧ conn.isOpen = true

/-- Every controlled process has a row. -/
def Defined (s : State) : Prop := ∀ p, s.Controlled p → (s.repository.get p).isSome = true

/-- A delete of a controlled process is refused and changes nothing. -/
def RefusesDelete (s : State) (l : Label) : Prop :=
  ∀ p t, l = .request (.deleteProcess p) → s.Controlled p → step s l = some t →
    ∃ outcome, outcome ≠ .returned ∧ t = s.spawn (.ended outcome)

/-- The step deletes no controlled process, and registers no open connection without a row. -/
def KeepsDefinition (s : State) : Label → Prop
  | .request (.deleteProcess p) => ¬ s.Controlled p
  | .thread i .register =>
    ∀ caller p c, s.threads[i]? = some (.openChild caller p (.registering c)) →
      s.isOpen c = true → (s.repository.get p).isSome = true
  | _ => True

/-! ## Steps -/

/-- A step that neither makes a process controlled nor removes a row. -/
theorem Defined.of_frame (h : Defined s) (hcontrolled : ∀ p, t.Controlled p → s.Controlled p)
    (hrows : ∀ p, (s.repository.get p).isSome = true → (t.repository.get p).isSome = true) :
    Defined t :=
  fun p hp => hrows p (h p (hcontrolled p hp))

/-- No step of a receive thread makes a process controlled. -/
theorem Received.controlled {e : ReceiveStep} {conn' : Connection}
    (hconn : s.connections[c]? = some conn) (h : Received s conn e c conn' t)
    (hp : t.Controlled p) : s.Controlled p := by
  obtain ⟨c', conn'', hchild, hconn'', hopen⟩ := hp
  have hchild := h.children_of hchild
  rw [h.connections, List.getElem?_set] at hconn''
  split at hconn''
  · rename_i heq
    subst heq
    rw [if_pos (List.getElem?_eq_some_iff.mp hconn).1] at hconn''
    cases hconn''
    exact ⟨c, conn, hchild, hconn, h.closes hopen⟩
  · exact ⟨c', conn'', hchild, hconn'', hopen⟩

theorem isOpen_eq_true : s.isOpen c = true ↔
    ∃ conn, s.connections[c]? = some conn ∧ conn.isOpen = true := by
  unfold State.isOpen
  cases s.connections[c]? <;> simp

/-- A connection that has just been opened is not registered yet. -/
theorem controlled_append (hwired : Wired s) {new : Connection} {threads : List Thread}
    (hp : State.Controlled
      { s with connections := s.connections ++ [new], threads := threads } p) :
    s.Controlled p := by
  obtain ⟨c, conn, hchild, hconn, hopen⟩ := hp
  have hprocess := hwired.registered p c hchild
  obtain ⟨conn', hconn', -⟩ := Option.map_eq_some_iff.mp hprocess
  simp only [List.getElem?_append_left (List.getElem?_eq_some_iff.mp hconn').1] at hconn
  exact ⟨c, conn, hchild, hconn, hopen⟩

theorem Threaded.defined {thread : Thread} {e : ThreadStep} (hwired : Wired s) (h : Defined s)
    (hthread : s.threads[i]? = some thread) (hkeeps : KeepsDefinition s (.thread i e))
    (hstep : Threaded s i thread e t) : Defined t := by
  cases hstep with
  | goOn e m next _ => exact h
  | connected caller q => exact h.of_frame (fun p hp => controlled_append hwired hp) fun _ => id
  | registered caller q c hregistering =>
    rintro p ⟨c', conn, hchild, hconn, hopen⟩
    simp only [State.setThread, Function.update_apply] at hchild
    split at hchild
    · rename_i heq
      cases hchild
      subst heq
      exact hkeeps caller p c (hregistering ▸ hthread) (isOpen_eq_true.mpr ⟨conn, hconn, hopen⟩)
    · exact h p ⟨c', conn, hchild, hconn, hopen⟩

/-- Only a delete takes a row away, and only its own. -/
theorem serve_rows (s : State) (r : Request) (p : String)
    (hne : r ≠ .deleteProcess p) (hrow : (s.repository.get p).isSome = true) :
    ((s.serve r).repository.get p).isSome = true := by
  cases r with
  | addProcess time process =>
    show ((s.addProcess time process).repository.get p).isSome = true
    unfold State.addProcess
    split
    · exact hrow
    · split
      · exact ProcessRepository.get_isSome_add ‹_› hrow
      · exact hrow
      · exact hrow
  | updateProcess time processId process =>
    show ((s.updateProcess time processId process).repository.get p).isSome = true
    unfold State.updateProcess
    split
    · exact hrow
    · split
      · exact (ProcessRepository.get_isSome_update ‹_›).trans hrow
      · exact hrow
  | deleteProcess processId =>
    show ((s.repository.delete processId).2.get p).isSome = true
    rw [ProcessRepository.get_delete_of_ne fun heq => hne (by rw [heq])]
    exact hrow
  | startProcess processId => exact hrow
  | stopProcess processId => exact hrow

theorem serve_defined (h : Defined s) {r : Request} (hkeeps : KeepsDefinition s (.request r)) :
    Defined (s.serve r) := by
  intro p hp
  have hbefore : s.Controlled p := by
    obtain ⟨repository, thread, -, heq⟩ := serve_cases s r
    rw [heq] at hp
    exact hp
  apply serve_rows s r p _ (h p hbefore)
  rintro rfl
  exact hkeeps hbefore

theorem step_defined {l : Label} (hwired : Wired s) (h : Defined s) (hkeeps : KeepsDefinition s l)
    (hstep : step s l = some t) : Defined t := by
  cases step_stepped hstep with
  | received c e conn conn' t hconn _ hreceived =>
    apply h.of_frame fun p hp => hreceived.controlled hconn hp
    rw [hreceived.repository]
    exact fun _ => id
  | monitored e t hstep =>
    obtain ⟨m, ⟨-, published, rfl⟩ | ⟨q, rest, -, -, rfl⟩⟩ := monitorStep_cases hstep <;> exact h
  | threaded i e thread t hthread hstep =>
    exact (threadStep_threaded hstep).defined hwired h hthread hkeeps
  | served r _ => exact serve_defined h hkeeps
  | published _ => exact h
  | advanced d => exact h

/-- A controlled process whose row is deleted, or was deleted before it was registered, is left
    without one. -/
theorem step_not_defined {l : Label} (hkeeps : ¬ KeepsDefinition s l) (hstep : step s l = some t) :
    ¬ Defined t := by
  cases l with
  | request r =>
    cases r with
    | deleteProcess p =>
      have hcontrolled : s.Controlled p := not_not.mp hkeeps
      simp only [step] at hstep
      split at hstep <;> cases hstep
      intro h
      have hrow : ((s.repository.delete p).2.get p).isSome = true := h p hcontrolled
      rw [ProcessRepository.get_delete_self] at hrow
      cases hrow
    | _ => exact absurd trivial hkeeps
  | thread i e =>
    cases e with
    | register =>
      simp only [KeepsDefinition, not_forall] at hkeeps
      obtain ⟨caller, p, c, hthread, hopen, hrow⟩ := hkeeps
      obtain ⟨conn, hconn, hopen⟩ := isOpen_eq_true.mp hopen
      obtain ⟨thread, hthread', hstep⟩ := Option.bind_eq_some_iff.mp hstep
      rw [hthread] at hthread'
      cases hthread'
      cases hstep
      exact fun h => hrow (h p ⟨c, conn, by simp [State.setThread], hconn, hopen⟩)
    | _ => exact absurd trivial hkeeps
  | _ => exact absurd trivial hkeeps

/-! ## Runs -/

theorem KeepsDefinition.refusesDelete (s : State) (l : Label) (h : KeepsDefinition s l) :
    RefusesDelete s l := by
  rintro p t rfl hcontrolled _
  exact absurd hcontrolled h

/-- **When every controlled process has a definition** in every state of a run, and every delete
    of a controlled process is refused: exactly when the run deletes no controlled process, and
    registers no open connection whose row is gone. -/
theorem definitionsKept_iff (now : Int) (repository : ProcessRepository) (labels : List Label) :
    (Always step Defined (State.init now repository) labels ∧
        StepsMeet step RefusesDelete (State.init now repository) labels) ↔
      StepsMeet step KeepsDefinition (State.init now repository) labels := by
  have hiff : Always step Defined (State.init now repository) labels ↔
      StepsMeet step KeepsDefinition (State.init now repository) labels :=
    always_iff_stepsMeet (I := fun s => Wired s ∧ Defined s) (fun _ h => h.2)
      (fun _ _ _ h hkeeps hstep => ⟨step_wired h.1 hstep, step_defined h.1 h.2 hkeeps hstep⟩)
      (fun _ _ _ _ hkeeps hstep => step_not_defined hkeeps hstep)
      ⟨wired_init now repository, fun _ ⟨_, _, hchild, _⟩ => by cases hchild⟩
  exact ⟨fun h => hiff.mp h.1, fun h => ⟨hiff.mpr h, h.imp KeepsDefinition.refusesDelete⟩⟩

/-- The constructor connects to the process, and its row is deleted. -/
def deleteScript : List Label :=
  [.thread 0 .check, .thread 0 (.connect true), .thread 0 .register, .thread 0 (.greet true),
    .request (.deleteProcess "camera")]

theorem delete_not_defined : ¬ Always step Defined (State.init 0 cameraTable) deleteScript := by
  intro h
  have hdefined := always_iff_runs.mp h deleteScript _ (List.prefix_refl _) rfl
  have hrow := hdefined "camera" ⟨0, _, rfl, rfl, rfl⟩
  exact absurd hrow (by decide)

end PipeWorks.Conductor.Supervisor
