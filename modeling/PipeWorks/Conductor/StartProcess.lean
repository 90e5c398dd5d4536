import PipeWorks.Conductor.Supervisor

/-!
# What a successful start promises

When `startProcess` returns, the process should be under control: its registered connection is
open, or has been opened by the time of the call.  `startProcess` connects to a process that it has
created, and raises if it cannot; but it returns at once if the process is there already, whether
there is a connection to it or not.

`controlledReturns_iff` says in which runs every return keeps the promise;
`unreachable_child_returns` is a start of a process that the constructor could not connect to.
-/

set_option autoImplicit false

namespace PipeWorks.Conductor.Supervisor

open StepSystem

/-! ## The calls in progress -/

/-- A supervisor, and how many connections had been opened when each of its calls began. -/
structure Observed where
  supervisor : State
  began : List Nat

def Observed.init (now : Int) (repository : ProcessRepository) : Observed :=
  ⟨State.init now repository, [0]⟩

/-- A request begins a call. -/
def Observed.beganAfter (x : Observed) : Label → List Nat
  | .request _ => x.began ++ [x.supervisor.connections.length]
  | _ => x.began

def observedStep (x : Observed) (l : Label) : Option Observed :=
  (step x.supervisor l).map fun t => ⟨t, x.beganAfter l⟩

/-- The process that a call of `startProcess` is about, once its row has been found. -/
def Thread.starts? : Thread → Option String
  | .locating processId | .spawning processId | .openChild .startProcess processId _ =>
    some processId
  | _ => none

/-- The connection registered for the process is open, or has been opened since call `i` began. -/
def Observed.Connected (x : Observed) (i : Nat) (processId : String) : Prop :=
  ∃ c, x.supervisor.children processId = some c ∧
    (x.supervisor.isOpen c = true ∨ ∃ first, x.began[i]? = some first ∧ first ≤ c)

/-- If the step is the return of a call of `startProcess`, the process is connected. -/
def ControlledReturn (x : Observed) (l : Label) : Prop :=
  ∀ i e thread processId y, l = .thread i e → x.supervisor.threads[i]? = some thread →
    thread.starts? = some processId → observedStep x l = some y →
      y.supervisor.threads[i]? = some (.ended .returned) → y.Connected i processId

/-- A process that `startProcess` finds running is connected; and if another connection has been
registered in place of the one `startProcess` has registered itself, that one is there still. -/
def FindsConnected (x : Observed) : Label → Prop
  | .thread i (.locate (some (_ :: _))) =>
    ∀ processId, x.supervisor.threads[i]? = some (.locating processId) → x.Connected i processId
  | .thread i (.greet true) =>
    ∀ processId c, x.supervisor.threads[i]? =
      some (.openChild .startProcess processId (.greeting c)) →
        x.supervisor.children processId ≠ some c → x.Connected i processId
  | _ => True

/-! ## Where a call returns -/

section

variable {s t : State} {i : Nat} {thread : Thread} {e : ThreadStep} {processId : String}

/-- The three places at which `startProcess` returns. -/
inductive Returns (s : State) (processId : String) : Thread → ThreadStep → Prop where
  | found (pid : Nat) (pids : List Nat) :
      Returns s processId (.locating processId) (.locate (some (pid :: pids)))
  | connected : (s.children processId).any s.isOpen = true →
      Returns s processId (.openChild .startProcess processId .checking) .check
  | greeted (c : Nat) :
      Returns s processId (.openChild .startProcess processId (.greeting c)) (.greet true)

theorem setThread_returned {next : Thread} (hthread : s.threads[i]? = some thread)
    (h : (s.setThread i next).threads[i]? = some (.ended .returned)) : next = .ended .returned := by
  have hlt : i < s.threads.length := (List.getElem?_eq_some_iff.1 hthread).1
  simpa [State.setThread, hlt] using h

theorem openStep_returns {pc : OpenPc} (hthread : s.threads[i]? = some thread)
    (hstep : openStep s i .startProcess processId pc e = some t)
    (hreturned : t.threads[i]? = some (.ended .returned)) :
    Returns s processId (.openChild .startProcess processId pc) e ∧
      t = s.setThread i (.ended .returned) := by
  unfold openStep at hstep
  split at hstep
  · split at hstep <;> cases hstep
    · rename_i hopen
      exact ⟨.connected hopen, rfl⟩
    · cases setThread_returned hthread hreturned
  · cases hstep
    cases setThread_returned (s := { s with connections := _ }) hthread hreturned
  · cases hstep
    cases setThread_returned hthread hreturned
  · cases hstep
    cases setThread_returned hthread hreturned
  · cases hstep
    cases setThread_returned (s := { s with children := _ }) hthread hreturned
  · split at hstep <;> cases hstep
    exact ⟨.greeted _, rfl⟩
  · cases hstep
    cases setThread_returned hthread hreturned
  · cases hstep

theorem threadStep_returns (hthread : s.threads[i]? = some thread)
    (hstarts : thread.starts? = some processId) (hstep : threadStep s i thread e = some t)
    (hreturned : t.threads[i]? = some (.ended .returned)) :
    Returns s processId thread e ∧ t = s.setThread i (.ended .returned) := by
  unfold Thread.starts? at hstarts
  split at hstarts <;> cases hstarts
  · cases e <;> simp only [threadStep, reduceCtorEq] at hstep
    rename_i pids
    rcases pids with _ | _ | ⟨pid, pids⟩ <;> cases hstep
    · cases setThread_returned hthread hreturned
    · cases setThread_returned hthread hreturned
    · exact ⟨.found pid pids, rfl⟩
  · cases e <;> simp only [threadStep, reduceCtorEq] at hstep
    rename_i ok
    cases ok <;> cases hstep <;> cases setThread_returned hthread hreturned
  · exact openStep_returns hthread hstep hreturned

end

/-! ## Connections of a call -/

section

variable {s t : State} {began : List Nat} {i : Nat} {thread next : Thread}

/-- No call has begun later than now, and a connection that a call has opened is not older than
the call. -/
structure Began (s : State) (began : List Nat) : Prop where
  length : began.length = s.threads.length
  le : ∀ first ∈ began, first ≤ s.connections.length
  opened : ∀ (i : Nat) (thread : Thread) (processId : String) (c first : Nat),
    s.threads[i]? = some thread → thread.opened? = some (processId, c) →
      began[i]? = some first → first ≤ c

theorem began_init (now : Int) (repository : ProcessRepository) :
    Began (State.init now repository) [0] where
  length := rfl
  le := fun first hfirst => by
    rw [List.mem_singleton.1 hfirst]
    exact Nat.zero_le _
  opened := fun i thread processId c first _ _ hfirst => by
    rw [List.mem_singleton.1 (List.mem_of_getElem? hfirst)]
    exact Nat.zero_le c

theorem Began.of_frame (h : Began s began) (hthreads : t.threads = s.threads)
    (hlength : s.connections.length ≤ t.connections.length) : Began t began where
  length := hthreads ▸ h.length
  le := fun first hfirst => (h.le first hfirst).trans hlength
  opened := fun i thread => hthreads ▸ h.opened i thread

theorem Began.setThread (h : Began s began)
    (hnext : ∀ processId c first, next.opened? = some (processId, c) → began[i]? = some first →
      first ≤ c) : Began (s.setThread i next) began where
  length := by simpa [State.setThread] using h.length
  le := h.le
  opened := by
    intro j thread processId c first hthread hopened hfirst
    simp only [State.setThread, List.getElem?_set] at hthread
    split at hthread
    · split at hthread <;> cases hthread
      subst_vars
      exact hnext processId c first hopened hfirst
    · exact h.opened j thread processId c first hthread hopened hfirst

theorem Threaded.keepsBegan {e : ThreadStep} (h : Began s began)
    (hthread : s.threads[i]? = some thread) (hstep : Threaded s i thread e t) : Began t began := by
  cases hstep with
  | goOn e m next hnext =>
    apply Began.setThread
    · exact h.of_frame rfl (Nat.le_refl _)
    · intro processId c first hopened
      rw [hnext] at hopened
      cases hopened
  | connected caller p =>
    apply Began.setThread
    · exact h.of_frame rfl (by simp)
    · intro processId c first hopened hfirst
      cases hopened
      exact h.le first (List.mem_of_getElem? hfirst)
  | registered caller p c hregistering =>
    apply Began.setThread
    · exact h.of_frame rfl (Nat.le_refl _)
    · intro processId c' first hopened hfirst
      cases hopened
      exact h.opened i thread p c first hthread (by rw [hregistering]; rfl) hfirst

theorem Began.append (h : Began s began) {repository : ProcessRepository}
    (hnext : next.opened? = none) :
    Began { s with repository := repository, threads := s.threads ++ [next] }
      (began ++ [s.connections.length]) where
  length := by simp [h.length]
  le := by
    intro first hfirst
    rcases List.mem_append.1 hfirst with hfirst | hfirst
    · exact h.le first hfirst
    · rw [List.mem_singleton.1 hfirst]
  opened := by
    intro j thread processId c first hthread hopened hfirst
    by_cases hj : j < s.threads.length
    · rw [List.getElem?_append_left hj] at hthread
      rw [List.getElem?_append_left (h.length ▸ hj)] at hfirst
      exact h.opened j thread processId c first hthread hopened hfirst
    · have hmem := List.mem_of_getElem? hthread
      rw [List.getElem?_append_right (Nat.le_of_not_lt hj)] at hthread
      rw [List.mem_singleton.1 (List.mem_of_getElem? hthread), hnext] at hopened
      cases hopened

theorem observedStep_eq_some {x y : Observed} {l : Label} (h : observedStep x l = some y) :
    step x.supervisor l = some y.supervisor ∧ y.began = x.beganAfter l := by
  obtain ⟨t, ht, rfl⟩ := Option.map_eq_some_iff.1 h
  exact ⟨ht, rfl⟩

theorem observedStep_began {x y : Observed} {l : Label} (h : Began x.supervisor x.began)
    (hstep : observedStep x l = some y) : Began y.supervisor y.began := by
  obtain ⟨hstep, hbegan⟩ := observedStep_eq_some hstep
  rw [hbegan]
  generalize y.supervisor = t at hstep ⊢
  cases step_stepped hstep with
  | received c e conn conn' t _ _ hreceived =>
    refine h.of_frame hreceived.threads (Nat.le_of_eq ?_)
    rw [hreceived.connections, List.length_set]
  | monitored e t hstep =>
    obtain ⟨m, ⟨-, published, rfl⟩ | ⟨p, rest, -, -, rfl⟩⟩ := monitorStep_cases hstep <;>
      exact h.of_frame rfl (Nat.le_refl _)
  | threaded i e thread t hthread hstep =>
    exact (threadStep_threaded hstep).keepsBegan h hthread
  | served r _ =>
    obtain ⟨repository, thread, hnone, heq⟩ := serve_cases x.supervisor r
    rw [heq]
    exact h.append hnone
  | published _ => exact h.of_frame rfl (Nat.le_refl _)
  | advanced d => exact h.of_frame rfl (Nat.le_refl _)

end

/-! ## Runs -/

section

variable {x y : Observed} {l : Label}

/-- A return changes neither the connections nor the children. -/
theorem connected_of_returned {i : Nat} {processId : String}
    (hbegan : y.began = x.began) {next : Thread}
    (hy : y.supervisor = x.supervisor.setThread i next) :
    y.Connected i processId ↔ x.Connected i processId := by
  unfold Observed.Connected
  rw [hbegan, hy]
  rfl

theorem controlledReturn_of_finds (h : Began x.supervisor x.began) (hfinds : FindsConnected x l) :
    ControlledReturn x l := by
  rintro i e thread processId y rfl hthread hstarts hstep hreturned
  obtain ⟨hstep, hbegan⟩ := observedStep_eq_some hstep
  obtain ⟨thread', hthread', hstep⟩ := Option.bind_eq_some_iff.1 hstep
  rw [hthread] at hthread'
  cases hthread'
  obtain ⟨hreturns, hy⟩ := threadStep_returns hthread hstarts hstep hreturned
  rw [connected_of_returned hbegan hy]
  cases hreturns with
  | found pid pids => exact hfinds processId hthread
  | connected hopen =>
    obtain ⟨c, hchild, hopen⟩ := (Option.any_eq_true _ _).1 hopen
    exact ⟨c, hchild, .inl hopen⟩
  | greeted c =>
    by_cases hchild : x.supervisor.children processId = some c
    · -- the connection that the call has opened itself
      have hi : i < x.began.length := h.length ▸ (List.getElem?_eq_some_iff.1 hthread).1
      exact ⟨c, hchild, .inr ⟨x.began[i], List.getElem?_eq_getElem hi,
        h.opened i _ processId c _ hthread rfl (List.getElem?_eq_getElem hi)⟩⟩
    · exact hfinds processId c hthread hchild

/-- Both places are returns. -/
theorem finds_of_controlledReturn (hstep : observedStep x l = some y)
    (h : ControlledReturn x l) : FindsConnected x l := by
  have hreturn : ∀ i e thread processId, l = .thread i e →
      x.supervisor.threads[i]? = some thread → thread.starts? = some processId →
      y.supervisor = x.supervisor.setThread i (.ended .returned) → x.Connected i processId := by
    rintro i e thread processId rfl hthread hstarts hy
    have hi : i < x.supervisor.threads.length := (List.getElem?_eq_some_iff.1 hthread).1
    have hbegan : y.began = x.began := (observedStep_eq_some hstep).2
    rw [← connected_of_returned hbegan hy]
    exact h i e thread processId y rfl hthread hstarts hstep (by simp [hy, State.setThread, hi])
  unfold FindsConnected
  split
  · intro processId hthread
    refine hreturn _ _ _ processId rfl hthread rfl ?_
    have hstep := (observedStep_eq_some hstep).1
    simp only [step, hthread, Option.bind_some, threadStep, Option.some.injEq] at hstep
    exact hstep.symm
  · intro processId c hthread _
    refine hreturn _ _ _ processId rfl hthread rfl ?_
    have hstep := (observedStep_eq_some hstep).1
    simp only [step, hthread, Option.bind_some, threadStep, openStep] at hstep
    split at hstep
    · exact (Option.some.inj hstep).symm
    · cases hstep
  · trivial

end

/-- **When every successful start leaves a controlled process**: exactly when no start finds the
process running without a connection, and no registration that has taken the place of its own is
lost before it returns. -/
theorem controlledReturns_iff (now : Int) (repository : ProcessRepository) (labels : List Label) :
    StepsMeet observedStep ControlledReturn (Observed.init now repository) labels ↔
      StepsMeet observedStep FindsConnected (Observed.init now repository) labels :=
  stepsMeet_congr (I := fun x => Began x.supervisor x.began)
    (fun _ _ _ h hstep => observedStep_began h hstep)
    (fun _ _ _ h hstep => ⟨finds_of_controlledReturn hstep, controlledReturn_of_finds h⟩)
    (began_init now repository)

/-- The constructor cannot connect to the process, and a request starts it: `getProcessIds` finds
it. -/
def unreachableScript : List Label :=
  [.thread 0 .check, .thread 0 (.connect false), .request (.startProcess "camera"),
    .thread 1 (.locate (some [7]))]

theorem unreachable_child_returns :
    ¬ StepsMeet observedStep ControlledReturn (Observed.init 0 cameraTable) unreachableScript := by
  intro h
  have hlast := (((h _ rfl).2 _ rfl).2 _ rfl).2 _ rfl
  obtain ⟨c, hchild, -⟩ := hlast.1 1 _ _ "camera" _ rfl rfl rfl rfl rfl
  cases hchild

end PipeWorks.Conductor.Supervisor
