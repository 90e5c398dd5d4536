import Mathlib.Logic.Relation
import PipeWorks.Plumber.Manager

/-!
# One live child per pipeline

`Change` lists the five ways the manager's state can change; `step_changes` is the inversion of
`step`: whatever a step does to the manager is a sequence of changes.  An invariant of the
manager is an invariant of the changes (`Manager.run_invariant`).

`single_live_child`: at every moment of every run a live child is the registered process of its
pipeline, hence the only live one, and a `start` that finds its pipeline running or whose
`process.start()` raises leaves the manager as it was.
-/

set_option autoImplicit false

namespace PipeWorks.Plumber

open StepSystem PipeWorks.Python Relation

inductive Change (defs : Definitions) : Manager → Manager → Prop where
  | register (m : Manager) (d : PipelineDefinition) (hget : defs.get d.name = some d)
      (hlive : m.live d.name = none) : Change defs m (m.register d)
  | requestStop (m : Manager) (name : String) : Change defs m (m.requestStop name)
  | childExit (m : Manager) (pid : Nat) (code : Int) (halive : m.isAlive pid = true) :
      Change defs m (m.childExit pid code)
  | setStatistics (m : Manager) (name : String) (statistics : FrameStatistics) :
      Change defs m (m.setStatistics name statistics)

variable {defs : Definitions} {s t : System} {l : Label} {labels : List Label}

/-! ## Every step is a sequence of changes -/

theorem start_changes (answer : Answer) (m : Manager) (name : String) :
    ReflTransGen (Change defs) m (m.start defs answer name).1 := by
  rcases m.start_cases defs answer name with ⟨h, -⟩ | ⟨d, hget, rfl, hlive, -, h⟩
  · rw [h]
  · rw [h]
    exact .single (.register m d hget hlive)

theorem stop_changes (answer : Answer) (m : Manager) (name : String) :
    ReflTransGen (Change defs) m (m.stop defs answer name).1 := by
  have hrequest : ReflTransGen (Change defs) m (m.requestStop name) :=
    .single (.requestStop m name)
  rcases m.stop_cases defs answer name with ⟨-, h⟩ | ⟨-, ⟨h, -⟩ | ⟨pid, code, hlive, -, h⟩⟩
  · rw [h]
  · rw [h]
    exact hrequest
  · rw [h]
    have halive : (m.requestStop name).isAlive pid = true := (Manager.live_eq_some.mp hlive).2
    exact hrequest.tail (.childExit _ pid code halive)

theorem recordStatistics_changes (m : Manager) (name : String) (statistics : Json) :
    ReflTransGen (Change defs) m (m.recordStatistics defs name statistics).1 := by
  unfold Manager.recordStatistics
  split
  · exact .refl
  · split
    · exact .refl
    · exact .single (.setStatistics m name _)

theorem exec_changes (answer : Answer) (m : Manager) (c : Section) :
    ReflTransGen (Change defs) m (c.exec defs answer m).1 := by
  cases c with
  | list => exact .refl
  | status name => exact .refl
  | start name => exact start_changes answer m name
  | stop name => exact stop_changes answer m name
  | recordStatistics name statistics => exact recordStatistics_changes m name statistics

/-- The step of a thread. -/
theorem step_run {thread : Nat} {answer : Answer} (h : step defs s (.run thread answer) = some t) :
    ∃ c rest, s.threads[thread]? = some (c :: rest) ∧
      t = s.after thread rest (c.exec defs answer s.manager) := by
  unfold step at h
  dsimp only at h
  split at h
  · rename_i c rest hthread
    exact ⟨c, rest, hthread, (Option.some.inj h).symm⟩
  · cases h

theorem step_exit {pid : Nat} {code : Int} (h : step defs s (.exit pid code) = some t) :
    s.manager.isAlive pid = true ∧ t = { s with manager := s.manager.childExit pid code } := by
  unfold step at h
  dsimp only at h
  split at h
  · rename_i halive
    exact ⟨halive, (Option.some.inj h).symm⟩
  · cases h

theorem step_changes (h : step defs s l = some t) :
    ReflTransGen (Change defs) s.manager t.manager := by
  cases l with
  | request r =>
    cases h
    exact .refl
  | run thread answer =>
    obtain ⟨c, rest, -, rfl⟩ := step_run h
    exact exec_changes answer s.manager c
  | exit pid code =>
    obtain ⟨halive, rfl⟩ := step_exit h
    exact .single (.childExit _ pid code halive)

/-- After a step of a thread every thread has to do what it had to do before, or less. -/
theorem System.after_thread {thread i : Nat} {c : Section} {rest other : List Section}
    {result : Manager × Bool} (hthread : s.threads[thread]? = some (c :: rest))
    (hother : (s.after thread rest result).threads[i]? = some other) :
    ∃ before, s.threads[i]? = some before ∧ ∀ d ∈ other, d ∈ before := by
  by_cases hi : i = thread
  · subst hi
    have hlt := (List.getElem?_eq_some_iff.mp hthread).1
    have hother := (List.getElem?_set_self hlt).symm.trans hother
    refine ⟨c :: rest, hthread, fun d hd => ?_⟩
    rw [← Option.some.inj hother] at hd
    split at hd
    · cases hd
    · exact List.mem_cons_of_mem _ hd
  · have hother := (List.getElem?_set_ne (Ne.symm hi)).symm.trans hother
    exact ⟨other, hother, fun _ hd => hd⟩

theorem Manager.changes_invariant {I : Manager → Prop}
    (hI : ∀ m m', I m → Change defs m m' → I m') {m m' : Manager}
    (h : ReflTransGen (Change defs) m m') (hm : I m) : I m' := by
  induction h with
  | refl => exact hm
  | tail _ hchange ih => exact hI _ _ ih hchange

/-- What every change preserves, every step preserves. -/
theorem Manager.step_invariant {I : Manager → Prop}
    (hI : ∀ m m', I m → Change defs m m' → I m') (hs : I s.manager)
    (h : step defs s l = some t) : I t.manager :=
  Manager.changes_invariant hI (step_changes h) hs

/-- What every change preserves, every run preserves. -/
theorem Manager.run_invariant {I : Manager → Prop}
    (hI : ∀ m m', I m → Change defs m m' → I m') (hs : I s.manager)
    (h : run (step defs) s labels = some t) : I t.manager :=
  StepSystem.run_invariant (I := fun s : System => I s.manager)
    (fun _ _ _ hs hst => Manager.step_invariant hI hs hst) hs h

/-! ## Liveness of a process under a change -/

theorem Manager.isAlive_lt {m : Manager} {pid : Nat} (h : m.isAlive pid = true) :
    pid < m.children.length := by
  obtain ⟨c, hc, -⟩ := Manager.isAlive_iff.mp h
  exact (List.getElem?_eq_some_iff.mp hc).1

theorem Manager.isAlive_register (m : Manager) (d : PipelineDefinition) (pid : Nat) :
    (m.register d).isAlive pid = (m.isAlive pid || pid == m.children.length) := by
  unfold Manager.isAlive Manager.register
  rcases Nat.lt_trichotomy pid m.children.length with h | rfl | h
  · have hne : (pid == m.children.length) = false := by simp; omega
    rw [List.getElem?_append_left h, hne, Bool.or_false]
  · simp
  · have hnew : (m.children ++ [Child.mk d.name d.configPath none])[pid]? = none := by
      rw [List.getElem?_eq_none_iff]
      simp
      omega
    have hne : (pid == m.children.length) = false := by simp; omega
    rw [hnew, List.getElem?_eq_none (Nat.le_of_lt h), hne]
    rfl

theorem Manager.isAlive_childExit (m : Manager) (pid pid' : Nat) (code : Int) :
    (m.childExit pid code).isAlive pid' = (m.isAlive pid' && pid' != pid) := by
  unfold Manager.isAlive Manager.childExit
  rw [List.getElem?_modify]
  by_cases h : pid = pid'
  · subst h
    cases m.children[pid]? <;> simp
  · have hne : (pid' != pid) = true := by simp; omega
    simp [h, hne]

/-! ## Registered processes and live children -/

structure Manager.WellFormed (m : Manager) : Prop where
  /-- a registered process is a child of that pipeline -/
  registered : ∀ name pid, m.processes name = some pid →
    ∃ c : Child, m.children[pid]? = some c ∧ c.name = name
  /-- a live child is registered -/
  live : ∀ (pid : Nat) (c : Child), m.children[pid]? = some c → c.exitCode = none →
    m.processes c.name = some pid

theorem Manager.wellFormed_init : Manager.init.WellFormed :=
  ⟨fun _ _ h => (nomatch h), fun _ _ h => (nomatch h)⟩

theorem Manager.WellFormed.register {m : Manager} (h : m.WellFormed) {d : PipelineDefinition}
    (hlive : m.live d.name = none) : (m.register d).WellFormed := by
  constructor
  · intro name pid hpid
    by_cases hname : name = d.name
    · subst hname
      have hlast : pid = m.children.length := by
        simpa [Manager.register, eq_comm] using hpid
      subst hlast
      exact ⟨⟨d.name, d.configPath, none⟩, by simp [Manager.register], rfl⟩
    · have hold : m.processes name = some pid := by
        simpa [Manager.register, hname] using hpid
      obtain ⟨c, hc, hcn⟩ := h.registered name pid hold
      have hlt := (List.getElem?_eq_some_iff.mp hc).1
      exact ⟨c, by simpa [Manager.register, List.getElem?_append_left hlt] using hc, hcn⟩
  · intro pid c hc hcode
    by_cases hlast : pid < m.children.length
    · have hold : m.children[pid]? = some c := by
        simpa [Manager.register, List.getElem?_append_left hlast] using hc
      have hproc := h.live pid c hold hcode
      have hname : c.name ≠ d.name := by
        intro heq
        have halive := Manager.isAlive_iff.mpr ⟨c, hold, hcode⟩
        rw [heq] at hproc
        rw [Manager.live_eq_none.mp hlive pid hproc] at halive
        cases halive
      simpa [Manager.register, hname] using hproc
    · have hlen := (List.getElem?_eq_some_iff.mp hc).1
      have hlast : pid = m.children.length := by
        simp [Manager.register] at hlen
        omega
      subst hlast
      have hcd : c = ⟨d.name, d.configPath, none⟩ := by
        simpa [Manager.register, eq_comm] using hc
      subst hcd
      simp [Manager.register]

theorem Manager.WellFormed.childExit {m : Manager} (h : m.WellFormed) (pid : Nat) (code : Int) :
    (m.childExit pid code).WellFormed := by
  constructor
  · intro name pid' hpid
    obtain ⟨c, hc, hcn⟩ := h.registered name pid' hpid
    by_cases heq : pid = pid'
    · subst heq
      exact ⟨{ c with exitCode := some code }, by simp [Manager.childExit, hc], hcn⟩
    · exact ⟨c, by simp [Manager.childExit, heq, hc], hcn⟩
  · intro pid' c hc hcode
    by_cases heq : pid = pid'
    · subst heq
      obtain ⟨c', -, hc'⟩ : ∃ c' : Child, m.children[pid]? = some c' ∧
          { c' with exitCode := some code } = c := by
        simpa [Manager.childExit] using hc
      rw [← hc'] at hcode
      cases hcode
    · have hold : m.children[pid']? = some c := by
        simpa [Manager.childExit, List.getElem?_modify, heq] using hc
      exact h.live pid' c hold hcode

theorem Change.wellFormed {m m' : Manager} (h : m.WellFormed) (hchange : Change defs m m') :
    m'.WellFormed := by
  cases hchange with
  | register d _ hlive => exact h.register hlive
  | requestStop name => exact ⟨h.registered, h.live⟩
  | childExit pid code _ => exact h.childExit pid code
  | setStatistics name statistics => exact ⟨h.registered, h.live⟩

theorem System.wellFormed (h : run (step defs) System.init labels = some s) :
    s.manager.WellFormed :=
  Manager.run_invariant (fun _ _ => Change.wellFormed) Manager.wellFormed_init h

/-! ## The names of the children -/

def Manager.nameOf (m : Manager) (pid : Nat) : Option String := m.children[pid]?.map Child.name

theorem Manager.nameOf_childExit (m : Manager) (pid pid' : Nat) (code : Int) :
    (m.childExit pid code).nameOf pid' = m.nameOf pid' := by
  unfold Manager.nameOf Manager.childExit
  rw [List.getElem?_modify]
  by_cases h : pid = pid'
  · subst h
    cases m.children[pid]? <;> simp
  · simp [h]

theorem Manager.nameOf_register {m : Manager} {d : PipelineDefinition} {pid : Nat}
    (h : pid < m.children.length) : (m.register d).nameOf pid = m.nameOf pid := by
  unfold Manager.nameOf Manager.register
  rw [List.getElem?_append_left h]

theorem Manager.nameOf_last (m : Manager) (d : PipelineDefinition) :
    (m.register d).nameOf m.children.length = some d.name := by
  simp [Manager.nameOf, Manager.register]

theorem Manager.nameOf_register_cases {m : Manager} {d : PipelineDefinition} {pid : Nat}
    {name : String} (h : (m.register d).nameOf pid = some name) :
    m.nameOf pid = some name ∨ pid = m.children.length ∧ name = d.name := by
  rcases Nat.lt_trichotomy pid m.children.length with hlt | rfl | hgt
  · rw [Manager.nameOf_register hlt] at h
    exact .inl h
  · rw [Manager.nameOf_last] at h
    exact .inr ⟨rfl, (Option.some.inj h).symm⟩
  · have hlen : (m.register d).children.length ≤ pid := by
      simp [Manager.register]
      omega
    rw [Manager.nameOf, List.getElem?_eq_none hlen] at h
    cases h

theorem Manager.WellFormed.processes_of_alive {m : Manager} (h : m.WellFormed) {pid : Nat}
    {name : String} (halive : m.isAlive pid = true) (hname : m.nameOf pid = some name) :
    m.processes name = some pid := by
  obtain ⟨c, hc, hcode⟩ := Manager.isAlive_iff.mp halive
  have hproc := h.live pid c hc hcode
  have hcn : c.name = name := by simpa [Manager.nameOf, hc] using hname
  rwa [hcn] at hproc

theorem Manager.WellFormed.nameOf_processes {m : Manager} (h : m.WellFormed) {pid : Nat}
    {name : String} (hproc : m.processes name = some pid) : m.nameOf pid = some name := by
  obtain ⟨c, hc, hcn⟩ := h.registered name pid hproc
  simp [Manager.nameOf, hc, hcn]

theorem Manager.nameOf_of_alive {m : Manager} {pid : Nat} (halive : m.isAlive pid = true) :
    ∃ name, m.nameOf pid = some name := by
  obtain ⟨c, hc, -⟩ := Manager.isAlive_iff.mp halive
  exact ⟨c.name, by simp [Manager.nameOf, hc]⟩

/-- Every child belongs to a definition. -/
def Manager.ChildrenDefined (defs : Definitions) (m : Manager) : Prop :=
  ∀ pid name, m.nameOf pid = some name → name ∈ defs.names

theorem Definitions.mem_names {name : String} {d : PipelineDefinition}
    (h : defs.get name = some d) : name ∈ defs.names := by
  by_contra hname
  rw [Definitions.get_eq_none.mpr hname] at h
  cases h

theorem Change.childrenDefined {m m' : Manager} (h : m.ChildrenDefined defs)
    (hchange : Change defs m m') : m'.ChildrenDefined defs := by
  cases hchange with
  | register d hget hlive =>
    intro pid name hname
    rcases Manager.nameOf_register_cases hname with hold | ⟨-, rfl⟩
    · exact h pid name hold
    · exact Definitions.mem_names hget
  | requestStop name => exact h
  | childExit pid code _ =>
    intro pid' name hname
    rw [Manager.nameOf_childExit] at hname
    exact h pid' name hname
  | setStatistics name statistics => exact h

/-- A child keeps its name. -/
theorem Change.nameOf {m m' : Manager} {pid : Nat} {name : String} (h : m.nameOf pid = some name)
    (hchange : Change defs m m') : m'.nameOf pid = some name := by
  cases hchange with
  | register d _ _ =>
    have hlt : pid < m.children.length := by
      by_contra hge
      rw [Manager.nameOf, List.getElem?_eq_none (Nat.le_of_not_lt hge)] at h
      cases h
    rwa [Manager.nameOf_register hlt]
  | requestStop n => exact h
  | childExit pid' code _ => rwa [Manager.nameOf_childExit]
  | setStatistics n statistics => exact h

/-! ## One live child -/

/-- A live child is the registered process of its pipeline, and the only live one. -/
def Manager.SingleLive (m : Manager) : Prop :=
  (∀ (pid : Nat) (c : Child), m.children[pid]? = some c → c.exitCode = none →
    m.processes c.name = some pid) ∧
  ∀ (pid pid' : Nat) (c c' : Child), m.children[pid]? = some c → m.children[pid']? = some c' →
    c.exitCode = none → c'.exitCode = none → c.name = c'.name → pid = pid'

/-- The next `start` of any thread touches neither a running pipeline nor, if `process.start()`
    raises, anything. -/
def System.StartKeeps (defs : Definitions) (s : System) : Prop :=
  ∀ thread answer name rest t, s.threads[thread]? = some (.start name :: rest) →
    step defs s (.run thread answer) = some t →
    ((s.manager.live name).isSome →
      t.manager.processes name = s.manager.processes name ∧
      t.manager.children = s.manager.children ∧
      t.manager.statistics name = s.manager.statistics name) ∧
    (answer.startRaises.isSome →
      t.manager.processes = s.manager.processes ∧ t.manager.stopped = s.manager.stopped ∧
      t.manager.statistics = s.manager.statistics)

theorem Manager.WellFormed.singleLive {m : Manager} (h : m.WellFormed) : m.SingleLive := by
  refine ⟨h.live, ?_⟩
  intro pid pid' c c' hc hc' hcode hcode' hname
  have h1 := h.live pid c hc hcode
  have h2 := h.live pid' c' hc' hcode'
  rw [hname, h2] at h1
  exact (Option.some.inj h1).symm

theorem System.startKeeps (defs : Definitions) (s : System) : s.StartKeeps defs := by
  intro thread answer name rest t hthread hstep
  obtain ⟨c, rest', hthread', rfl⟩ := step_run hstep
  obtain ⟨rfl, rfl⟩ := List.cons.inj (Option.some.inj (hthread.symm.trans hthread'))
  rcases s.manager.start_cases defs answer name with ⟨h, -⟩ | ⟨d, -, rfl, hlive, hraise, -⟩
  · have hsame : (s.after thread rest (Section.exec defs answer s.manager (.start name))).manager =
        s.manager := h
    rw [hsame]
    exact ⟨fun _ => ⟨rfl, rfl, rfl⟩, fun _ => ⟨rfl, rfl, rfl⟩⟩
  · rw [hlive, hraise]
    exact ⟨fun h => (by cases h), fun h => (by cases h)⟩

/-- **Single live child per pipeline**, along every run of the manager. -/
theorem single_live_child (defs : Definitions) (labels : List Label) :
    Always (step defs) (fun s => s.manager.SingleLive ∧ s.StartKeeps defs) System.init labels := by
  rw [always_iff_runs]
  intro labels' s _ hs
  exact ⟨(System.wellFormed hs).singleLive, s.startKeeps defs⟩

end PipeWorks.Plumber
