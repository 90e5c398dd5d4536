import PipeWorks.Plumber.Supervision

/-!
# Statistics reports and runs of a pipeline

Each child posts its counters to the manager.  A post is a message: it names the pipeline, not
the process that sent it, and the handler may get to `record_statistics` any time later.  That
the address of a post leads back to the name it was built from is not modelled here.

`source` records which report the statistics of a pipeline come from.
`statistics_current_iff`: the statistics of a pipeline always are those of its current process,
or the empty ones it starts from, exactly when each report is recorded while its sender is still
the registered process.  `late_report_not_current` is a run that records a report of a previous
process.
-/

set_option autoImplicit false

namespace PipeWorks.Plumber

open StepSystem PipeWorks.Python

structure Report where
  sender : Nat
  name : String
  snapshot : FrameStatistics
  deriving DecidableEq, Repr

structure Reporting where
  system : System
  /-- posts that no handler has recorded yet -/
  inFlight : List Report
  /-- history: every report sent -/
  sent : List Report
  /-- history: the report recorded last since the current process was created -/
  source : String → Option Report

def Reporting.init : Reporting := ⟨System.init, [], [], fun _ => none⟩

inductive Event where
  | system (l : Label)
  /-- a live child posts a snapshot -/
  | send (pid : Nat) (snapshot : FrameStatistics)
  /-- a handler records a post -/
  | deliver (index : Nat)

def Section.isReport : Section → Bool
  | .recordStatistics _ _ => true
  | _ => false

/-- A label other than a request to record statistics: those come from children. -/
def Label.isReport : Label → Bool
  | .request (.recordStatistics _ _) => true
  | _ => false

/-- A step of the manager; a new process has no report yet. -/
def Reporting.onSystem (r : Reporting) (t : System) : Reporting :=
  { r with
    system := t
    source := fun name =>
      if t.manager.processes name = r.system.manager.processes name then r.source name else none }

def Reporting.onSend (r : Reporting) (report : Report) : Reporting :=
  { r with inFlight := r.inFlight ++ [report], sent := r.sent ++ [report] }

def Reporting.onDeliver (defs : Definitions) (r : Reporting) (index : Nat) (report : Report) :
    Reporting :=
  { system := { r.system with
      manager := (r.system.manager.recordStatistics defs report.name report.snapshot.toJson).1 }
    inFlight := r.inFlight.eraseIdx index
    sent := r.sent
    source := Function.update r.source report.name (some report) }

def reportStep (defs : Definitions) (r : Reporting) : Event → Option Reporting
  | .system l => if l.isReport then none else (step defs r.system l).map r.onSystem
  | .send pid snapshot =>
    if r.system.manager.isAlive pid then
      (r.system.manager.nameOf pid).map fun name => r.onSend ⟨pid, name, snapshot⟩
    else none
  | .deliver index => r.inFlight[index]?.map (r.onDeliver defs index)

/-- The statistics that `status` returns for a pipeline whose process is `pid` are empty, or were
    sent by `pid`. -/
def Reporting.Current (defs : Definitions) (r : Reporting) : Prop :=
  ∀ name pid, r.system.manager.processes name = some pid →
    ∃ st, r.system.manager.status defs name = .ok st ∧
      (r.source name = none ∧ st.statistics = emptyStatistics ∨
        ∃ report ∈ r.sent, r.source name = some report ∧ report.name = name ∧
          report.sender = pid ∧ st.statistics = report.snapshot)

/-- A report is recorded while its sender is the registered process of the pipeline. -/
def Reporting.InTime (r : Reporting) : Event → Prop
  | .deliver index => ∀ report, r.inFlight[index]? = some report →
      r.system.manager.processes report.name = some report.sender
  | _ => True

variable {defs : Definitions} {r u : Reporting} {m : Manager} {name : String}

/-! ## What a step does to the statistics -/

/-- The statistics of a pipeline change with its process only, and are empty then. -/
def Manager.StatisticsFollow (m m' : Manager) : Prop :=
  ∀ name, m'.processes name = m.processes name ∧ m'.statistics name = m.statistics name ∨
    m'.processes name ≠ m.processes name ∧ m'.statistics name = some emptyStatistics

theorem Manager.StatisticsFollow.refl (m : Manager) : m.StatisticsFollow m :=
  fun _ => .inl ⟨rfl, rfl⟩

theorem Manager.statisticsFollow_register (hw : m.WellFormed) (d : PipelineDefinition) :
    m.StatisticsFollow (m.register d) := by
  intro name
  by_cases hname : name = d.name
  · subst hname
    refine .inr ⟨?_, by simp [Manager.register]⟩
    intro heq
    have hproc : m.processes d.name = some m.children.length := by
      rw [← heq]
      simp [Manager.register]
    obtain ⟨c, hc, -⟩ := hw.registered d.name _ hproc
    simp at hc
  · exact .inl ⟨by simp [Manager.register, hname], by simp [Manager.register, hname]⟩

theorem exec_statisticsFollow (hw : m.WellFormed) (answer : Answer) {c : Section}
    (hc : c.isReport = false) : m.StatisticsFollow (c.exec defs answer m).1 := by
  cases c with
  | list => exact .refl m
  | status name => exact .refl m
  | start name =>
    show m.StatisticsFollow (m.start defs answer name).1
    rcases m.start_cases defs answer name with ⟨h, -⟩ | ⟨d, -, -, -, -, h⟩
    · rw [h]
      exact .refl m
    · rw [h]
      exact m.statisticsFollow_register hw d
  | stop name =>
    show m.StatisticsFollow (m.stop defs answer name).1
    rcases m.stop_cases defs answer name with ⟨-, h⟩ | ⟨-, ⟨h, -⟩ | ⟨pid, code, -, -, h⟩⟩
    all_goals
      rw [h]
      exact fun _ => .inl ⟨rfl, rfl⟩
  | recordStatistics name statistics => cases hc

/-- No thread is about to record statistics. -/
def System.NoReports (s : System) : Prop :=
  ∀ (i : Nat) (thread : List Section), s.threads[i]? = some thread →
    ∀ c ∈ thread, c.isReport = false

theorem Request.sections_isReport {q : Request} (h : (Label.request q).isReport = false)
    (defs : Definitions) : ∀ c ∈ q.sections defs, c.isReport = false := by
  intro c hc
  cases q with
  | recordStatistics name statistics => cases h
  | startAll =>
    obtain ⟨n, -, rfl⟩ := List.mem_map.mp hc
    rfl
  | stopAll =>
    obtain ⟨n, -, rfl⟩ := List.mem_map.mp hc
    rfl
  | _ =>
    rw [List.mem_singleton.mp hc]
    rfl

theorem System.NoReports.preserved {s t : System} {l : Label} (h : s.NoReports)
    (hl : l.isReport = false) (hstep : step defs s l = some t) : t.NoReports := by
  intro i other hother c hc
  cases l with
  | request q =>
    cases hstep
    rcases Nat.lt_trichotomy i s.threads.length with hlt | rfl | hgt
    · rw [List.getElem?_append_left hlt] at hother
      exact h i other hother c hc
    · have heq : q.sections defs = other := by simpa using hother
      rw [← heq] at hc
      exact q.sections_isReport hl defs c hc
    · have hlen : (s.threads ++ [q.sections defs]).length ≤ i := by
        simp
        omega
      rw [List.getElem?_eq_none hlen] at hother
      cases hother
  | run thread answer =>
    obtain ⟨d, rest, hthread, rfl⟩ := step_run hstep
    obtain ⟨before, hbefore, hmem⟩ := System.after_thread hthread hother
    exact h i before hbefore c (hmem c hc)
  | exit pid code =>
    obtain ⟨-, rfl⟩ := step_exit hstep
    exact h i other hother c hc

theorem step_statisticsFollow {s t : System} {l : Label} (hw : s.manager.WellFormed)
    (h : s.NoReports) (hstep : step defs s l = some t) :
    s.manager.StatisticsFollow t.manager := by
  cases l with
  | request q =>
    cases hstep
    exact .refl _
  | run thread answer =>
    obtain ⟨c, rest, hthread, rfl⟩ := step_run hstep
    exact exec_statisticsFollow hw answer (h thread _ hthread c (List.mem_cons_self ..))
  | exit pid code =>
    obtain ⟨-, rfl⟩ := step_exit hstep
    exact fun _ => .inl ⟨rfl, rfl⟩

/-- A child's pipeline has a registered process. -/
def Manager.Started (m : Manager) : Prop :=
  ∀ pid name, m.nameOf pid = some name → ∃ pid', m.processes name = some pid'

theorem Change.started {m m' : Manager} (h : m.Started) (hchange : Change defs m m') :
    m'.Started := by
  cases hchange with
  | register d _ _ =>
    intro pid name hname
    by_cases hthis : name = d.name
    · subst hthis
      exact ⟨m.children.length, by simp [Manager.register]⟩
    · rcases Manager.nameOf_register_cases hname with hold | ⟨-, heq⟩
      · obtain ⟨pid', hproc⟩ := h pid name hold
        exact ⟨pid', by simpa [Manager.register, hthis] using hproc⟩
      · exact absurd heq hthis
  | requestStop n => exact h
  | childExit pid code _ =>
    intro pid' name hname
    rw [Manager.nameOf_childExit] at hname
    exact h pid' name hname
  | setStatistics n statistics => exact h

theorem Manager.status_statistics (h : name ∈ defs.names) :
    ∃ st, m.status defs name = .ok st ∧
      st.statistics = (m.statistics name).getD emptyStatistics := by
  unfold Manager.status
  cases hget : defs.get name with
  | none => exact absurd h (Definitions.get_eq_none.mp hget)
  | some d => exact ⟨_, rfl, rfl⟩

/-- Recording a report: the post of a child is always accepted. -/
theorem Manager.recordStatistics_toJson (h : name ∈ defs.names) (snapshot : FrameStatistics) :
    (m.recordStatistics defs name snapshot.toJson).1 = m.setStatistics name snapshot := by
  unfold Manager.recordStatistics
  cases hget : defs.get name with
  | none => exact absurd h (Definitions.get_eq_none.mp hget)
  | some d =>
    dsimp only
    rw [validStatistics_toJson]

/-! ## The invariant -/

/-- Where the statistics of a pipeline with a process come from. -/
def Reporting.Sourced (r : Reporting) : Prop :=
  ∀ name pid, r.system.manager.processes name = some pid →
    r.source name = none ∧ r.system.manager.statistics name = some emptyStatistics ∨
      ∃ report ∈ r.sent, r.source name = some report ∧ report.name = name ∧
        report.sender = pid ∧ r.system.manager.statistics name = some report.snapshot

structure Reporting.Good (defs : Definitions) (r : Reporting) : Prop where
  wellFormed : r.system.manager.WellFormed
  childrenDefined : r.system.manager.ChildrenDefined defs
  started : r.system.manager.Started
  noReports : r.system.NoReports
  flight : ∀ report ∈ r.inFlight,
    report ∈ r.sent ∧ r.system.manager.nameOf report.sender = some report.name
  sourced : r.Sourced

theorem Reporting.good_init (defs : Definitions) : (Reporting.init).Good defs where
  wellFormed := Manager.wellFormed_init
  childrenDefined := fun _ _ h => by cases h
  started := fun _ _ h => by cases h
  noReports := fun _ _ h => by cases h
  flight := fun _ h => by cases h
  sourced := fun _ _ h => by cases h

theorem Reporting.Good.name_mem (h : r.Good defs) {pid : Nat}
    (hproc : r.system.manager.processes name = some pid) : name ∈ defs.names :=
  h.childrenDefined pid name (h.wellFormed.nameOf_processes hproc)

theorem Reporting.Good.current (h : r.Good defs) : r.Current defs := by
  intro name pid hproc
  obtain ⟨st, hst, hstat⟩ :=
    Manager.status_statistics (m := r.system.manager) (h.name_mem hproc)
  refine ⟨st, hst, ?_⟩
  rcases h.sourced name pid hproc with ⟨hsource, hempty⟩ | ⟨report, hsent, hsource, hn, hp, hval⟩
  · rw [hempty] at hstat
    exact .inl ⟨hsource, hstat⟩
  · rw [hval] at hstat
    exact .inr ⟨report, hsent, hsource, hn, hp, hstat⟩

theorem Reporting.Good.onSystem {l : Label} {t : System} (h : r.Good defs)
    (hl : l.isReport = false) (hstep : step defs r.system l = some t) :
    (r.onSystem t).Good defs := by
  refine ⟨Manager.step_invariant (fun _ _ => Change.wellFormed) h.wellFormed hstep,
    Manager.step_invariant (fun _ _ => Change.childrenDefined) h.childrenDefined hstep,
    Manager.step_invariant (fun _ _ => Change.started) h.started hstep,
    h.noReports.preserved hl hstep, ?_, ?_⟩
  · intro report hreport
    obtain ⟨hsent, hname⟩ := h.flight report hreport
    exact ⟨hsent, Manager.step_invariant (I := fun m => m.nameOf report.sender = some report.name)
      (fun _ _ => Change.nameOf) hname hstep⟩
  · intro name pid hproc
    have hproc : t.manager.processes name = some pid := hproc
    rcases step_statisticsFollow h.wellFormed h.noReports hstep name with ⟨hp, hs⟩ | ⟨hp, hs⟩
    · have hsource : (r.onSystem t).source name = r.source name := if_pos hp
      rw [hp] at hproc
      rw [hsource]
      show _ ∧ t.manager.statistics name = _ ∨ ∃ report ∈ r.sent, _ ∧ _ ∧ _ ∧
        t.manager.statistics name = _
      rw [hs]
      exact h.sourced name pid hproc
    · exact .inl ⟨if_neg hp, hs⟩

theorem Reporting.Good.onSend {pid : Nat} (h : r.Good defs)
    (hname : r.system.manager.nameOf pid = some name) (snapshot : FrameStatistics) :
    (r.onSend ⟨pid, name, snapshot⟩).Good defs := by
  refine ⟨h.wellFormed, h.childrenDefined, h.started, h.noReports, ?_, ?_⟩
  · intro report hreport
    rcases List.mem_append.mp hreport with hold | hnew
    · obtain ⟨hsent, hn⟩ := h.flight report hold
      exact ⟨List.mem_append_left _ hsent, hn⟩
    · rw [List.mem_singleton.mp hnew]
      exact ⟨List.mem_append_right _ (List.mem_singleton_self _), hname⟩
  · intro n p hproc
    rcases h.sourced n p hproc with hempty | ⟨report, hsent, hrest⟩
    · exact .inl hempty
    · exact .inr ⟨report, List.mem_append_left _ hsent, hrest⟩

theorem Reporting.Good.onDeliver_manager {index : Nat} {report : Report} (h : r.Good defs)
    (hreport : r.inFlight[index]? = some report) :
    (r.onDeliver defs index report).system.manager =
      r.system.manager.setStatistics report.name report.snapshot := by
  obtain ⟨-, hname⟩ := h.flight report (List.mem_of_getElem? hreport)
  exact Manager.recordStatistics_toJson (h.childrenDefined _ _ hname) _

theorem Reporting.Good.onDeliver {index : Nat} {report : Report} (h : r.Good defs)
    (hreport : r.inFlight[index]? = some report)
    (hproc : r.system.manager.processes report.name = some report.sender) :
    (r.onDeliver defs index report).Good defs := by
  have hm := h.onDeliver_manager hreport
  obtain ⟨hsent, -⟩ := h.flight report (List.mem_of_getElem? hreport)
  refine ⟨?_, ?_, ?_, h.noReports, ?_, ?_⟩
  · rw [hm]
    exact ⟨h.wellFormed.registered, h.wellFormed.live⟩
  · rw [hm]
    exact h.childrenDefined
  · rw [hm]
    exact h.started
  · rw [hm]
    exact fun other hother => h.flight other (List.mem_of_mem_eraseIdx hother)
  · intro name pid hpid
    rw [hm] at hpid ⊢
    have hpid : r.system.manager.processes name = some pid := hpid
    by_cases hname : name = report.name
    · subst hname
      have hsender : report.sender = pid := Option.some.inj (hproc.symm.trans hpid)
      exact .inr ⟨report, hsent, by simp [Reporting.onDeliver], rfl, hsender,
        by simp [Manager.setStatistics]⟩
    · have hsource : (r.onDeliver defs index report).source name = r.source name := by
        simp [Reporting.onDeliver, hname]
      have hstat : (r.system.manager.setStatistics report.name report.snapshot).statistics name =
          r.system.manager.statistics name := by
        simp [Manager.setStatistics, hname]
      rw [hsource, hstat]
      exact h.sourced name pid hpid

theorem reportStep_good {e : Event} (h : r.Good defs) (he : r.InTime e)
    (hstep : reportStep defs r e = some u) : u.Good defs := by
  cases e with
  | system l =>
    unfold reportStep at hstep
    dsimp only at hstep
    split at hstep
    · cases hstep
    · rename_i hl
      obtain ⟨t, ht, rfl⟩ := Option.map_eq_some_iff.mp hstep
      exact h.onSystem (Bool.not_eq_true _ ▸ hl) ht
  | send pid snapshot =>
    unfold reportStep at hstep
    dsimp only at hstep
    split at hstep
    · obtain ⟨name, hname, rfl⟩ := Option.map_eq_some_iff.mp hstep
      exact h.onSend hname snapshot
    · cases hstep
  | deliver index =>
    obtain ⟨report, hreport, rfl⟩ := Option.map_eq_some_iff.mp hstep
    exact h.onDeliver hreport (he report hreport)

/-- A report of another process than the registered one is kept as the pipeline's statistics. -/
theorem not_current_of_not_inTime {e : Event} (h : r.Good defs) (he : ¬ r.InTime e)
    (hstep : reportStep defs r e = some u) : ¬ u.Current defs := by
  cases e with
  | system l => exact absurd trivial he
  | send pid snapshot => exact absurd trivial he
  | deliver index =>
    obtain ⟨report, hreport, rfl⟩ := Option.map_eq_some_iff.mp hstep
    have hwrong : r.system.manager.processes report.name ≠ some report.sender := by
      intro hproc
      apply he
      intro report' hreport'
      rw [Option.some.inj (hreport'.symm.trans hreport)]
      exact hproc
    obtain ⟨-, hname⟩ := h.flight report (List.mem_of_getElem? hreport)
    obtain ⟨pid, hproc⟩ := h.started _ _ hname
    have hsource : (r.onDeliver defs index report).source report.name = some report := by
      simp [Reporting.onDeliver]
    intro hcurrent
    obtain ⟨st, -, hst⟩ := hcurrent report.name pid
      (by rw [h.onDeliver_manager hreport]; exact hproc)
    rw [hsource] at hst
    rcases hst with ⟨hnone, -⟩ | ⟨report', -, heq, -, hsender, -⟩
    · cases hnone
    · cases heq
      rw [hproc, hsender] at hwrong
      exact hwrong rfl

/-! ## Whose statistics `status` returns -/

/-- **Statistics belong to the current run** of a pipeline exactly when every report is recorded
    before its sender is replaced. -/
theorem statistics_current_iff (defs : Definitions) (events : List Event) :
    Always (reportStep defs) (Reporting.Current defs) Reporting.init events ↔
      StepsMeet (reportStep defs) Reporting.InTime Reporting.init events :=
  always_iff_stepsMeet (I := Reporting.Good defs) (fun _ h => h.current)
    (fun _ _ _ h he hstep => reportStep_good h he hstep)
    (fun _ _ _ h he hstep => not_current_of_not_inTime h he hstep) (Reporting.good_init defs)

/-- A report of the first process of a pipeline is recorded after the second one was started. -/
theorem late_report_not_current : ¬ ∀ defs events,
    Always (reportStep defs) (Reporting.Current defs) Reporting.init events := by
  intro h
  have hall := h cameraOnly [.system (.request (.start "camera")), .system (.run 0 .smooth),
    .send 0 ⟨5, 5, 0, 0, 0, .connected, .connected⟩, .system (.exit 0 1),
    .system (.request (.start "camera")), .system (.run 1 .smooth), .deliver 0]
  rw [always_iff_runs] at hall
  obtain ⟨st, hst, hcurrent⟩ := hall _ _ (List.prefix_refl _) rfl "camera" 1 (by decide)
  rcases hcurrent with ⟨hsource, -⟩ | ⟨report, -, hsource, -, hsender, -⟩
  · exact absurd hsource (by decide)
  · cases hsource
    exact absurd hsender (by decide)

end PipeWorks.Plumber
