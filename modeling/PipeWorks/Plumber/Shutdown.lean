import PipeWorks.Plumber.Supervision

/-!
# Shutting down

`main` ends by calling `stop_all`, which takes the lock once for each pipeline.  Request handlers
that are still under way take it in between, and nothing tells them that the manager is shutting
down.

`no_child_left_iff`: after `stop_all` and the handlers have finished no child is alive exactly
when each child that was created for a pipeline behind `main`'s walk has exited by itself.
`late_start_leaves_child` is a run that leaves one behind.
-/

set_option autoImplicit false

namespace PipeWorks.Plumber

open StepSystem PipeWorks.Python

/-- The pipeline that a section stops. -/
def Section.stopName : Section → Option String
  | .stop name => some name
  | _ => none

/-- The pipelines that the walk of thread `main` has still to stop. -/
def System.toStop (main : Nat) (s : System) : List String :=
  (s.threads.getD main []).filterMap Section.stopName

/-- Labels of a shutdown: no new request is accepted, terminating a child succeeds. -/
def Label.InShutdown : Label → Prop
  | .request _ => False
  | .run _ answer => ∃ code, answer.reaping = .ok (some code)
  | .exit _ _ => True

/-- The child that exits. -/
def Label.pid : Label → Option Nat
  | .exit pid _ => some pid
  | _ => none

/-- A shutdown, from the call of `stop_all` to the end of all threads. -/
structure Shutdown (defs : Definitions) (s : System) (labels : List Label) (t : System) :
    Prop where
  reachable : Reaches (step defs) System.init s
  /-- no stop request is in flight when it begins -/
  inFlight : ∀ thread ∈ s.threads, ∀ c ∈ thread, c.stopName = none
  smooth : ∀ l ∈ labels, l.InShutdown
  ran : run (step defs) s (.request .stopAll :: labels) = some t
  finished : ∀ thread ∈ t.threads, thread = []

/-- The step creates a child for a pipeline that the walk has already stopped. -/
def System.CreatesLate (defs : Definitions) (main : Nat) (s : System) : Label → Prop
  | .run thread answer => ∃ name rest, s.threads[thread]? = some (.start name :: rest) ∧
      name ∈ defs.names ∧ s.manager.live name = none ∧ answer.startRaises = none ∧
      name ∉ s.toStop main
  | _ => False

/-- Every child created behind the walk exits by itself later in the run. -/
def LateChildrenExit (defs : Definitions) (main : Nat) : System → List Label → Prop
  | _, [] => True
  | s, l :: labels =>
    (s.CreatesLate defs main l → ∃ code, .exit s.manager.children.length code ∈ labels) ∧
    ∀ t, step defs s l = some t → LateChildrenExit defs main t labels

variable {defs : Definitions} {main : Nat} {s t : System} {l : Label} {labels : List Label}

/-! ## One step of a shutdown -/

structure Draining (defs : Definitions) (main : Nat) (s : System) : Prop where
  wellFormed : s.manager.WellFormed
  childrenDefined : s.manager.ChildrenDefined defs
  walk : s.threads[main]? = some ((s.toStop main).map .stop)
  walked : ∀ name ∈ s.toStop main, name ∈ defs.names
  nodup : (s.toStop main).Nodup
  others : ∀ i thread, i ≠ main → s.threads[i]? = some thread → ∀ c ∈ thread, c.stopName = none

/-- What a step of a shutdown does to the children and to the walk. -/
inductive Effect (defs : Definitions) (main : Nat) (s : System) (l : Label) (t : System) : Prop
  | exits (pid : Nat) (code : Int) (hl : l = .exit pid code)
      (hm : t.manager = s.manager.childExit pid code) (hwalk : t.toStop main = s.toStop main)
  | stops (name : String) (hl : l.pid = none) (hwalk : s.toStop main = name :: t.toStop main)
      (hlate : ¬ s.CreatesLate defs main l) (hnames : t.manager.nameOf = s.manager.nameOf)
      (halive : ∀ pid, t.manager.isAlive pid = true ↔
        s.manager.isAlive pid = true ∧ s.manager.processes name ≠ some pid)
  | creates (d : PipelineDefinition) (hl : l.pid = none) (hm : t.manager = s.manager.register d)
      (hwalk : t.toStop main = s.toStop main)
      (hlate : s.CreatesLate defs main l ↔ d.name ∉ s.toStop main)
  | idles (hl : l.pid = none) (hchildren : t.manager.children = s.manager.children)
      (hwalk : t.toStop main = s.toStop main) (hlate : ¬ s.CreatesLate defs main l)

theorem filterMap_stopName (names : List String) :
    (names.map Section.stop).filterMap Section.stopName = names := by
  induction names with
  | nil => rfl
  | cons name names ih => simpa [Section.stopName] using ih

theorem toStop_set_main {names : List String}
    (h : s.threads[main]? = some ((s.toStop main).map .stop)) (m : Manager) :
    System.toStop main ⟨m, s.threads.set main (names.map .stop)⟩ = names := by
  have hlt := (List.getElem?_eq_some_iff.mp h).1
  rw [System.toStop, List.getD_eq_getElem?_getD, List.getElem?_set_self hlt]
  exact filterMap_stopName names

theorem toStop_set_other {thread : Nat} (h : thread ≠ main) (m : Manager) (rest : List Section) :
    System.toStop main ⟨m, s.threads.set thread rest⟩ = s.toStop main := by
  simp [System.toStop, List.getD_eq_getElem?_getD, List.getElem?_set_ne h]

/-- The section that `main` runs next. -/
theorem Draining.main_section {c : Section} {rest : List Section} (h : Draining defs main s)
    (hthread : s.threads[main]? = some (c :: rest)) :
    ∃ name names, s.toStop main = name :: names ∧ c = .stop name ∧ rest = names.map .stop := by
  have hcons := Option.some.inj (h.walk.symm.trans hthread)
  cases hwalk : s.toStop main with
  | nil =>
    rw [hwalk] at hcons
    cases hcons
  | cons name names =>
    rw [hwalk] at hcons
    obtain ⟨hc, hrest⟩ := List.cons.inj hcons
    exact ⟨name, names, rfl, hc.symm, hrest.symm⟩

theorem Draining.stop_main {names : List String} {name : String} {answer : Answer} {code : Int}
    (h : Draining defs main s) (hwalk : s.toStop main = name :: names)
    (hreap : answer.reaping = .ok (some code))
    (ht : t = s.after main (names.map .stop) ((Section.stop name).exec defs answer s.manager)) :
    t.manager = (s.manager.stop defs answer name).1 ∧
      t.threads = s.threads.set main (names.map .stop) ∧ t.toStop main = names := by
  obtain ⟨d, hget⟩ : ∃ d, defs.get name = some d := by
    have hmem : name ∈ defs.names := h.walked name (by rw [hwalk]; exact List.mem_cons_self ..)
    by_contra hnone
    rw [← Option.ne_none_iff_exists', not_not] at hnone
    exact Definitions.get_eq_none.mp hnone hmem
  have hraise : ((Section.stop name).exec defs answer s.manager).2 = false := raises_stop hget hreap
  have hts : t = ⟨(s.manager.stop defs answer name).1, s.threads.set main (names.map .stop)⟩ := by
    rw [ht]
    unfold System.after
    rw [hraise]
    rfl
  subst hts
  exact ⟨rfl, rfl, toStop_set_main h.walk _⟩

/-- A stop whose child can be terminated leaves every other process as it was. -/
theorem isAlive_stop {m : Manager} {name : String} {answer : Answer} {code : Int}
    (hget : name ∈ defs.names) (hreap : answer.reaping = .ok (some code)) (pid : Nat) :
    (m.stop defs answer name).1.isAlive pid = true ↔
      m.isAlive pid = true ∧ m.processes name ≠ some pid := by
  rcases m.stop_cases defs answer name with
    ⟨hnone, -⟩ | ⟨-, ⟨h, hlive⟩ | ⟨pid', code', hlive, -, h⟩⟩
  · exact absurd hget (Definitions.get_eq_none.mp hnone)
  · have hlive : m.live name = none := by
      rcases hlive with hlive | hlive
      · exact hlive
      · rw [hreap] at hlive
        cases hlive
    rw [h]
    refine ⟨fun halive => ⟨halive, fun hproc => ?_⟩, fun halive => halive.1⟩
    have hdead := Manager.live_eq_none.mp hlive pid hproc
    have halive : m.isAlive pid = true := halive
    rw [hdead] at halive
    cases halive
  · obtain ⟨hproc, -⟩ := Manager.live_eq_some.mp hlive
    rw [h, Manager.isAlive_childExit, hproc]
    have hsame : (m.requestStop name).isAlive pid = m.isAlive pid := rfl
    rw [hsame]
    simp only [Bool.and_eq_true, bne_iff_ne, ne_eq, Option.some.injEq]
    exact and_congr_right fun _ => not_congr eq_comm

theorem nameOf_stop (answer : Answer) (m : Manager) (name : String) :
    (m.stop defs answer name).1.nameOf = m.nameOf := by
  rcases m.stop_cases defs answer name with ⟨-, h⟩ | ⟨-, ⟨h, -⟩ | ⟨pid, code, -, -, h⟩⟩
  · rw [h]
  · rw [h]
    rfl
  · rw [h]
    funext pid'
    exact Manager.nameOf_childExit ..

theorem children_recordStatistics (m : Manager) (name : String) (statistics : Json) :
    (m.recordStatistics defs name statistics).1.children = m.children := by
  unfold Manager.recordStatistics
  split
  · rfl
  · split <;> rfl

/-- The step of a handler's thread. -/
theorem Draining.effect_handler {thread : Nat} {answer : Answer} {c : Section}
    {rest : List Section} (h : Draining defs main s) (hne : thread ≠ main)
    (hthread : s.threads[thread]? = some (c :: rest))
    (ht : t = s.after thread rest (c.exec defs answer s.manager)) :
    Effect defs main s (.run thread answer) t := by
  have hwalk : t.toStop main = s.toStop main := by
    rw [ht]
    exact toStop_set_other hne _ _
  have hm : t.manager = (c.exec defs answer s.manager).1 := by rw [ht]; rfl
  have hc : c.stopName = none := h.others thread _ hne hthread c (List.mem_cons_self ..)
  have hstart : ∀ name rest',
      s.threads[thread]? = some (.start name :: rest') → c = .start name := by
    intro name rest' hthread'
    exact (List.cons.inj (Option.some.inj (hthread.symm.trans hthread'))).1
  cases c with
  | list =>
    refine .idles rfl (by rw [hm]; rfl) hwalk ?_
    rintro ⟨name, rest', hthread', -⟩
    cases hstart name rest' hthread'
  | status name =>
    refine .idles rfl (by rw [hm]; rfl) hwalk ?_
    rintro ⟨name', rest', hthread', -⟩
    cases hstart name' rest' hthread'
  | start name =>
    rcases s.manager.start_cases defs answer name with
      ⟨hsame, hwhy⟩ | ⟨d, hget, rfl, hlive, hraise, heq⟩
    · refine .idles rfl (by rw [hm]; exact congrArg Manager.children hsame) hwalk ?_
      rintro ⟨name', rest', hthread', hmem, hlive, hraise, -⟩
      cases hstart name' rest' hthread'
      rcases hwhy with hwhy | hwhy | hwhy
      · exact Definitions.get_eq_none.mp hwhy hmem
      · rw [hlive] at hwhy
        cases hwhy
      · rw [hraise] at hwhy
        cases hwhy
    · refine .creates d rfl (by rw [hm]; exact congrArg Prod.fst heq) hwalk ⟨?_, fun hlate => ?_⟩
      · rintro ⟨name', rest', hthread', -, -, -, hlate⟩
        cases hstart name' rest' hthread'
        exact hlate
      · exact ⟨d.name, rest, hthread, Definitions.mem_names hget, hlive, hraise, hlate⟩
  | stop name => cases hc
  | recordStatistics name statistics =>
    refine .idles rfl (by rw [hm]; exact children_recordStatistics ..) hwalk ?_
    rintro ⟨name', rest', hthread', -⟩
    cases hstart name' rest' hthread'

theorem Draining.effect (h : Draining defs main s) (hl : l.InShutdown)
    (hstep : step defs s l = some t) : Effect defs main s l t := by
  cases l with
  | request r => exact hl.elim
  | exit pid code =>
    obtain ⟨-, rfl⟩ := step_exit hstep
    exact .exits pid code rfl rfl rfl
  | run thread answer =>
    obtain ⟨c, rest, hthread, ht⟩ := step_run hstep
    by_cases hmain : thread = main
    · subst hmain
      obtain ⟨code, hreap⟩ := hl
      obtain ⟨name, names, hwalk, rfl, rfl⟩ := h.main_section hthread
      obtain ⟨hm, -, hrest⟩ := h.stop_main hwalk hreap ht
      have hmem : name ∈ defs.names := h.walked name (by rw [hwalk]; exact List.mem_cons_self ..)
      refine .stops name rfl (by rw [hwalk, hrest]) ?_ (by rw [hm]; exact nameOf_stop ..) ?_
      · rintro ⟨name', rest', hthread', -⟩
        cases hthread.symm.trans hthread'
      · rw [hm]
        exact isAlive_stop hmem hreap
    · exact h.effect_handler hmain hthread ht

theorem Draining.preserved (h : Draining defs main s) (hl : l.InShutdown)
    (hstep : step defs s l = some t) : Draining defs main t := by
  have hw : t.manager.WellFormed :=
    Manager.step_invariant (fun _ _ => Change.wellFormed) h.wellFormed hstep
  have hd : t.manager.ChildrenDefined defs :=
    Manager.step_invariant (fun _ _ => Change.childrenDefined) h.childrenDefined hstep
  cases l with
  | request r => exact hl.elim
  | exit pid code =>
    obtain ⟨-, rfl⟩ := step_exit hstep
    exact ⟨hw, hd, h.walk, h.walked, h.nodup, h.others⟩
  | run thread answer =>
    obtain ⟨c, rest, hthread, ht⟩ := step_run hstep
    by_cases hmain : thread = main
    · subst hmain
      obtain ⟨code, hreap⟩ := hl
      obtain ⟨name, names, hwalk, rfl, rfl⟩ := h.main_section hthread
      obtain ⟨-, hthreads, hrest⟩ := h.stop_main hwalk hreap ht
      have hlt := (List.getElem?_eq_some_iff.mp hthread).1
      have hnodup := h.nodup
      rw [hwalk] at hnodup
      refine ⟨hw, hd, ?_, ?_, ?_, ?_⟩
      · rw [hthreads, hrest, List.getElem?_set_self hlt]
      · rw [hrest]
        exact fun n hn => h.walked n (by rw [hwalk]; exact List.mem_cons_of_mem _ hn)
      · rw [hrest]
        exact (List.nodup_cons.mp hnodup).2
      · intro i other hi hother
        rw [hthreads, List.getElem?_set_ne (Ne.symm hi)] at hother
        exact h.others i other hi hother
    · have hrest : t.toStop main = s.toStop main := by
        rw [ht]
        exact toStop_set_other hmain _ _
      refine ⟨hw, hd, ?_, by rw [hrest]; exact h.walked, by rw [hrest]; exact h.nodup, ?_⟩
      · rw [hrest, ht]
        exact (List.getElem?_set_ne hmain).trans h.walk
      · intro i other hi hother c' hc'
        rw [ht] at hother
        obtain ⟨before, hbefore, hmem⟩ := System.after_thread hthread hother
        exact h.others i before hi hbefore c' (hmem c' hc')

/-! ## The children along a shutdown -/

/-- A live child is in front of the walk, or exits by itself. -/
def System.Covered (main : Nat) (s : System) (labels : List Label) : Prop :=
  ∀ pid name, s.manager.isAlive pid = true → s.manager.nameOf pid = some name →
    name ∈ s.toStop main ∨ ∃ code, .exit pid code ∈ labels

theorem System.Covered.of_pid_eq_none (hcov : s.Covered main (l :: labels)) (hl : l.pid = none) :
    s.Covered main labels := by
  intro pid name halive hname
  apply (hcov pid name halive hname).imp id
  rintro ⟨code, hmem⟩
  rcases List.mem_cons.mp hmem with heq | hmem
  · rw [← heq] at hl
    cases hl
  · exact ⟨code, hmem⟩

theorem Draining.covered_step (h : Draining defs main s) (hl : l.InShutdown)
    (hstep : step defs s l = some t)
    (hlate : s.CreatesLate defs main l → ∃ code, .exit s.manager.children.length code ∈ labels)
    (hcov : s.Covered main (l :: labels)) : t.Covered main labels := by
  intro pid name halive hname
  cases h.effect hl hstep with
  | exits pid' code hl hm hwalk =>
    rw [hm, Manager.isAlive_childExit] at halive
    rw [hm, Manager.nameOf_childExit] at hname
    obtain ⟨halive, hne⟩ := Bool.and_eq_true_iff.mp halive
    rw [hwalk]
    apply (hcov pid name halive hname).imp id
    rintro ⟨code', hmem⟩
    rcases List.mem_cons.mp hmem with heq | hmem
    · rw [hl] at heq
      cases heq
      exact absurd rfl (bne_iff_ne.mp hne)
    · exact ⟨code', hmem⟩
  | stops n hl hwalk _ hnames hsurvive =>
    rw [hnames] at hname
    obtain ⟨halive, hother⟩ := (hsurvive pid).mp halive
    refine (hcov.of_pid_eq_none hl pid name halive hname).imp (fun hmem => ?_) id
    rw [hwalk] at hmem
    rcases List.mem_cons.mp hmem with rfl | hmem
    · exact absurd (h.wellFormed.processes_of_alive halive hname) hother
    · exact hmem
  | creates d hl hm hwalk hlate' =>
    rw [hwalk]
    rw [hm, Manager.isAlive_register] at halive
    rw [hm] at hname
    rcases Bool.or_eq_true_iff.mp halive with halive | hnew
    · rw [Manager.nameOf_register (Manager.isAlive_lt halive)] at hname
      exact hcov.of_pid_eq_none hl pid name halive hname
    · have hpid : pid = s.manager.children.length := eq_of_beq hnew
      subst hpid
      rw [Manager.nameOf_last] at hname
      cases hname
      by_cases hmem : d.name ∈ s.toStop main
      · exact .inl hmem
      · exact .inr (hlate (hlate'.mpr hmem))
  | idles hl hchildren hwalk _ =>
    rw [hwalk]
    have halive : s.manager.isAlive pid = true := by
      rwa [Manager.isAlive, hchildren] at halive
    rw [Manager.nameOf, hchildren] at hname
    exact hcov.of_pid_eq_none hl pid name halive hname

/-- A live child behind the walk stays alive unless it exits by itself. -/
theorem Draining.alive_step (h : Draining defs main s) (hl : l.InShutdown)
    (hstep : step defs s l = some t) {pid : Nat} {name : String}
    (halive : s.manager.isAlive pid = true) (hname : s.manager.nameOf pid = some name)
    (hbehind : name ∉ s.toStop main) (hexit : ∀ code, l ≠ .exit pid code) :
    t.manager.isAlive pid = true ∧ t.manager.nameOf pid = some name ∧ name ∉ t.toStop main := by
  cases h.effect hl hstep with
  | exits pid' code hl hm hwalk =>
    have hne : pid ≠ pid' := by
      rintro rfl
      exact hexit code hl
    rw [hm, hwalk, Manager.isAlive_childExit, Manager.nameOf_childExit, halive]
    exact ⟨by simpa using hne, hname, hbehind⟩
  | stops n _ hwalk _ hnames hsurvive =>
    rw [hwalk] at hbehind
    rw [hnames]
    refine ⟨(hsurvive pid).mpr ⟨halive, fun hproc => ?_⟩, hname,
      fun hmem => hbehind (List.mem_cons_of_mem _ hmem)⟩
    have hname' := h.wellFormed.nameOf_processes hproc
    rw [hname] at hname'
    cases hname'
    exact hbehind (List.mem_cons_self ..)
  | creates d _ hm hwalk _ =>
    rw [hm, hwalk, Manager.isAlive_register, Manager.nameOf_register (Manager.isAlive_lt halive),
      halive]
    exact ⟨rfl, hname, hbehind⟩
  | idles _ hchildren hwalk _ =>
    rw [hwalk, Manager.isAlive, Manager.nameOf, hchildren]
    exact ⟨halive, hname, hbehind⟩

theorem Draining.alive_run (h : Draining defs main s) (hl : ∀ l ∈ labels, l.InShutdown)
    (hrun : run (step defs) s labels = some t) {pid : Nat} {name : String}
    (halive : s.manager.isAlive pid = true) (hname : s.manager.nameOf pid = some name)
    (hbehind : name ∉ s.toStop main) (hexit : ∀ code, .exit pid code ∉ labels) :
    t.manager.isAlive pid = true := by
  induction labels generalizing s with
  | nil =>
    cases hrun
    exact halive
  | cons l labels ih =>
    obtain ⟨u, hu, hut⟩ := run_cons_eq_some.mp hrun
    have hl' := hl l (List.mem_cons_self ..)
    have hexit' : ∀ code, l ≠ .exit pid code := by
      rintro code rfl
      exact hexit code (List.mem_cons_self ..)
    obtain ⟨halive', hname', hbehind'⟩ := h.alive_step hl' hu halive hname hbehind hexit'
    exact ih (h.preserved hl' hu) (fun l hmem => hl l (List.mem_cons_of_mem _ hmem)) hut halive'
      hname' hbehind' fun code hmem => hexit code (List.mem_cons_of_mem _ hmem)

/-- A child created behind the walk is alive, and behind the walk, after the step. -/
theorem Draining.created_alive (h : Draining defs main s) (hl : l.InShutdown)
    (hstep : step defs s l = some t) (hlate : s.CreatesLate defs main l) :
    t.manager.isAlive s.manager.children.length = true ∧
      ∃ name, t.manager.nameOf s.manager.children.length = some name ∧ name ∉ t.toStop main := by
  cases h.effect hl hstep with
  | exits pid code hl _ _ =>
    rw [hl] at hlate
    exact hlate.elim
  | stops _ _ _ hnot _ _ => exact absurd hlate hnot
  | creates d _ hm hwalk hiff =>
    rw [hm, hwalk, Manager.isAlive_register]
    exact ⟨by simp, d.name, Manager.nameOf_last .., hiff.mp hlate⟩
  | idles _ _ _ hnot => exact absurd hlate hnot

theorem Draining.no_live_iff (h : Draining defs main s) (hl : ∀ l ∈ labels, l.InShutdown)
    (hcov : s.Covered main labels) (hrun : run (step defs) s labels = some t)
    (hdone : t.toStop main = []) :
    (∀ pid, t.manager.isAlive pid = false) ↔ LateChildrenExit defs main s labels := by
  constructor
  · intro hnone
    clear hcov
    induction labels generalizing s with
    | nil => trivial
    | cons l labels ih =>
      obtain ⟨u, hu, hut⟩ := run_cons_eq_some.mp hrun
      have hl' := hl l (List.mem_cons_self ..)
      have hrest : ∀ l ∈ labels, l.InShutdown := fun l hmem => hl l (List.mem_cons_of_mem _ hmem)
      refine ⟨fun hlate => ?_, fun u' hu' => ?_⟩
      · obtain ⟨halive, name, hname, hbehind⟩ := h.created_alive hl' hu hlate
        by_contra hexit
        have hend := (h.preserved hl' hu).alive_run hrest hut halive hname hbehind
          fun code hmem => hexit ⟨code, hmem⟩
        rw [hnone] at hend
        cases hend
      · have heq : u = u' := Option.some.inj (hu.symm.trans hu')
        subst heq
        exact ih (h.preserved hl' hu) hrest hut
  · intro hlate
    induction labels generalizing s with
    | nil =>
      cases hrun
      intro pid
      by_contra halive
      rw [Bool.not_eq_false] at halive
      obtain ⟨name, hname⟩ := Manager.nameOf_of_alive halive
      rcases hcov pid name halive hname with hmem | ⟨_, hmem⟩
      · rw [hdone] at hmem
        cases hmem
      · cases hmem
    | cons l labels ih =>
      obtain ⟨u, hu, hut⟩ := run_cons_eq_some.mp hrun
      have hl' := hl l (List.mem_cons_self ..)
      exact ih (h.preserved hl' hu) (fun l hmem => hl l (List.mem_cons_of_mem _ hmem))
        (h.covered_step hl' hu hlate.1 hcov) hut (hlate.2 u hu)

/-! ## What a shutdown leaves behind -/

/-- `main` calls `stop_all`. -/
def System.beginShutdown (defs : Definitions) (s : System) : System :=
  { s with threads := s.threads ++ [Request.stopAll.sections defs] }

theorem Shutdown.draining (h : Shutdown defs s labels t) :
    Draining defs s.threads.length (s.beginShutdown defs) ∧
      (s.beginShutdown defs).Covered s.threads.length labels := by
  obtain ⟨before, hbefore⟩ := h.reachable
  have hw := System.wellFormed hbefore
  have hd : s.manager.ChildrenDefined defs :=
    Manager.run_invariant (s := System.init) (fun _ _ => Change.childrenDefined)
      (fun _ _ hname => by cases hname) hbefore
  have hlast : (s.beginShutdown defs).threads[s.threads.length]? = some (defs.names.map .stop) := by
    simp [System.beginShutdown, Request.sections]
  have hwalk : (s.beginShutdown defs).toStop s.threads.length = defs.names := by
    rw [System.toStop, List.getD_eq_getElem?_getD, hlast]
    exact filterMap_stopName defs.names
  constructor
  · refine ⟨hw, hd, by rw [hwalk, hlast], by rw [hwalk]; exact fun _ hn => hn,
      by rw [hwalk]; exact defs.nodup, ?_⟩
    intro i thread hi hthread
    have hlt : i < s.threads.length := by
      have := (List.getElem?_eq_some_iff.mp hthread).1
      simp [System.beginShutdown] at this
      omega
    have hold : s.threads[i]? = some thread := by
      rwa [System.beginShutdown, List.getElem?_append_left hlt] at hthread
    exact h.inFlight thread (List.mem_of_getElem? hold)
  · intro pid name _ hname
    rw [hwalk]
    exact .inl (hd pid name hname)

/-- **Shutdown.**  No child is left alive exactly when every child that a handler creates behind
    the walk of `stop_all` exits by itself before the end. -/
theorem no_child_left_iff (h : Shutdown defs s labels t) :
    (∀ pid, t.manager.isAlive pid = false) ↔
      LateChildrenExit defs s.threads.length (s.beginShutdown defs) labels := by
  obtain ⟨hdraining, hcov⟩ := h.draining
  obtain ⟨u, hu, hut⟩ := run_cons_eq_some.mp h.ran
  have hbegin : u = s.beginShutdown defs := (Option.some.inj hu).symm
  subst hbegin
  apply hdraining.no_live_iff h.smooth hcov hut
  rw [System.toStop, List.getD_eq_getElem?_getD]
  cases hthread : t.threads[s.threads.length]? with
  | none => rfl
  | some thread =>
    rw [h.finished thread (List.mem_of_getElem? hthread)]
    rfl

/-- A handler has been asked to start the pipeline and has not taken the lock yet. -/
def startPending : System := ⟨Manager.init, [[.start "camera"]]⟩

theorem startPending_shutdown (labels : List Label) {t : System}
    (hl : ∀ l ∈ labels, l = .run 0 .smooth ∨ l = .run 1 .smooth)
    (hrun : run (step cameraOnly) startPending (.request .stopAll :: labels) = some t)
    (hdone : ∀ thread ∈ t.threads, thread = []) : Shutdown cameraOnly startPending labels t := by
  refine ⟨⟨[.request (.start "camera")], rfl⟩, by decide, ?_, hrun, hdone⟩
  intro l hmem
  rcases hl l hmem with rfl | rfl <;> exact ⟨0, rfl⟩

/-- The handler is in time: `stop_all` finds the child and ends it. -/
theorem start_in_time : ∃ t, Shutdown cameraOnly startPending [.run 0 .smooth, .run 1 .smooth] t ∧
    ((∀ pid, t.manager.isAlive pid = false) ↔ LateChildrenExit cameraOnly 1
      (startPending.beginShutdown cameraOnly) [.run 0 .smooth, .run 1 .smooth]) := by
  have h := startPending_shutdown [.run 0 .smooth, .run 1 .smooth] (by simp) rfl
    (by decide)
  exact ⟨_, h, no_child_left_iff h⟩

/-- The handler takes the lock after `stop_all` has passed: its child outlives the manager. -/
theorem late_start_leaves_child : ¬ ∀ defs s labels t, Shutdown defs s labels t →
    ∀ pid, t.manager.isAlive pid = false := by
  intro h
  have hshutdown := startPending_shutdown [.run 1 .smooth, .run 0 .smooth] (by simp)
    rfl (by decide)
  have hdead := h _ _ _ _ hshutdown 0
  exact absurd hdead (by decide)

end PipeWorks.Plumber
