import PipeWorks.Plumber.Supervision

/-!
# What `status` says about a pipeline

`latest` reads the history of a pipeline: its latest child, whether it is alive, and whether a
stop of the pipeline was requested while it was alive, or at any time since it was created.
`Latest.state` classifies by the second, which is what the manager keeps in `_stopped`;
`Latest.stateWhileAlive` classifies by the first.  They differ where a stop reaches a child that
has already terminated (`crash_then_stop`).

`status_classification`: along every run `status` reports `Latest.state`, and a pipeline that is
`failed` stays `failed` until a start creates a child or a stop is requested.
-/

set_option autoImplicit false

namespace PipeWorks.Plumber

open StepSystem PipeWorks.Python

structure Latest where
  pid : Nat
  alive : Bool
  /-- a stop was requested while it was alive -/
  stoppedAlive : Bool
  /-- a stop was requested since it was created -/
  stoppedSince : Bool

def Latest.onHappening (name : String) (latest : Option Latest) : Happening → Option Latest
  | .created pid n => if n = name then some ⟨pid, true, false, false⟩ else latest
  | .stopRequested n =>
    if n = name then
      latest.map fun l => { l with stoppedAlive := l.stoppedAlive || l.alive, stoppedSince := true }
    else latest
  | .exited pid => latest.map fun l => { l with alive := l.alive && l.pid != pid }

/-- The latest child of a pipeline, if it was ever started. -/
def latest (name : String) (history : List Happening) : Option Latest :=
  history.foldl (Latest.onHappening name) none

/-- The classification by the stops requested since the latest child was created. -/
def Latest.state : Option Latest → PipelineState
  | none => .stopped
  | some l => if l.alive then .running else if l.stoppedSince then .stopped else .failed

/-- The classification by the stops requested while the latest child was alive. -/
def Latest.stateWhileAlive : Option Latest → PipelineState
  | none => .stopped
  | some l => if l.alive then .running else if l.stoppedAlive then .stopped else .failed

/-- A happening that may end the state `failed` of a pipeline. -/
def Happening.ends (name : String) : Happening → Bool
  | .created _ n | .stopRequested n => n == name
  | .exited _ => false

/-- `status` reports this state, for every pipeline. -/
def Manager.Reports (defs : Definitions) (state : Option Latest → PipelineState) (m : Manager) :
    Prop :=
  ∀ name ∈ defs.names, ∃ st, m.status defs name = .ok st ∧ st.state = state (latest name m.history)

variable {defs : Definitions} {m m' : Manager} {name : String}

/-! ## The history and the manager's fields -/

/-- The manager's fields for a pipeline say what its latest child's history says. -/
def Manager.Matches (m : Manager) (name : String) : Option Latest → Prop
  | none => m.processes name = none
  | some l =>
    m.processes name = some l.pid ∧ m.isAlive l.pid = l.alive ∧ m.stopped name = l.stoppedSince

def Manager.Agrees (m : Manager) (name : String) : Prop := m.Matches name (latest name m.history)

theorem latest_snoc (name : String) (history : List Happening) (h : Happening) :
    latest name (history ++ [h]) = Latest.onHappening name (latest name history) h := by
  simp [latest]

theorem Manager.Agrees.register (hw : m.WellFormed) (h : m.Agrees name) (d : PipelineDefinition) :
    (m.register d).Agrees name := by
  show (m.register d).Matches name (latest name (m.history ++ [.created m.children.length d.name]))
  rw [latest_snoc]
  by_cases hname : d.name = name
  · subst hname
    have hlatest : Latest.onHappening d.name (latest d.name m.history)
        (.created m.children.length d.name) = some ⟨m.children.length, true, false, false⟩ :=
      if_pos rfl
    rw [hlatest]
    refine ⟨by simp [Manager.register], ?_, by simp [Manager.register]⟩
    rw [Manager.isAlive_register]
    simp
  · have hname' : name ≠ d.name := fun heq => hname heq.symm
    have hlatest : Latest.onHappening name (latest name m.history)
        (.created m.children.length d.name) = latest name m.history := if_neg hname
    rw [hlatest]
    unfold Manager.Agrees at h
    cases hl : latest name m.history with
    | none =>
      rw [hl] at h
      simpa [Manager.Matches, Manager.register, hname'] using h
    | some l =>
      rw [hl] at h
      obtain ⟨hproc, halive, hstop⟩ := h
      obtain ⟨c, hc, -⟩ := hw.registered name l.pid hproc
      have hlt : l.pid < m.children.length := (List.getElem?_eq_some_iff.mp hc).1
      have hne : (l.pid == m.children.length) = false := by simp; omega
      refine ⟨by simpa [Manager.register, hname'] using hproc, ?_,
        by simpa [Manager.register, hname'] using hstop⟩
      rw [Manager.isAlive_register, hne, Bool.or_false, halive]

theorem Manager.Agrees.requestStop (h : m.Agrees name) (n : String) :
    (m.requestStop n).Agrees name := by
  show (m.requestStop n).Matches name (latest name (m.history ++ [.stopRequested n]))
  rw [latest_snoc]
  unfold Manager.Agrees at h
  by_cases hname : n = name
  · subst hname
    have hlatest : Latest.onHappening n (latest n m.history) (.stopRequested n) =
        (latest n m.history).map fun l =>
          { l with stoppedAlive := l.stoppedAlive || l.alive, stoppedSince := true } := if_pos rfl
    rw [hlatest]
    cases hl : latest n m.history with
    | none =>
      rw [hl] at h
      exact h
    | some l =>
      rw [hl] at h
      obtain ⟨hproc, halive, -⟩ := h
      exact ⟨hproc, halive, by simp [Manager.requestStop]⟩
  · have hname' : name ≠ n := fun heq => hname heq.symm
    have hlatest : Latest.onHappening name (latest name m.history) (.stopRequested n) =
        latest name m.history := if_neg hname
    rw [hlatest]
    cases hl : latest name m.history with
    | none =>
      rw [hl] at h
      exact h
    | some l =>
      rw [hl] at h
      exact ⟨h.1, h.2.1, by simpa [Manager.requestStop, hname'] using h.2.2⟩

theorem Manager.Agrees.childExit (h : m.Agrees name) (pid : Nat) (code : Int) :
    (m.childExit pid code).Agrees name := by
  show (m.childExit pid code).Matches name (latest name (m.history ++ [.exited pid]))
  rw [latest_snoc]
  unfold Manager.Agrees at h
  cases hl : latest name m.history with
  | none =>
    rw [hl] at h
    exact h
  | some l =>
    rw [hl] at h
    obtain ⟨hproc, halive, hstop⟩ := h
    refine ⟨hproc, ?_, hstop⟩
    rw [Manager.isAlive_childExit, halive]

theorem Change.agrees (hchange : Change defs m m') (h : m.WellFormed ∧ ∀ name, m.Agrees name) :
    m'.WellFormed ∧ ∀ name, m'.Agrees name := by
  obtain ⟨hw, ha⟩ := h
  refine ⟨hchange.wellFormed hw, fun name => ?_⟩
  cases hchange with
  | register d _ _ => exact (ha name).register hw d
  | requestStop n => exact (ha name).requestStop n
  | childExit pid code _ => exact (ha name).childExit pid code
  | setStatistics n statistics => exact ha name

theorem System.agrees {labels : List Label} {s : System}
    (h : run (step defs) System.init labels = some s) :
    s.manager.WellFormed ∧ ∀ name, s.manager.Agrees name :=
  Manager.run_invariant (fun _ _ hm hchange => Change.agrees hchange hm)
    (s := System.init) ⟨Manager.wellFormed_init, fun _ => rfl⟩ h

theorem Manager.Agrees.classify (h : m.Agrees name) :
    (m.classify name).1 = Latest.state (latest name m.history) := by
  unfold Manager.Agrees at h
  unfold Manager.classify Latest.state
  cases hl : latest name m.history with
  | none =>
    rw [hl] at h
    rw [h]
  | some l =>
    rw [hl] at h
    obtain ⟨hproc, halive, hstop⟩ := h
    rw [hproc]
    dsimp only
    rw [halive, hstop]
    split <;> rfl

theorem Manager.status_of_mem (hname : name ∈ defs.names) :
    ∃ st, m.status defs name = .ok st ∧ st.state = (m.classify name).1 := by
  unfold Manager.status
  cases hget : defs.get name with
  | none => exact absurd hname (Definitions.get_eq_none.mp hget)
  | some d => exact ⟨_, rfl, rfl⟩

/-! ## A failed pipeline stays failed -/

theorem Latest.state_eq_failed {latest : Option Latest} :
    Latest.state latest = .failed ↔
      ∃ l, latest = some l ∧ l.alive = false ∧ l.stoppedSince = false := by
  cases latest with
  | none => simp [Latest.state]
  | some l => cases ha : l.alive <;> cases hs : l.stoppedSince <;> simp [Latest.state, ha, hs]

theorem Latest.failed_onHappening {latest : Option Latest} {h : Happening}
    (hfailed : Latest.state latest = .failed) (hends : h.ends name = false) :
    Latest.state (Latest.onHappening name latest h) = .failed := by
  cases h with
  | created pid n =>
    have hne : n ≠ name := by simpa [Happening.ends] using hends
    simpa [Latest.onHappening, hne] using hfailed
  | stopRequested n =>
    have hne : n ≠ name := by simpa [Happening.ends] using hends
    simpa [Latest.onHappening, hne] using hfailed
  | exited pid =>
    obtain ⟨l, rfl, halive, hstop⟩ := Latest.state_eq_failed.mp hfailed
    simp [Latest.onHappening, Latest.state, halive, hstop]

theorem latest_failed_append {earlier later : List Happening}
    (hfailed : Latest.state (latest name earlier) = .failed)
    (hends : ∀ h ∈ later, h.ends name = false) :
    Latest.state (latest name (earlier ++ later)) = .failed := by
  induction later generalizing earlier with
  | nil => simpa using hfailed
  | cons h later ih =>
    have hrest := @ih (earlier ++ [h])
    rw [List.append_assoc, List.singleton_append] at hrest
    refine hrest ?_ fun h' hh' => hends h' (List.mem_cons_of_mem _ hh')
    rw [latest_snoc]
    exact Latest.failed_onHappening hfailed (hends h (List.mem_cons_self ..))

/-! ## What `status` reports -/

/-- Whatever happens next, as long as the history gains no creation and no stop request of
    `name`, `status` keeps reporting `failed`. -/
def System.FailedPersists (defs : Definitions) (s : System) : Prop :=
  ∀ name ∈ defs.names, ∀ st, s.manager.status defs name = .ok st → st.state = .failed →
    ∀ labels t later, run (step defs) s labels = some t →
      t.manager.history = s.manager.history ++ later → (∀ h ∈ later, h.ends name = false) →
      ∃ st', t.manager.status defs name = .ok st' ∧ st'.state = .failed

theorem System.reports {labels : List Label} {s : System}
    (h : run (step defs) System.init labels = some s) : s.manager.Reports defs Latest.state := by
  intro name hname
  obtain ⟨st, hst, hstate⟩ := Manager.status_of_mem (m := s.manager) hname
  exact ⟨st, hst, hstate.trans ((System.agrees h).2 name).classify⟩

theorem System.failedPersists {labels : List Label} {s : System}
    (h : run (step defs) System.init labels = some s) : s.FailedPersists defs := by
  intro name hname st hst hfailed labels' t later ht hlater hends
  have hrun : run (step defs) System.init (labels ++ labels') = some t :=
    run_append_eq_some.mpr ⟨s, h, ht⟩
  obtain ⟨st₀, hst₀, hstate₀⟩ := System.reports h name hname
  obtain ⟨st', hst', hstate'⟩ := System.reports hrun name hname
  have heq : st = st₀ := Except.ok.inj (hst.symm.trans hst₀)
  subst heq
  refine ⟨st', hst', ?_⟩
  rw [hstate', hlater]
  exact latest_failed_append (hstate₀.symm.trans hfailed) hends

/-- **State classification**, along every run of the manager. -/
theorem status_classification (defs : Definitions) (labels : List Label) :
    Always (step defs) (fun s => s.manager.Reports defs Latest.state ∧ s.FailedPersists defs)
      System.init labels := by
  rw [always_iff_runs]
  intro labels' s _ hs
  exact ⟨System.reports hs, System.failedPersists hs⟩

/-- A child that crashed and is stopped afterwards is reported as `stopped`, although no stop was
    requested while it was alive. -/
theorem crash_then_stop :
    ¬ ∀ defs labels, Always (step defs)
      (fun s => s.manager.Reports defs Latest.stateWhileAlive) System.init labels := by
  intro h
  have hall := h cameraOnly [.request (.start "camera"), .run 0 .smooth, .exit 0 1,
    .request (.stop "camera"), .run 1 .smooth]
  rw [always_iff_runs] at hall
  obtain ⟨st, hst, hstate⟩ := hall _ _ (List.prefix_refl _) rfl "camera" (by decide)
  have hstopped : st.state = .stopped := by
    cases hst
    decide
  rw [hstopped] at hstate
  exact absurd hstate (by decide)

end PipeWorks.Plumber
