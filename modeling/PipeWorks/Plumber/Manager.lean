import Mathlib.Data.List.Basic
import Mathlib.Data.List.Sort
import Mathlib.Logic.Function.Basic
import PipeWorks.Lib.StepSystem
import PipeWorks.Plumber.Statistics

/-!
# The pipeline manager (`PipelineManager` of `plumber/cli.py`)

The methods of `PipelineManager` as functions on its state, and the system around it: request
handler threads that each run a list of locked sections, and child processes that may exit at
any moment.  A section under `_lock` is one step.

The environment answers each section (`Answer`): whether `process.start()` raises, and how
terminating a child ends.  `history` records the events a status is judged by; no method reads
it.
-/

set_option autoImplicit false

namespace PipeWorks.Plumber

open PipeWorks.Python

structure PipelineDefinition where
  name : String
  configPath : String
  deriving DecidableEq, Repr

/-- `_definitions`: a dict, so that no two entries share a name. -/
structure Definitions where
  entries : List PipelineDefinition
  nodup : (entries.map PipelineDefinition.name).Nodup

/-- The names, in definition order. -/
def Definitions.names (defs : Definitions) : List String :=
  defs.entries.map PipelineDefinition.name

def Definitions.get (defs : Definitions) (name : String) : Option PipelineDefinition :=
  defs.entries.find? (·.name == name)

/-- `sorted(self._definitions)`. -/
def Definitions.sorted (defs : Definitions) : List String :=
  defs.names.insertionSort (· ≤ ·)

/-- A child process; `exitCode` is `none` while it is alive. -/
structure Child where
  name : String
  configPath : String
  exitCode : Option Int
  deriving DecidableEq, Repr

inductive Happening where
  | created (pid : Nat) (name : String)
  | stopRequested (name : String)
  | exited (pid : Nat)
  deriving DecidableEq, Repr

structure Manager where
  processes : String → Option Nat
  stopped : String → Bool
  statistics : String → Option FrameStatistics
  /-- every child process started so far; its position is its pid -/
  children : List Child
  /-- history: what has happened to the pipelines -/
  history : List Happening

/-- `PipelineManager.__init__`. -/
def Manager.init : Manager :=
  { processes := fun _ => none
    stopped := fun _ => false
    statistics := fun _ => none
    children := []
    history := [] }

inductive PipelineState where
  | stopped
  | running
  | failed
  deriving DecidableEq, Repr

/-- The dict that `status` returns. -/
structure Status where
  name : String
  state : PipelineState
  pid : Option Nat
  exitCode : Option Int
  config : String
  statistics : FrameStatistics
  deriving DecidableEq, Repr

/-- What the environment answers during one section. -/
structure Answer where
  /-- what creating and starting the process raises -/
  startRaises : Option PyError
  /-- how terminate, join, kill and join end: with the child's exit code, with a child that has
      outlived them all, or with an exception -/
  reaping : Except PyError (Option Int)

section Methods

variable (defs : Definitions) (answer : Answer) (m : Manager) (name : String)

/-- `process.is_alive()`. -/
def Manager.isAlive (pid : Nat) : Bool := m.children[pid]?.any (·.exitCode.isNone)

/-- `process.exitcode`. -/
def Manager.exitCodeOf (pid : Nat) : Option Int := m.children[pid]?.bind (·.exitCode)

/-- The registered process, if it is alive. -/
def Manager.live : Option Nat := (m.processes name).filter m.isAlive

/-- The state and the exit code that `status` computes. -/
def Manager.classify : PipelineState × Option Int :=
  match m.processes name with
  | none => (.stopped, none)
  | some pid =>
    if m.isAlive pid then (.running, none)
    else (if m.stopped name then .stopped else .failed, m.exitCodeOf pid)

def Manager.status : Except PyError Status :=
  match defs.get name with
  | none => .error .keyError
  | some definition => .ok
    { name := name
      state := (m.classify name).1
      pid := m.processes name
      exitCode := (m.classify name).2
      config := definition.configPath
      statistics := (m.statistics name).getD emptyStatistics }

def Manager.list : Except PyError (List Status) := defs.sorted.mapM (m.status defs)

/-- `start`, from `process.start()` on. -/
def Manager.register (definition : PipelineDefinition) : Manager :=
  { processes := Function.update m.processes definition.name (some m.children.length)
    stopped := Function.update m.stopped definition.name false
    statistics := Function.update m.statistics definition.name (some emptyStatistics)
    children := m.children ++ [⟨definition.name, definition.configPath, none⟩]
    history := m.history ++ [.created m.children.length definition.name] }

def Manager.start : Manager × Except PyError Status :=
  match defs.get name with
  | none => (m, .error .keyError)
  | some definition =>
    if (m.live name).isSome then (m, m.status defs name)
    else match answer.startRaises with
      | some e => (m, .error e)
      | none => (m.register definition, (m.register definition).status defs name)

/-- `self._stopped.add(name)`. -/
def Manager.requestStop : Manager :=
  { m with
    stopped := Function.update m.stopped name true
    history := m.history ++ [.stopRequested name] }

/-- A child process ends. -/
def Manager.childExit (pid : Nat) (code : Int) : Manager :=
  { m with
    children := m.children.modify pid fun c => { c with exitCode := some code }
    history := m.history ++ [.exited pid] }

def Manager.stop : Manager × Except PyError Status :=
  match defs.get name with
  | none => (m, .error .keyError)
  | some _ =>
    let m' := m.requestStop name
    match m.live name, answer.reaping with
    | some _, .error e => (m', .error e)
    | some pid, .ok (some code) => (m'.childExit pid code, (m'.childExit pid code).status defs name)
    | _, _ => (m', m'.status defs name)

/-- `self._statistics[name] = statistics.copy()`. -/
def Manager.setStatistics (statistics : FrameStatistics) : Manager :=
  { m with statistics := Function.update m.statistics name (some statistics) }

def Manager.recordStatistics (statistics : Json) : Manager × Except PyError Status :=
  match defs.get name with
  | none => (m, .error .keyError)
  | some _ =>
    match validStatistics statistics with
    | none => (m, .error .valueError)
    | some statistics =>
      (m.setStatistics name statistics, (m.setStatistics name statistics).status defs name)

end Methods

/-! ## Threads -/

/-- What a thread does while it holds `_lock` once. -/
inductive Section where
  | list
  | status (name : String)
  | start (name : String)
  | stop (name : String)
  | recordStatistics (name : String) (statistics : Json)

/-- A call that a request handler or `main` makes. -/
inductive Request where
  | list
  | status (name : String)
  | start (name : String)
  | startAll
  | stop (name : String)
  | stopAll
  | recordStatistics (name : String) (statistics : Json)

/-- The sections of a call, in the order it takes the lock. -/
def Request.sections (defs : Definitions) : Request → List Section
  | .list => [.list]
  | .status name => [.status name]
  | .start name => [.start name]
  | .startAll => defs.sorted.map .start
  | .stop name => [.stop name]
  | .stopAll => defs.names.map .stop
  | .recordStatistics name statistics => [.recordStatistics name statistics]

/-- Whether a call has raised. -/
def raises {α : Type} : Except PyError α → Bool
  | .error _ => true
  | .ok _ => false

/-- A section: the state after it, and whether it has raised. -/
def Section.exec (defs : Definitions) (answer : Answer) (m : Manager) : Section → Manager × Bool
  | .list => (m, raises (m.list defs))
  | .status name => (m, raises (m.status defs name))
  | .start name =>
    let (m, outcome) := m.start defs answer name
    (m, raises outcome)
  | .stop name =>
    let (m, outcome) := m.stop defs answer name
    (m, raises outcome)
  | .recordStatistics name statistics =>
    let (m, outcome) := m.recordStatistics defs name statistics
    (m, raises outcome)

/-- The manager, and what each thread has still to do. -/
structure System where
  manager : Manager
  threads : List (List Section)

def System.init : System := ⟨Manager.init, []⟩

inductive Label where
  | request (r : Request)
  /-- a thread takes the lock, and releases it -/
  | run (thread : Nat) (answer : Answer)
  /-- a child exits by itself -/
  | exit (pid : Nat) (code : Int)

/-- A thread goes on after a section; an exception ends its call. -/
def System.after (s : System) (thread : Nat) (rest : List Section) (result : Manager × Bool) :
    System :=
  ⟨result.1, s.threads.set thread (if result.2 then [] else rest)⟩

def step (defs : Definitions) (s : System) : Label → Option System
  | .request r => some { s with threads := s.threads ++ [r.sections defs] }
  | .run thread answer =>
    match s.threads[thread]? with
    | some (c :: rest) => some (s.after thread rest (c.exec defs answer s.manager))
    | _ => none
  | .exit pid code =>
    if s.manager.isAlive pid then some { s with manager := s.manager.childExit pid code }
    else none

/-- One pipeline. -/
def cameraOnly : Definitions := ⟨[⟨"camera", "camera.yml"⟩], by decide⟩

/-- Nothing raises, and a stopped child is gone at once. -/
def Answer.smooth : Answer := ⟨none, .ok (some 0)⟩

/-! ## What the methods do to each field -/

theorem Definitions.get_name {defs : Definitions} {name : String} {d : PipelineDefinition}
    (h : defs.get name = some d) : d.name = name := by
  have hd := List.find?_some h
  exact eq_of_beq hd

theorem Definitions.get_eq_none {defs : Definitions} {name : String} :
    defs.get name = none ↔ name ∉ defs.names := by
  simp [Definitions.get, Definitions.names, List.find?_eq_none]

theorem Manager.isAlive_iff {m : Manager} {pid : Nat} :
    m.isAlive pid = true ↔ ∃ c, m.children[pid]? = some c ∧ c.exitCode = none := by
  simp [Manager.isAlive, Option.any_eq_true]

theorem Manager.live_eq_some {m : Manager} {name : String} {pid : Nat} :
    m.live name = some pid ↔ m.processes name = some pid ∧ m.isAlive pid = true := by
  simp [Manager.live, Option.filter_eq_some_iff]

theorem Manager.live_eq_none {m : Manager} {name : String} :
    m.live name = none ↔ ∀ pid, m.processes name = some pid → m.isAlive pid = false := by
  simp [Manager.live, Option.filter_eq_none_iff]

/-- Everything a `start` can do. -/
theorem Manager.start_cases (defs : Definitions) (answer : Answer) (m : Manager) (name : String) :
    (m.start defs answer name).1 = m ∧
      (defs.get name = none ∨ (m.live name).isSome ∨ answer.startRaises.isSome) ∨
    ∃ d, defs.get name = some d ∧ d.name = name ∧ m.live name = none ∧
      answer.startRaises = none ∧
      m.start defs answer name = (m.register d, (m.register d).status defs name) := by
  unfold Manager.start
  cases hd : defs.get name with
  | none => exact .inl ⟨rfl, .inl rfl⟩
  | some d =>
    cases hlive : m.live name with
    | some pid => exact .inl ⟨rfl, .inr (.inl rfl)⟩
    | none =>
      cases hraise : answer.startRaises with
      | some e => exact .inl ⟨rfl, .inr (.inr rfl)⟩
      | none => exact .inr ⟨d, rfl, Definitions.get_name hd, rfl, rfl, rfl⟩

/-- Everything a `stop` can do. -/
theorem Manager.stop_cases (defs : Definitions) (answer : Answer) (m : Manager) (name : String) :
    (defs.get name = none ∧ (m.stop defs answer name).1 = m) ∨
    (∃ d, defs.get name = some d) ∧
      ((m.stop defs answer name).1 = m.requestStop name ∧
          (m.live name = none ∨ answer.reaping.toOption.join = none) ∨
        ∃ pid code, m.live name = some pid ∧ answer.reaping = .ok (some code) ∧
          (m.stop defs answer name).1 = (m.requestStop name).childExit pid code) := by
  unfold Manager.stop
  cases hd : defs.get name with
  | none => exact .inl ⟨rfl, rfl⟩
  | some d =>
    refine .inr ⟨⟨d, rfl⟩, ?_⟩
    cases hlive : m.live name with
    | none => exact .inl ⟨rfl, .inl rfl⟩
    | some pid =>
      rcases hreap : answer.reaping with e | _ | code
      · exact .inl ⟨rfl, .inr rfl⟩
      · exact .inl ⟨rfl, .inr rfl⟩
      · exact .inr ⟨pid, code, rfl, rfl, rfl⟩

theorem raises_status {defs : Definitions} {m : Manager} {name : String} {d : PipelineDefinition}
    (h : defs.get name = some d) : raises (m.status defs name) = false := by
  unfold Manager.status
  rw [h]
  rfl

/-- A `stop` whose child can be terminated returns. -/
theorem raises_stop {defs : Definitions} {answer : Answer} {m : Manager} {name : String}
    {d : PipelineDefinition} {ending : Option Int} (hget : defs.get name = some d)
    (hreap : answer.reaping = .ok ending) : raises (m.stop defs answer name).2 = false := by
  unfold Manager.stop
  rw [hget, hreap]
  cases m.live name with
  | none => exact raises_status hget
  | some pid =>
    cases ending with
    | none => exact raises_status hget
    | some code => exact raises_status hget

end PipeWorks.Plumber
