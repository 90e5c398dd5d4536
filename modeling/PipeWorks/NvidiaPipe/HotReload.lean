import PipeWorks.Lib.StepSystem
import PipeWorks.Python.Exception
import Mathlib.Algebra.Group.Int.Defs
import Mathlib.Algebra.Group.Nat.Defs

/-!
# A watched file (`LiveParameters`, `LiveModel` and `LivePostprocess` of `nvidia_pipe/cli.py`)

The three classes keep a value that they have taken from a file, and the revision of the file they
have looked at last.  They differ in what a load makes of the file and in whether they look at the
revision again before they replace the value: a `Source` says that.  `step` is the file and its
watcher, from the first load at startup on; edits and failing calls of the file system fall between
any two of its steps.

`importlib` keeps the bytecode of a module and runs it again when the file has the modification
time, in seconds, that the load had found when it compiled it, and the size of what it read then.

A state is `Fresh` if every refresh that begins after the file has come to rest returns what the
file gives.  `always_fresh`: in a run whose steps are all `Harmless`, every state is.
-/

set_option autoImplicit false

namespace PipeWorks.NvidiaPipe.HotReload

open StepSystem PipeWorks.Python

/-! ## The code -/

/-- `st_mtime_ns` and `st_size`. -/
structure Revision where
  mtimeNs : Int
  size : Nat
  deriving DecidableEq, Repr

/-- What bytecode remembers of the file it was compiled from. -/
structure Stamp where
  seconds : Int
  size : Nat
  deriving DecidableEq, Repr

/-- The seconds are those of the exact time, not of the `float` nearest to it. -/
def Revision.stamp (r : Revision) : Stamp :=
  ⟨r.mtimeNs / 1000000000 % 2 ^ 32, r.size % 2 ^ 32⟩

/-- What a watcher makes of the content of its file. -/
structure Source (κ μ α : Type) where
  /-- the load of `refresh` and its checks -/
  load : κ → Except PyError μ
  /-- the assignments that replace the value -/
  install : α → μ → α
  /-- the load at startup and the constructor; `none` if one of them raises -/
  start : κ → Option α
  /-- the `except` clause of `refresh` -/
  catches : PyError → Bool
  /-- `refresh` looks at the revision again after the load -/
  rechecks : Bool
  /-- the content is source that compiles, so that its bytecode is kept -/
  compiles : κ → Bool
  /-- the number of its bytes -/
  size : κ → Nat
  start_eq : ∀ c u m v, start c = some u → load c = .ok m → (∀ w, install w m = v) → u = v

variable {κ μ α : Type}

/-- What the watcher is doing. -/
inductive Phase (μ α : Type) where
  /-- nothing has been loaded yet -/
  | starting
  /-- the first load, which has found the file, with its stamp -/
  | startReading (stamp : Option Stamp)
  /-- loaded; the watcher has not been constructed yet -/
  | loaded (value : α)
  /-- startup has raised -/
  | ended
  | idle (value : α) (observed : Option Revision)
  /-- in `refresh`: the revision has changed and has been recorded -/
  | loading (value : α) (observed : Option Revision)
  | reading (value : α) (observed : Option Revision) (stamp : Option Stamp)
  /-- about to look at the revision again -/
  | checking (value : α) (observed : Option Revision) (candidate : μ)
  deriving DecidableEq, Repr

structure State (κ μ α : Type) where
  content : κ
  revision : Revision
  /-- the bytecode that is kept: its stamp and the content it was compiled from -/
  bytecode : Option (Stamp × κ)
  phase : Phase μ α
  /-- history: what the calls of `refresh` have returned or raised -/
  results : List (Except PyError α)

inductive Label (κ : Type) where
  | edit (content : κ) (revision : Revision)
  /-- a load finds the file, or fails -/
  | locate (ok : Bool)
  /-- it finds the file, but `importlib` cannot look at its stamp and passes bytecode over -/
  | locateBare
  /-- it reads the file or the bytecode, or fails; new bytecode is kept, or not -/
  | read (ok caches : Bool)
  /-- the constructor calls `_revision` -/
  | construct (ok : Bool)
  /-- `refresh` is called and calls `_revision` -/
  | refresh (ok : Bool)
  /-- `_revision` after the load -/
  | recheck (ok : Bool)
  deriving DecidableEq, Repr

def State.init (content : κ) (revision : Revision) (bytecode : Option (Stamp × κ)) :
    State κ μ α :=
  ⟨content, revision, bytecode, .starting, []⟩

/-- `_revision()`. -/
def State.revision? (s : State κ μ α) (ok : Bool) : Option Revision :=
  if ok then some s.revision else none

/-- The content that a load gets which has found the file with this stamp. -/
def State.fetch (s : State κ μ α) (stamp : Option Stamp) : κ :=
  match s.bytecode with
  | some (kept, compiled) => if some kept = stamp then compiled else s.content
  | none => s.content

/-- The bytecode after such a load: new bytecode gets the time of the stamp that has been found, and
the size of what has been read. -/
def State.keep (src : Source κ μ α) (s : State κ μ α) (stamp : Option Stamp) (caches : Bool) :
    Option (Stamp × κ) :=
  match stamp with
  | none => s.bytecode
  | some stamp =>
    if caches && src.compiles s.content && s.bytecode.map (·.1) != some stamp then
      some ({ stamp with size := src.size s.content % 2 ^ 32 }, s.content)
    else s.bytecode

/-- `refresh` returns or raises. -/
def State.finish (s : State κ μ α) (value : α) (observed : Option Revision)
    (result : Except PyError α) : State κ μ α :=
  { s with phase := .idle value observed, results := s.results ++ [result] }

/-- An exception in the `try` block of `refresh`. -/
def State.fail (src : Source κ μ α) (s : State κ μ α) (value : α) (observed : Option Revision)
    (e : PyError) : State κ μ α :=
  s.finish value observed (if src.catches e then .ok value else .error e)

/-- What `refresh` does with what it has loaded. -/
def State.onLoaded (src : Source κ μ α) (s : State κ μ α) (value : α)
    (observed : Option Revision) : Except PyError μ → State κ μ α
  | .error e => s.fail src value observed e
  | .ok candidate =>
    if src.rechecks then { s with phase := .checking value observed candidate }
    else s.finish (src.install value candidate) observed (.ok (src.install value candidate))

def step (src : Source κ μ α) (s : State κ μ α) (l : Label κ) : Option (State κ μ α) :=
  match s.phase, l with
  | _, .edit content revision =>
    if revision = s.revision then none
    else some { s with content := content, revision := revision }
  | .starting, .locate ok =>
    some { s with phase := if ok then .startReading (some s.revision.stamp) else .ended }
  | .starting, .locateBare => some { s with phase := .startReading none }
  | .startReading stamp, .read ok caches =>
    match ok, src.start (s.fetch stamp) with
    | true, some value =>
      some { s with bytecode := s.keep src stamp caches, phase := .loaded value }
    | _, _ => some { s with phase := .ended }
  | .loaded value, .construct ok => some { s with phase := .idle value (s.revision? ok) }
  | .idle value observed, .refresh ok =>
    if s.revision? ok = observed then some (s.finish value observed (.ok value))
    else some { s with phase := .loading value (s.revision? ok) }
  | .loading value observed, .locate ok =>
    if ok then some { s with phase := .reading value observed (some s.revision.stamp) }
    else some (s.fail src value observed .osError)
  | .loading value observed, .locateBare =>
    some { s with phase := .reading value observed none }
  | .reading value observed stamp, .read ok caches =>
    if ok then
      some ({ s with bytecode := s.keep src stamp caches }.onLoaded src value observed
        (src.load (s.fetch stamp)))
    else some (s.fail src value observed .osError)
  | .checking value observed candidate, .recheck ok =>
    if s.revision? ok = observed then
      some (s.finish (src.install value candidate) observed (.ok (src.install value candidate)))
    -- raise RuntimeError
    else some (s.fail src value observed .runtimeError)
  | _, _ => none

/-! ## Freshness -/

/-- A valid content, and the value it gives whatever value it replaces. -/
def Source.Gives (src : Source κ μ α) (c : κ) (v : α) : Prop :=
  ∃ m, src.load c = .ok m ∧ ∀ u, src.install u m = v

/-- The file is at rest and readable. -/
def Label.quiet : Label κ → Bool
  | .edit _ _ | .locateBare => false
  | .locate ok | .read ok _ | .construct ok | .refresh ok | .recheck ok => ok

/-- The number of calls of `refresh` that have begun and not returned. -/
def State.pending (s : State κ μ α) : Nat :=
  match s.phase with
  | .loading _ _ | .reading _ _ _ | .checking _ _ _ => 1
  | _ => 0

/-- If the file is valid and neither changes nor fails to be read from here on, every `refresh`
that begins from here on returns what the file gives. -/
def Fresh (src : Source κ μ α) (s : State κ μ α) : Prop :=
  ∀ v, src.Gives s.content v → ∀ ls t, (∀ l ∈ ls, l.quiet = true) → run (step src) s ls = some t →
    ∀ r ∈ t.results.drop (s.results.length + s.pending), r = .ok v

/-! ## Where an update is lost -/

/-- `value` is what the file gives, if it is valid. -/
def State.Holds (src : Source κ μ α) (s : State κ μ α) (value : α) : Prop :=
  ∀ v, src.Gives s.content v → value = v

/-- A load that has found the file with this stamp gets what the file gives, if it is valid. -/
def State.Loads (src : Source κ μ α) (s : State κ μ α) (stamp : Option Stamp) : Prop :=
  ∀ v, src.Gives s.content v → src.Gives (s.fetch stamp) v

/-- What has been recorded of the file as it is has been, or will be, taken from it as it is. -/
def Settled (src : Source κ μ α) (s : State κ μ α) : Prop :=
  s.Loads src (some s.revision.stamp) ∧
    match s.phase with
    | .startReading stamp => s.Loads src stamp
    | .loaded value => s.Holds src value
    | .idle value observed => observed = some s.revision → s.Holds src value
    | .reading _ observed stamp => observed = some s.revision → s.Loads src stamp
    | .checking value observed candidate =>
      observed = some s.revision → s.Holds src (src.install value candidate)
    | _ => True

def State.edited (s : State κ μ α) (content : κ) (revision : Revision) : State κ μ α :=
  { s with content := content, revision := revision }

/-- A failing call in `refresh`: the file is not the one whose revision has just been recorded, or
not valid, or the value is what it gives. -/
def HarmlessFailure (src : Source κ μ α) (s : State κ μ α) : Prop :=
  match s.phase with
  | .loading value observed | .reading value observed _ | .checking value observed _ =>
    observed = some s.revision → s.Holds src value
  | _ => True

/-- The steps that lose no update: no edit between the first load and the constructor, nor one
back to the revision that is on record, changes the value; no edit gives the file the stamp of
bytecode of another value; and no call fails after the revision of the file has been recorded. -/
def Harmless (src : Source κ μ α) (s : State κ μ α) : Label κ → Prop
  | .edit content revision =>
    (s.edited content revision).Loads src (some revision.stamp) ∧
      match s.phase with
      | .startReading stamp => (s.edited content revision).Loads src stamp
      | .loaded value => (s.edited content revision).Holds src value
      | .idle value observed =>
        observed = some revision → (s.edited content revision).Holds src value
      | .reading _ observed stamp =>
        observed = some revision → (s.edited content revision).Loads src stamp
      | .checking value observed candidate =>
        observed = some revision →
          (s.edited content revision).Holds src (src.install value candidate)
      | _ => True
  | .locate false | .read false _ | .recheck false => HarmlessFailure src s
  | _ => True

section

variable {src : Source κ μ α} {s t : State κ μ α}

theorem settled_init {c : κ} {r : Revision} {bytecode : Option (Stamp × κ)} :
    Settled src (State.init c r bytecode : State κ μ α) ↔
      (State.init c r bytecode : State κ μ α).Loads src (some r.stamp) := by
  simp [Settled, State.init]

/-- Reading the file itself is right. -/
theorem loads_none (s : State κ μ α) : s.Loads src none := by
  intro v hv
  have hfetch : s.fetch none = s.content := by
    unfold State.fetch
    split <;> simp
  rw [hfetch]
  exact hv

theorem holds_install {stamp : Option Stamp} {m : μ} (h : s.Loads src stamp)
    (hm : src.load (s.fetch stamp) = .ok m) (u : α) : s.Holds src (src.install u m) := by
  intro v hv
  obtain ⟨m', hm', hinstall⟩ := h v hv
  rw [hm] at hm'
  cases hm'
  exact hinstall u

theorem holds_start {stamp : Option Stamp} {u : α} (h : s.Loads src stamp)
    (hu : src.start (s.fetch stamp) = some u) : s.Holds src u := by
  intro v hv
  obtain ⟨m, hm, hinstall⟩ := h v hv
  exact src.start_eq _ u m v hu hm hinstall

theorem keep_cases (src : Source κ μ α) (s : State κ μ α) (read : Option Stamp) (caches : Bool) :
    s.keep src read caches = s.bytecode ∨
      ∃ kept, s.keep src read caches = some (kept, s.content) := by
  cases read with
  | none => exact .inl rfl
  | some read =>
    unfold State.keep
    dsimp only
    split
    · exact .inr ⟨_, rfl⟩
    · exact .inl rfl

/-- New bytecode is compiled from the file as it is. -/
theorem loads_keep {stamp : Option Stamp} (h : s.Loads src stamp) (read : Option Stamp)
    (caches : Bool) :
    State.Loads src ({ s with bytecode := s.keep src read caches } : State κ μ α) stamp := by
  rcases keep_cases src s read caches with hkeep | ⟨kept, hkeep⟩ <;> rw [hkeep]
  · exact h
  · intro v hv
    have hfetch : State.fetch ({ s with bytecode := some (kept, s.content) } : State κ μ α) stamp =
        s.content := by
      simp [State.fetch]
    rw [hfetch]
    exact hv

theorem settled_fail {u : α} {observed : Option Revision} {e : PyError}
    (h : s.Loads src (some s.revision.stamp)) (hu : observed = some s.revision → s.Holds src u) :
    Settled src (s.fail src u observed e) := ⟨h, hu⟩

/-- What has been loaded is what the file gives, if the revision on record is the file's. -/
theorem settled_onLoaded {u : α} {observed : Option Revision} {stamp : Option Stamp}
    (h : s.Loads src (some s.revision.stamp))
    (hread : observed = some s.revision → s.Loads src stamp) (caches : Bool) :
    Settled src (({ s with bytecode := s.keep src stamp caches } : State κ μ α).onLoaded src u
      observed (src.load (s.fetch stamp))) := by
  have hkept := loads_keep h stamp caches
  cases hm : src.load (s.fetch stamp) with
  | error e =>
    refine settled_fail hkept fun hobserved v hv => ?_
    obtain ⟨m, hm', _⟩ := hread hobserved v hv
    rw [hm] at hm'
    cases hm'
  | ok m =>
    have hinstall : observed = some s.revision → s.Holds src (src.install u m) :=
      fun hobserved => holds_install (hread hobserved) hm u
    unfold State.onLoaded
    dsimp only
    split
    · exact ⟨hkept, hinstall⟩
    · exact ⟨hkept, hinstall⟩

/-! ## Steps -/

section

-- `step` is unfolded in what each kind of step does, and nowhere else.
attribute [local simp] step

theorem step_edit {content : κ} {revision : Revision}
    (ht : step src s (.edit content revision) = some t) : t = s.edited content revision := by
  cases hp : s.phase <;> simp only [step, hp] at ht <;> split at ht <;> cases ht <;>
    simp [State.edited, hp]

theorem step_locate {ok : Bool} (ht : step src s (.locate ok) = some t) :
    (s.phase = .starting ∧
        t = { s with phase := if ok then .startReading (some s.revision.stamp) else .ended }) ∨
      ∃ u observed, s.phase = .loading u observed ∧
        t = if ok then { s with phase := .reading u observed (some s.revision.stamp) }
          else s.fail src u observed .osError := by
  cases hp : s.phase <;> simp only [step, hp, reduceCtorEq] at ht
  case starting =>
    cases ht
    exact .inl ⟨rfl, rfl⟩
  case loading u observed =>
    refine .inr ⟨u, observed, rfl, ?_⟩
    cases ok <;> exact (Option.some.inj ht).symm

theorem step_locateBare (ht : step src s .locateBare = some t) :
    (s.phase = .starting ∧ t = { s with phase := .startReading none }) ∨
      ∃ u observed, s.phase = .loading u observed ∧
        t = { s with phase := .reading u observed none } := by
  cases hp : s.phase <;> simp only [step, hp, reduceCtorEq] at ht <;> cases ht
  · exact .inl ⟨rfl, rfl⟩
  · exact .inr ⟨_, _, rfl, rfl⟩

theorem step_read {ok caches : Bool} (ht : step src s (.read ok caches) = some t) :
    (∃ stamp, s.phase = .startReading stamp ∧ (t = { s with phase := .ended } ∨
        ∃ u, src.start (s.fetch stamp) = some u ∧
          t = { s with bytecode := s.keep src stamp caches, phase := .loaded u })) ∨
      ∃ u observed stamp, s.phase = .reading u observed stamp ∧
        t = if ok then
            ({ s with bytecode := s.keep src stamp caches } : State κ μ α).onLoaded src u observed
              (src.load (s.fetch stamp))
          else s.fail src u observed .osError := by
  cases hp : s.phase <;> simp only [step, hp, reduceCtorEq] at ht
  case startReading stamp =>
    refine .inl ⟨stamp, rfl, ?_⟩
    split at ht <;> cases ht
    · rename_i u hu
      exact .inr ⟨u, hu, rfl⟩
    · exact .inl rfl
  case reading u observed stamp =>
    refine .inr ⟨u, observed, stamp, rfl, ?_⟩
    cases ok <;> exact (Option.some.inj ht).symm

theorem step_construct {ok : Bool} (ht : step src s (.construct ok) = some t) :
    ∃ u, s.phase = .loaded u ∧ t = { s with phase := .idle u (s.revision? ok) } := by
  cases hp : s.phase <;> simp only [step, hp, reduceCtorEq] at ht
  cases ht
  exact ⟨_, rfl, rfl⟩

theorem step_refresh {ok : Bool} (ht : step src s (.refresh ok) = some t) :
    ∃ u observed, s.phase = .idle u observed ∧
      ((s.revision? ok = observed ∧ t = s.finish u observed (.ok u)) ∨
        t = { s with phase := .loading u (s.revision? ok) }) := by
  cases hp : s.phase <;> simp only [step, hp, reduceCtorEq] at ht
  case idle u observed =>
  refine ⟨u, observed, rfl, ?_⟩
  split at ht <;> cases ht
  · rename_i hrevision
    exact .inl ⟨hrevision, rfl⟩
  · exact .inr rfl

theorem step_recheck {ok : Bool} (ht : step src s (.recheck ok) = some t) :
    ∃ u observed candidate, s.phase = .checking u observed candidate ∧
      ((s.revision? ok = observed ∧
          t = s.finish (src.install u candidate) observed (.ok (src.install u candidate))) ∨
        (s.revision? ok ≠ observed ∧ t = s.fail src u observed .runtimeError)) := by
  cases hp : s.phase <;> simp only [step, hp, reduceCtorEq] at ht
  case checking u observed candidate =>
  refine ⟨u, observed, candidate, rfl, ?_⟩
  split at ht <;> rename_i hrevision <;> cases ht
  · exact .inl ⟨hrevision, rfl⟩
  · exact .inr ⟨hrevision, rfl⟩

end

/-- The steps that lose no update keep the state settled. -/
theorem step_settled {l : Label κ} (h : Settled src s) (hl : Harmless src s l)
    (ht : step src s l = some t) : Settled src t := by
  obtain ⟨hstamp, hphase⟩ := h
  cases l with
  | edit content revision =>
    rw [step_edit ht]
    exact hl
  | locate ok =>
    obtain ⟨-, rfl⟩ | ⟨u, observed, hp, rfl⟩ := step_locate ht
    · cases ok
      · exact ⟨hstamp, trivial⟩
      · exact ⟨hstamp, hstamp⟩
    · cases ok with
      | false =>
        simp only [Harmless, HarmlessFailure, hp] at hl
        exact settled_fail hstamp hl
      | true => exact ⟨hstamp, fun _ => hstamp⟩
  | locateBare =>
    obtain ⟨-, rfl⟩ | ⟨u, observed, -, rfl⟩ := step_locateBare ht
    · exact ⟨hstamp, loads_none s⟩
    · exact ⟨hstamp, fun _ => loads_none s⟩
  | read ok caches =>
    obtain ⟨stamp, hp, rfl | ⟨u, hu, rfl⟩⟩ | ⟨u, observed, stamp, hp, rfl⟩ := step_read ht
    · exact ⟨hstamp, trivial⟩
    · simp only [hp] at hphase
      have hholds : s.Holds src u := holds_start hphase hu
      exact ⟨loads_keep hstamp stamp caches, hholds⟩
    · simp only [hp] at hphase
      cases ok with
      | false =>
        simp only [Harmless, HarmlessFailure, hp] at hl
        exact settled_fail hstamp hl
      | true => exact settled_onLoaded hstamp hphase caches
  | construct ok =>
    obtain ⟨u, hp, rfl⟩ := step_construct ht
    simp only [hp] at hphase
    exact ⟨hstamp, fun _ => hphase⟩
  | refresh ok =>
    obtain ⟨u, observed, hp, ⟨-, rfl⟩ | rfl⟩ := step_refresh ht
    · simp only [hp] at hphase
      exact ⟨hstamp, hphase⟩
    · exact ⟨hstamp, trivial⟩
  | recheck ok =>
    obtain ⟨u, observed, candidate, hp, ⟨-, rfl⟩ | ⟨hrevision, rfl⟩⟩ := step_recheck ht
    · simp only [hp] at hphase
      exact ⟨hstamp, hphase⟩
    · refine settled_fail hstamp fun hobserved => ?_
      cases ok with
      | false =>
        simp only [Harmless, HarmlessFailure, hp] at hl
        exact hl hobserved
      | true => exact absurd hobserved.symm hrevision

/-- The other steps do not. -/
theorem harmless_of_settled {l : Label κ} (ht : step src s l = some t) (h : Settled src t) :
    Harmless src s l := by
  have hphase := h.2
  cases l with
  | edit content revision =>
    rw [step_edit ht] at h
    exact h
  | locate ok =>
    cases ok with
    | true => trivial
    | false =>
      obtain ⟨hp, -⟩ | ⟨u, observed, hp, rfl⟩ := step_locate ht <;>
        simp only [Harmless, HarmlessFailure, hp]
      exact hphase
  | read ok caches =>
    cases ok with
    | true => trivial
    | false =>
      obtain ⟨stamp, hp, -⟩ | ⟨u, observed, stamp, hp, rfl⟩ := step_read ht <;>
        simp only [Harmless, HarmlessFailure, hp]
      exact hphase
  | recheck ok =>
    cases ok with
    | true => trivial
    | false =>
      obtain ⟨u, observed, candidate, hp, ⟨hrevision, -⟩ | ⟨-, rfl⟩⟩ := step_recheck ht <;>
        simp only [Harmless, HarmlessFailure, hp] <;> intro hobserved
      · rw [hobserved] at hrevision
        cases hrevision
      · exact hphase hobserved
  | locateBare | construct | refresh => trivial

/-! ## Runs -/

/-- A settled state in which all but the first `k` calls of `refresh` have returned what the file
gives, and the current one will if it is not one of them. -/
structure Returning (src : Source κ μ α) (v : α) (k : Nat) (s : State κ μ α) : Prop where
  gives : src.Gives s.content v
  settled : Settled src s
  results : ∀ r ∈ s.results.drop k, r = .ok v
  observed : k ≤ s.results.length →
    match s.phase with
    | .loading _ observed | .reading _ observed _ | .checking _ observed _ =>
      observed = some s.revision
    | _ => True

theorem returning_of_settled {v : α} (h : Settled src s) (hv : src.Gives s.content v) :
    Returning src v (s.results.length + s.pending) s := by
  have hdrop : s.results.drop (s.results.length + s.pending) = [] :=
    List.drop_eq_nil_of_le (by omega)
  refine ⟨hv, h, by simp [hdrop], fun hk => ?_⟩
  cases hp : s.phase with
  | loading | reading | checking =>
    simp only [State.pending, hp] at hk
    omega
  | _ => trivial

theorem harmless_of_quiet {l : Label κ} (hl : l.quiet = true) : Harmless src s l := by
  cases l <;> simp_all [Label.quiet, Harmless]

section

variable {v : α} {k : Nat} {l : Label κ} {u : α} {observed : Option Revision}

theorem mem_drop_concat {β : Type} {xs : List β} {x r : β} (h : r ∈ (xs ++ [x]).drop k) :
    r ∈ xs.drop k ∨ k ≤ xs.length ∧ r = x := by
  by_cases hk : k ≤ xs.length
  · rw [List.drop_append_of_le_length hk, List.mem_append, List.mem_singleton] at h
    exact h.imp id fun hr => ⟨hk, hr⟩
  · rw [List.drop_eq_nil_of_le (by simp; omega)] at h
    cases h

theorem returning_finish {result : Except PyError α} (hgives : src.Gives s.content v)
    (hresults : ∀ r ∈ s.results.drop k, r = .ok v)
    (hsettled : Settled src (s.finish u observed result))
    (hresult : k ≤ s.results.length → result = .ok v) :
    Returning src v k (s.finish u observed result) := by
  refine ⟨hgives, hsettled, fun r hr => ?_, fun _ => trivial⟩
  rcases mem_drop_concat hr with hr | ⟨hk, rfl⟩
  · exact hresults r hr
  · exact hresult hk

theorem Returning.onLoaded {stamp : Option Stamp} {caches : Bool} (h : Returning src v k s)
    (hread : k ≤ s.results.length → src.Gives (s.fetch stamp) v)
    (hobserved : k ≤ s.results.length → observed = some s.revision)
    (hsettled : Settled src (({ s with bytecode := s.keep src stamp caches } :
      State κ μ α).onLoaded src u observed (src.load (s.fetch stamp)))) :
    Returning src v k (({ s with bytecode := s.keep src stamp caches } :
      State κ μ α).onLoaded src u observed (src.load (s.fetch stamp))) := by
  cases hm : src.load (s.fetch stamp) with
  | error e =>
    rw [hm] at hsettled
    refine returning_finish h.gives h.results hsettled fun hk => ?_
    obtain ⟨m, hm', _⟩ := hread hk
    rw [hm] at hm'
    cases hm'
  | ok m =>
    rw [hm] at hsettled
    unfold State.onLoaded at hsettled ⊢
    dsimp only at hsettled ⊢
    by_cases hrechecks : src.rechecks = true
    · rw [if_pos hrechecks] at hsettled ⊢
      exact ⟨h.gives, hsettled, h.results, hobserved⟩
    · rw [if_neg hrechecks] at hsettled ⊢
      refine returning_finish h.gives h.results hsettled fun hk => ?_
      obtain ⟨m', hm', hinstall⟩ := hread hk
      rw [hm] at hm'
      cases hm'
      rw [hinstall]

theorem step_returning (h : Returning src v k s) (hl : l.quiet = true)
    (ht : step src s l = some t) : Returning src v k t := by
  have hsettled := step_settled h.settled (harmless_of_quiet hl) ht
  have hphase := h.settled.2
  have hobserved := h.observed
  cases l with
  | edit content revision => cases hl
  | locateBare => cases hl
  | locate ok =>
    cases hl
    obtain ⟨-, rfl⟩ | ⟨u, observed, hp, rfl⟩ := step_locate ht
    · exact ⟨h.gives, hsettled, h.results, fun _ => trivial⟩
    · simp only [hp] at hobserved
      exact ⟨h.gives, hsettled, h.results, hobserved⟩
  | read ok caches =>
    cases hl
    obtain ⟨stamp, -, rfl | ⟨u, -, rfl⟩⟩ | ⟨u, observed, stamp, hp, rfl⟩ := step_read ht
    · exact ⟨h.gives, hsettled, h.results, fun _ => trivial⟩
    · exact ⟨h.gives, hsettled, h.results, fun _ => trivial⟩
    · simp only [hp] at hphase hobserved
      exact h.onLoaded (fun hk => hphase (hobserved hk) v h.gives) hobserved hsettled
  | construct ok =>
    cases hl
    obtain ⟨u, -, rfl⟩ := step_construct ht
    exact ⟨h.gives, hsettled, h.results, fun _ => trivial⟩
  | refresh ok =>
    cases hl
    obtain ⟨u, observed, hp, ⟨hrevision, rfl⟩ | rfl⟩ := step_refresh ht
    · simp only [hp] at hphase
      exact returning_finish h.gives h.results hsettled fun _ =>
        congrArg _ (hphase hrevision.symm v h.gives)
    · exact ⟨h.gives, hsettled, h.results, fun _ => rfl⟩
  | recheck ok =>
    cases hl
    obtain ⟨u, observed, candidate, hp, ⟨hrevision, rfl⟩ | ⟨hrevision, rfl⟩⟩ := step_recheck ht
    · simp only [hp] at hphase
      exact returning_finish h.gives h.results hsettled fun _ =>
        congrArg _ (hphase hrevision.symm v h.gives)
    · simp only [hp] at hobserved
      exact returning_finish h.gives h.results hsettled fun hk =>
        absurd (hobserved hk).symm hrevision

end

theorem fresh_of_settled (h : Settled src s) : Fresh src s := by
  intro v hv ls t hls ht
  have hall : Always (step src) (Returning src v (s.results.length + s.pending)) s ls :=
    always_of_stepsMeet (C := fun _ l => l.quiet = true) (fun _ h => h)
      (fun _ _ _ h hl ht => step_returning h hl ht) (returning_of_settled h hv)
      (stepsMeet_of_forall_mem fun _ => hls)
  exact (always_iff_runs.1 hall ls t (List.prefix_refl ls) ht).results

/-- A run stays settled exactly if none of its steps loses an update. -/
theorem always_settled_iff {ls : List (Label κ)} (h : Settled src s) :
    Always (step src) (Settled src) s ls ↔ StepsMeet (step src) (Harmless src) s ls :=
  always_iff_stepsMeet (fun _ h => h) (fun _ _ _ h hl ht => step_settled h hl ht)
    (fun _ _ _ _ hl ht h => hl (harmless_of_settled ht h)) h

/-- In a run none of whose steps loses an update, every state is fresh. -/
theorem always_fresh {ls : List (Label κ)} (h : Settled src s)
    (hls : StepsMeet (step src) (Harmless src) s ls) : Always (step src) (Fresh src) s ls :=
  always_of_stepsMeet (fun _ => fresh_of_settled) (fun _ _ _ h hl ht => step_settled h hl ht) h hls

/-- A value that is not what the file gives stays, once the revision of the file is on record. -/
theorem not_fresh_of_idle {u v : α} (hs : s.phase = .idle u (some s.revision))
    (hv : src.Gives s.content v) (hne : u ≠ v) : ¬ Fresh src s := by
  intro h
  have hrun : run (step src) s [.refresh true] = some (s.finish u (some s.revision) (.ok u)) := by
    simp [run, step, hs, State.revision?]
  have hr := h v hv [.refresh true] _ (by simp [Label.quiet]) hrun (.ok u)
    (by simp [State.finish, State.pending, hs])
  cases hr
  exact hne rfl

theorem onLoaded_returns (src : Source κ μ α) (s : State κ μ α) (u : α) (r : Except PyError μ) :
    ∃ ls t, (∀ l ∈ ls, l.quiet = true) ∧
      run (step src) (s.onLoaded src u (some s.revision) r) ls = some t ∧
        t.results.length = s.results.length + 1 := by
  cases r with
  | error e => exact ⟨[], _, by simp, rfl, by simp [State.onLoaded, State.fail, State.finish]⟩
  | ok m =>
    by_cases hrechecks : src.rechecks = true
    · refine ⟨[.recheck true], s.finish (src.install u m) (some s.revision)
        (.ok (src.install u m)), by simp [Label.quiet], ?_, by simp [State.finish]⟩
      simp [State.onLoaded, hrechecks, run, step, State.revision?, State.finish]
    · refine ⟨[], _, by simp, rfl, ?_⟩
      simp [State.onLoaded, hrechecks, State.finish]

/-- A call of `refresh` on a file at rest returns. -/
theorem refresh_returns {u : α} {observed : Option Revision} (hs : s.phase = .idle u observed) :
    ∃ ls t, (∀ l ∈ ls, l.quiet = true) ∧ run (step src) s (.refresh true :: ls) = some t ∧
      t.results.length = s.results.length + 1 := by
  by_cases hrevision : s.revision? true = observed
  · refine ⟨[], s.finish u observed (.ok u), by simp, ?_, by simp [State.finish]⟩
    simp [run, step, hs, hrevision]
  · obtain ⟨ls, t, hls, ht, hlength⟩ := onLoaded_returns src
      ({ s with
        bytecode := s.keep src (some s.revision.stamp) false
        phase := .reading u (some s.revision) (some s.revision.stamp) } : State κ μ α)
      u (src.load (s.fetch (some s.revision.stamp)))
    refine ⟨.locate true :: .read true false :: ls, t, ?_, ?_, hlength⟩
    · simp only [List.mem_cons, forall_eq_or_imp]
      exact ⟨rfl, rfl, hls⟩
    · rw [← ht]
      simp only [run, step, hs, if_neg hrevision, Option.bind_some, if_true]
      rfl

end

end PipeWorks.NvidiaPipe.HotReload
