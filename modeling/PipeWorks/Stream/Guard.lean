import Mathlib.Data.List.Basic
import PipeWorks.Lib.Handles
import PipeWorks.Lib.Positions
import PipeWorks.Lib.StepSystem
import PipeWorks.Python.Exception
import PipeWorks.Python.Utf8

/-!
# One run for each identifier (`stream/guard.py`, `main` of `stream/cli.py`)

A stream process creates a mutex under a name made of its identifier, and runs only if the mutex
has not been there before.  `System` is all stream processes of a machine with the named mutexes of
the kernel: a process may be killed at every point, which closes its handle.  The thread of the
video pipeline is no daemon and `Pipeline.stop` waits a second for it, so that a process may go on
when `main` has closed the handle.

`processes_guarded`: along every run no two processes of one session are in `StreamProcess().run`
under one identifier, a process is turned away only while another one has the mutex open, and
nothing is left of a mutex when `main` is over in the processes of its name, however it has ended.
-/

set_option autoImplicit false

namespace PipeWorks.Stream.Guard

open StepSystem PipeWorks.Python

def ERROR_ALREADY_EXISTS : Nat := 183

/-- How `main` ends. -/
inductive Outcome where
  /-- `process_id.encode` raises -/
  | unicodeEncodeError
  /-- `ctypes.WinError(code)` -/
  | winError (code : Nat)
  | duplicateProcessError
  /-- `StreamProcess().run` has returned or raised -/
  | left
  | killed
  deriving DecidableEq, Repr

inductive Phase where
  /-- before `acquire_process_mutex` -/
  | started
  /-- `CreateMutexW` has returned a handle, with this last error -/
  | created (lastError : Nat)
  /-- in `StreamProcess().run` -/
  | running
  /-- `main` has closed its handle; the thread of the pipeline may still be there -/
  | lingering
  | ended (outcome : Outcome)
  deriving DecidableEq, Repr

structure Process where
  /-- the session whose `Local` namespace it sees -/
  session : Nat
  processId : PyStr
  phase : Phase
  /-- history: a process that had the mutex open when this one asked for it -/
  rival : Option Nat
  deriving DecidableEq, Repr

/-- The name of a mutex in a session. -/
abbrev Name := Nat × PyStr

section

-- `hashlib.sha256(..).hexdigest()`
variable (hexdigest : List Nat → PyStr)

/-- The mutex of a process; `none` if its identifier cannot be encoded. -/
def Process.mutexName (p : Process) : Option Name :=
  (encodeUtf8 p.processId).map fun bytes =>
    (p.session, pyStr "Local\\pipe-works-stream-" ++ hexdigest bytes)

/-- The mutex that a process has a handle to. -/
def Process.handle (p : Process) : Option Name :=
  match p.phase with
  | .created _ | .running => p.mutexName hexdigest
  | .started | .lingering | .ended _ => none

structure System where
  processes : List Process
  /-- the open handles of each mutex -/
  mutexes : Name → Nat

def System.init : System := ⟨[], fun _ => 0⟩

inductive Label where
  | launch (session : Nat) (processId : PyStr)
  /-- `CreateMutexW`, which may fail -/
  | createMutex (i : Nat) (fails : Option Nat)
  /-- from `get_last_error` to the end of `acquire_process_mutex` -/
  | check (i : Nat)
  /-- `run` is over, and `main` closes its handle -/
  | leave (i : Nat)
  /-- the last thread of the process is over -/
  | exit (i : Nat)
  /-- the process ends at any point, and the kernel closes its handle -/
  | kill (i : Nat)
  deriving DecidableEq, Repr

def System.set (s : System) (i : Nat) (p : Process) (phase : Phase) (mutexes : Name → Nat) :
    System :=
  { processes := s.processes.set i { p with phase := phase }, mutexes := mutexes }

/-- `kernel32.CloseHandle`. -/
def closeHandle (mutexes : Name → Nat) : Option Name → Name → Nat
  | some name => Handles.closed mutexes name
  | none => mutexes

/-- `acquire_process_mutex`, up to the return of `CreateMutexW`. -/
def System.createMutex (s : System) (i : Nat) (p : Process) (fails : Option Nat) : System :=
  match p.mutexName hexdigest, fails with
  | none, _ => s.set i p (.ended .unicodeEncodeError) s.mutexes
  | some _, some code => s.set i p (.ended (.winError code)) s.mutexes
  | some name, none =>
    let lastError := if 0 < s.mutexes name then ERROR_ALREADY_EXISTS else 0
    let rival := s.processes.findIdx? fun q => q.handle hexdigest = some name
    s.set i { p with rival := rival } (.created lastError) (Handles.opened s.mutexes name)

def step (s : System) : Label → Option System
  | .launch session processId =>
    some { s with processes := s.processes ++ [⟨session, processId, .started, none⟩] }
  | .createMutex i fails => do
    let p ← s.processes[i]?
    if p.phase = .started then some (s.createMutex hexdigest i p fails) else none
  | .check i => do
    let p ← s.processes[i]?
    match p.phase with
    | .created lastError =>
      if lastError = ERROR_ALREADY_EXISTS then
        some (s.set i p (.ended .duplicateProcessError)
          (closeHandle s.mutexes (p.handle hexdigest)))
      else some (s.set i p .running s.mutexes)
    | _ => none
  | .leave i => do
    let p ← s.processes[i]?
    if p.phase = .running then
      some (s.set i p .lingering (closeHandle s.mutexes (p.handle hexdigest)))
    else none
  | .exit i => do
    let p ← s.processes[i]?
    if p.phase = .lingering then some (s.set i p (.ended .left) s.mutexes) else none
  | .kill i => do
    let p ← s.processes[i]?
    match p.phase with
    | .ended _ => none
    | _ => some (s.set i p (.ended .killed) (closeHandle s.mutexes (p.handle hexdigest)))

end

variable {hexdigest : List Nat → PyStr} {s t : System} {l : Label} {p p' q : Process}
  {name : Name} {mutexes : Name → Nat} {i : Nat}

/-- `main` is over. -/
def Phase.Over : Phase → Prop
  | .lingering | .ended _ => True
  | _ => False

/-- `CreateMutexW` has returned a handle, and it is not closed. -/
def Process.Inside (p : Process) : Prop := (∃ e, p.phase = .created e) ∨ p.phase = .running

theorem handle_eq_some : p.handle hexdigest = some name ↔
    p.Inside ∧ p.mutexName hexdigest = some name := by
  unfold Process.handle Process.Inside
  cases p.phase with
  | started => simp
  | created e => simp
  | running => simp
  | lingering => simp
  | ended outcome => simp

theorem not_inside_of_over (h : p.phase.Over) : ¬ p.Inside := by
  rintro (⟨e, he⟩ | he) <;> rw [he] at h <;> exact h

/-! ## Everything a step can do -/

/-- What a step makes of the process at a position, and of the mutexes. -/
inductive Moves (hexdigest : List Nat → PyStr) (s : System) (p : Process) :
    Process → (Name → Nat) → Prop where
  | opens (name : Name) (hstarted : p.phase = .started)
      (hname : p.mutexName hexdigest = some name) :
      Moves hexdigest s p
        { p with
          phase := .created (if 0 < s.mutexes name then ERROR_ALREADY_EXISTS else 0)
          rival := s.processes.findIdx? fun q => q.handle hexdigest = some name }
        (Handles.opened s.mutexes name)
  | enters (lastError : Nat) (hphase : p.phase = .created lastError)
      (hnew : lastError ≠ ERROR_ALREADY_EXISTS) :
      Moves hexdigest s p { p with phase := .running } s.mutexes
  | ends (phase : Phase) (hover : phase.Over) (hduplicate : phase = .ended .duplicateProcessError →
        p.phase = .created ERROR_ALREADY_EXISTS) :
      Moves hexdigest s p { p with phase := phase } (closeHandle s.mutexes (p.handle hexdigest))

theorem closeHandle_of_not_inside (hexdigest : List Nat → PyStr) (mutexes : Name → Nat)
    (h : ¬ p.Inside) : closeHandle mutexes (p.handle hexdigest) = mutexes := by
  cases hhandle : p.handle hexdigest with
  | none => rfl
  | some name => exact absurd (handle_eq_some.1 hhandle).1 h

theorem moves_of_step (h : step hexdigest s l = some t) :
    (∃ session processId, t =
      { s with processes := s.processes ++ [⟨session, processId, .started, none⟩] }) ∨
    ∃ i p p' mutexes, s.processes[i]? = some p ∧ Moves hexdigest s p p' mutexes ∧
      t = ⟨s.processes.set i p', mutexes⟩ := by
  cases l with
  | launch session processId =>
    cases h
    exact .inl ⟨session, processId, rfl⟩
  | createMutex i fails =>
    right
    obtain ⟨p, hp, h⟩ := Option.bind_eq_some_iff.1 h
    split at h
    · rename_i hstarted
      cases h
      have hclose := closeHandle_of_not_inside hexdigest s.mutexes (p := p) <| by
        rintro (⟨e, he⟩ | he) <;> rw [hstarted] at he <;> cases he
      unfold System.createMutex
      split
      · exact ⟨i, p, _, _, hp, .ends (.ended .unicodeEncodeError) trivial nofun,
          by rw [hclose]; rfl⟩
      · exact ⟨i, p, _, _, hp, .ends (.ended (.winError _)) trivial nofun, by rw [hclose]; rfl⟩
      · rename_i name hname
        exact ⟨i, p, _, _, hp, .opens name hstarted hname, rfl⟩
    · cases h
  | check i =>
    right
    obtain ⟨p, hp, h⟩ := Option.bind_eq_some_iff.1 h
    split at h
    · rename_i lastError hphase
      split at h
      · rename_i hexists
        cases h
        exact ⟨i, p, _, _, hp, .ends (.ended .duplicateProcessError) trivial
          fun _ => hexists ▸ hphase, rfl⟩
      · rename_i hnew
        cases h
        exact ⟨i, p, _, _, hp, .enters lastError hphase hnew, rfl⟩
    · cases h
  | leave i =>
    right
    obtain ⟨p, hp, h⟩ := Option.bind_eq_some_iff.1 h
    split at h
    · cases h
      exact ⟨i, p, _, _, hp, .ends .lingering trivial nofun, rfl⟩
    · cases h
  | exit i =>
    right
    obtain ⟨p, hp, h⟩ := Option.bind_eq_some_iff.1 h
    split at h
    · rename_i hlingering
      cases h
      have hclose := closeHandle_of_not_inside hexdigest s.mutexes
        (not_inside_of_over (p := p) (by rw [hlingering]; trivial))
      exact ⟨i, p, _, _, hp, .ends (.ended .left) trivial nofun, by rw [hclose]; rfl⟩
    · cases h
  | kill i =>
    right
    obtain ⟨p, hp, h⟩ := Option.bind_eq_some_iff.1 h
    split at h
    · cases h
    · cases h
      exact ⟨i, p, _, _, hp, .ends (.ended .killed) trivial nofun, rfl⟩

theorem Moves.mutexName (h : Moves hexdigest s p p' mutexes) :
    p'.mutexName hexdigest = p.mutexName hexdigest := by
  cases h <;> rfl

/-! ## The invariant -/

/-- The process has created the mutex, and not closed it. -/
def Process.Owns (hexdigest : List Nat → PyStr) (name : Name) (p : Process) : Prop :=
  ((∃ e, p.phase = .created e ∧ e ≠ ERROR_ALREADY_EXISTS) ∨ p.phase = .running) ∧
    p.mutexName hexdigest = some name

def Process.TurnedAway (p : Process) : Prop :=
  p.phase = .created ERROR_ALREADY_EXISTS ∨ p.phase = .ended .duplicateProcessError

/-- The process at `i` had a rival for its mutex. -/
def System.Contested (hexdigest : List Nat → PyStr) (s : System) (i : Nat) (p : Process) : Prop :=
  ∃ j q, p.rival = some j ∧ j ≠ i ∧ s.processes[j]? = some q ∧
    q.mutexName hexdigest = p.mutexName hexdigest

structure Inv (hexdigest : List Nat → PyStr) (s : System) : Prop where
  counts : Handles.Counts (Process.handle hexdigest) s.mutexes s.processes
  owner : ∀ (name : Name) (i j : Nat) (p q : Process), s.processes[i]? = some p →
    s.processes[j]? = some q → p.Owns hexdigest name → q.Owns hexdigest name → i = j
  named : ∀ p ∈ s.processes, p.Inside → ∃ name, p.mutexName hexdigest = some name
  contested : ∀ (i : Nat) (p : Process),
    s.processes[i]? = some p → p.TurnedAway → s.Contested hexdigest i p

theorem Process.Owns.handle (h : p.Owns hexdigest name) : p.handle hexdigest = some name := by
  obtain ⟨hphase, hname⟩ := h
  exact handle_eq_some.2 ⟨hphase.imp_left fun ⟨e, he, _⟩ => ⟨e, he⟩, hname⟩

theorem inv_init : Inv hexdigest .init where
  counts := Handles.counts_nil
  owner := by
    intro name i j p q hp
    cases hp
  named := fun p hp => absurd hp List.not_mem_nil
  contested := by
    intro i p hp
    cases hp

/-- An owner has been one before, or the mutex has not been there. -/
theorem Moves.owns (h : Moves hexdigest s p p' mutexes) (howns : p'.Owns hexdigest name) :
    p.Owns hexdigest name ∨ s.mutexes name = 0 := by
  obtain ⟨hphase, hname⟩ := howns
  rw [h.mutexName] at hname
  cases h with
  | opens name' hstarted hname' =>
    right
    obtain rfl : name' = name := Option.some.inj (hname'.symm.trans hname)
    rcases hphase with ⟨e, he, hne⟩ | hrunning
    · injection he with he
      split at he
      · exact absurd he.symm hne
      · omega
    · cases hrunning
  | enters lastError hcreated hnew => exact .inl ⟨.inl ⟨lastError, hcreated, hnew⟩, hname⟩
  | ends phase hover hduplicate =>
    exact absurd (hphase.imp_left fun ⟨e, he, _⟩ => ⟨e, he⟩) (not_inside_of_over hover)

theorem Moves.named (h : Moves hexdigest s p p' mutexes)
    (hnamed : p.Inside → ∃ name, p.mutexName hexdigest = some name) (hinside : p'.Inside) :
    ∃ name, p'.mutexName hexdigest = some name := by
  rw [h.mutexName]
  cases h with
  | opens name hstarted hname => exact ⟨name, hname⟩
  | enters lastError hphase hnew => exact hnamed (.inl ⟨lastError, hphase⟩)
  | ends phase hover hduplicate => exact absurd hinside (not_inside_of_over hover)

theorem Moves.counts (h : Moves hexdigest s p p' mutexes) (hp : s.processes[i]? = some p)
    (hcounts : Handles.Counts (Process.handle hexdigest) s.mutexes s.processes) :
    Handles.Counts (Process.handle hexdigest) mutexes (s.processes.set i p') := by
  cases h with
  | opens name hstarted hname =>
    refine hcounts.opened hp ?_ hname
    unfold Process.handle
    rw [hstarted]
  | enters lastError hphase hnew =>
    refine hcounts.same hp ?_
    unfold Process.handle
    rw [hphase]
    rfl
  | ends phase hover hduplicate =>
    have hnone : Process.handle hexdigest { p with phase := phase } = none := by
      rw [Option.eq_none_iff_forall_ne_some]
      exact fun name hname => not_inside_of_over hover (handle_eq_some.1 hname).1
    cases hhandle : p.handle hexdigest with
    | none => exact hcounts.same hp (hnone.trans hhandle.symm)
    | some name => exact hcounts.closed hp hhandle hnone

/-- Rivals stay where they are. -/
theorem System.Contested.mono (h : s.Contested hexdigest i p)
    (hkept : ∀ (j : Nat) (q : Process), s.processes[j]? = some q →
      ∃ q', t.processes[j]? = some q' ∧ q'.mutexName hexdigest = q.mutexName hexdigest) :
    t.Contested hexdigest i p := by
  obtain ⟨j, q, hrival, hne, hq, hname⟩ := h
  obtain ⟨q', hq', hsame⟩ := hkept j q hq
  exact ⟨j, q', hrival, hne, hq', hsame.trans hname⟩

theorem launch_inv (h : Inv hexdigest s) (session : Nat) (processId : PyStr) :
    Inv hexdigest
      { s with processes := s.processes ++ [⟨session, processId, .started, none⟩] } := by
  have hold : ∀ {i : Nat} {p : Process}, p.phase ≠ .started →
      (s.processes ++ [⟨session, processId, .started, none⟩])[i]? = some p →
        s.processes[i]? = some p := by
    intro i p hphase hp
    rcases Positions.getElem?_concat_cases hp with hp | ⟨-, heq⟩
    · exact hp
    · exact absurd (congrArg Process.phase heq) hphase
  refine ⟨h.counts.append rfl, fun name i j p q hp hq hpo hqo => ?_, fun p hp hinside => ?_,
    fun i p hp haway => ?_⟩
  · have hnot : ∀ {p : Process}, p.Owns hexdigest name → p.phase ≠ .started := by
      rintro p ⟨⟨e, he, -⟩ | he, -⟩ hstarted
      · rw [hstarted] at he
        cases he
      · rw [hstarted] at he
        cases he
    exact h.owner name i j p q (hold (hnot hpo) hp) (hold (hnot hqo) hq) hpo hqo
  · rcases List.mem_append.1 hp with hp | hp
    · exact h.named p hp hinside
    · rw [List.mem_singleton.1 hp] at hinside
      rcases hinside with ⟨e, he⟩ | he <;> cases he
  · have hphase : p.phase ≠ .started := by
      rcases haway with haway | haway <;> rw [haway] <;> exact nofun
    exact (h.contested i p (hold hphase hp) haway).mono
      fun j q hq => ⟨q, Positions.getElem?_append_of_some hq, rfl⟩

/-- A process that has just found the mutex open, or is turned away. -/
theorem Moves.contested (h : Moves hexdigest s p p' mutexes) (hinv : Inv hexdigest s)
    (hp : s.processes[i]? = some p) (haway : p'.TurnedAway) : s.Contested hexdigest i p' := by
  cases h with
  | opens name hstarted hname =>
    have hopen : 0 < s.mutexes name := by
      rcases haway with haway | haway
      · injection haway with haway
        split at haway
        · assumption
        · cases haway
      · cases haway
    obtain ⟨q, hq, hhandle⟩ := hinv.counts.exists_iff.1 hopen
    obtain ⟨j, hj⟩ : ∃ j, s.processes.findIdx? (fun q => q.handle hexdigest = some name) =
        some j := by
      refine Option.isSome_iff_exists.1 ?_
      rw [List.findIdx?_isSome, List.any_eq_true]
      exact ⟨q, hq, decide_eq_true hhandle⟩
    obtain ⟨hlt, hfound, -⟩ := List.findIdx?_eq_some_iff_getElem.1 hj
    have hholds := of_decide_eq_true hfound
    refine ⟨j, _, hj, ?_, List.getElem?_eq_getElem hlt, ?_⟩
    · rintro rfl
      have hsame := Option.some.inj ((List.getElem?_eq_getElem hlt).symm.trans hp)
      rw [hsame, Process.handle, hstarted] at hholds
      cases hholds
    · exact (handle_eq_some.1 hholds).2.trans hname.symm
  | enters lastError hphase hnew => rcases haway with haway | haway <;> cases haway
  | ends phase hover hduplicate =>
    rcases haway with haway | haway
    · exact absurd (.inl ⟨_, haway⟩) (not_inside_of_over hover)
    · exact hinv.contested i p hp (.inl (hduplicate haway))

theorem move_inv (h : Inv hexdigest s) (hp : s.processes[i]? = some p)
    (hmove : Moves hexdigest s p p' mutexes) :
    Inv hexdigest ⟨s.processes.set i p', mutexes⟩ := by
  have hlt : i < s.processes.length := (List.getElem?_eq_some_iff.1 hp).1
  have hcases : ∀ {j : Nat} {q : Process}, (s.processes.set i p')[j]? = some q →
      j = i ∧ q = p' ∨ j ≠ i ∧ s.processes[j]? = some q :=
    fun hq => (Positions.getElem?_set_cases hq).symm
  have hkept : ∀ (j : Nat) (q : Process), s.processes[j]? = some q →
      ∃ q', (s.processes.set i p')[j]? = some q' ∧
        q'.mutexName hexdigest = q.mutexName hexdigest := by
    intro j q hq
    by_cases hj : j = i
    · subst hj
      obtain rfl := Option.some.inj (hp.symm.trans hq)
      exact ⟨p', List.getElem?_set_self hlt, hmove.mutexName⟩
    · exact ⟨q, (List.getElem?_set_ne (fun heq => hj heq.symm)).trans hq, rfl⟩
  -- the one that has moved, and another owner
  have hother : ∀ {name : Name} {j : Nat} {q : Process}, p'.Owns hexdigest name →
      s.processes[j]? = some q → q.Owns hexdigest name → i = j := by
    intro name j q hpo hq hqo
    rcases hmove.owns hpo with hbefore | hnone
    · exact h.owner name i j p q hp hq hbefore hqo
    · have hpos := h.counts.pos hq hqo.handle
      omega
  refine ⟨hmove.counts hp h.counts, fun name j k q r hq hr hqo hro => ?_,
    fun q hq hinside => ?_, fun j q hq haway => ?_⟩
  · rcases hcases hq with ⟨rfl, rfl⟩ | ⟨-, hqold⟩
    · rcases hcases hr with ⟨rfl, -⟩ | ⟨-, hrold⟩
      · rfl
      · exact hother hqo hrold hro
    · rcases hcases hr with ⟨rfl, rfl⟩ | ⟨-, hrold⟩
      · exact (hother hro hqold hqo).symm
      · exact h.owner name j k q r hqold hrold hqo hro
  · rcases List.mem_or_eq_of_mem_set hq with hq | rfl
    · exact h.named q hq hinside
    · exact hmove.named (h.named p (List.mem_of_getElem? hp)) hinside
  · rcases hcases hq with ⟨rfl, rfl⟩ | ⟨-, hq⟩
    · exact (hmove.contested h hp haway).mono hkept
    · exact (h.contested j q hq haway).mono hkept

theorem step_inv (h : Inv hexdigest s) (ht : step hexdigest s l = some t) : Inv hexdigest t := by
  rcases moves_of_step ht with ⟨session, processId, rfl⟩ | ⟨i, p, p', mutexes, hp, hmove, rfl⟩
  · exact launch_inv h session processId
  · exact move_inv h hp hmove

/-- What the mutexes are for. -/
structure Guarded (hexdigest : List Nat → PyStr) (s : System) : Prop where
  /-- no two processes are in `run` under one identifier in one session -/
  exclusive : ∀ (i j : Nat) (p q : Process), s.processes[i]? = some p →
    s.processes[j]? = some q → p.phase = .running → q.phase = .running →
      p.session = q.session → p.processId = q.processId → i = j
  /-- a process is turned away only if another one has had the mutex open when it asked -/
  turnedAway : ∀ (i : Nat) (p : Process), s.processes[i]? = some p →
    p.phase = .ended .duplicateProcessError → s.Contested hexdigest i p
  /-- a mutex goes with the last process whose `main` is not over -/
  free : ∀ name, (∀ p ∈ s.processes, p.mutexName hexdigest = some name →
    p.phase = .started ∨ p.phase.Over) → s.mutexes name = 0

theorem Inv.guarded (h : Inv hexdigest s) : Guarded hexdigest s where
  exclusive := by
    intro i j p q hp hq hpr hqr hsession hprocess
    obtain ⟨name, hname⟩ := h.named p (List.mem_of_getElem? hp) (.inr hpr)
    have hsame : q.mutexName hexdigest = p.mutexName hexdigest := by
      unfold Process.mutexName
      rw [hsession, hprocess]
    exact h.owner name i j p q hp hq ⟨.inr hpr, hname⟩ ⟨.inr hqr, hsame.trans hname⟩
  turnedAway := fun i p hp haway => h.contested i p hp (.inr haway)
  free := by
    intro name hover
    rcases Nat.eq_zero_or_pos (s.mutexes name) with hzero | hpos
    · exact hzero
    · obtain ⟨p, hp, hhandle⟩ := h.counts.exists_iff.1 hpos
      obtain ⟨hinside, hname⟩ := handle_eq_some.1 hhandle
      rcases hover p hp hname with hphase | hphase
      · rcases hinside with ⟨e, he⟩ | he <;> rw [hphase] at he <;> cases he
      · exact absurd hinside (not_inside_of_over hphase)

/-- **One process is in `run` for each identifier.**  However stream processes are launched,
whenever the kernel runs each of them and at whatever point they end, no two are in `run` under one
identifier in one session, none is turned away without a rival, and no mutex outlives the `main` of
its processes. -/
theorem processes_guarded (hexdigest : List Nat → PyStr) (labels : List Label) :
    Always (step hexdigest) (Guarded hexdigest) .init labels :=
  always_of_invariant (fun _ h => h.guarded) (fun _ _ _ h ht => step_inv h ht) inv_init

example : (run (step id) .init [.launch 1 (pyStr "camera"), .launch 1 (pyStr "camera"),
    .createMutex 0 none, .createMutex 1 none, .check 1, .check 0]).map
      (fun s => s.processes.map Process.phase) =
    some [.running, .ended .duplicateProcessError] := by decide

/-- A process may run while the pipeline of the one before it is not over. -/
example : (run (step id) .init [.launch 1 (pyStr "camera"), .createMutex 0 none, .check 0,
    .leave 0, .launch 1 (pyStr "camera"), .createMutex 1 none, .check 1]).map
      (fun s => s.processes.map Process.phase) = some [.lingering, .running] := by decide

end PipeWorks.Stream.Guard
