import PipeWorks.NvidiaPipe.LiveFiles

/-!
# The code that a reload runs (`LiveModel.refresh` and `load_module` of `nvidia_pipe/cli.py`)

`refresh` sees that its file has changed by the modification time in nanoseconds and the size.
`load_module` leaves the loading to `importlib`, which knows the bytecode of a file again by the
modification time in seconds and the size, both modulo `2 ^ 32`.

The machine is the one of `HotReload`, with any edits and with a history: what the file contained
when `refresh` looked at its revision, and what the installed module was compiled from.  A state
is `Current` if the two agree for every module that a refresh has installed.

* `reloads_current`: a run is `Current` throughout if its steps are `Compiled`: no edit brings
  back the revision that a refresh under way has observed, and no load finds bytecode of another
  content under the stamp of the file.  A load that does is followed by a state that is not
  `Current`, unless the file is edited before the second look;
* `editInSameSecond_not_current`: two edits of one size in one second.
-/

set_option autoImplicit false

namespace PipeWorks.NvidiaPipe.Reload

open StepSystem PipeWorks.Python
open HotReload (Source Revision Stamp Label)
open LiveFiles (Interpreter liveModel livePostprocess)

variable {κ μ α : Type}

/-! ## The machine -/

/-- A module that a refresh has put in the place of another one. -/
structure Installed (κ : Type) where
  /-- what the file contained when `refresh` looked at its revision, if it could -/
  observed : Option κ
  /-- what the module was compiled from -/
  compiled : κ
  deriving DecidableEq, Repr

structure State (κ μ α : Type) where
  file : HotReload.State κ μ α
  /-- history: what the file contained when the last `refresh` looked at its revision -/
  observed : Option κ
  /-- history: the content that the last load got -/
  compiled : κ
  /-- history: the modules that have been installed by a `refresh` -/
  installed : List (Installed κ)

def State.init (content : κ) (revision : Revision) (bytecode : Option (Stamp × κ)) :
    State κ μ α :=
  ⟨.init content revision bytecode, none, content, []⟩

/-- What a step of the watcher adds to the history. -/
def State.record (s : State κ μ α) (l : Label κ) (file : HotReload.State κ μ α) : State κ μ α :=
  match s.file.phase, l with
  | .idle _ _, .refresh ok =>
    { s with file := file, observed := if ok then some s.file.content else none }
  | .reading _ _ stamp, .read _ _ => { s with file := file, compiled := s.file.fetch stamp }
  | .checking _ observed _, .recheck ok =>
    if s.file.revision? ok = observed then
      { s with file := file, installed := s.installed ++ [⟨s.observed, s.compiled⟩] }
    else { s with file := file }
  | _, _ => { s with file := file }

/-- The file may be edited in any way at any time. -/
def step (src : Source κ μ α) (s : State κ μ α) : Label κ → Option (State κ μ α)
  | .edit content revision => some { s with file := s.file.edited content revision }
  | l => (HotReload.step src s.file l).map (s.record l)

/-! ## What is installed -/

/-- Every refresh that has installed a module has compiled it from the content whose revision it
has observed. -/
def Current (s : State κ μ α) : Prop :=
  ∀ m ∈ s.installed, ∀ c, m.observed = some c → m.compiled = c

/-- The bytecode that is kept, if it has the stamp of the file, was compiled from the file. -/
def State.Kept (s : State κ μ α) : Prop :=
  ∀ c, s.file.bytecode = some (s.file.revision.stamp, c) → c = s.file.content

/-- No edit brings back the revision that a refresh under way has observed. -/
def Novel (s : State κ μ α) (l : Label κ) : Prop :=
  match s.file.phase, l with
  | .loading _ observed, .edit _ revision | .reading _ observed _, .edit _ revision
  | .checking _ observed _, .edit _ revision => observed ≠ some revision
  | _, _ => True

/-- The load of a refresh which finds the file with the revision that has been observed, and looks
at its stamp, finds no bytecode of another content under it. -/
def Clean (s : State κ μ α) (l : Label κ) : Prop :=
  match s.file.phase, l with
  | .reading _ observed (some _), .read true _ => observed = some s.file.revision → s.Kept
  | _, _ => True

def Compiled (s : State κ μ α) (l : Label κ) : Prop := Novel s l ∧ Clean s l

/-! ## Steps -/

section

variable {src : Source κ μ α} {s t : State κ μ α} {l : Label κ}

theorem step_watcher (ht : step src s l = some t) (hl : ∀ c r, l ≠ .edit c r) :
    ∃ file, HotReload.step src s.file l = some file ∧ t = s.record l file := by
  cases l with
  | edit c r => exact absurd rfl (hl c r)
  | _ =>
    obtain ⟨file, hfile, rfl⟩ := Option.map_eq_some_iff.1 ht
    exact ⟨file, hfile, rfl⟩

/-- Where every edit changes the revision, the steps are those of `HotReload`. -/
theorem step_file (ht : step src s l = some t) (hl : ∀ c, l ≠ .edit c s.file.revision) :
    HotReload.step src s.file l = some t.file := by
  have hrecord : ∀ file, (s.record l file).file = file := by
    intro file
    unfold State.record
    split
    · rfl
    · rfl
    · split <;> rfl
    · rfl
  cases l with
  | edit c r =>
    cases ht
    have hr : r ≠ s.file.revision := by
      rintro rfl
      exact hl c rfl
    simp [HotReload.step, HotReload.State.edited, hr]
  | _ =>
    obtain ⟨file, hfile, rfl⟩ := step_watcher ht (by simp)
    rw [hrecord, hfile]

/-- What a step does. -/
inductive Moves (src : Source κ μ α) (s : State κ μ α) : Label κ → State κ μ α → Prop
  | edit (content : κ) (revision : Revision) :
      Moves src s (.edit content revision)
        { s with file := s.file.edited content revision }
  /-- `refresh` has seen another revision. -/
  | observe (ok : Bool) {u : α} {observed : Option Revision}
      (hp : s.file.phase = .idle u observed) :
      Moves src s (.refresh ok)
        { s with
          file := { s.file with phase := .loading u (s.file.revision? ok) }
          observed := if ok then some s.file.content else none }
  | locate {l : Label κ} {u : α} {observed : Option Revision} {stamp : Option Stamp}
      (hp : s.file.phase = .loading u observed)
      (hstamp : stamp = none ∨ stamp = some s.file.revision.stamp) (hl : ∀ c r, l ≠ .edit c r) :
      Moves src s l { s with file := { s.file with phase := .reading u observed stamp } }
  | load (caches : Bool) {u : α} {observed : Option Revision} {stamp : Option Stamp} (m : μ)
      (hp : s.file.phase = .reading u observed stamp) :
      Moves src s (.read true caches)
        { s with
          file := { s.file with
            bytecode := s.file.keep src stamp caches
            phase := .checking u observed m }
          compiled := s.file.fetch stamp }
  | install (ok : Bool) {u : α} {observed : Option Revision} {m : μ} {file : HotReload.State κ μ α}
      (hp : s.file.phase = .checking u observed m) (hrevision : s.file.revision? ok = observed)
      (hfile : file.pending = 0) :
      Moves src s (.recheck ok)
        { s with file := file, installed := s.installed ++ [⟨s.observed, s.compiled⟩] }
  /-- Startup, or the end of a `refresh` that installs nothing. -/
  | rest {l : Label κ} {t : State κ μ α} (hfile : t.file.pending = 0)
      (hinstalled : t.installed = s.installed) (hl : ∀ c r, l ≠ .edit c r)
      (hrecheck : ∀ u m, s.file.phase = .checking u (some s.file.revision) m → l ≠ .recheck true) :
      Moves src s l t

theorem record_read {u : α} {observed : Option Revision} {stamp : Option Stamp} {ok caches : Bool}
    {file : HotReload.State κ μ α} (hp : s.file.phase = .reading u observed stamp) :
    s.record (.read ok caches) file =
      { s with file := file, compiled := s.file.fetch stamp } := by
  simp only [State.record, hp]

theorem step_moves (ht : step src s l = some t) : Moves src s l t := by
  cases l with
  | edit c r =>
    cases ht
    exact .edit c r
  | locate ok =>
    obtain ⟨file, hfile, rfl⟩ := step_watcher ht (by simp)
    obtain ⟨hp, rfl⟩ | ⟨u, observed, hp, rfl⟩ := HotReload.step_locate hfile <;>
      simp only [State.record, hp]
    · refine .rest ?_ rfl (by simp) (by simp [hp])
      cases ok <;> rfl
    · cases ok
      · exact .rest rfl rfl (by simp) (by simp [hp])
      · exact .locate hp (.inr rfl) (by simp)
  | locateBare =>
    obtain ⟨file, hfile, rfl⟩ := step_watcher ht (by simp)
    obtain ⟨hp, rfl⟩ | ⟨u, observed, hp, rfl⟩ := HotReload.step_locateBare hfile <;>
      simp only [State.record, hp]
    · exact .rest rfl rfl (by simp) (by simp [hp])
    · exact .locate hp (.inl rfl) (by simp)
  | read ok caches =>
    obtain ⟨file, hfile, rfl⟩ := step_watcher ht (by simp)
    obtain ⟨stamp, hp, rfl | ⟨u, -, rfl⟩⟩ | ⟨u, observed, stamp, hp, rfl⟩ :=
      HotReload.step_read hfile
    · simp only [State.record, hp]
      exact .rest rfl rfl (by simp) (by simp [hp])
    · simp only [State.record, hp]
      exact .rest rfl rfl (by simp) (by simp [hp])
    · rw [record_read hp]
      cases ok with
      | false => exact .rest rfl rfl (by simp) (by simp [hp])
      | true =>
        rw [if_pos rfl]
        cases src.load (s.file.fetch stamp) with
        | error e => exact .rest rfl rfl (by simp) (by simp [hp])
        | ok m =>
          unfold HotReload.State.onLoaded
          dsimp only
          split
          · exact .load caches m hp
          · exact .rest rfl rfl (by simp) (by simp [hp])
  | construct ok =>
    obtain ⟨file, hfile, rfl⟩ := step_watcher ht (by simp)
    obtain ⟨u, hp, rfl⟩ := HotReload.step_construct hfile
    simp only [State.record, hp]
    exact .rest rfl rfl (by simp) (by simp [hp])
  | refresh ok =>
    obtain ⟨file, hfile, rfl⟩ := step_watcher ht (by simp)
    obtain ⟨u, observed, hp, ⟨-, rfl⟩ | rfl⟩ := HotReload.step_refresh hfile <;>
      simp only [State.record, hp]
    · exact .rest rfl rfl (by simp) (by simp [hp])
    · exact .observe ok hp
  | recheck ok =>
    obtain ⟨file, hfile, rfl⟩ := step_watcher ht (by simp)
    obtain ⟨u, observed, m, hp, ⟨hrevision, rfl⟩ | ⟨hrevision, rfl⟩⟩ :=
      HotReload.step_recheck hfile <;> simp only [State.record, hp]
    · rw [if_pos hrevision]
      exact .install ok hp hrevision rfl
    · rw [if_neg hrevision]
      refine .rest rfl rfl (by simp) fun u' m' hp' hok => ?_
      rw [hp] at hp'
      cases hp'
      cases hok
      exact hrevision rfl

/-! ## The invariants -/

/-- What a refresh under way knows of the file it has looked at: nothing if it could not, and
what the file is if it has the revision that has been observed. -/
def State.Tracks (s : State κ μ α) (observed : Option Revision) : Prop :=
  (observed = none → s.observed = none) ∧
    (observed = some s.file.revision → s.observed = some s.file.content)

/-- The refresh under way is on the track of the file as it is. -/
def OnTrack (s : State κ μ α) : Prop :=
  match s.file.phase with
  | .loading _ observed | .checking _ observed _ => s.Tracks observed
  | .reading _ observed stamp =>
    s.Tracks observed ∧
      (observed = some s.file.revision → stamp = none ∨ stamp = some s.file.revision.stamp)
  | _ => True

/-- What a refresh is about to install was compiled from the file as it is, if the second look
finds the revision that has been observed. -/
def Faithful (s : State κ μ α) : Prop :=
  match s.file.phase with
  | .checking _ observed _ => observed = some s.file.revision → s.compiled = s.file.content
  | _ => True

theorem onTrack_of_pending (h : s.file.pending = 0) : OnTrack s := by
  unfold OnTrack
  unfold HotReload.State.pending at h
  split <;> simp_all

theorem faithful_of_pending (h : s.file.pending = 0) : Faithful s := by
  unfold Faithful
  unfold HotReload.State.pending at h
  split <;> simp_all

/-- An edit takes the file off the revision that has been observed. -/
theorem tracks_edited {observed : Option Revision} {c : κ} {r : Revision} (h : s.Tracks observed)
    (hne : observed ≠ some r) :
    State.Tracks ({ s with file := s.file.edited c r } : State κ μ α) observed :=
  ⟨h.1, fun hobserved => absurd hobserved hne⟩

theorem step_onTrack (h : OnTrack s) (hl : Novel s l) (ht : step src s l = some t) :
    OnTrack t := by
  cases step_moves ht with
  | edit c r =>
    unfold OnTrack at h ⊢
    unfold Novel at hl
    cases hp : s.file.phase <;> simp only [HotReload.State.edited, hp] at h hl ⊢
    · exact tracks_edited h hl
    · exact ⟨tracks_edited h.1 hl, fun hobserved => absurd hobserved hl⟩
    · exact tracks_edited h hl
  | observe ok hp =>
    cases ok
    · exact ⟨fun _ => rfl, fun hobserved => (by cases hobserved)⟩
    · exact ⟨fun hnone => (by cases hnone), fun _ => rfl⟩
  | locate hp hstamp =>
    simp only [OnTrack, hp] at h
    exact ⟨h, fun _ => hstamp⟩
  | load caches m hp =>
    simp only [OnTrack, hp] at h
    exact h.1
  | install ok hp hrevision hfile => exact onTrack_of_pending hfile
  | rest hfile => exact onTrack_of_pending hfile

theorem fetch_none (s : HotReload.State κ μ α) : s.fetch none = s.content := by
  unfold HotReload.State.fetch
  split <;> rfl

/-- A load that finds the stamp of the file gets its content unless other bytecode is kept. -/
theorem fetch_stamp : s.file.fetch (some s.file.revision.stamp) = s.file.content ↔ s.Kept := by
  unfold State.Kept HotReload.State.fetch
  cases hbytecode : s.file.bytecode with
  | none => simp
  | some entry =>
    obtain ⟨kept, compiled⟩ := entry
    by_cases hkept : kept = s.file.revision.stamp <;> simp [hkept]

theorem step_faithful (h : OnTrack s) (hl : Compiled s l) (ht : step src s l = some t) :
    Faithful t := by
  obtain ⟨hnovel, hclean⟩ := hl
  cases step_moves ht with
  | edit c r =>
    unfold Faithful
    unfold Novel at hnovel
    cases hp : s.file.phase <;> simp only [HotReload.State.edited, hp] at hnovel ⊢
    exact fun hobserved => absurd hobserved hnovel
  | observe ok hp => exact trivial
  | locate hp => exact trivial
  | @load caches u observed stamp m hp =>
    intro hobserved
    simp only [OnTrack, hp] at h
    rcases h.2 hobserved with rfl | rfl
    · exact fetch_none s.file
    · simp only [Clean, hp] at hclean
      exact fetch_stamp.2 (hclean hobserved)
  | install ok hp hrevision hfile => exact faithful_of_pending hfile
  | rest hfile => exact faithful_of_pending hfile

theorem current_concat {m : Installed κ} (ht : t.installed = s.installed ++ [m]) :
    Current t ↔ Current s ∧ ∀ c, m.observed = some c → m.compiled = c := by
  simp [Current, ht, or_imp, forall_and]

theorem step_current (h : OnTrack s) (hfaithful : Faithful s) (hcurrent : Current s)
    (ht : step src s l = some t) : Current t := by
  cases step_moves ht with
  | @install ok u observed m file hp hrevision _ =>
    refine (current_concat rfl).2 ⟨hcurrent, fun c hc => ?_⟩
    simp only [OnTrack, Faithful, hp] at h hfaithful
    obtain ⟨hnone, htracks⟩ := h
    cases ok with
    | false =>
      rw [hnone hrevision.symm] at hc
      cases hc
    | true =>
      have hcontent : some s.file.content = some c := (htracks hrevision.symm).symm.trans hc
      calc s.compiled = s.file.content := hfaithful hrevision.symm
        _ = c := Option.some.inj hcontent
  | rest _ hinstalled =>
    unfold Current
    rw [hinstalled]
    exact hcurrent
  | _ => exact hcurrent

/-! ## Runs -/

variable {ls : List (Label κ)}

theorem current_of_compiled (h : OnTrack s) (hfaithful : Faithful s) (hcurrent : Current s)
    (hls : StepsMeet (step src) Compiled s ls) : Always (step src) Current s ls :=
  always_of_stepsMeet (I := fun s => OnTrack s ∧ Faithful s ∧ Current s) (fun _ h => h.2.2)
    (fun _ _ _ h hl ht => ⟨step_onTrack h.1 hl.1 ht, step_faithful h.1 hl ht,
      step_current h.1 h.2.1 h.2.2 ht⟩) ⟨h, hfaithful, hcurrent⟩ hls

theorem run_onTrack (h : OnTrack s) (hls : StepsMeet (step src) Novel s ls)
    (ht : run (step src) s ls = some t) : OnTrack t :=
  always_iff_runs.1 (always_of_stepsMeet (fun _ h => h)
    (fun _ _ _ h hl ht => step_onTrack h hl ht) h hls) ls t (List.prefix_refl ls) ht

/-- Bytecode of another content that has the stamp of the file is what the refresh installs. -/
theorem not_current_of_not_clean {caches : Bool} {m : μ} (hrechecks : src.rechecks = true)
    (h : OnTrack s) (hl : ¬ Clean s (.read true caches))
    (hm : src.load (s.file.fetch (some s.file.revision.stamp)) = .ok m) :
    ∃ t, run (step src) s [.read true caches, .recheck true] = some t ∧ ¬ Current t := by
  obtain ⟨u, stamp, hp, hkept⟩ : ∃ u stamp,
      s.file.phase = .reading u (some s.file.revision) (some stamp) ∧ ¬ s.Kept := by
    unfold Clean at hl
    split at hl
    · rename_i u observed stamp _ hp hread
      rw [Classical.not_imp] at hl
      exact ⟨u, stamp, hl.1 ▸ hp, hl.2⟩
    · exact absurd trivial hl
  simp only [OnTrack, hp] at h
  obtain ⟨⟨-, htracks⟩, hstamp⟩ := h
  obtain rfl : stamp = s.file.revision.stamp := by simpa using hstamp trivial
  have hobserved : s.observed = some s.file.content := htracks rfl
  have hstale : s.file.fetch (some s.file.revision.stamp) ≠ s.file.content :=
    fun hfetch => hkept (fetch_stamp.1 hfetch)
  obtain ⟨t, ht, hinstalled⟩ : ∃ t,
      run (step src) s [.read true caches, .recheck true] = some t ∧ t.installed =
        s.installed ++ [⟨s.observed, s.file.fetch (some s.file.revision.stamp)⟩] := by
    simp [run, step, HotReload.step, hp, hm, HotReload.State.onLoaded, hrechecks, State.record,
      HotReload.State.revision?]
  exact ⟨t, ht, fun hcurrent => hstale (((current_concat hinstalled).1 hcurrent).2 _ hobserved)⟩

end

section

variable {κ : Type} (python : Interpreter κ) (content : κ) (revision : Revision)
  (bytecode : Option (Stamp × κ)) (ls : List (Label κ))

/-- **A reload runs the code that is on disk** (`LiveModel`), if its steps are compiled from there;
and bytecode of another content under the stamp of the file is installed, unless the file is edited
before the second look. -/
theorem reloads_current :
    (StepsMeet (step (liveModel python)) Compiled (State.init content revision bytecode) ls →
      Always (step (liveModel python)) Current (State.init content revision bytecode) ls) ∧
    ∀ s caches m, StepsMeet (step (liveModel python)) Novel
        (State.init content revision bytecode) ls →
      run (step (liveModel python)) (State.init content revision bytecode) ls = some s →
      ¬ Clean s (.read true caches) →
      (liveModel python).load (s.file.fetch (some s.file.revision.stamp)) = .ok m →
        ∃ t, run (step (liveModel python)) s [.read true caches, .recheck true] = some t ∧
          ¬ Current t :=
  ⟨current_of_compiled trivial trivial (by simp [Current, State.init]),
    fun _ _ _ hnovel hrun =>
      not_current_of_not_clean rfl (run_onTrack (s := .init ..) trivial hnovel hrun)⟩

/-- `LivePostprocess`. -/
theorem postprocess_reloads_current
    (hls : StepsMeet (step (livePostprocess python)) Compiled
      (State.init content revision bytecode) ls) :
    Always (step (livePostprocess python)) Current (State.init content revision bytecode) ls :=
  current_of_compiled trivial trivial (by simp [Current, State.init]) hls

end

/-! ## Two edits of one size -/

/-- The start of a pipeline with version 14 of the model, last modified at 5 seconds. -/
def atStart : State Nat (Nat × Nat) (Nat × Bool) := State.init 14 ⟨5000000000, 90⟩ none

/-- The model is loaded at startup, replaced by version 28 of the same size, and refreshed. -/
def editAt (mtimeNs : Int) : List (Label Nat) :=
  [.locate true, .read true true, .construct true, .edit 28 ⟨mtimeNs, 90⟩, .refresh true,
    .locate true, .read true true, .recheck true]

/-- One second later. -/
theorem editInNextSecond_current :
    Always (step (liveModel LiveFiles.versions)) Current atStart (editAt 6000000000) ∧
      (run (step (liveModel LiveFiles.versions)) atStart (editAt 6000000000)).map
        (fun s => s.installed) = some [⟨some 28, 28⟩] := by
  refine ⟨(reloads_current LiveFiles.versions 14 ⟨5000000000, 90⟩ none _).1 ?_, rfl⟩
  have hrest : True ∧ True := ⟨trivial, trivial⟩
  refine .cons hrest rfl <| .cons hrest rfl <| .cons hrest rfl <| .cons hrest rfl <|
    .cons hrest rfl <| .cons hrest rfl <| .cons ⟨trivial, ?_⟩ rfl <| .cons hrest rfl trivial
  -- the bytecode of the first load has the stamp of the second before
  intro _ c hc
  have hstamp : (⟨5, 90⟩ : Stamp) = ⟨6, 90⟩ := (Prod.mk.inj (Option.some.inj hc)).1
  cases hstamp

/-- Half a second later, the stamp is the same: the refresh observes version 28 and installs
version 14. -/
theorem editInSameSecond_not_current :
    StepsMeet (step (liveModel LiveFiles.versions)) Novel atStart (editAt 5500000000) ∧
      ¬ Always (step (liveModel LiveFiles.versions)) Current atStart (editAt 5500000000) := by
  constructor
  · exact .cons trivial rfl <| .cons trivial rfl <| .cons trivial rfl <| .cons trivial rfl <|
      .cons trivial rfl <| .cons trivial rfl <| .cons trivial rfl <| .cons trivial rfl trivial
  · intro h
    obtain ⟨s, hs⟩ : ∃ s, run (step (liveModel LiveFiles.versions)) atStart
      (editAt 5500000000) = some s := ⟨_, rfl⟩
    have hcurrent := always_iff_runs.1 h _ s (List.prefix_refl _) hs
    cases hs
    have hsame : 14 = 28 := hcurrent ⟨some 28, 14⟩ (List.mem_singleton.2 rfl) 28 rfl
    cases hsame

end PipeWorks.NvidiaPipe.Reload
