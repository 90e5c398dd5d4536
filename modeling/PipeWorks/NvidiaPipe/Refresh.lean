import PipeWorks.NvidiaPipe.LiveFiles

/-!
# What a `refresh` leaves behind (`LiveParameters`, `LiveModel`, `LivePostprocess`)

`refresh` is one call, whatever the file system and the loader do meanwhile: every one of its calls
may give anything or raise any exception (`Calls`).  A refresh of `HotReload`, whose steps
interleave with edits, is one of these calls (`run_refines`).

The classes promise that a refresh replaces the whole value or nothing, and that the value is always
one that has been validated.  `all_or_nothing_iff` says when they keep it.  `LiveModel` replaces its
module before it inspects the callback, and it takes over the first module as it is:
`inspection_leaves_half` and `uncallable_at_start` are two runs that break the promise.
-/

set_option autoImplicit false

namespace PipeWorks.NvidiaPipe.Refresh

open StepSystem PipeWorks.Python
open Config (Mapping)
open HotReload (Source Revision)
open LiveFiles

/-! ## The code -/

/-- What the calls of one `refresh` give. -/
structure Calls (κ : Type) where
  /-- `path.stat()` in the first `_revision` -/
  stat : Except PyError Revision
  /-- the content that the load gets at -/
  content : Except PyError κ
  /-- `path.stat()` in the second `_revision` -/
  statAgain : Except PyError Revision

structure Watched (α : Type) where
  value : α
  observed : Option Revision
  /-- history: the number of loads -/
  loads : Nat
  deriving DecidableEq, Repr

/-- `_revision`. -/
def revision? : Except PyError Revision → Except PyError (Option Revision)
  | .ok revision => .ok (some revision)
  | .error e => if e.caughtBy [.osError] then .ok none else .error e

section

variable {κ μ α : Type} (src : Source κ μ α)

/-- The `try` block of `refresh`: the value it leaves, or what it raises. -/
def attempt (value : α) (revision : Option Revision) (c : Calls κ) : Except PyError α :=
  match c.content with
  | .error e => .error e
  | .ok content =>
    match src.load content with
    | .error e => .error e
    | .ok candidate =>
      if src.rechecks then
        match revision? c.statAgain with
        | .error e => .error e
        | .ok again =>
          if again = revision then .ok (src.install value candidate)
          else .error .runtimeError
      else .ok (src.install value candidate)

/-- `refresh`, and what it returns or raises. -/
def refresh (s : Watched α) (c : Calls κ) : Watched α × Except PyError α :=
  match revision? c.stat with
  | .error e => (s, .error e)
  | .ok revision =>
    if revision = s.observed then (s, .ok s.value)
    else
      let s := { s with observed := revision, loads := s.loads + 1 }
      match attempt src s.value revision c with
      | .ok value => ({ s with value := value }, .ok value)
      | .error e => (s, if src.catches e then .ok s.value else .error e)

def step (s : Watched α) (c : Calls κ) : Option (Watched α) := some (refresh src s c).1

/-- The load at startup and the constructor. -/
def start? (content : κ) (stat : Except PyError Revision) : Option (Watched α) :=
  match src.start content, revision? stat with
  | some value, .ok observed => some ⟨value, observed, 0⟩
  | _, _ => none

/-! ## One call -/

variable {src} {s : Watched α} {c : Calls κ}

theorem attempt_eq_ok {value v : α} {revision : Option Revision}
    (h : attempt src value revision c = .ok v) :
    ∃ content candidate, c.content = .ok content ∧ src.load content = .ok candidate ∧
      (src.rechecks = true → revision? c.statAgain = .ok revision) ∧
      v = src.install value candidate := by
  unfold attempt at h
  cases hcontent : c.content with
  | error e => simp [hcontent] at h
  | ok content =>
    cases hload : src.load content with
    | error e => simp [hcontent, hload] at h
    | ok candidate =>
      refine ⟨content, candidate, rfl, hload, ?_⟩
      by_cases hrechecks : src.rechecks = true
      · cases hagain : revision? c.statAgain with
        | error e => simp [hcontent, hload, hrechecks, hagain] at h
        | ok again =>
          by_cases heq : again = revision
          · simp only [hcontent, hload, hrechecks, hagain, heq, if_true, Except.ok.injEq] at h
            exact ⟨fun _ => by rw [heq], h.symm⟩
          · simp [hcontent, hload, hrechecks, hagain, heq] at h
      · simp only [hcontent, hload, hrechecks, Bool.false_eq_true, if_false, Except.ok.injEq] at h
        exact ⟨fun h' => absurd h' hrechecks, h.symm⟩

/-- `refresh` gets as far as the assignments. -/
structure Installs (src : Source κ μ α) (s : Watched α) (c : Calls κ) (content : κ)
    (candidate : μ) : Prop where
  changed : ∃ revision, revision? c.stat = .ok revision ∧ revision ≠ s.observed ∧
    (src.rechecks = true → revision? c.statAgain = .ok revision)
  reads : c.content = .ok content
  loads : src.load content = .ok candidate

theorem Installs.refresh_eq {content : κ} {candidate : μ}
    (h : Installs src s c content candidate) :
    (refresh src s c).1.value = src.install s.value candidate := by
  obtain ⟨revision, hstat, hne, hagain⟩ := h.changed
  cases hrechecks : src.rechecks with
  | true => simp [refresh, attempt, hstat, hne, h.reads, h.loads, hrechecks, hagain hrechecks]
  | false => simp [refresh, attempt, hstat, hne, h.reads, h.loads, hrechecks]

/-- The value is replaced by what has been loaded, or stays. -/
theorem refresh_value (src : Source κ μ α) (s : Watched α) (c : Calls κ) :
    (refresh src s c).1.value = s.value ∨
      ∃ content candidate, Installs src s c content candidate := by
  unfold refresh
  cases hstat : revision? c.stat with
  | error e => exact .inl rfl
  | ok revision =>
    by_cases hrevision : revision = s.observed
    · exact .inl (by simp [hrevision])
    · cases hattempt : attempt src s.value revision c with
      | error e => exact .inl (by simp [hrevision, hattempt])
      | ok v =>
        obtain ⟨content, candidate, hcontent, hload, hagain, -⟩ := attempt_eq_ok hattempt
        exact .inr ⟨content, candidate, ⟨revision, hstat, hrevision, hagain⟩, hcontent, hload⟩

theorem refresh_unchanged (h : revision? c.stat = .ok s.observed) :
    refresh src s c = (s, .ok s.value) := by
  simp [refresh, h]

/-- What `refresh` returns is the active value. -/
theorem refresh_returns {v : α} (h : (refresh src s c).2 = .ok v) :
    (refresh src s c).1.value = v := by
  unfold refresh at h ⊢
  cases hstat : revision? c.stat with
  | error e => simp [hstat] at h
  | ok revision =>
    by_cases hrevision : revision = s.observed
    · simpa [hstat, hrevision] using h
    · cases hattempt : attempt src s.value revision c with
      | ok value => simpa [hstat, hrevision, hattempt] using h
      | error e =>
        by_cases hcatches : src.catches e = true <;>
          simp [hstat, hrevision, hattempt, hcatches] at h ⊢
        exact h

end

/-! ## The refreshes of `HotReload` -/

section

variable {κ μ α : Type} {src : Source κ μ α} {s t : HotReload.State κ μ α} {x : Watched α}

/-- A watcher of `HotReload` whose last refresh has left `x`. -/
def Tracks (src : Source κ μ α) (s : HotReload.State κ μ α) (x : Watched α) : Prop :=
  match s.phase with
  | .idle value observed => x.value = value ∧ x.observed = observed
  | .loading value observed | .reading value observed _ =>
    x.value = value ∧ observed ≠ x.observed
  | .checking value observed candidate =>
    x.value = value ∧ observed ≠ x.observed ∧ src.rechecks = true ∧
      ∃ content, src.load content = .ok candidate
  | _ => False

/-- A `_revision` that gives `observed`. -/
def statOf : Option Revision → Except PyError Revision
  | some revision => .ok revision
  | none => .error .osError

@[simp]
theorem revision_statOf (observed : Option Revision) :
    revision? (statOf observed) = .ok observed := by
  cases observed <;> rfl

/-- One step goes on with the refresh, or ends it with what `refresh` gives. -/
def Follows (src : Source κ μ α) (s t : HotReload.State κ μ α) (x : Watched α) : Prop :=
  (Tracks src t x ∧ t.results = s.results) ∨
    ∃ c, Tracks src t (refresh src x c).1 ∧ t.results = s.results ++ [(refresh src x c).2]

theorem follows_fail {value : α} {observed : Option Revision} {e : PyError} {c : Calls κ}
    (hvalue : x.value = value) (hobserved : observed ≠ x.observed)
    (hstat : c.stat = statOf observed) (hattempt : attempt src x.value observed c = .error e) :
    Follows src s (s.fail src value observed e) x := by
  subst hvalue
  refine .inr ⟨c, ?_, ?_⟩ <;>
    simp [refresh, hstat, hobserved, hattempt, HotReload.State.fail, HotReload.State.finish, Tracks]

theorem follows_install {value : α} {observed : Option Revision} {candidate : μ} {c : Calls κ}
    (hvalue : x.value = value) (hobserved : observed ≠ x.observed)
    (hstat : c.stat = statOf observed)
    (hattempt : attempt src x.value observed c = .ok (src.install value candidate)) :
    Follows src s (s.finish (src.install value candidate) observed
      (.ok (src.install value candidate))) x := by
  subst hvalue
  refine .inr ⟨c, ?_, ?_⟩ <;>
    simp [refresh, hstat, hobserved, hattempt, HotReload.State.finish, Tracks]

theorem follows_onLoaded {value : α} {observed : Option Revision} {content : κ}
    (hvalue : x.value = value) (hobserved : observed ≠ x.observed) :
    Follows src s (s.onLoaded src value observed (src.load content)) x := by
  cases hload : src.load content with
  | error e =>
    refine follows_fail (c := ⟨statOf observed, .ok content, statOf observed⟩) hvalue hobserved
      rfl ?_
    simp [attempt, hload]
  | ok candidate =>
    cases hrechecks : src.rechecks with
    | true =>
      simp only [HotReload.State.onLoaded, hrechecks, if_true]
      exact .inl ⟨⟨hvalue, hobserved, hrechecks, content, hload⟩, rfl⟩
    | false =>
      simp only [HotReload.State.onLoaded, hrechecks, Bool.false_eq_true, if_false]
      refine follows_install (c := ⟨statOf observed, .ok content, statOf observed⟩) hvalue
        hobserved rfl ?_
      simp [attempt, hload, hrechecks, hvalue]

theorem step_follows {l : HotReload.Label κ} (hx : Tracks src s x)
    (ht : HotReload.step src s l = some t) : Follows src s t x := by
  unfold Tracks at hx
  cases l with
  | edit content revision =>
    rw [HotReload.step_edit ht]
    exact .inl ⟨hx, rfl⟩
  | locate ok =>
    obtain ⟨hp, -⟩ | ⟨value, observed, hp, rfl⟩ := HotReload.step_locate ht <;>
      simp only [hp] at hx
    cases ok with
    | true => exact .inl ⟨hx, rfl⟩
    | false =>
      show Follows src s (s.fail src value observed .osError) x
      exact follows_fail (c := ⟨statOf observed, .error .osError, .error .osError⟩) hx.1 hx.2 rfl
        rfl
  | locateBare =>
    obtain ⟨hp, -⟩ | ⟨value, observed, hp, rfl⟩ := HotReload.step_locateBare ht <;>
      simp only [hp] at hx
    exact .inl ⟨hx, rfl⟩
  | read ok caches =>
    obtain ⟨stamp, hp, -⟩ | ⟨value, observed, stamp, hp, rfl⟩ := HotReload.step_read ht <;>
      simp only [hp] at hx
    cases ok with
    | true => exact follows_onLoaded hx.1 hx.2
    | false =>
      show Follows src s (s.fail src value observed .osError) x
      exact follows_fail (c := ⟨statOf observed, .error .osError, .error .osError⟩) hx.1 hx.2 rfl
        rfl
  | construct ok =>
    obtain ⟨value, hp, -⟩ := HotReload.step_construct ht
    simp only [hp] at hx
  | refresh ok =>
    cases hp : s.phase <;> simp only [HotReload.step, hp, reduceCtorEq] at ht
    simp only [hp] at hx
    obtain ⟨hvalue, hobserved⟩ := hx
    split at ht <;> rename_i hrevision <;> cases ht
    · refine .inr ⟨⟨statOf (s.revision? ok), .error .osError, .error .osError⟩, ?_⟩
      rw [refresh_unchanged (by rw [revision_statOf, hrevision, hobserved])]
      exact ⟨⟨hvalue, hobserved⟩, by rw [hvalue]; rfl⟩
    · exact .inl ⟨⟨hvalue, hobserved ▸ hrevision⟩, rfl⟩
  | recheck ok =>
    obtain ⟨value, observed, candidate, hp, h⟩ := HotReload.step_recheck ht
    simp only [hp] at hx
    obtain ⟨hvalue, hobserved, hrechecks, content, hload⟩ := hx
    obtain ⟨-, rfl⟩ | ⟨hne, rfl⟩ := h
    · refine follows_install (c := ⟨statOf observed, .ok content, statOf observed⟩) hvalue
        hobserved rfl ?_
      simp [attempt, hload, hrechecks, hvalue]
    · refine follows_fail (c := ⟨statOf observed, .ok content, statOf (s.revision? ok)⟩) hvalue
        hobserved rfl ?_
      simp [attempt, hload, hrechecks, hne]

/-- The calls of `refresh` in a run, and what they have returned, are those of `refresh` here. -/
theorem run_refines {ls : List (HotReload.Label κ)} (hx : Tracks src s x)
    (ht : run (HotReload.step src) s ls = some t) :
    ∃ cs y, run (step src) x cs = some y ∧ Tracks src t y ∧
      t.results.length = s.results.length + cs.length := by
  induction ls generalizing s x with
  | nil =>
    cases ht
    exact ⟨[], x, rfl, hx, rfl⟩
  | cons l ls ih =>
    obtain ⟨u, hu, ht⟩ := run_cons_eq_some.1 ht
    rcases step_follows hx hu with ⟨hux, hresults⟩ | ⟨c, hux, hresults⟩
    · rw [← hresults]
      exact ih hux ht
    · obtain ⟨cs, y, hcs, hy, hlength⟩ := ih hux ht
      refine ⟨c :: cs, y, run_cons_eq_some.2 ⟨_, rfl, hcs⟩, hy, ?_⟩
      rw [hlength, hresults]
      simp only [List.length_append, List.length_cons, List.length_nil]
      omega

end

/-! ## All or nothing -/

variable {κ : Type} (python : Interpreter κ)

/-- What is left of a module by a complete `refresh`. -/
def Complete : (w : Watcher) → Loaded python w → Value python w → Prop
  | .parameters, candidate, value => value = candidate
  | .model, candidate, value =>
    value.1 = candidate.1 ∧ callbackAcceptsParameters python candidate.2 = .ok value.2
  | .postprocess, candidate, value => value = candidate

/-- A value that has passed the validation of its class. -/
def Valid : (w : Watcher) → Value python w → Prop
  | .parameters, value => ∃ content, loadParameters python content = .ok value
  | .model, value =>
    ∃ content callback, python.execModule content = .ok value.1 ∧
      python.getattr value.1 "on_frame" = some callback ∧ python.callable callback = true ∧
      callbackAcceptsParameters python callback = .ok value.2
  | .postprocess, value => ∃ content, loadPostprocess python content = .ok value

/-- A call replaces the value by the whole of what it has loaded or leaves it, it returns the value
that is active then, and it loads nothing if the revision is the one on record. -/
structure AllOrNothing (w : Watcher) (s : Watched (Value python w)) (c : Calls κ) : Prop where
  replaces : (refresh (source python w) s c).1.value = s.value ∨
    ∃ content candidate, c.content = .ok content ∧
      (source python w).load content = .ok candidate ∧
      Complete python w candidate (refresh (source python w) s c).1.value
  returns : ∀ v, (refresh (source python w) s c).2 = .ok v →
    (refresh (source python w) s c).1.value = v
  unchanged : revision? c.stat = .ok s.observed → (refresh (source python w) s c).1 = s

/-- The `on_frame` of the module loaded at startup can be called. -/
def CallableAtStart (content : κ) : Watcher → Prop
  | .model => ∀ module callback, python.execModule content = .ok module →
      python.getattr module "on_frame" = some callback → python.callable callback = true
  | _ => True

/-- If the call gets as far as the assignments of `LiveModel.refresh`, the inspection of the
callback raises nothing but `TypeError` and `ValueError`. -/
def Inspectable : (w : Watcher) → Watched (Value python w) → Calls κ → Prop
  | .model, s, c =>
    ∀ (content : κ) (candidate : python.Module × python.Callback),
      Installs (source python .model) s c content candidate →
        ∀ e, python.bind candidate.2 = some e → e.caughtBy [.typeError, .valueError] = true
  | _, _, _ => True

section

variable {python} {w : Watcher} {s : Watched (Value python w)} {c : Calls κ}

theorem accepts_ok_iff {callback : python.Callback} :
    (∃ accepts, callbackAcceptsParameters python callback = .ok accepts) ↔
      ∀ e, python.bind callback = some e → e.caughtBy [.typeError, .valueError] = true := by
  unfold callbackAcceptsParameters
  cases hbind : python.bind callback with
  | none => simp
  | some e => cases hcaught : e.caughtBy [.typeError, .valueError] <;> simp [hcaught]

theorem valid_of_complete {content : κ} {candidate : Loaded python w} {value : Value python w}
    (hload : (source python w).load content = .ok candidate)
    (h : Complete python w candidate value) : Valid python w value := by
  cases w with
  | parameters =>
    cases h
    exact ⟨content, hload⟩
  | model =>
    obtain ⟨hvalue, haccepts⟩ := h
    obtain ⟨hmodule, hcallback, hcallable⟩ := loadModel_eq_ok hload
    rw [← hvalue] at hmodule hcallback
    exact ⟨content, candidate.2, hmodule, hcallback, hcallable, haccepts⟩
  | postprocess =>
    cases h
    exact ⟨content, hload⟩

/-- The assignments are complete if the inspection does not raise. -/
theorem Installs.complete {content : κ} {candidate : Loaded python w}
    (h : Installs (source python w) s c content candidate) (hc : Inspectable python w s c) :
    Complete python w candidate (refresh (source python w) s c).1.value := by
  rw [h.refresh_eq]
  cases w with
  | parameters => rfl
  | postprocess => rfl
  | model =>
    obtain ⟨accepts, haccepts⟩ := accepts_ok_iff.2 (hc content candidate h)
    simp [source, liveModel, Complete, haccepts]

theorem allOrNothing_of_inspectable (hc : Inspectable python w s c) :
    AllOrNothing python w s c where
  replaces := by
    rcases refresh_value (source python w) s c with h | ⟨content, candidate, h⟩
    · exact .inl h
    · exact .inr ⟨content, candidate, h.reads, h.loads, h.complete hc⟩
  returns := fun _ => refresh_returns
  unchanged := fun h => by rw [refresh_unchanged h]

theorem valid_refresh (hs : Valid python w s.value) (hc : Inspectable python w s c) :
    Valid python w (refresh (source python w) s c).1.value := by
  rcases refresh_value (source python w) s c with h | ⟨content, candidate, h⟩
  · rwa [h]
  · exact valid_of_complete h.loads (h.complete hc)

/-- The module is replaced whatever the inspection does. -/
theorem install_module (value : python.Module × Bool)
    (candidate : python.Module × python.Callback) :
    ((liveModel python).install value candidate).1 = candidate.1 := by
  simp only [liveModel]
  split <;> rfl

/-- An inspection that raises leaves the new module beside the flag of the old one. -/
theorem inspectable_of_valid_refresh
    (h : Valid python w (refresh (source python w) s c).1.value) : Inspectable python w s c := by
  cases w with
  | parameters => trivial
  | postprocess => trivial
  | model =>
    intro content candidate hinstalls
    obtain ⟨-, hcallback, -⟩ := loadModel_eq_ok hinstalls.loads
    rw [hinstalls.refresh_eq] at h
    obtain ⟨-, callback, -, hcallback', -, haccepts⟩ := h
    have hmodule : ((liveModel python).install s.value candidate).1 = candidate.1 :=
      install_module s.value candidate
    have hsame : some callback = some candidate.2 :=
      hcallback'.symm.trans ((congrArg (python.getattr · "on_frame") hmodule).trans hcallback)
    cases hsame
    exact accepts_ok_iff.1 ⟨_, haccepts⟩

theorem start_eq_some {content : κ} {stat : Except PyError Revision}
    (h : start? (source python w) content stat = some s) :
    (source python w).start content = some s.value := by
  unfold start? at h
  split at h
  · rename_i value observed hvalue hobserved
    cases h
    exact hvalue
  · cases h

theorem toOption_eq_some {ε β : Type} {x : Except ε β} {v : β} (h : x.toOption = some v) :
    x = .ok v := by
  cases x with
  | error e => cases h
  | ok u =>
    cases h
    rfl

theorem startModel_eq_some {content : κ} {value : python.Module × Bool}
    (h : startModel python content = some value) :
    ∃ callback, python.execModule content = .ok value.1 ∧
      python.getattr value.1 "on_frame" = some callback ∧
      callbackAcceptsParameters python callback = .ok value.2 := by
  unfold startModel at h
  cases hmodule : python.execModule content with
  | error e => simp [hmodule] at h
  | ok module =>
    simp only [hmodule] at h
    obtain ⟨callback, hcallback, h⟩ := Option.bind_eq_some_iff.1 h
    cases haccepts : callbackAcceptsParameters python callback with
    | error e => simp [haccepts] at h
    | ok accepts =>
      simp only [haccepts, Option.some.injEq] at h
      subst h
      exact ⟨callback, rfl, hcallback, haccepts⟩

theorem valid_start_iff {content : κ} (hs : (source python w).start content = some s.value) :
    Valid python w s.value ↔ CallableAtStart python content w := by
  cases w with
  | parameters => exact ⟨fun _ => trivial, fun _ => ⟨content, toOption_eq_some hs⟩⟩
  | postprocess => exact ⟨fun _ => trivial, fun _ => ⟨content, toOption_eq_some hs⟩⟩
  | model =>
    obtain ⟨callback, hmodule, hcallback, haccepts⟩ := startModel_eq_some hs
    constructor
    · rintro ⟨-, callback', -, hcallback', hcallable, -⟩ module callback'' hmodule' hcallback''
      rw [hmodule] at hmodule'
      cases hmodule'
      rw [hcallback'] at hcallback''
      cases hcallback''
      exact hcallable
    · intro hcallable
      exact ⟨content, callback, hmodule, hcallback, hcallable _ callback hmodule hcallback,
        haccepts⟩

/-! ## Runs -/

/-- What the classes promise of a run. -/
def KeepsPromise (python : Interpreter κ) (w : Watcher) (s : Watched (Value python w))
    (cs : List (Calls κ)) : Prop :=
  Always (step (source python w)) (fun t => Valid python w t.value) s cs ∧
    StepsMeet (step (source python w)) (AllOrNothing python w) s cs

/-- A watcher keeps its promise exactly if the first `on_frame` can be called and no inspection of a
new one raises anything but `TypeError` and `ValueError`. -/
theorem all_or_nothing_iff (w : Watcher) (content : κ) (stat : Except PyError Revision)
    (s : Watched (Value python w)) (hs : start? (source python w) content stat = some s)
    (cs : List (Calls κ)) :
    KeepsPromise python w s cs ↔ CallableAtStart python content w ∧
      StepsMeet (step (source python w)) (Inspectable python w) s cs := by
  have hstart := valid_start_iff (start_eq_some hs)
  have hruns : Valid python w s.value →
      (Always (step (source python w)) (fun t => Valid python w t.value) s cs ↔
        StepsMeet (step (source python w)) (Inspectable python w) s cs) := by
    refine always_iff_stepsMeet (I := fun t : Watched (Value python w) => Valid python w t.value)
      (fun _ h => h) ?_ ?_
    · rintro t c _ ht hc ⟨⟩
      exact valid_refresh ht hc
    · rintro t c _ _ hc ⟨⟩ ht
      exact hc (inspectable_of_valid_refresh ht)
  constructor
  · rintro ⟨halways, -⟩
    exact ⟨hstart.1 halways.head, (hruns halways.head).1 halways⟩
  · rintro ⟨hcallable, hmeet⟩
    exact ⟨(hruns (hstart.2 hcallable)).2 hmeet, hmeet.imp fun _ _ => allOrNothing_of_inspectable⟩

end

/-! ## Three runs of `LiveModel` -/

/-- Versions of a model file. -/
inductive Version where
  | plain
  /-- the inspection of `on_frame` raises `RuntimeError` -/
  | uninspectable
  /-- `on_frame` is a number -/
  | number
  deriving DecidableEq, Repr

def edits : Interpreter Version where
  Module := Version
  Callback := Version
  safeLoad _ := .error (.other "YAMLError")
  compiles _ := true
  size _ := 90
  execModule version := .ok version
  getattr module _ := some module
  callable callback := callback != .number
  bind
    | .plain => none
    | .uninspectable => some .runtimeError
    | .number => some .typeError

/-- A pipeline that has been started with a plain model. -/
def plainStart : Watched (Value edits .model) := ⟨(Version.plain, true), some ⟨0, 90⟩, 0⟩

/-- A refresh that finds `version`. -/
def finds (version : Version) : Calls Version :=
  ⟨.ok ⟨5000000000, 90⟩, .ok version, .ok ⟨5000000000, 90⟩⟩

/-- A replacement that cannot be called is refused. -/
theorem number_refused : KeepsPromise edits .model plainStart [finds .number] := by
  refine (all_or_nothing_iff .model .plain (.ok ⟨0, 90⟩) plainStart rfl _).2 ⟨?_, ?_⟩
  · rintro module callback ⟨⟩ ⟨⟩
    rfl
  · refine .cons (fun content candidate h => ?_) rfl trivial
    cases h.reads
    cases h.loads

/-- The module is replaced, and the flag is that of the module before. -/
theorem inspection_leaves_half :
    start? (source edits .model) .plain (.ok ⟨0, 90⟩) = some plainStart ∧
      ¬ KeepsPromise edits .model plainStart [finds .uninspectable] := by
  refine ⟨rfl, fun h => ?_⟩
  obtain ⟨-, callback, -, hcallback, -, haccepts⟩ := (h.1.2 _ rfl).head
  cases hcallback
  cases haccepts

/-- A first module whose `on_frame` is a number is taken over. -/
theorem uncallable_at_start (stat : Except PyError Revision) (s : Watched (Value edits .model))
    (hs : start? (source edits .model) .number stat = some s) (cs : List (Calls Version)) :
    ¬ KeepsPromise edits .model s cs := by
  intro h
  have hvalid := h.1.head
  have hvalue : s.value = (Version.number, false) := (Option.some.inj (start_eq_some hs)).symm
  rw [hvalue] at hvalid
  obtain ⟨-, callback, -, hcallback, hcallable, -⟩ := hvalid
  cases hcallback
  cases hcallable

end PipeWorks.NvidiaPipe.Refresh
