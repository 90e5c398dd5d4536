import PipeWorks.NvidiaPipe.Config
import PipeWorks.NvidiaPipe.HotReload
import Mathlib.Logic.Function.Basic

/-!
# The watched files of a pipeline (`run_pipeline` of `nvidia_pipe/cli.py`)

A pipeline watches its configuration, its model and, if it has one, its postprocess module.
`run_pipeline` loads the three at startup, one after the other, and constructs the watchers
afterwards, in another order; from then on the three are refreshed independently.  What Python
makes of the content of a file is given by an `Interpreter`.

`refreshes_current` is the result of `HotReload` for all three; `editAtStartup_not_fresh` is an
edit of the configuration while the model is being loaded.
-/

set_option autoImplicit false

namespace PipeWorks.NvidiaPipe.LiveFiles

open StepSystem PipeWorks.Python
open Config (Yaml Mapping inferenceParameters)
open HotReload (Source Revision Stamp)

/-! ## The code -/

/-- What Python makes of the content of a file. -/
structure Interpreter (κ : Type) where
  Module : Type
  Callback : Type
  /-- `yaml.safe_load` -/
  safeLoad : κ → Except PyError Yaml
  /-- the content is Python source that compiles -/
  compiles : κ → Bool
  /-- the number of its bytes -/
  size : κ → Nat
  /-- `exec_module` -/
  execModule : κ → Except PyError Module
  /-- `getattr(module, name)`, if there is such an attribute -/
  getattr : Module → String → Option Callback
  callable : Callback → Bool
  /-- what `inspect.signature(callback).bind(None, infer=True, parameters={})` raises -/
  bind : Callback → Option PyError

inductive Watcher where
  | parameters
  | model
  | postprocess
  deriving DecidableEq, Repr

variable {κ : Type} (python : Interpreter κ)

/-- `callback_accepts_parameters`. -/
def callbackAcceptsParameters (callback : python.Callback) : Except PyError Bool :=
  match python.bind callback with
  | none => .ok true
  | some e => if e.caughtBy [.typeError, .valueError] then .ok false else .error e

/-- `load_postprocess`. -/
def loadPostprocess (content : κ) : Except PyError python.Callback :=
  match python.execModule content with
  | .error e => .error e
  | .ok module =>
    match python.getattr module "on_inference_result" with
    | none => .error .typeError
    | some callback => if python.callable callback then .ok callback else .error .typeError

/-- `load_config` and `inference_parameters`. -/
def loadParameters (content : κ) : Except PyError Mapping :=
  match python.safeLoad content with
  | .error e => .error e
  | .ok (.mapping config) => inferenceParameters config
  | .ok _ => .error .valueError

/-- The load in `LiveModel.refresh` and its checks. -/
def loadModel (content : κ) : Except PyError (python.Module × python.Callback) :=
  match python.execModule content with
  | .error e => .error e
  | .ok module =>
    match python.getattr module "on_frame" with
    | none => .error .attributeError
    | some callback =>
      if python.callable callback then .ok (module, callback) else .error .typeError

/-- `LiveModel(model, load_module(model))`. -/
def startModel (content : κ) : Option (python.Module × Bool) :=
  match python.execModule content with
  | .error _ => none
  | .ok module =>
    (python.getattr module "on_frame").bind fun callback =>
      match callbackAcceptsParameters python callback with
      | .ok accepts => some (module, accepts)
      | .error _ => none

theorem loadModel_eq_ok {python : Interpreter κ} {content : κ} {module : python.Module}
    {callback : python.Callback} (h : loadModel python content = .ok (module, callback)) :
    python.execModule content = .ok module ∧
      python.getattr module "on_frame" = some callback ∧ python.callable callback = true := by
  unfold loadModel at h
  cases hmodule : python.execModule content with
  | error e => simp [hmodule] at h
  | ok module' =>
    cases hcallback : python.getattr module' "on_frame" with
    | none => simp [hmodule, hcallback] at h
    | some callback' =>
      by_cases hcallable : python.callable callback' = true
      · simp only [hmodule, hcallback, hcallable, if_true, Except.ok.injEq, Prod.mk.injEq] at h
        obtain ⟨rfl, rfl⟩ := h
        exact ⟨rfl, hcallback, hcallable⟩
      · simp [hmodule, hcallback, hcallable] at h

/-- `LiveParameters`.  `validate_config`, which may end startup too, is left out. -/
def liveParameters : Source κ Mapping Mapping where
  load := loadParameters python
  install _ parameters := parameters
  start content := (loadParameters python content).toOption
  catches e := e.caughtBy [.osError, .other "YAMLError", .valueError]
  rechecks := false
  compiles _ := false
  size := python.size
  start_eq := by
    intro content u m v hu hm hv
    rw [hm] at hu
    cases hu
    exact hv u

/-- `LiveModel`: the module, and whether its callback accepts parameters. -/
def liveModel : Source κ (python.Module × python.Callback) (python.Module × Bool) where
  load := loadModel python
  install value candidate :=
    match callbackAcceptsParameters python candidate.2 with
    | .ok accepts => (candidate.1, accepts)
    -- the module has been replaced when the inspection raises
    | .error _ => (candidate.1, value.2)
  start := startModel python
  catches _ := true
  rechecks := true
  compiles := python.compiles
  size := python.size
  start_eq := by
    rintro content u ⟨module, callback⟩ v hu hm hv
    obtain ⟨hmodule, hcallback, _⟩ := loadModel_eq_ok hm
    have hinstall := hv u
    unfold startModel at hu
    simp only [hmodule, hcallback, Option.bind_some] at hu
    cases haccepts : callbackAcceptsParameters python callback with
    | error e => simp [haccepts] at hu
    | ok accepts =>
      simp only [haccepts, Option.some.injEq] at hu hinstall
      rw [← hu, hinstall]

/-- `LivePostprocess`. -/
def livePostprocess : Source κ python.Callback python.Callback where
  load := loadPostprocess python
  install _ callback := callback
  start content := (loadPostprocess python content).toOption
  catches _ := true
  rechecks := true
  compiles := python.compiles
  size := python.size
  start_eq := by
    intro content u m v hu hm hv
    rw [hm] at hu
    cases hu
    exact hv u

/-- What `refresh` loads. -/
def Loaded : Watcher → Type
  | .parameters => Mapping
  | .model => python.Module × python.Callback
  | .postprocess => python.Callback

/-- What `refresh` returns. -/
def Value : Watcher → Type
  | .parameters => Mapping
  | .model => python.Module × Bool
  | .postprocess => python.Callback

def source : (w : Watcher) → Source κ (Loaded python w) (Value python w)
  | .parameters => liveParameters python
  | .model => liveModel python
  | .postprocess => livePostprocess python

/-- What startup has to do for a watcher. -/
inductive Turn where
  | load
  | construct
  deriving DecidableEq, Repr

/-- The order of `run_pipeline`. -/
def startupOrder (postprocess : Bool) : List (Watcher × Turn) :=
  [(.parameters, .load), (.model, .load)] ++
    (if postprocess then [(.postprocess, .load), (.postprocess, .construct)] else []) ++
    [(.model, .construct), (.parameters, .construct)]

structure State where
  watched : (w : Watcher) → HotReload.State κ (Loaded python w) (Value python w)
  /-- what is left of startup -/
  startup : List (Watcher × Turn)

/-- The turn that a file waits for, or is in.  A startup that has raised gets no further. -/
def turn? {μ α : Type} : HotReload.Phase μ α → Option Turn
  | .starting | .startReading _ | .ended => some .load
  | .loaded _ => some .construct
  | _ => none

/-- `files` is the content and the revision of every file, `bytecode` what is kept of earlier
runs. -/
def State.init (postprocess : Bool) (files : Watcher → κ × Revision)
    (bytecode : Watcher → Option (Stamp × κ)) : State python :=
  { watched := fun w => HotReload.State.init (files w).1 (files w).2
      (if w = .parameters then none else bytecode w)
    startup := startupOrder postprocess }

variable {python}

/-- Files are edited at any time; everything else waits for its turn in startup, and `refresh` for
the end of startup. -/
def State.allows (s : State python) (w : Watcher) (l : HotReload.Label κ) : Bool :=
  match l with
  | .edit _ _ => true
  | _ => turn? (s.watched w).phase == (s.startup.head?.map (·.2)) &&
      s.startup.head?.all fun turn => turn.1 == w

def State.set (s : State python) (w : Watcher)
    (x : HotReload.State κ (Loaded python w) (Value python w)) : State python :=
  { watched := Function.update s.watched w x
    startup := s.startup.dropWhile fun turn => turn.1 == w && turn? x.phase != some turn.2 }

def step (s : State python) (l : Watcher × HotReload.Label κ) : Option (State python) :=
  if s.allows l.1 l.2 then
    (HotReload.step (source python l.1) (s.watched l.1) l.2).map (s.set l.1)
  else none

/-! ## Freshness -/

/-- If the file of `w` is valid and neither changes nor fails to be read from here on, every
`refresh` of `w` that begins from here on returns what the file gives. -/
def Fresh (w : Watcher) (s : State python) : Prop :=
  ∀ v, (source python w).Gives (s.watched w).content v →
    ∀ ls t, (∀ l ∈ ls, l.1 = w → l.2.quiet = true) → run step s ls = some t →
      ∀ r ∈ (t.watched w).results.drop ((s.watched w).results.length + (s.watched w).pending),
        r = .ok v

/-- The step loses no update of its file. -/
def Harmless (s : State python) (l : Watcher × HotReload.Label κ) : Prop :=
  HotReload.Harmless (source python l.1) (s.watched l.1) l.2

/-- The part of a run that belongs to a file. -/
def labelOf (w : Watcher) (l : Watcher × HotReload.Label κ) : Option (HotReload.Label κ) :=
  if l.1 = w then some l.2 else none

section

variable {s t : State python} {w : Watcher} {l : Watcher × HotReload.Label κ}

theorem step_eq_some (h : step s l = some t) : ∃ x,
    HotReload.step (source python l.1) (s.watched l.1) l.2 = some x ∧
      t.watched = Function.update s.watched l.1 x := by
  unfold step at h
  split at h
  · obtain ⟨x, hx, rfl⟩ := Option.map_eq_some_iff.1 h
    exact ⟨x, hx, rfl⟩
  · cases h

theorem step_other (h : step s l = some t) (hw : labelOf w l = none) :
    t.watched w = s.watched w := by
  obtain ⟨x, _, ht⟩ := step_eq_some h
  have hne : w ≠ l.1 := by
    rintro rfl
    simp [labelOf] at hw
  rw [ht, Function.update_of_ne hne]

theorem labelOf_eq_some {l' : HotReload.Label κ} (hw : labelOf w l = some l') : l = (w, l') := by
  obtain ⟨w', l⟩ := l
  unfold labelOf at hw
  split at hw
  case isTrue hw' =>
    cases hw
    cases hw'
    rfl
  case isFalse => cases hw

theorem step_own {l' : HotReload.Label κ} (h : step s l = some t) (hw : labelOf w l = some l') :
    HotReload.step (source python w) (s.watched w) l' = some (t.watched w) := by
  obtain ⟨x, hx, ht⟩ := step_eq_some h
  cases labelOf_eq_some hw
  rw [ht, hx, Function.update_self]

theorem fresh_of_settled (h : HotReload.Settled (source python w) (s.watched w)) : Fresh w s := by
  intro v hv ls t hls ht
  have hrun := run_project (f := fun s : State python => s.watched w) (g := labelOf w)
    (fun _ _ _ h hw => step_other h hw) (fun _ _ _ _ h hw => step_own h hw) ht
  refine HotReload.fresh_of_settled h v hv _ _ (fun l hl => ?_) hrun
  obtain ⟨_, hmem, hl'⟩ := List.mem_filterMap.1 hl
  cases labelOf_eq_some hl'
  exact hls _ hmem rfl

theorem step_settled (h : ∀ w, HotReload.Settled (source python w) (s.watched w))
    (hl : Harmless s l) (ht : step s l = some t) (w : Watcher) :
    HotReload.Settled (source python w) (t.watched w) := by
  cases hw : labelOf w l with
  | none =>
    rw [step_other ht hw]
    exact h w
  | some l' =>
    have hstep := step_own ht hw
    cases labelOf_eq_some hw
    exact HotReload.step_settled (h w) hl hstep

end

/-- In a run that starts beside no bytecode of another version and none of whose steps loses an
update, the next `refresh` of a file that has come to rest returns what it gives. -/
theorem refreshes_current (postprocess : Bool) (files : Watcher → κ × Revision)
    (bytecode : Watcher → Option (Stamp × κ)) (ls : List (Watcher × HotReload.Label κ))
    (hbytecode : ∀ w, ((State.init python postprocess files bytecode).watched w).Loads
      (source python w) (some (files w).2.stamp))
    (hls : StepsMeet step Harmless (State.init python postprocess files bytecode) ls) :
    Always step (fun s => ∀ w, Fresh w s) (State.init python postprocess files bytecode) ls :=
  always_of_stepsMeet (fun _ h w => fresh_of_settled (h w))
    (fun _ _ _ h hl ht => step_settled h hl ht)
    (fun w => HotReload.settled_init.2 (hbytecode w)) hls

/-! ## Two runs -/

/-- Versions of the three files, which differ in a number. -/
def versions : Interpreter Nat where
  Module := Nat
  Callback := Nat
  safeLoad n := .ok (.mapping [(.str "inference",
    .mapping [(.str "parameters", .mapping [(.str "font-size", .int n)])])])
  compiles _ := true
  size _ := 90
  execModule n := .ok n
  getattr module _ := some module
  callable _ := true
  bind _ := none

/-- Every file is in its version 14. -/
def atStart : State versions := State.init versions false (fun _ => (14, ⟨0, 90⟩)) fun _ => none

/-- The startup of a pipeline without a postprocess module. -/
def started : List (Watcher × HotReload.Label Nat) :=
  [(.parameters, .locate true), (.parameters, .read true true), (.model, .locate true),
    (.model, .read true true), (.model, .construct true), (.parameters, .construct true)]

/-- The model is edited when the pipeline runs. -/
def editOfModel : List (Watcher × HotReload.Label Nat) :=
  started ++ [(.model, .edit 28 ⟨5000000000, 90⟩), (.model, .refresh true), (.model, .locate true),
    (.model, .read true true), (.model, .recheck true)]

theorem editOfModel_fresh :
    Always step (fun s => ∀ w, Fresh w s) atStart editOfModel ∧
      (run step atStart editOfModel).map (fun s => (s.watched .model).results) =
        some [.ok ((28, true) : Nat × Bool)] := by
  refine ⟨refreshes_current false _ _ editOfModel (fun w => ?_) ?_, rfl⟩
  · intro v hv
    cases w <;> exact hv
  · refine .cons trivial rfl <| .cons trivial rfl <| .cons trivial rfl <| .cons trivial rfl <|
      .cons trivial rfl <| .cons trivial rfl <| .cons ?_ rfl <| .cons trivial rfl <|
      .cons trivial rfl <| .cons trivial rfl <| .cons trivial rfl trivial
    exact ⟨fun v hv => hv, fun h => absurd h (by decide)⟩

/-- The configuration is edited while the model is being loaded: `LiveParameters` keeps version
14 and records the revision of version 28. -/
def editAtStartup : List (Watcher × HotReload.Label Nat) :=
  [(.parameters, .locate true), (.parameters, .read true true),
    (.parameters, .edit 28 ⟨5000000000, 90⟩), (.model, .locate true), (.model, .read true true),
    (.model, .construct true), (.parameters, .construct true)]

theorem editAtStartup_not_fresh :
    ¬ Always step (fun s => ∀ w, Fresh w s) atStart editAtStartup := by
  intro h
  obtain ⟨s, hs⟩ : ∃ s, run step atStart editAtStartup = some s := ⟨_, rfl⟩
  have hfresh := always_iff_runs.1 h _ s (List.prefix_refl _) hs .parameters
  cases hs
  have hr : (Except.ok [(.str "font-size", .int 14)] : Except PyError Mapping) =
      .ok [(.str "font-size", .int 28)] :=
    hfresh [(.str "font-size", .int 28)] ⟨_, rfl, fun _ => rfl⟩
    [(.parameters, .refresh true)] _ (by simp [HotReload.Label.quiet]) rfl
    (.ok [(.str "font-size", .int 14)]) (List.mem_singleton.2 rfl)
  simp at hr

end PipeWorks.NvidiaPipe.LiveFiles
