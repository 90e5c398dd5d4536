import PipeWorks.Lib.Fails
import PipeWorks.NvidiaPipe.Config
import PipeWorks.Plumber.Manager
import PipeWorks.Python.Str

/-!
# Loading the configuration (`PipelineManager.__init__` of `plumber/cli.py`)

The constructor reads `plumber.yml` three times and the configuration of each pipeline once.  What
it has loaded is in the types: the names of a `Loaded` are stripped, not blank and distinct, and a
`Port` is between 1 and 65535.

`manager_loads_iff`: the configurations it accepts, and the fault it reports of any other one, which
is the first one in the order of the reads.
-/

set_option autoImplicit false

namespace PipeWorks.Plumber.Loading

open PipeWorks.Python NvidiaPipe.Config Fails

/-- How the constructor ends without a manager. -/
inductive Failure where
  /-- `raise ValueError(message)` -/
  | refused (message : String)
  /-- a file cannot be read or parsed -/
  | raised (e : PyError)
  deriving DecidableEq, Repr

/-- The file system. -/
structure Files where
  /-- `yaml.safe_load` of the file at a path, at the n-th read -/
  load : Nat → String → Except PyError Yaml
  /-- `(plumber_path.parent / config).resolve()` -/
  resolve : String → String → Except PyError String

/-- The definition of a pipeline, with a name that has been stripped and is not blank. -/
structure Named where
  definition : PipelineDefinition
  stripped : strip definition.name = definition.name
  nonempty : definition.name ≠ ""

/-- `definitions` of `_load_definitions`. -/
structure Loaded where
  entries : List Named
  nodup : (entries.map (·.definition.name)).Nodup

def Loaded.names (loaded : Loaded) : List String := loaded.entries.map (·.definition.name)

def Loaded.empty : Loaded := ⟨[], List.nodup_nil⟩

/-- `definitions[name] = PipelineDefinition(name, path)`, for a new name. -/
def Loaded.add (loaded : Loaded) (d : Named) (hnew : d.definition.name ∉ loaded.names) :
    Loaded where
  entries := loaded.entries ++ [d]
  nodup := by
    rw [List.map_append, List.nodup_append]
    refine ⟨loaded.nodup, List.nodup_singleton _, fun a ha b hb => ?_⟩
    rw [List.map_singleton, List.mem_singleton] at hb
    rw [hb]
    rintro rfl
    exact hnew ha

/-- What the manager looks names up in. -/
def Loaded.definitions (loaded : Loaded) : Definitions where
  entries := loaded.entries.map Named.definition
  nodup := by
    rw [List.map_map]
    exact loaded.nodup

structure Port where
  number : Nat
  bounds : 1 ≤ number ∧ number ≤ 65535

/-- What `__init__` keeps of the configuration. -/
structure Configuration where
  loaded : Loaded
  port : Port
  autoStart : Bool

/-! ## The reads -/

/-- `isinstance(value, str) and value.strip()`. -/
def text? : Option Yaml → Option String
  | some (.str s) => if strip s = "" then none else some s
  | _ => none

/-- `item.get("config") if isinstance(item, dict) else None`. -/
def configOf : Yaml → Option Yaml
  | .mapping item => Mapping.get? "config" item
  | _ => none

theorem strip_strip (s : String) : strip (strip s) = strip s := by
  unfold strip
  rw [String.toList_ofList, stripChars_idem]

theorem text?_eq_some {value : Option Yaml} {s : String} :
    text? value = some s ↔ value = some (.str s) ∧ strip s ≠ "" := by
  unfold text?
  constructor
  · intro h
    split at h
    · split at h
      · cases h
      · rename_i hs
        cases h
        exact ⟨rfl, hs⟩
    · cases h
  · rintro ⟨rfl, hs⟩
    exact if_neg hs

section

variable (files : Files) (plumberPath : String)

/-- `_load_yaml(path)`. -/
def loadYaml (n : Nat) (path : String) : Except Failure Mapping := do
  match ← (files.load n path).mapError .raised with
  | .mapping document => .ok document
  | _ => .error (.refused ("Expected a YAML mapping: " ++ path))

/-- The body of the loop of `_load_definitions`, up to the check for duplicates. -/
def loadPipeline (index : Nat) (item : Yaml) : Except Failure Named :=
  match text? (configOf item) with
  | none =>
    .error (.refused ("Pipeline " ++ toString index ++ " requires a configuration file path"))
  | some config => do
    let path ← (files.resolve plumberPath config).mapError .raised
    let document ← loadYaml files index path
    match hname : text? (Mapping.get? "name" document) with
    | none => .error (.refused ("Pipeline configuration requires a name: " ++ path))
    | some name => .ok ⟨⟨strip name, path⟩, strip_strip name, (text?_eq_some.1 hname).2⟩

/-- The loop of `_load_definitions`. -/
def loadPipelines : Nat → List Yaml → Loaded → Except Failure Loaded
  | _, [], loaded => .ok loaded
  | index, item :: items, loaded => do
    let d ← loadPipeline files plumberPath index item
    if hname : d.definition.name ∈ loaded.names then
      .error (.refused ("Duplicate pipeline name: " ++ d.definition.name))
    else loadPipelines (index + 1) items (loaded.add d hname)

/-- Read `plumber.yml` and look at one key. -/
def loadKey {α : Type} (n : Nat) (key : String) (parse : Option Yaml → Option α)
    (message : String) : Except Failure α := do
  let document ← loadYaml files n plumberPath
  match parse (Mapping.get? key document) with
  | some value => .ok value
  | none => .error (.refused message)

/-- `isinstance(pipelines, list)`. -/
def items? : Option Yaml → Option (List Yaml)
  | some (.sequence items) => some items
  | _ => none

def loadItems : Except Failure (List Yaml) :=
  loadKey files plumberPath 0 "pipelines" items? "plumber configuration requires a pipelines list"

def loadDefinitions : Except Failure Loaded := do
  let items ← loadItems files plumberPath
  loadPipelines files plumberPath 1 items .empty

/-- `isinstance(port, int) and not isinstance(port, bool) and 1 <= port <= 65535`. -/
def port? : Option Yaml → Option Port
  | some (.int (.ofNat n)) => if h : 1 ≤ n ∧ n ≤ 65535 then some ⟨n, h⟩ else none
  | _ => none

def loadPort (n : Nat) : Except Failure Port :=
  loadKey files plumberPath n "port" port?
    "plumber configuration requires a port between 1 and 65535"

/-- `isinstance(auto_start, bool)`, where it is `False` if there is none. -/
def autoStart? (value : Option Yaml) : Option Bool :=
  match value.getD (.bool false) with
  | .bool autoStart => some autoStart
  | _ => none

def loadAutoStart (n : Nat) : Except Failure Bool :=
  loadKey files plumberPath n "auto_start" autoStart? "plumber auto_start must be true or false"

/-- `PipelineManager(plumber_path)`. -/
def pipelineManager : Except Failure Configuration := do
  let loaded ← loadDefinitions files plumberPath
  let port ← loadPort files plumberPath (loaded.entries.length + 1)
  let autoStart ← loadAutoStart files plumberPath (loaded.entries.length + 2)
  .ok ⟨loaded, port, autoStart⟩

/-! ## What is accepted, and what is at fault -/

/-- A text that is not blank. -/
def IsText (value : Option Yaml) (s : String) : Prop := value = some (.str s) ∧ strip s ≠ ""

/-- The n-th read finds a mapping. -/
def Reads (n : Nat) (path : String) (document : Mapping) : Prop :=
  files.load n path = .ok (.mapping document)

/-- The n-th read finds none. -/
inductive Unread (n : Nat) (path : String) : Failure → Prop where
  | raised (e : PyError) (h : files.load n path = .error e) : Unread n path (.raised e)
  | noMapping (document : Yaml) (h : files.load n path = .ok document)
      (hnot : ∀ members, document ≠ .mapping members) :
      Unread n path (.refused ("Expected a YAML mapping: " ++ path))

/-- The item and the configuration it names say that this is the pipeline. -/
structure Describes (index : Nat) (item : Yaml) (d : PipelineDefinition) : Prop where
  config : ∃ config, IsText (configOf item) config ∧
    files.resolve plumberPath config = .ok d.configPath
  name : ∃ document name, Reads files index d.configPath document ∧
    IsText (Mapping.get? "name" document) name ∧ d.name = strip name

/-- The item, or the configuration it names, is at fault. -/
inductive Fault (index : Nat) (item : Yaml) : Failure → Prop where
  | noConfig (h : ∀ config, ¬ IsText (configOf item) config) : Fault index item
      (.refused ("Pipeline " ++ toString index ++ " requires a configuration file path"))
  | unresolved (config : String) (hconfig : IsText (configOf item) config) (e : PyError)
      (h : files.resolve plumberPath config = .error e) : Fault index item (.raised e)
  | unread (config path : String) (hconfig : IsText (configOf item) config)
      (hpath : files.resolve plumberPath config = .ok path) (e : Failure)
      (h : Unread files index path e) : Fault index item e
  | noName (config path : String) (hconfig : IsText (configOf item) config)
      (hpath : files.resolve plumberPath config = .ok path) (document : Mapping)
      (hread : Reads files index path document)
      (h : ∀ name, ¬ IsText (Mapping.get? "name" document) name) : Fault index item
      (.refused ("Pipeline configuration requires a name: " ++ path))

/-- The items are those of `plumber.yml`. -/
def Lists (items : List Yaml) : Prop :=
  ∃ document, Reads files 0 plumberPath document ∧
    Mapping.get? "pipelines" document = some (.sequence items)

/-- Every item describes its pipeline. -/
def DescribesAll (items : List Yaml) (loaded : Loaded) : Prop :=
  List.Forall₂ (fun item d => Describes files plumberPath item.2 item.1 d.definition)
    (items.zipIdx 1) loaded.entries

/-- What `plumber.yml` says about a key when it is read for the n-th time. -/
def Says (n : Nat) (key : String) (P : Option Yaml → Prop) : Prop :=
  ∃ document, Reads files n plumberPath document ∧ P (Mapping.get? key document)

/-- The documents that the constructor accepts. -/
structure Accepted (c : Configuration) : Prop where
  pipelines : ∃ items, Lists files plumberPath items ∧ DescribesAll files plumberPath items c.loaded
  port : Says files plumberPath (c.loaded.entries.length + 1) "port" fun value =>
    value = some (.int c.port.number)
  autoStart : Says files plumberPath (c.loaded.entries.length + 2) "auto_start" fun value =>
    value = some (.bool c.autoStart) ∨ value = none ∧ c.autoStart = false

/-- `plumber.yml` cannot be read, or has no value there that is `fit`. -/
inductive KeyFault (n : Nat) (key : String) (fit : Option Yaml → Prop) (message : String) :
    Failure → Prop where
  | unread (e : Failure) (h : Unread files n plumberPath e) : KeyFault n key fit message e
  | unfit (h : Says files plumberPath n key fun value => ¬ fit value) :
      KeyFault n key fit message (.refused message)

/-- The first fault, in the order of the reads. -/
inductive FirstFault : Failure → Prop where
  | pipelines (e : Failure) (h : KeyFault files plumberPath 0 "pipelines"
      (fun value => ∃ items, value = some (.sequence items))
      "plumber configuration requires a pipelines list" e) : FirstFault e
  | item (before : List Yaml) (item : Yaml) (after : List Yaml) (loaded : Loaded)
      (hitems : Lists files plumberPath (before ++ item :: after))
      (hbefore : DescribesAll files plumberPath before loaded) (e : Failure)
      (h : Fault files plumberPath (before.length + 1) item e) : FirstFault e
  | duplicate (before : List Yaml) (item : Yaml) (after : List Yaml) (loaded : Loaded)
      (hitems : Lists files plumberPath (before ++ item :: after))
      (hbefore : DescribesAll files plumberPath before loaded) (d : Named)
      (h : Describes files plumberPath (before.length + 1) item d.definition)
      (hname : d.definition.name ∈ loaded.names) :
      FirstFault (.refused ("Duplicate pipeline name: " ++ d.definition.name))
  | port (items : List Yaml) (loaded : Loaded) (hitems : Lists files plumberPath items)
      (hloaded : DescribesAll files plumberPath items loaded) (e : Failure)
      (h : KeyFault files plumberPath (items.length + 1) "port"
        (fun value => ∃ port : Port, value = some (.int port.number))
        "plumber configuration requires a port between 1 and 65535" e) : FirstFault e
  | autoStart (items : List Yaml) (loaded : Loaded) (port : Port)
      (hitems : Lists files plumberPath items)
      (hloaded : DescribesAll files plumberPath items loaded)
      (hport : Says files plumberPath (items.length + 1) "port" fun value =>
        value = some (.int port.number)) (e : Failure)
      (h : KeyFault files plumberPath (items.length + 2) "auto_start"
        (fun value => value = none ∨ ∃ b, value = some (.bool b))
        "plumber auto_start must be true or false" e) : FirstFault e

end

variable {files : Files} {plumberPath path : String} {n index : Nat} {e : Failure}

/-! ## One document -/

theorem loadYaml_eq_ok {document : Mapping} :
    loadYaml files n path = .ok document ↔ Reads files n path document := by
  unfold loadYaml Reads
  rw [bind_eq_ok]
  constructor
  · rintro ⟨value, hvalue, h⟩
    rw [mapError_eq_ok] at hvalue
    cases value with
    | mapping members =>
      cases h
      exact hvalue
    | _ => cases h
  · exact fun h => ⟨_, mapError_eq_ok.2 h, rfl⟩

theorem loadYaml_eq_error : loadYaml files n path = .error e ↔ Unread files n path e := by
  unfold loadYaml
  rw [bind_eq_error]
  constructor
  · rintro (h | ⟨value, hvalue, h⟩)
    · obtain ⟨e, he, rfl⟩ := mapError_eq_error.1 h
      exact .raised e he
    · rw [mapError_eq_ok] at hvalue
      split at h
      · cases h
      · rename_i hnot
        cases h
        exact .noMapping value hvalue hnot
  · rintro (⟨e, he⟩ | ⟨value, hvalue, hnot⟩)
    · exact .inl (mapError_eq_error.2 ⟨e, he, rfl⟩)
    · refine .inr ⟨value, mapError_eq_ok.2 hvalue, ?_⟩
      split
      · exact absurd rfl (hnot _)
      · rfl

theorem text?_eq_none {value : Option Yaml} : text? value = none ↔ ∀ s, ¬ IsText value s := by
  rw [← Option.not_isSome_iff_eq_none, Option.isSome_iff_exists, not_exists]
  exact forall_congr' fun s => not_congr text?_eq_some

/-! ## One pipeline -/

variable {item : Yaml}

theorem loadPipeline_eq_ok {d : Named} : loadPipeline files plumberPath index item = .ok d ↔
    Describes files plumberPath index item d.definition := by
  unfold loadPipeline
  constructor
  · intro h
    split at h
    · cases h
    · rename_i config hconfig
      obtain ⟨path, hpath, h⟩ := bind_eq_ok.1 h
      obtain ⟨document, hread, h⟩ := bind_eq_ok.1 h
      rw [mapError_eq_ok] at hpath
      rw [loadYaml_eq_ok] at hread
      split at h
      · cases h
      · rename_i name hname
        cases h
        exact ⟨⟨config, text?_eq_some.1 hconfig, hpath⟩,
          ⟨document, name, hread, text?_eq_some.1 hname, rfl⟩⟩
  · rintro ⟨⟨config, hconfig, hpath⟩, ⟨document, name, hread, hname, heq⟩⟩
    obtain ⟨⟨text, path⟩, hstripped, hnonempty⟩ := d
    obtain rfl : text = strip name := heq
    rw [text?_eq_some.2 hconfig]
    refine bind_eq_ok.2 ⟨path, mapError_eq_ok.2 hpath, ?_⟩
    refine bind_eq_ok.2 ⟨document, loadYaml_eq_ok.2 hread, ?_⟩
    split
    · rename_i hnone
      exact absurd hname (text?_eq_none.1 hnone name)
    · rename_i other hother
      obtain ⟨hother, -⟩ := text?_eq_some.1 hother
      obtain rfl : name = other := by
        have hboth := hname.1.symm.trans hother
        cases hboth
        rfl
      rfl

theorem loadPipeline_eq_error : loadPipeline files plumberPath index item = .error e ↔
    Fault files plumberPath index item e := by
  unfold loadPipeline
  constructor
  · intro h
    split at h
    · rename_i hnone
      cases h
      exact .noConfig (text?_eq_none.1 hnone)
    · rename_i config hconfig
      rw [text?_eq_some] at hconfig
      rcases bind_eq_error.1 h with h | ⟨path, hpath, h⟩
      · obtain ⟨e, he, rfl⟩ := mapError_eq_error.1 h
        exact .unresolved config hconfig e he
      · rw [mapError_eq_ok] at hpath
        rcases bind_eq_error.1 h with h | ⟨document, hread, h⟩
        · exact .unread config path hconfig hpath e (loadYaml_eq_error.1 h)
        · rw [loadYaml_eq_ok] at hread
          split at h
          · rename_i hnone
            cases h
            exact .noName config path hconfig hpath document hread (text?_eq_none.1 hnone)
          · cases h
  · intro h
    cases h with
    | noConfig h => rw [text?_eq_none.2 h]
    | unresolved config hconfig e h =>
      rw [text?_eq_some.2 hconfig]
      exact bind_eq_error.2 (.inl (mapError_eq_error.2 ⟨e, h, rfl⟩))
    | unread config path hconfig hpath e h =>
      rw [text?_eq_some.2 hconfig]
      refine bind_eq_error.2 (.inr ⟨path, mapError_eq_ok.2 hpath, ?_⟩)
      exact bind_eq_error.2 (.inl (loadYaml_eq_error.2 h))
    | noName config path hconfig hpath document hread h =>
      rw [text?_eq_some.2 hconfig]
      refine bind_eq_error.2 (.inr ⟨path, mapError_eq_ok.2 hpath, ?_⟩)
      refine bind_eq_error.2 (.inr ⟨document, loadYaml_eq_ok.2 hread, ?_⟩)
      split
      · rfl
      · rename_i name hname
        exact absurd (text?_eq_some.1 hname) (h name)

/-! ## The list of pipelines -/

theorem loadPipelines_eq_ok {items : List Yaml} {loaded result : Loaded} :
    loadPipelines files plumberPath index items loaded = .ok result ↔
      ∃ ds, result.entries = loaded.entries ++ ds ∧
        List.Forall₂ (fun item d => Describes files plumberPath item.2 item.1 d.definition)
          (items.zipIdx index) ds := by
  induction items generalizing index loaded with
  | nil =>
    obtain ⟨entries, hnodup⟩ := result
    obtain ⟨before, hbefore⟩ := loaded
    simp [loadPipelines, eq_comm]
  | cons item items ih =>
    unfold loadPipelines
    rw [bind_eq_ok, List.zipIdx_cons]
    constructor
    · rintro ⟨d, hd, h⟩
      split at h
      · cases h
      · rename_i hname
        obtain ⟨ds, hds, hall⟩ := ih.1 h
        refine ⟨d :: ds, ?_, .cons (loadPipeline_eq_ok.1 hd) hall⟩
        rw [hds]
        exact List.append_assoc _ _ _
    · rintro ⟨ds, hds, hall⟩
      cases hall with
      | @cons _ d _ ds hd hall =>
        have hname : d.definition.name ∉ loaded.names := by
          have hnodup := result.nodup
          rw [hds, List.map_append, List.nodup_append] at hnodup
          exact fun hmem => hnodup.2.2 _ hmem _ (List.mem_cons_self ..) rfl
        refine ⟨d, loadPipeline_eq_ok.2 hd, ?_⟩
        rw [dif_neg hname]
        refine ih.2 ⟨ds, ?_, hall⟩
        rw [hds]
        exact (List.append_assoc _ [d] ds).symm

theorem loadPipelines_eq_error {items : List Yaml} {loaded : Loaded} :
    loadPipelines files plumberPath index items loaded = .error e ↔
      ∃ before item after middle, items = before ++ item :: after ∧
        loadPipelines files plumberPath index before loaded = .ok middle ∧
        (Fault files plumberPath (index + before.length) item e ∨
          ∃ d : Named, Describes files plumberPath (index + before.length) item d.definition ∧
            d.definition.name ∈ middle.names ∧
            e = .refused ("Duplicate pipeline name: " ++ d.definition.name)) := by
  induction items generalizing index loaded with
  | nil => simp [loadPipelines]
  | cons item items ih =>
    rw [loadPipelines, bind_eq_error]
    constructor
    · rintro (h | ⟨d, hd, h⟩)
      · exact ⟨[], item, items, loaded, rfl, rfl, .inl (loadPipeline_eq_error.1 h)⟩
      · split at h
        · rename_i hname
          cases h
          exact ⟨[], item, items, loaded, rfl, rfl,
            .inr ⟨d, loadPipeline_eq_ok.1 hd, hname, rfl⟩⟩
        · rename_i hname
          obtain ⟨before, bad, after, middle, rfl, hmiddle, hfault⟩ := ih.1 h
          refine ⟨item :: before, bad, after, middle, rfl, ?_, ?_⟩
          · rw [loadPipelines]
            refine bind_eq_ok.2 ⟨d, hd, ?_⟩
            rw [dif_neg hname]
            exact hmiddle
          · rw [List.length_cons, ← Nat.add_assoc, Nat.add_right_comm]
            exact hfault
    · rintro ⟨before, bad, after, middle, heq, hmiddle, hfault⟩
      cases before with
      | nil =>
        obtain ⟨rfl, rfl⟩ := List.cons.inj heq
        cases hmiddle
        rcases hfault with hfault | ⟨d, hd, hname, rfl⟩
        · exact .inl (loadPipeline_eq_error.2 hfault)
        · exact .inr ⟨d, loadPipeline_eq_ok.2 hd, dif_pos hname⟩
      | cons first before =>
        obtain ⟨rfl, rfl⟩ := List.cons.inj heq
        rw [loadPipelines] at hmiddle
        obtain ⟨d, hd, hmiddle⟩ := bind_eq_ok.1 hmiddle
        split at hmiddle
        · cases hmiddle
        · rename_i hname
          refine .inr ⟨d, hd, ?_⟩
          rw [dif_neg hname]
          refine ih.2 ⟨before, bad, after, middle, rfl, hmiddle, ?_⟩
          rw [List.length_cons, ← Nat.add_assoc, Nat.add_right_comm] at hfault
          exact hfault

theorem describesAll_iff {items : List Yaml} {loaded : Loaded} :
    DescribesAll files plumberPath items loaded ↔
      loadPipelines files plumberPath 1 items .empty = .ok loaded := by
  rw [loadPipelines_eq_ok]
  constructor
  · exact fun h => ⟨loaded.entries, rfl, h⟩
  · rintro ⟨ds, hds, h⟩
    obtain rfl : loaded.entries = ds := hds
    exact h

theorem DescribesAll.length_eq {items : List Yaml} {loaded : Loaded}
    (h : DescribesAll files plumberPath items loaded) : loaded.entries.length = items.length := by
  rw [← List.Forall₂.length_eq h, List.length_zipIdx]

/-! ## The keys of `plumber.yml` -/

section

variable {α : Type} {key message : String} {parse : Option Yaml → Option α}

theorem loadKey_eq_ok {a : α} : loadKey files plumberPath n key parse message = .ok a ↔
    Says files plumberPath n key fun value => parse value = some a := by
  unfold loadKey
  rw [bind_eq_ok]
  constructor
  · rintro ⟨document, hread, h⟩
    split at h
    · rename_i hvalue
      cases h
      exact ⟨document, loadYaml_eq_ok.1 hread, hvalue⟩
    · cases h
  · rintro ⟨document, hread, hvalue⟩
    refine ⟨document, loadYaml_eq_ok.2 hread, ?_⟩
    rw [hvalue]

theorem loadKey_eq_error {fit : Option Yaml → Prop}
    (hfit : ∀ value, (∃ a, parse value = some a) ↔ fit value) :
    loadKey files plumberPath n key parse message = .error e ↔
      KeyFault files plumberPath n key fit message e := by
  have hunfit : ∀ value, parse value = none ↔ ¬ fit value := fun value => by
    rw [← hfit, ← Option.isSome_iff_exists, Option.not_isSome_iff_eq_none]
  unfold loadKey
  rw [bind_eq_error, loadYaml_eq_error]
  constructor
  · rintro (h | ⟨document, hread, h⟩)
    · exact .unread e h
    · split at h
      · cases h
      · rename_i hvalue
        cases h
        exact .unfit ⟨document, loadYaml_eq_ok.1 hread, (hunfit _).1 hvalue⟩
  · rintro (⟨e, h⟩ | ⟨document, hread, hvalue⟩)
    · exact .inl h
    · refine .inr ⟨document, loadYaml_eq_ok.2 hread, ?_⟩
      rw [(hunfit _).2 hvalue]

theorem Says.congr {P Q : Option Yaml → Prop} (h : ∀ value, P value ↔ Q value) :
    Says files plumberPath n key P ↔ Says files plumberPath n key Q :=
  exists_congr fun _ => and_congr_right fun _ => h _

end

theorem items?_eq_some {value : Option Yaml} {items : List Yaml} :
    items? value = some items ↔ value = some (.sequence items) := by
  constructor
  · intro h
    unfold items? at h
    split at h
    · cases h
      rfl
    · cases h
  · rintro rfl
    rfl

theorem port?_eq_some {value : Option Yaml} {port : Port} :
    port? value = some port ↔ value = some (.int port.number) := by
  constructor
  · intro h
    unfold port? at h
    split at h
    · split at h
      · cases h
        rfl
      · cases h
    · cases h
  · rintro rfl
    exact dif_pos port.bounds

theorem autoStart?_eq_some {value : Option Yaml} {autoStart : Bool} :
    autoStart? value = some autoStart ↔
      value = some (.bool autoStart) ∨ value = none ∧ autoStart = false := by
  constructor
  · intro h
    cases value with
    | none =>
      cases h
      exact .inr ⟨rfl, rfl⟩
    | some value =>
      cases value with
      | bool b =>
        cases h
        exact .inl rfl
      | _ => cases h
  · rintro (rfl | ⟨rfl, rfl⟩)
    · rfl
    · rfl

/-! ## The constructor -/

theorem loadItems_eq_ok {items : List Yaml} : loadItems files plumberPath = .ok items ↔
    Lists files plumberPath items :=
  loadKey_eq_ok.trans (Says.congr fun _ => items?_eq_some)

theorem loadItems_eq_error : loadItems files plumberPath = .error e ↔
    KeyFault files plumberPath 0 "pipelines" (fun value => ∃ items, value = some (.sequence items))
      "plumber configuration requires a pipelines list" e :=
  loadKey_eq_error fun _ => exists_congr fun _ => items?_eq_some

theorem loadPort_eq_ok {port : Port} : loadPort files plumberPath n = .ok port ↔
    Says files plumberPath n "port" fun value => value = some (.int port.number) :=
  loadKey_eq_ok.trans (Says.congr fun _ => port?_eq_some)

theorem loadPort_eq_error : loadPort files plumberPath n = .error e ↔
    KeyFault files plumberPath n "port"
      (fun value => ∃ port : Port, value = some (.int port.number))
      "plumber configuration requires a port between 1 and 65535" e :=
  loadKey_eq_error fun _ => exists_congr fun _ => port?_eq_some

theorem loadAutoStart_eq_ok {autoStart : Bool} :
    loadAutoStart files plumberPath n = .ok autoStart ↔
      Says files plumberPath n "auto_start" fun value =>
        value = some (.bool autoStart) ∨ value = none ∧ autoStart = false :=
  loadKey_eq_ok.trans (Says.congr fun _ => autoStart?_eq_some)

theorem loadAutoStart_eq_error : loadAutoStart files plumberPath n = .error e ↔
    KeyFault files plumberPath n "auto_start"
      (fun value => value = none ∨ ∃ b, value = some (.bool b))
      "plumber auto_start must be true or false" e := by
  refine loadKey_eq_error fun value => ?_
  constructor
  · rintro ⟨b, hb⟩
    rcases autoStart?_eq_some.1 hb with hb | ⟨hb, -⟩
    · exact .inr ⟨b, hb⟩
    · exact .inl hb
  · rintro (hnone | ⟨b, hb⟩)
    · exact ⟨false, autoStart?_eq_some.2 (.inr ⟨hnone, rfl⟩)⟩
    · exact ⟨b, autoStart?_eq_some.2 (.inl hb)⟩

theorem loadDefinitions_eq_ok {loaded : Loaded} : loadDefinitions files plumberPath = .ok loaded ↔
    ∃ items, Lists files plumberPath items ∧ DescribesAll files plumberPath items loaded := by
  unfold loadDefinitions
  rw [bind_eq_ok]
  exact exists_congr fun items => and_congr loadItems_eq_ok describesAll_iff.symm

theorem pipelineManager_eq_ok {c : Configuration} :
    pipelineManager files plumberPath = .ok c ↔ Accepted files plumberPath c := by
  unfold pipelineManager
  constructor
  · intro h
    obtain ⟨loaded, hloaded, h⟩ := bind_eq_ok.1 h
    obtain ⟨port, hport, h⟩ := bind_eq_ok.1 h
    obtain ⟨autoStart, hautoStart, h⟩ := bind_eq_ok.1 h
    cases h
    exact ⟨loadDefinitions_eq_ok.1 hloaded, loadPort_eq_ok.1 hport,
      loadAutoStart_eq_ok.1 hautoStart⟩
  · rintro ⟨hloaded, hport, hautoStart⟩
    refine bind_eq_ok.2 ⟨c.loaded, loadDefinitions_eq_ok.2 hloaded, ?_⟩
    refine bind_eq_ok.2 ⟨c.port, loadPort_eq_ok.2 hport, ?_⟩
    exact bind_eq_ok.2 ⟨c.autoStart, loadAutoStart_eq_ok.2 hautoStart, rfl⟩

theorem firstFault_of_loadDefinitions (h : loadDefinitions files plumberPath = .error e) :
    FirstFault files plumberPath e := by
  unfold loadDefinitions at h
  rcases bind_eq_error.1 h with h | ⟨items, hitems, h⟩
  · exact .pipelines e (loadItems_eq_error.1 h)
  · rw [loadItems_eq_ok] at hitems
    obtain ⟨before, item, after, middle, rfl, hmiddle, hfault⟩ := loadPipelines_eq_error.1 h
    rw [← describesAll_iff] at hmiddle
    rw [Nat.add_comm] at hfault
    rcases hfault with hfault | ⟨d, hd, hname, rfl⟩
    · exact .item before item after middle hitems hmiddle e hfault
    · exact .duplicate before item after middle hitems hmiddle d hd hname

theorem loadDefinitions_of_fault {before after : List Yaml} {loaded : Loaded}
    (hitems : Lists files plumberPath (before ++ item :: after))
    (hbefore : DescribesAll files plumberPath before loaded)
    (h : Fault files plumberPath (before.length + 1) item e ∨
      ∃ d : Named, Describes files plumberPath (before.length + 1) item d.definition ∧
        d.definition.name ∈ loaded.names ∧
        e = .refused ("Duplicate pipeline name: " ++ d.definition.name)) :
    loadDefinitions files plumberPath = .error e := by
  rw [Nat.add_comm] at h
  refine bind_eq_error.2 (.inr ⟨_, loadItems_eq_ok.2 hitems, loadPipelines_eq_error.2 ?_⟩)
  exact ⟨before, item, after, loaded, rfl, describesAll_iff.1 hbefore, h⟩

theorem pipelineManager_eq_error :
    pipelineManager files plumberPath = .error e ↔ FirstFault files plumberPath e := by
  unfold pipelineManager
  constructor
  · intro h
    rcases bind_eq_error.1 h with h | ⟨loaded, hloaded, h⟩
    · exact firstFault_of_loadDefinitions h
    · obtain ⟨items, hitems, hloaded⟩ := loadDefinitions_eq_ok.1 hloaded
      rw [hloaded.length_eq] at h
      rcases bind_eq_error.1 h with h | ⟨port, hport, h⟩
      · exact .port items loaded hitems hloaded e (loadPort_eq_error.1 h)
      · rcases bind_eq_error.1 h with h | ⟨autoStart, -, h⟩
        · exact .autoStart items loaded port hitems hloaded (loadPort_eq_ok.1 hport) e
            (loadAutoStart_eq_error.1 h)
        · cases h
  · intro h
    cases h with
    | pipelines e h =>
      refine bind_eq_error.2 (.inl ?_)
      exact bind_eq_error.2 (.inl (loadItems_eq_error.2 h))
    | item before item after loaded hitems hbefore e h =>
      exact bind_eq_error.2 (.inl (loadDefinitions_of_fault hitems hbefore (.inl h)))
    | duplicate before item after loaded hitems hbefore d h hname =>
      exact bind_eq_error.2
        (.inl (loadDefinitions_of_fault hitems hbefore (.inr ⟨d, h, hname, rfl⟩)))
    | port items loaded hitems hloaded e h =>
      refine bind_eq_error.2
        (.inr ⟨loaded, loadDefinitions_eq_ok.2 ⟨items, hitems, hloaded⟩, ?_⟩)
      rw [hloaded.length_eq]
      exact bind_eq_error.2 (.inl (loadPort_eq_error.2 h))
    | autoStart items loaded port hitems hloaded hport e h =>
      refine bind_eq_error.2
        (.inr ⟨loaded, loadDefinitions_eq_ok.2 ⟨items, hitems, hloaded⟩, ?_⟩)
      rw [hloaded.length_eq]
      refine bind_eq_error.2 (.inr ⟨port, loadPort_eq_ok.2 hport, ?_⟩)
      exact bind_eq_error.2 (.inl (loadAutoStart_eq_error.2 h))

/-- **What the constructor accepts, and what it reports.**  It accepts the configurations in which
every read finds what it looks for and no two pipelines have one name, keeping the pipelines in
order; and of any other configuration it reports the first fault in the order of the reads. -/
theorem manager_loads_iff (files : Files) (plumberPath : String) :
    (∀ c, pipelineManager files plumberPath = .ok c ↔ Accepted files plumberPath c) ∧
      ∀ e, pipelineManager files plumberPath = .error e ↔ FirstFault files plumberPath e :=
  ⟨fun _ => pipelineManager_eq_ok, fun _ => pipelineManager_eq_error⟩

end PipeWorks.Plumber.Loading
