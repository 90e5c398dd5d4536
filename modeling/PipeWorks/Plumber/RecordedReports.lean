import PipeWorks.NvidiaPipe.FrameStatistics
import PipeWorks.Plumber.ReportCheck
import PipeWorks.Plumber.Supervision

/-!
# The reports that are recorded (`PipelineManager` of `plumber/cli.py`)

`Manager` keeps the statistics of a pipeline as numbers and statuses; Python keeps the dict that
was posted.  `Books` is the manager with these dicts, `ledgerStep` the system around it.

* `ledger_refines`: it takes the steps of `Manager`'s system, with the dicts as `validStatistics`
  reads them;
* `reports_atomic`: what a report does, in every state of every run; and that every status carries
  a well-formed snapshot.
-/

set_option autoImplicit false

namespace PipeWorks.Plumber

open StepSystem PipeWorks.Python
open NvidiaPipe.FrameStatistics (Globals assign frameStatistics frameStatistics_eq)

/-! ## The manager with its dicts -/

structure Books where
  manager : Manager
  /-- `_statistics` -/
  statistics : String → Option Json

/-- The dict that `status` returns. -/
structure StatusDict where
  name : String
  state : PipelineState
  pid : Option Nat
  exitCode : Option Int
  config : String
  statistics : Json

/-- `_empty_statistics()`. -/
def emptyDict : Json := emptyStatistics.toJson

def Books.init : Books := ⟨Manager.init, fun _ => none⟩

section Methods

variable (defs : Definitions) (order : StatusOrder) (answer : Answer) (b : Books) (name : String)

def Books.status : Except PyError StatusDict :=
  match defs.get name with
  | none => .error .keyError
  | some definition => .ok
    { name := name
      state := (b.manager.classify name).1
      pid := b.manager.processes name
      exitCode := (b.manager.classify name).2
      config := definition.configPath
      statistics := (b.statistics name).getD emptyDict }

def Books.list : Except PyError (List StatusDict) := defs.sorted.mapM (b.status defs)

/-- `start`, from `process.start()` on. -/
def Books.register (definition : PipelineDefinition) : Books :=
  { manager := b.manager.register definition
    statistics := Function.update b.statistics definition.name (some emptyDict) }

def Books.start : Books × Except PyError StatusDict :=
  match defs.get name with
  | none => (b, .error .keyError)
  | some definition =>
    if (b.manager.live name).isSome then (b, b.status defs name)
    else match answer.startRaises with
      | some e => (b, .error e)
      | none => (b.register definition, (b.register definition).status defs name)

def Books.stop : Books × Except PyError StatusDict :=
  let (m, outcome) := b.manager.stop defs answer name
  let b' : Books := { b with manager := m }
  match outcome with
  | .error e => (b', .error e)
  | .ok _ => (b', b'.status defs name)

/-- `self._statistics[name] = statistics.copy()`. -/
def Books.setStatistics (v : Json) : Books :=
  { manager := (b.manager.recordStatistics defs name v).1
    statistics := Function.update b.statistics name (some v) }

def Books.recordStatistics (v : Json) : Books × Except PyError StatusDict :=
  match defs.get name with
  | none => (b, .error .keyError)
  | some _ =>
    match refuses order v with
    | .error e => (b, .error e)
    | .ok true => (b, .error .valueError)
    | .ok false => (b.setStatistics defs name v, (b.setStatistics defs name v).status defs name)

/-- A section: the state after it, and whether it has raised. -/
def Books.exec : Section → Books × Bool
  | .list => (b, raises (b.list defs))
  | .status name => (b, raises (b.status defs name))
  | .start name =>
    let (b, outcome) := b.start defs answer name
    (b, raises outcome)
  | .stop name =>
    let (b, outcome) := b.stop defs answer name
    (b, raises outcome)
  | .recordStatistics name v =>
    let (b, outcome) := b.recordStatistics defs order name v
    (b, raises outcome)

end Methods

structure Ledger where
  books : Books
  threads : List (List Section)

def Ledger.init : Ledger := ⟨Books.init, []⟩

/-- What a handler passes on is a Python value. -/
def Section.Posted : Section → Prop
  | .recordStatistics _ v => Distinct v
  | _ => True

instance decidablePosted : (c : Section) → Decidable c.Posted
  | .recordStatistics _ v => decidableDistinct v
  | .list | .status _ | .start _ | .stop _ => .isTrue trivial

def ledgerStep (defs : Definitions) (order : StatusOrder) (s : Ledger) : Label → Option Ledger
  | .request r =>
    if ∀ c ∈ r.sections defs, c.Posted then
      some { s with threads := s.threads ++ [r.sections defs] }
    else none
  | .run thread answer =>
    match s.threads[thread]? with
    | some (c :: rest) =>
      let (books, raised) := s.books.exec defs order answer c
      some ⟨books, s.threads.set thread (if raised then [] else rest)⟩
    | _ => none
  | .exit pid code =>
    if s.books.manager.isAlive pid then
      some { s with books := { s.books with manager := s.books.manager.childExit pid code } }
    else none

/-! ## What a report does -/

/-- `record_statistics(name, v)`. -/
structure Atomic (defs : Definitions) (order : StatusOrder) (b : Books) (name : String)
    (v : Json) : Prop where
  keyError_iff : (b.recordStatistics defs order name v).2 = .error .keyError ↔ name ∉ defs.names
  valueError_iff : name ∈ defs.names →
    ((b.recordStatistics defs order name v).2 = .error .valueError ↔ ¬ WellFormed v)
  returns : name ∈ defs.names → WellFormed v →
    ∃ st, (b.recordStatistics defs order name v).2 = .ok st
  rejected : ∀ e, (b.recordStatistics defs order name v).2 = .error e →
    ∀ other, (b.recordStatistics defs order name v).1.status defs other = b.status defs other
  recorded : ∀ st, (b.recordStatistics defs order name v).2 = .ok st →
    (b.recordStatistics defs order name v).1.status defs name = .ok st ∧
      ∃ before, b.status defs name = .ok before ∧ st = { before with statistics := v }
  others : ∀ other, other ≠ name →
    (b.recordStatistics defs order name v).1.status defs other = b.status defs other

variable {defs : Definitions} {order : StatusOrder} {b : Books} {name : String} {v : Json}

theorem Books.status_eq {d : PipelineDefinition} (h : defs.get name = some d) :
    ∃ st, b.status defs name = .ok st ∧ st.statistics = (b.statistics name).getD emptyDict := by
  unfold Books.status
  rw [h]
  exact ⟨_, rfl, rfl⟩

/-- Everything that `record_statistics` can do. -/
theorem Books.recordStatistics_cases (defs : Definitions) (order : StatusOrder) (b : Books)
    (name : String) (h : Distinct v) :
    (defs.get name = none ∧ b.recordStatistics defs order name v = (b, .error .keyError)) ∨
    (∃ d, defs.get name = some d) ∧
      (¬ WellFormed v ∧ b.recordStatistics defs order name v = (b, .error .valueError) ∨
        WellFormed v ∧ b.recordStatistics defs order name v =
          (b.setStatistics defs name v, (b.setStatistics defs name v).status defs name)) := by
  unfold Books.recordStatistics
  cases hd : defs.get name with
  | none => exact .inl ⟨rfl, rfl⟩
  | some d =>
    refine .inr ⟨⟨d, rfl⟩, ?_⟩
    rw [refuses_eq order h]
    have hwf := validStatistics_isSome_iff h
    cases hv : validStatistics v with
    | none =>
      rw [hv] at hwf
      exact .inl ⟨fun hw => by simpa using hwf.2 hw, rfl⟩
    | some s =>
      rw [hv] at hwf
      exact .inr ⟨hwf.1 rfl, rfl⟩

/-- A report changes nothing but statistics. -/
theorem Manager.recordStatistics_frame (defs : Definitions) (m : Manager) (name : String)
    (v : Json) :
    (m.recordStatistics defs name v).1.processes = m.processes ∧
      (m.recordStatistics defs name v).1.classify = m.classify := by
  unfold Manager.recordStatistics
  split
  · exact ⟨rfl, rfl⟩
  · split
    · exact ⟨rfl, rfl⟩
    · exact ⟨rfl, rfl⟩

theorem Books.status_setStatistics (b : Books) (name : String) (v : Json) :
    (b.setStatistics defs name v).status defs name =
      (b.status defs name).map fun st => { st with statistics := v } := by
  obtain ⟨hprocesses, hclassify⟩ := b.manager.recordStatistics_frame defs name v
  unfold Books.status
  cases defs.get name with
  | none => rfl
  | some d => simp [Books.setStatistics, hprocesses, hclassify, Except.map]

theorem Books.status_setStatistics_of_ne (b : Books) (v : Json) {other : String}
    (hother : other ≠ name) :
    (b.setStatistics defs name v).status defs other = b.status defs other := by
  obtain ⟨hprocesses, hclassify⟩ := b.manager.recordStatistics_frame defs name v
  unfold Books.status
  cases defs.get other with
  | none => rfl
  | some d => simp [Books.setStatistics, hprocesses, hclassify, Function.update_of_ne hother]

theorem Books.atomic (defs : Definitions) (order : StatusOrder) (b : Books) (name : String)
    (h : Distinct v) : Atomic defs order b name v := by
  rcases b.recordStatistics_cases defs order name h with
    ⟨hd, heq⟩ | ⟨⟨d, hd⟩, ⟨hwf, heq⟩ | ⟨hwf, heq⟩⟩
  · have hname : name ∉ defs.names := Definitions.get_eq_none.1 hd
    constructor <;> rw [heq] <;> simp [hname]
  · have hname : name ∈ defs.names := Definitions.mem_names hd
    constructor <;> rw [heq] <;> simp [hname, hwf]
  · have hname : name ∈ defs.names := Definitions.mem_names hd
    obtain ⟨before, hbefore, -⟩ := Books.status_eq (b := b) hd
    have hstatus : (b.setStatistics defs name v).status defs name =
        .ok { before with statistics := v } := by
      rw [b.status_setStatistics, hbefore]
      rfl
    constructor <;> rw [heq]
    · simp [hstatus, hname]
    · simp [hstatus, hwf]
    · exact fun _ _ => ⟨_, hstatus⟩
    · intro e he
      rw [hstatus] at he
      cases he
    · intro st hst
      rw [hstatus] at hst
      cases hst
      exact ⟨hstatus, before, hbefore, rfl⟩
    · exact fun other hother => b.status_setStatistics_of_ne v hother

/-! ## The dicts and what the manager reads in them -/

/-- The statistics that are kept are well-formed snapshots, and the manager's are read from
them. -/
structure Books.Kept (b : Books) : Prop where
  read : ∀ name, b.manager.statistics name = (b.statistics name).bind validStatistics
  wellFormed : ∀ name v, b.statistics name = some v → Distinct v ∧ WellFormed v

theorem Books.kept_init : Books.init.Kept := ⟨fun _ => rfl, fun _ _ h => by cases h⟩

/-- The statistics of a pipeline are replaced. -/
theorem Books.Kept.update (h : b.Kept) {m : Manager} {s : FrameStatistics}
    (hm : m.statistics = Function.update b.manager.statistics name (some s))
    (hv : validStatistics v = some s) (hdistinct : Distinct v) :
    Books.Kept ⟨m, Function.update b.statistics name (some v)⟩ := by
  constructor
  · intro n
    by_cases hn : n = name
    · subst hn
      simp [hm, hv]
    · simpa [hm, Function.update_of_ne hn] using h.read n
  · intro n w hw
    by_cases hn : n = name
    · subst hn
      have hwv : v = w := by simpa using hw
      subst hwv
      exact ⟨hdistinct, (validStatistics_isSome_iff hdistinct).1 (by rw [hv]; rfl)⟩
    · exact h.wellFormed n w (by simpa [Function.update_of_ne hn] using hw)

theorem Books.Kept.withManager (h : b.Kept) {m : Manager}
    (hm : m.statistics = b.manager.statistics) : Books.Kept { b with manager := m } :=
  ⟨fun n => by rw [hm, h.read n], h.wellFormed⟩

theorem Books.Kept.register (h : b.Kept) (d : PipelineDefinition) : (b.register d).Kept :=
  h.update rfl (validStatistics_toJson emptyStatistics) (distinct_toJson emptyStatistics)

theorem stop_statistics (defs : Definitions) (answer : Answer) (m : Manager) (name : String) :
    (m.stop defs answer name).1.statistics = m.statistics := by
  rcases m.stop_cases defs answer name with ⟨-, h⟩ | ⟨-, ⟨h, -⟩ | ⟨pid, code, -, -, h⟩⟩ <;>
    rw [h] <;> rfl

theorem Books.Kept.setStatistics (h : b.Kept) {d : PipelineDefinition}
    (hd : defs.get name = some d) (hv : Distinct v) (hwf : WellFormed v) :
    (b.setStatistics defs name v).Kept := by
  obtain ⟨s, hs⟩ := Option.isSome_iff_exists.1 ((validStatistics_isSome_iff hv).2 hwf)
  refine h.update ?_ hs hv
  unfold Manager.recordStatistics
  rw [hd, hs]
  rfl

/-! ## The steps of `Manager` -/

theorem raises_status_eq (defs : Definitions) (b : Books) (name : String) :
    raises (b.status defs name) = raises (b.manager.status defs name) := by
  unfold Books.status Manager.status
  cases defs.get name with
  | none => rfl
  | some d => rfl

theorem raises_mapM_eq {α β γ : Type} {f : α → Except PyError β} {g : α → Except PyError γ}
    (h : ∀ x, raises (f x) = raises (g x)) :
    ∀ xs : List α, raises (xs.mapM f) = raises (xs.mapM g)
  | [] => rfl
  | x :: xs => by
    have hx := h x
    have hxs := raises_mapM_eq h xs
    rw [List.mapM_cons, List.mapM_cons]
    cases hf : f x <;> cases hg : g x <;> rw [hf, hg] at hx
    · rfl
    · cases hx
    · cases hx
    · cases hfs : xs.mapM f <;> cases hgs : xs.mapM g <;> rw [hfs, hgs] at hxs
      · rfl
      · cases hxs
      · cases hxs
      · rfl

/-- A section of `Books` does to the manager what the section of `Manager` does. -/
structure Follows (defs : Definitions) (answer : Answer) (c : Section) (b : Books)
    (result : Books × Bool) : Prop where
  kept : result.1.Kept
  manager : result.1.manager = (c.exec defs answer b.manager).1
  raised : result.2 = (c.exec defs answer b.manager).2

theorem start_follows (h : b.Kept) (defs : Definitions) (answer : Answer) (name : String) :
    (b.start defs answer name).1.Kept ∧
      (b.start defs answer name).1.manager = (b.manager.start defs answer name).1 ∧
        raises (b.start defs answer name).2 = raises (b.manager.start defs answer name).2 := by
  unfold Books.start Manager.start
  cases defs.get name with
  | none => exact ⟨h, rfl, rfl⟩
  | some d =>
    dsimp only
    split
    · exact ⟨h, rfl, raises_status_eq defs b name⟩
    · cases answer.startRaises with
      | some e => exact ⟨h, rfl, rfl⟩
      | none => exact ⟨h.register d, rfl, raises_status_eq defs (b.register d) name⟩

theorem stop_follows (h : b.Kept) (defs : Definitions) (answer : Answer) (name : String) :
    (b.stop defs answer name).1.Kept ∧
      (b.stop defs answer name).1.manager = (b.manager.stop defs answer name).1 ∧
        raises (b.stop defs answer name).2 = raises (b.manager.stop defs answer name).2 := by
  have hkept := h.withManager (stop_statistics defs answer b.manager name)
  unfold Books.stop
  cases hstop : b.manager.stop defs answer name with
  | mk m outcome =>
    rw [hstop] at hkept
    cases outcome with
    | error e => exact ⟨hkept, rfl, rfl⟩
    | ok st =>
      refine ⟨hkept, rfl, ?_⟩
      cases hd : defs.get name with
      | none =>
        unfold Manager.stop at hstop
        rw [hd] at hstop
        cases hstop
      | some d => exact (raises_status_eq defs _ name).trans (raises_status hd)

theorem recordStatistics_follows (h : b.Kept) (defs : Definitions) (order : StatusOrder)
    (name : String) (hv : Distinct v) :
    (b.recordStatistics defs order name v).1.Kept ∧
      (b.recordStatistics defs order name v).1.manager =
        (b.manager.recordStatistics defs name v).1 ∧
      raises (b.recordStatistics defs order name v).2 =
        raises (b.manager.recordStatistics defs name v).2 := by
  rcases b.recordStatistics_cases defs order name hv with
    ⟨hd, heq⟩ | ⟨⟨d, hd⟩, ⟨hwf, heq⟩ | ⟨hwf, heq⟩⟩
  · rw [heq]
    unfold Manager.recordStatistics
    rw [hd]
    exact ⟨h, rfl, rfl⟩
  · have hnone : validStatistics v = none := by
      rw [← Option.isNone_iff_eq_none, ← Option.not_isSome, Bool.not_eq_true', Bool.eq_false_iff]
      exact fun hsome => hwf ((validStatistics_isSome_iff hv).1 hsome)
    rw [heq]
    unfold Manager.recordStatistics
    rw [hd, hnone]
    exact ⟨h, rfl, rfl⟩
  · obtain ⟨s, hs⟩ := Option.isSome_iff_exists.1 ((validStatistics_isSome_iff hv).2 hwf)
    rw [heq]
    refine ⟨h.setStatistics hd hv hwf, rfl, ?_⟩
    have hset := raises_status_eq defs (b.setStatistics defs name v) name
    unfold Books.setStatistics Manager.recordStatistics at hset ⊢
    rw [hd, hs] at hset ⊢
    exact hset

theorem exec_follows (h : b.Kept) (defs : Definitions) (order : StatusOrder) (answer : Answer)
    {c : Section} (hc : c.Posted) :
    Follows defs answer c b (b.exec defs order answer c) := by
  cases c with
  | list => exact ⟨h, rfl, raises_mapM_eq (raises_status_eq defs b) _⟩
  | status name => exact ⟨h, rfl, raises_status_eq defs b name⟩
  | start name =>
    obtain ⟨hkept, hmanager, hraised⟩ := start_follows h defs answer name
    exact ⟨hkept, hmanager, hraised⟩
  | stop name =>
    obtain ⟨hkept, hmanager, hraised⟩ := stop_follows h defs answer name
    exact ⟨hkept, hmanager, hraised⟩
  | recordStatistics name v =>
    obtain ⟨hkept, hmanager, hraised⟩ := recordStatistics_follows h defs order name hc
    exact ⟨hkept, hmanager, hraised⟩

/-! ## Runs -/

structure Ledger.Good (s : Ledger) : Prop where
  kept : s.books.Kept
  posted : ∀ thread ∈ s.threads, ∀ c ∈ thread, c.Posted

/-- The system with the statistics as the manager reads them. -/
def Ledger.system (s : Ledger) : System := ⟨s.books.manager, s.threads⟩

theorem Ledger.good_init : Ledger.init.Good := ⟨Books.kept_init, fun _ h => by cases h⟩

theorem step_good {s t : Ledger} {l : Label} (h : s.Good)
    (ht : ledgerStep defs order s l = some t) :
    t.Good ∧ step defs s.system l = some t.system := by
  cases l with
  | request r =>
    unfold ledgerStep at ht
    dsimp only at ht
    split at ht
    · rename_i hposted
      cases ht
      refine ⟨⟨h.kept, fun thread hthread => ?_⟩, rfl⟩
      rcases List.mem_append.1 hthread with hthread | hthread
      · exact h.posted thread hthread
      · rw [List.mem_singleton.1 hthread]
        exact hposted
    · cases ht
  | run thread answer =>
    unfold ledgerStep at ht
    dsimp only at ht
    split at ht
    · rename_i c rest hthread
      have hposted := h.posted _ (List.mem_of_getElem? hthread)
      have hfollows := exec_follows h.kept defs order answer
        (hposted c (List.mem_cons_self ..))
      cases ht
      refine ⟨⟨hfollows.kept, fun other hother => ?_⟩, ?_⟩
      · rcases List.mem_or_eq_of_mem_set hother with hother | rfl
        · exact h.posted other hother
        · split
          · exact fun c hc => by cases hc
          · exact fun c hc => hposted c (List.mem_cons_of_mem _ hc)
      · unfold step Ledger.system System.after
        dsimp only
        rw [hthread, hfollows.manager, hfollows.raised]
    · cases ht
  | exit pid code =>
    unfold ledgerStep at ht
    dsimp only at ht
    split at ht
    · rename_i halive
      cases ht
      exact ⟨⟨h.kept.withManager rfl, h.posted⟩, if_pos halive⟩
    · cases ht

/-- **Refinement.**  A run with the dicts is a run of `Manager`'s system, which keeps what
`validStatistics` reads in them. -/
theorem ledger_refines {labels : List Label} {s : Ledger}
    (h : run (ledgerStep defs order) Ledger.init labels = some s) :
    run (step defs) System.init labels = some s.system ∧
      ∀ name, s.system.manager.statistics name =
        (s.books.statistics name).bind validStatistics := by
  obtain ⟨hs, hrun⟩ := run_map (fun _ _ _ hs ht => step_good hs ht) Ledger.good_init h
  exact ⟨hrun, hs.kept.read⟩

/-- Every status carries a well-formed snapshot. -/
theorem Books.Kept.status (h : b.Kept) (hname : name ∈ defs.names) :
    ∃ st, b.status defs name = .ok st ∧ WellFormed st.statistics := by
  cases hd : defs.get name with
  | none => exact absurd hname (Definitions.get_eq_none.1 hd)
  | some d =>
    obtain ⟨st, hst, hstatistics⟩ := Books.status_eq (b := b) hd
    refine ⟨st, hst, ?_⟩
    rw [hstatistics]
    cases hv : b.statistics name with
    | none => exact wellFormed_toJson emptyStatistics
    | some v => exact (h.wellFormed name v hv).2

/-- A snapshot of `frame_statistics` is accepted. -/
theorem frameStatistics_accepted (order : StatusOrder) (b : Books) {reads : PyStr → Globals}
    (hreads : ∀ key, Reaches assign Globals.init (reads key)) (sender : Option RtspStatus)
    (hname : name ∈ defs.names) :
    ∃ st, (b.recordStatistics defs order name (frameStatistics reads sender)).2 = .ok st ∧
      st.statistics = frameStatistics reads sender := by
  obtain ⟨snapshot, hsnapshot⟩ := frameStatistics_eq hreads sender
  rw [hsnapshot]
  have hatomic := b.atomic defs order name (distinct_toJson snapshot)
  obtain ⟨st, hst⟩ := hatomic.returns hname (wellFormed_toJson snapshot)
  obtain ⟨-, before, -, heq⟩ := hatomic.recorded st hst
  exact ⟨st, hst, by rw [heq]⟩

/-- In every state of every run a report is recorded or refused as a whole, every status carries a
well-formed snapshot, and what a pipeline process sends is accepted. -/
theorem reports_atomic (defs : Definitions) (order : StatusOrder) (labels : List Label) :
    Always (ledgerStep defs order)
      (fun s =>
        (∀ name v, Distinct v → Atomic defs order s.books name v) ∧
        (∀ name ∈ defs.names,
          ∃ st, s.books.status defs name = .ok st ∧ WellFormed st.statistics) ∧
        ∀ name ∈ defs.names, ∀ reads : PyStr → Globals,
          (∀ key, Reaches assign Globals.init (reads key)) → ∀ sender : Option RtspStatus,
            ∃ st, (s.books.recordStatistics defs order name (frameStatistics reads sender)).2 =
              .ok st ∧ st.statistics = frameStatistics reads sender)
      Ledger.init labels :=
  always_of_invariant
    (fun s h => ⟨fun name _ hv => s.books.atomic defs order name hv, fun _ => h.kept.status,
      fun _ hname _ hreads sender => frameStatistics_accepted order s.books hreads sender hname⟩)
    (fun _ _ _ h ht => (step_good h ht).1) Ledger.good_init

end PipeWorks.Plumber
