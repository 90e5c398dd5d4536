import Mathlib.Algebra.Group.Nat.Defs
import PipeWorks.Conductor.ProcessForm

/-!
# What the two write paths store

`addProcess` and `updateProcess` make the same record of a request and hand it to two statements
that list their columns one by one.

* `storesOrRefuses_iff` — `addProcess` stores every accepted request or refuses it with one of the
  two errors the route expects, but for integers that are too large for the table: the request
  model bounds them from below only, and binding them raises an error that nobody expects.
* `agreesWithAdd_iff` — `updateProcess` leaves the row that `addProcess` would have stored in its
  place, but for a changed sequence number: `UPDATE` does not list the column.
-/

set_option autoImplicit false

namespace PipeWorks.Conductor.Supervisor

/-- How the call that has begun last has ended. -/
def State.lastOutcome (s : State) : Option Outcome :=
  match s.threads.getLast? with
  | some (.ended outcome) => some outcome
  | _ => none

@[simp] theorem spawn_lastOutcome (s : State) (outcome : Outcome) :
    (s.spawn (.ended outcome)).lastOutcome = some outcome := by
  simp [State.lastOutcome, State.spawn]

theorem fitsInteger_natCast (n : Nat) : fitsInteger n = true ↔ n < 2 ^ 63 := by
  simp only [fitsInteger, Bool.and_eq_true, decide_eq_true_eq]
  omega

/-- The integers of a record can be bound if the numbers of the request are small enough. -/
theorem fits_integers (process : CreateProcessRequest) :
    process.record.integers.all fitsInteger = true ↔
      process.jitterBuffer < 2 ^ 63 ∧ process.gpuid < 2 ^ 63 ∧ process.intervalFrames < 2 ^ 63 := by
  have hflag : ∀ b : Bool, fitsInteger b.toInt = true := by decide
  simp only [Record.integers, CreateProcessRequest.record, List.all_cons, List.all_nil, hflag,
    Bool.and_eq_true, fitsInteger_natCast]
  tauto

theorem mem_ids_iff {repo : ProcessRepository} {processId : String} :
    (processId ∈ repo.rows.map fun row => row.id) ↔ (repo.get processId).isSome = true := by
  rw [ProcessRepository.get_isSome, List.mem_map]

/-! ## Adding -/

variable (s : State) (time : String) (process : CreateProcessRequest)

/-- Every integer of the request is one that the table can store. -/
def Storable (process : CreateProcessRequest) : Prop :=
  process.jitterBuffer < 2 ^ 63 ∧ process.gpuid < 2 ^ 63 ∧ process.intervalFrames < 2 ^ 63 ∧
    process.sequence < 2 ^ 63

theorem storable_iff :
    Storable process ↔
      (process.record.sequence :: process.record.integers).all fitsInteger = true := by
  have hsequence : fitsInteger process.record.sequence = true ↔ process.sequence < 2 ^ 63 :=
    fitsInteger_natCast process.sequence
  rw [List.all_cons, Bool.and_eq_true, hsequence, fits_integers, Storable]
  constructor
  · exact fun ⟨hjitter, hgpuid, hframes, hseq⟩ => ⟨hseq, hjitter, hgpuid, hframes⟩
  · exact fun ⟨hseq, hjitter, hgpuid, hframes⟩ => ⟨hjitter, hgpuid, hframes, hseq⟩

/-- How `addProcess` ends: the request is looked at first, then the integers, then the key. -/
inductive Added : State → Prop where
  | invalid : process.invalid = true → Added (s.spawn (.ended .invalid))
  | overflow : process.invalid = false → ¬ Storable process → Added (s.spawn (.ended .raised))
  | alreadyExists : process.invalid = false → Storable process →
      (s.repository.get process.name.1).isSome = true → Added (s.spawn (.ended .alreadyExists))
  | stored (repository : ProcessRepository) : process.invalid = false → Storable process →
      (s.repository.get process.name.1).isSome = false →
      repository.rows = s.repository.rows ++ [⟨process.record, time, time⟩] →
      Added ({ s with repository := repository }.spawn (.ended .returned))

theorem addProcess_added : Added s time process (s.addProcess time process) := by
  unfold State.addProcess
  cases hinvalid : process.invalid with
  | true =>
    have hmake : makeRecord process = none := if_pos hinvalid
    rw [hmake]
    exact .invalid hinvalid
  | false =>
    -- the record as a variable: nothing tries to compare its numbers with the bound
    obtain ⟨record, hrecord⟩ : ∃ record, process.record = record := ⟨_, rfl⟩
    have hid : record.id = process.name.1 := by
      rw [← hrecord]
      rfl
    have hchecks : record.checks = true := hrecord ▸ checks_record process
    have hstorable := storable_iff process
    rw [hrecord] at hstorable
    rw [makeRecord_eq_some.mpr ⟨hinvalid, hrecord⟩]
    dsimp only
    by_cases hfits : Storable process
    · have hall := hstorable.mp hfits
      by_cases hkey : record.id ∈ s.repository.rows.map fun row => row.id
      · rw [ProcessRepository.add_primaryKey time hall hchecks hkey]
        exact .alreadyExists hinvalid hfits (hid ▸ mem_ids_iff.mp hkey)
      · obtain ⟨repository, hadd⟩ := ProcessRepository.exists_add time hall hchecks hkey
        rw [hadd]
        refine .stored repository hinvalid hfits ?_ (hrecord ▸ ProcessRepository.rows_add hadd)
        exact Bool.eq_false_iff.mpr fun hsome => hkey (mem_ids_iff.mpr (hid ▸ hsome))
    · rw [ProcessRepository.add_overflow time (Bool.eq_false_iff.mpr (mt hstorable.mpr hfits))]
      exact .overflow hinvalid hfits

/-- `addProcess` stores the record, or raises one of the two errors that its caller expects. -/
structure StoresOrRefuses : Prop where
  outcome : (s.addProcess time process).lastOutcome = some .returned ∨
    (s.addProcess time process).lastOutcome = some .alreadyExists ∨
    (s.addProcess time process).lastOutcome = some .invalid
  stored : (s.addProcess time process).lastOutcome = some .returned →
    (s.addProcess time process).repository.rows =
      s.repository.rows ++ [⟨process.record, time, time⟩]
  refused : (s.addProcess time process).lastOutcome ≠ some .returned →
    (s.addProcess time process).repository.rows = s.repository.rows
  /-- a request that is not invalid and whose id exists -/
  alreadyExists : (s.addProcess time process).lastOutcome = some .alreadyExists ↔
    process.invalid = false ∧ (s.repository.get process.name.1).isSome = true
  /-- the inference is enabled and its module path is blank -/
  invalid : (s.addProcess time process).lastOutcome = some .invalid ↔
    process.inferenceEnabled = true ∧ Python.strip process.inferenceModule.1 = ""

theorem invalid_iff : process.invalid = true ↔
    process.inferenceEnabled = true ∧ Python.strip process.inferenceModule.1 = "" := by
  simp [CreateProcessRequest.invalid]

/-- **When an accepted request is storable**: exactly when it is refused as invalid or each of its
    four integers is less than `2 ^ 63`. -/
theorem storesOrRefuses_iff :
    StoresOrRefuses s time process ↔ process.invalid = true ∨ Storable process := by
  have hadded := addProcess_added s time process
  generalize ht : s.addProcess time process = t at hadded
  constructor
  · intro h
    have houtcome := h.outcome
    rw [ht] at houtcome
    cases hadded with
    | invalid hinvalid => exact Or.inl hinvalid
    | overflow hinvalid hfits => simp at houtcome
    | alreadyExists hinvalid hfits hexists => exact Or.inr hfits
    | stored repository hinvalid hfits hnew hrows => exact Or.inr hfits
  · intro h
    cases hadded with
    | invalid hinvalid =>
      refine ⟨?_, ?_, ?_, ?_, ?_⟩ <;> rw [ht]
      · simp
      · simp
      · exact fun _ => rfl
      · simp [hinvalid]
      · simp [← invalid_iff, hinvalid]
    | overflow hinvalid hfits =>
      rcases h with h | h
      · rw [hinvalid] at h
        cases h
      · exact absurd h hfits
    | alreadyExists hinvalid hfits hexists =>
      refine ⟨?_, ?_, ?_, ?_, ?_⟩ <;> rw [ht]
      · simp
      · simp
      · exact fun _ => rfl
      · simp [hinvalid, hexists]
      · simp [← invalid_iff, hinvalid]
    | stored repository hinvalid hfits hnew hrows =>
      refine ⟨?_, ?_, ?_, ?_, ?_⟩ <;> rw [ht]
      · simp
      · exact fun _ => hrows
      · simp
      · simp [hnew]
      · simp [← invalid_iff, hinvalid]

/-- A request for the process `camera`. -/
def cameraRequest (jitterBuffer sequence : Nat) : CreateProcessRequest :=
  { ProcessForm.camera jitterBuffer with sequence := sequence }

/-- The request model accepts a jitter buffer that `INSERT` cannot bind. -/
theorem large_jitter_not_stored :
    (validate (cameraRequest (2 ^ 63) 0).body).isSome = true ∧
      ¬ StoresOrRefuses (State.init 0 cameraTable) "now" (cameraRequest (2 ^ 63) 0) := by
  refine ⟨by rw [validate_body]; rfl, fun h => ?_⟩
  have hfits : ((cameraRequest (2 ^ 63) 0).record.sequence ::
      (cameraRequest (2 ^ 63) 0).record.integers).all fitsInteger = false := by decide
  have hraised : (State.init 0 cameraTable).addProcess "now" (cameraRequest (2 ^ 63) 0) =
      (State.init 0 cameraTable).spawn (.ended .raised) := by
    unfold State.addProcess
    rw [makeRecord_eq_some.mpr ⟨rfl, rfl⟩]
    dsimp only
    rw [ProcessRepository.add_overflow "now" hfits]
  have houtcome := h.outcome
  rw [hraised] at houtcome
  simp at houtcome

/-! ## Updating -/

/-- How an update of a registered process under its own name ends. -/
inductive Updated (row : Row) : State → Prop where
  | invalid : process.invalid = true → Updated row (s.spawn (.ended .invalid))
  | overflow : process.invalid = false → process.record.integers.all fitsInteger = false →
      Updated row (s.spawn (.ended .raised))
  | stored (repository : ProcessRepository) : process.invalid = false →
      process.record.integers.all fitsInteger = true →
      repository.get process.name.1 = some (row.set time process.record) →
      (∀ other, other ≠ process.name.1 → repository.get other = s.repository.get other) →
      Updated row ({ s with repository := repository }.spawn (.ended .returned))

theorem get_updatedRows_of_ne {repo repo' : ProcessRepository} {now processId other : String}
    {record : Record} (hrows : repo'.rows = repo.updatedRows now processId record)
    (hne : other ≠ processId) : repo'.get other = repo.get other := by
  apply Option.ext
  intro row
  rw [ProcessRepository.get_eq_some, ProcessRepository.get_eq_some, hrows]
  refine and_congr_left fun hid => ?_
  simp only [ProcessRepository.updatedRows, List.mem_map]
  constructor
  · rintro ⟨old, hold, heq⟩
    split at heq
    · rename_i hold'
      subst heq
      exact absurd (hid.symm.trans hold') hne
    · exact heq ▸ hold
  · exact fun hrow => ⟨row, hrow, if_neg (hid ▸ hne)⟩

theorem updateProcess_updated {row : Row} (hget : s.repository.get process.name.1 = some row) :
    Updated s time process row (s.updateProcess time process.name.1 process) := by
  unfold State.updateProcess
  cases hinvalid : process.invalid with
  | true =>
    have hmake : makeRecord process = none := if_pos hinvalid
    rw [hmake]
    exact .invalid hinvalid
  | false =>
    obtain ⟨record, hrecord⟩ : ∃ record, process.record = record := ⟨_, rfl⟩
    have hchecks : record.checks = true := hrecord ▸ checks_record process
    rw [makeRecord_eq_some.mpr ⟨hinvalid, hrecord⟩]
    dsimp only
    cases hfits : record.integers.all fitsInteger with
    | false =>
      rw [ProcessRepository.update_overflow time process.name.1 hfits]
      exact .overflow hinvalid (hrecord ▸ hfits)
    | true =>
      obtain ⟨repository, hupdate, hrows⟩ : ∃ repository,
          s.repository.update time process.name.1 record =
            .ok ((s.repository.get process.name.1).isSome, repository) ∧
              repository.rows = s.repository.updatedRows time process.name.1 record :=
        ProcessRepository.update_eq_ok hfits hchecks
      rw [hupdate, hget]
      refine .stored repository hinvalid (hrecord ▸ hfits) ?_ fun other hne =>
        get_updatedRows_of_ne hrows hne
      rw [hrecord]
      exact (ProcessRepository.get_of_rows_eq_updatedRows hrows hget).trans
        (congrArg some (if_pos rfl))

/-- What deleting the process and adding it again at `time` would give. -/
def State.readd : State :=
  (s.deleteProcess process.name.1).addProcess time process

/-- `updateProcess`, at `time`, and `addProcess`, at `time'`, store the same record. -/
structure AgreesWithAdd (time' : String) : Prop where
  same : (s.updateProcess time process.name.1 process).lastOutcome = some .returned →
    ∃ row row', (s.updateProcess time process.name.1 process).repository.get process.name.1 =
        some row ∧
      (s.readd time' process).repository.get process.name.1 = some row' ∧
      row.toRecord = row'.toRecord
  others : (s.updateProcess time process.name.1 process).lastOutcome = some .returned →
    ∀ other, other ≠ process.name.1 →
      (s.updateProcess time process.name.1 process).repository.get other = s.repository.get other
  updateRaises : (s.updateProcess time process.name.1 process).lastOutcome ≠ some .returned →
    (s.updateProcess time process.name.1 process).repository.rows = s.repository.rows
  addRaises : ∀ s₀ : State, (s₀.addProcess time' process).lastOutcome ≠ some .returned →
    (s₀.addProcess time' process).repository.rows = s₀.repository.rows

/-- `addProcess` stores nothing when it raises. -/
theorem addProcess_raises (h : (s.addProcess time process).lastOutcome ≠ some .returned) :
    (s.addProcess time process).repository.rows = s.repository.rows := by
  have hadded := addProcess_added s time process
  generalize s.addProcess time process = t at h hadded
  cases hadded with
  | stored repository hinvalid hfits hnew hrows => exact absurd (spawn_lastOutcome _ _) h
  | _ => rfl

/-- The row that `addProcess` gives a process that has been deleted. -/
theorem get_readd (hinvalid : process.invalid = false) (row' : Row) :
    (s.readd time process).repository.get process.name.1 = some row' ↔
      Storable process ∧ row' = ⟨process.record, time, time⟩ := by
  have hdeleted : (s.deleteProcess process.name.1).repository.get process.name.1 = none :=
    ProcessRepository.get_delete_self
  have hadded := addProcess_added (s.deleteProcess process.name.1) time process
  unfold State.readd
  generalize (s.deleteProcess process.name.1).addProcess time process = t at hadded
  cases hadded with
  | invalid h =>
    rw [hinvalid] at h
    cases h
  | overflow _ hfits =>
    refine iff_of_false (fun h => ?_) fun h => hfits h.1
    cases hdeleted.symm.trans h
  | alreadyExists _ hfits hexists =>
    rw [hdeleted] at hexists
    cases hexists
  | stored repository _ hfits hnew hrows =>
    have hget : repository.get process.name.1 = some ⟨process.record, time, time⟩ := by
      rw [ProcessRepository.get_eq_some, hrows]
      exact ⟨List.mem_append_right _ (List.mem_singleton_self _), rfl⟩
    show repository.get process.name.1 = some row' ↔ _
    rw [hget, Option.some.injEq]
    exact ⟨fun h => ⟨hfits, h.symm⟩, fun h => h.2.symm⟩

/-- An update keeps the sequence number, and nothing else but the dates. -/
theorem set_toRecord {row : Row} (hid : row.id = process.name.1) :
    (row.set time process.record).toRecord = process.record ↔ row.sequence = process.sequence := by
  have hset : (row.set time process.record).toRecord =
      { process.record with sequence := row.sequence } := by
    simp only [Row.set, hid]
    rfl
  rw [hset]
  constructor
  · intro h
    exact congrArg Record.sequence h
  · intro h
    rw [h]
    rfl

/-- **When adding and updating store the same**: exactly when `updateProcess` refuses the request
    (as invalid, or because of a number that cannot be bound), or the request has the sequence
    number the row already has. -/
theorem agreesWithAdd_iff (time' : String) {row : Row}
    (hget : s.repository.get process.name.1 = some row) :
    AgreesWithAdd s time process time' ↔
      process.invalid = true ∨
        ¬ (process.jitterBuffer < 2 ^ 63 ∧ process.gpuid < 2 ^ 63 ∧
          process.intervalFrames < 2 ^ 63) ∨
        process.sequence < 2 ^ 63 ∧ row.sequence = process.sequence := by
  have hid : row.id = process.name.1 := (ProcessRepository.get_eq_some.mp hget).2
  have hupdated := updateProcess_updated s time process hget
  have hraises := fun s₀ : State => addProcess_raises s₀ time' process
  constructor
  · intro h
    have hsame := h.same
    generalize s.updateProcess time process.name.1 process = t at hsame hupdated
    cases hupdated with
    | invalid hinvalid => exact Or.inl hinvalid
    | overflow hinvalid hfits =>
      refine Or.inr (Or.inl (mt (fits_integers process).mpr ?_))
      rw [hfits]
      exact Bool.false_ne_true
    | stored repository hinvalid hfits hself hothers =>
      obtain ⟨row₁, row₂, hrow₁, hrow₂, heq⟩ := hsame (spawn_lastOutcome _ _)
      obtain ⟨hstorable, rfl⟩ := (get_readd s time' process hinvalid row₂).mp hrow₂
      cases Option.some.inj (hself.symm.trans hrow₁)
      exact Or.inr (Or.inr ⟨hstorable.2.2.2, (set_toRecord time process hid).mp heq⟩)
  · intro h
    generalize ht : s.updateProcess time process.name.1 process = t at hupdated
    cases hupdated with
    | invalid hinvalid =>
      refine ⟨?_, ?_, ?_, hraises⟩ <;> rw [ht]
      · simp
      · simp
      · exact fun _ => rfl
    | overflow hinvalid hfits =>
      refine ⟨?_, ?_, ?_, hraises⟩ <;> rw [ht]
      · simp
      · simp
      · exact fun _ => rfl
    | stored repository hinvalid hfits hself hothers =>
      refine ⟨?_, ?_, ?_, hraises⟩ <;> rw [ht]
      · intro _
        have hbounds := (fits_integers process).mp hfits
        rcases h with h | h | ⟨hseq, hkept⟩
        · rw [hinvalid] at h
          cases h
        · exact absurd hbounds h
        · have hstorable : Storable process := ⟨hbounds.1, hbounds.2.1, hbounds.2.2, hseq⟩
          exact ⟨_, _, hself, (get_readd s time' process hinvalid _).mpr ⟨hstorable, rfl⟩,
            (set_toRecord time process hid).mpr hkept⟩
      · exact fun _ => hothers
      · simp

/-- The request has the sequence number of the row. -/
theorem kept_sequence_agrees :
    AgreesWithAdd (State.init 0 cameraTable) "later" (cameraRequest 30 0) "later" := by
  have hget : (State.init 0 cameraTable).repository.get (cameraRequest 30 0).name.1 =
      some (cameraTable.rows.head (by decide)) := by decide
  exact (agreesWithAdd_iff (State.init 0 cameraTable) "later" (cameraRequest 30 0) "later"
    hget).mpr (Or.inr (Or.inr ⟨by decide, by decide⟩))

/-- Another sequence number is accepted and not stored. -/
theorem new_sequence_lost :
    ((State.init 0 cameraTable).repository.get (cameraRequest 30 7).name.1).isSome = true ∧
      ¬ AgreesWithAdd (State.init 0 cameraTable) "later" (cameraRequest 30 7) "later" := by
  refine ⟨by decide, fun h => ?_⟩
  obtain ⟨row, row', hrow, hrow', heq⟩ := h.same (by decide)
  have hupdated : (((State.init 0 cameraTable).updateProcess "later" "camera"
      (cameraRequest 30 7)).repository.get "camera").map (·.sequence) = some 0 := by decide
  have hadded : (((State.init 0 cameraTable).readd "later"
      (cameraRequest 30 7)).repository.get "camera").map (·.sequence) = some 7 := by decide
  obtain ⟨row₀, hrow₀, hseq₀⟩ := Option.map_eq_some_iff.mp hupdated
  obtain ⟨row₇, hrow₇, hseq₇⟩ := Option.map_eq_some_iff.mp hadded
  cases Option.some.inj (hrow₀.symm.trans hrow)
  cases Option.some.inj (hrow₇.symm.trans hrow')
  have hseq : row.sequence = row'.sequence := congrArg Record.sequence heq
  omega

end PipeWorks.Conductor.Supervisor
