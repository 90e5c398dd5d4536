import Mathlib.Algebra.Group.Int.Defs
import Mathlib.Data.List.Nodup
import Mathlib.Data.List.Sort

/-!
# The process table (`ProcessRepository` of `conductor/process/process_repository.py`)

The rows of the table `processes`, with what the schema guarantees about them: the primary key is
unique and every row meets the `CHECK` constraints.  Both are fields of `ProcessRepository`, so
that a statement that would break one of them has no result but its error.

An integer is bound before the statement runs, and a constraint is checked before the key.
-/

set_option autoImplicit false

namespace PipeWorks.Conductor

/-- The named parameters of `INSERT` and `UPDATE`. -/
structure Record where
  id : String
  inputRtspUrl : String
  inputTransport : String
  inputJitterBuffer : Int
  outputRtspUrl : String
  outputTransport : String
  metadataEnabled : Int
  metadataModulePath : Option String
  inferenceEnabled : Int
  inferenceGpuid : Int
  inferenceIntervalFrames : Int
  inferenceInputFormat : String
  inferenceFrameType : String
  inferenceModulePath : Option String
  postprocessEnabled : Int
  postprocessModulePath : Option String
  desiredState : String
  sequence : Int
  deriving DecidableEq, Repr

structure Row extends Record where
  createdAt : String
  updatedAt : String
  deriving DecidableEq, Repr

/-- The `CHECK` constraints of the schema. -/
def Record.checks (r : Record) : Bool :=
  ["tcp", "udp"].contains r.inputTransport && decide (0 ≤ r.inputJitterBuffer) &&
    ["tcp", "udp"].contains r.outputTransport && [0, 1].contains r.metadataEnabled &&
    [0, 1].contains r.inferenceEnabled && decide (0 ≤ r.inferenceGpuid) &&
    decide (0 ≤ r.inferenceIntervalFrames) &&
    ["native", "rgb", "rgbp"].contains r.inferenceInputFormat &&
    ["pytorch"].contains r.inferenceFrameType && [0, 1].contains r.postprocessEnabled &&
    ["running", "stopped"].contains r.desiredState && decide (0 ≤ r.sequence)

/-- An integer that SQLite can store. -/
def fitsInteger (i : Int) : Bool := decide (-2 ^ 63 ≤ i) && decide (i < 2 ^ 63)

/-- The integers that `UPDATE` names; `INSERT` names the sequence number too. -/
def Record.integers (r : Record) : List Int :=
  [r.inputJitterBuffer, r.metadataEnabled, r.inferenceEnabled, r.inferenceGpuid,
    r.inferenceIntervalFrames, r.postprocessEnabled]

inductive SqlError where
  /-- `OverflowError`: an integer does not fit -/
  | overflow
  /-- `IntegrityError` with `SQLITE_CONSTRAINT_PRIMARYKEY` -/
  | primaryKey
  /-- `IntegrityError` with `SQLITE_CONSTRAINT_CHECK` -/
  | check
  deriving DecidableEq, Repr

structure ProcessRepository where
  rows : List Row
  primaryKey : (rows.map fun row => row.id).Nodup
  checked : ∀ row ∈ rows, row.checks = true

namespace ProcessRepository

/-- `get`. -/
def get (repo : ProcessRepository) (processId : String) : Option Row :=
  repo.rows.find? fun row => row.id == processId

/-- `getAll`. -/
def getAll (repo : ProcessRepository) : List Row :=
  repo.rows.insertionSort fun a b => a.sequence ≤ b.sequence

/-- `add`, at the time `now`. -/
def add (repo : ProcessRepository) (now : String) (process : Record) :
    Except SqlError ProcessRepository :=
  if (process.sequence :: process.integers).all fitsInteger then
    if hcheck : process.checks = true then
      if hkey : process.id ∈ repo.rows.map fun row => row.id then .error .primaryKey
      else .ok
        { rows := repo.rows ++ [⟨process, now, now⟩]
          primaryKey := by
            rw [List.map_append]
            exact List.Nodup.append repo.primaryKey (List.nodup_singleton _)
              (by simpa [List.disjoint_singleton] using hkey)
          checked := by
            intro row hrow
            rcases List.mem_append.mp hrow with hrow | hrow
            · exact repo.checked row hrow
            · rw [List.mem_singleton.mp hrow]
              exact hcheck }
    else .error .check
  else .error .overflow

/-- `delete`, with the answer whether there was a row. -/
def delete (repo : ProcessRepository) (processId : String) : Bool × ProcessRepository :=
  ((repo.get processId).isSome,
    { rows := repo.rows.filter fun row => row.id != processId
      primaryKey := repo.primaryKey.sublist (List.filter_sublist.map _)
      checked := fun row hrow => repo.checked row (List.mem_filter.mp hrow).1 })

end ProcessRepository

/-- The row after `UPDATE`: neither its key, its place nor its date of creation changes. -/
def Row.set (row : Row) (now : String) (process : Record) : Row :=
  { process with
    id := row.id
    sequence := row.sequence
    createdAt := row.createdAt
    updatedAt := now }

namespace ProcessRepository

/-- The rows after `UPDATE ... WHERE id = processId`. -/
def updatedRows (repo : ProcessRepository) (now processId : String) (process : Record) : List Row :=
  repo.rows.map fun row => if row.id = processId then row.set now process else row

theorem ids_updatedRows (repo : ProcessRepository) (now processId : String) (process : Record) :
    ((repo.updatedRows now processId process).map fun row => row.id) =
      repo.rows.map fun row => row.id := by
  unfold updatedRows
  rw [List.map_map]
  apply List.map_congr_left
  intro row _
  show (if row.id = processId then row.set now process else row).id = row.id
  split <;> rfl

/-- `update`, with the answer whether there was a row. -/
def update (repo : ProcessRepository) (now processId : String) (process : Record) :
    Except SqlError (Bool × ProcessRepository) :=
  if process.integers.all fitsInteger then
    if hcheck : ∀ row ∈ repo.updatedRows now processId process, row.checks = true then
      .ok ((repo.get processId).isSome,
        { rows := repo.updatedRows now processId process
          primaryKey := by
            rw [ids_updatedRows]
            exact repo.primaryKey
          checked := hcheck })
    else .error .check
  else .error .overflow

variable {repo : ProcessRepository} {processId other : String} {row : Row}

theorem get_eq_some : repo.get processId = some row ↔ row ∈ repo.rows ∧ row.id = processId := by
  constructor
  · intro h
    exact ⟨List.mem_of_find?_eq_some h, by simpa using List.find?_some h⟩
  · rintro ⟨hmem, rfl⟩
    unfold get
    rw [List.find?_eq_some_iff_append]
    obtain ⟨before, after, hrows⟩ := List.append_of_mem hmem
    refine ⟨by simp, before, after, hrows, fun other hother => ?_⟩
    have hnodup := repo.primaryKey
    rw [hrows, List.map_append, List.map_cons] at hnodup
    have hdisjoint := (List.nodup_append.mp hnodup).2.2
    simp only [Bool.not_eq_eq_eq_not, Bool.not_true, beq_eq_false_iff_ne]
    exact hdisjoint other.id (List.mem_map_of_mem hother) row.id (List.mem_cons_self ..)

theorem get_isSome :
    (repo.get processId).isSome = true ↔ ∃ row ∈ repo.rows, row.id = processId := by
  rw [Option.isSome_iff_exists]
  simp only [get_eq_some]

/-- Deleting one row leaves the others. -/
theorem get_delete_of_ne (h : other ≠ processId) :
    (repo.delete processId).2.get other = repo.get other := by
  apply Option.ext
  intro row
  rw [get_eq_some, get_eq_some]
  simp only [delete, List.mem_filter, bne_iff_ne]
  constructor
  · exact fun hrow => ⟨hrow.1.1, hrow.2⟩
  · exact fun hrow => ⟨⟨hrow.1, hrow.2 ▸ h⟩, hrow.2⟩

theorem get_delete_self : (repo.delete processId).2.get processId = none := by
  rw [Option.eq_none_iff_forall_ne_some]
  intro row hrow
  have hmem := get_eq_some.mp hrow
  simp only [delete, List.mem_filter, bne_iff_ne] at hmem
  exact hmem.1.2 hmem.2

/-- What `add` stores. -/
theorem rows_add {now : String} {process : Record} {repo' : ProcessRepository}
    (hadd : repo.add now process = .ok repo') :
    repo'.rows = repo.rows ++ [⟨process, now, now⟩] := by
  unfold add at hadd
  split at hadd
  · split at hadd
    · split at hadd <;> cases hadd
      rfl
    · cases hadd
  · cases hadd

/-- A row that was there is there after another has been added. -/
theorem get_isSome_add {now : String} {process : Record} {repo' : ProcessRepository}
    (hadd : repo.add now process = .ok repo') (h : (repo.get processId).isSome = true) :
    (repo'.get processId).isSome = true := by
  rw [get_isSome] at h ⊢
  obtain ⟨row, hrow, hid⟩ := h
  rw [rows_add hadd]
  exact ⟨row, List.mem_append_left _ hrow, hid⟩

/-- When `add` stores a record. -/
theorem exists_add (now : String) {process : Record}
    (hfits : (process.sequence :: process.integers).all fitsInteger = true)
    (hchecks : process.checks = true) (hkey : process.id ∉ repo.rows.map fun row => row.id) :
    ∃ repo', repo.add now process = .ok repo' := by
  unfold add
  rw [if_pos hfits, dif_pos hchecks, dif_neg hkey]
  exact ⟨_, rfl⟩

theorem add_overflow (now : String) {process : Record}
    (hfits : (process.sequence :: process.integers).all fitsInteger = false) :
    repo.add now process = .error .overflow := by
  unfold add
  rw [if_neg (by simp [hfits])]

theorem add_primaryKey (now : String) {process : Record}
    (hfits : (process.sequence :: process.integers).all fitsInteger = true)
    (hchecks : process.checks = true) (hkey : process.id ∈ repo.rows.map fun row => row.id) :
    repo.add now process = .error .primaryKey := by
  unfold add
  rw [if_pos hfits, dif_pos hchecks, dif_pos hkey]

theorem get_add_self {now : String} {process : Record} {repo' : ProcessRepository}
    (hadd : repo.add now process = .ok repo') :
    repo'.get process.id = some ⟨process, now, now⟩ := by
  rw [get_eq_some, rows_add hadd]
  exact ⟨List.mem_append_right _ (List.mem_singleton_self _), rfl⟩

theorem update_overflow (now processId : String) {process : Record}
    (hfits : process.integers.all fitsInteger = false) :
    repo.update now processId process = .error .overflow := by
  unfold update
  rw [if_neg (by simp [hfits])]

/-- An update neither adds nor removes a row. -/
theorem get_isSome_update {now : String} {process : Record} {found : Bool}
    {repo' : ProcessRepository} (hupdate : repo.update now other process = .ok (found, repo')) :
    (repo'.get processId).isSome = (repo.get processId).isSome := by
  have hids : ∀ repo : ProcessRepository, (repo.get processId).isSome = true ↔
      processId ∈ repo.rows.map fun row => row.id := by
    intro repo
    rw [get_isSome, List.mem_map]
  rw [Bool.eq_iff_iff, hids, hids]
  unfold update at hupdate
  split at hupdate
  · split at hupdate
    · cases hupdate
      rw [ids_updatedRows]
    · cases hupdate
  · cases hupdate

/-- What `update` does, if its parameters can be bound and meet the constraints. -/
theorem update_eq_ok {now : String} {process : Record}
    (hfits : process.integers.all fitsInteger = true) (hchecks : process.checks = true) :
    ∃ repo', repo.update now processId process = .ok ((repo.get processId).isSome, repo') ∧
      repo'.rows = repo.updatedRows now processId process := by
  have hcheck : ∀ row ∈ repo.updatedRows now processId process, row.checks = true := by
    intro row hrow
    obtain ⟨old, hold, rfl⟩ := List.mem_map.mp hrow
    have holdChecks := repo.checked old hold
    split
    · simp only [Record.checks, Row.set, Bool.and_eq_true] at holdChecks hchecks ⊢
      exact ⟨hchecks.1, holdChecks.2⟩
    · exact holdChecks
  unfold update
  rw [if_pos hfits, dif_pos hcheck]
  exact ⟨_, rfl, rfl⟩

theorem get_of_rows_eq_updatedRows {repo' : ProcessRepository} {now : String} {process : Record}
    (hrows : repo'.rows = repo.updatedRows now processId process) (h : repo.get other = some row) :
    repo'.get other = some (if other = processId then row.set now process else row) := by
  obtain ⟨hmem, rfl⟩ := get_eq_some.mp h
  rw [get_eq_some, hrows]
  refine ⟨List.mem_map.mpr ⟨row, hmem, rfl⟩, ?_⟩
  split <;> rfl

theorem mem_getAll : row ∈ repo.getAll ↔ row ∈ repo.rows :=
  (List.perm_insertionSort _ repo.rows).mem_iff

end ProcessRepository

end PipeWorks.Conductor
