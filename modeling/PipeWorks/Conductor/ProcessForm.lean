import PipeWorks.Conductor.Supervisor
import PipeWorks.Javascript.Number

/-!
# The edit dialog (`conductor/web/static/index.js`, `index.html` and `http_server.py`)

A stored row goes through four representations before it is stored again: the object that
`normalizeProcess` builds from the answer of the server, the fields of the form that
`showEditDialog` fills, the request body that the submit handler builds from the form, and the
record that `updateProcess` writes.  `edit` is the way through all of them, with a form that is
submitted as it is opened.  Whether the browser takes a text for a URL is its own affair, and a
parameter.

`unchanged_iff` says which rows come back as they were; `zeroJitter_changed` is a row that does
not.
-/

set_option autoImplicit false

namespace PipeWorks.Conductor.ProcessForm

open PipeWorks.Python PipeWorks.Javascript

/-! ## `normalizeProcess` -/

/-- `a || b`. -/
def orString (a b : String) : String := if a = "" then b else a

def orNumber (a b : Nat) : Nat := if a = 0 then b else a

/-- `toBoolean`. -/
def toBoolean (value : Int) : Bool := value == 1

/-- A stored integer, as `JSON.parse` reads it; the schema lets no negative ones through. -/
def number (value : Int) : Nat := double value.toNat

structure Config where
  inputUrl : String
  inputTransport : String
  jitterBuffer : Nat
  outputUrl : String
  outputTransport : String
  metadataEnabled : Bool
  metadataModule : Option String
  inferenceEnabled : Bool
  intervalFrames : Nat
  inputFormat : String
  inferenceModule : Option String
  postprocessEnabled : Bool
  postprocessModule : Option String
  desiredState : Bool
  deriving DecidableEq, Repr

/-- A displayed process, as far as the dialog reads it. -/
structure Displayed where
  name : String
  gpu : Nat
  frameType : String
  input : String
  output : String
  config : Config
  deriving DecidableEq, Repr

/-- `normalizeProcess`.  A row has an `id` and no `name`, `gpu`, `frameType`, `input` or
`output`. -/
def normalizeProcess (process : Row) : Displayed :=
  { name := process.id
    gpu := number process.inferenceGpuid
    frameType := orString process.inferenceFrameType "pytorch"
    input := orString process.inputRtspUrl ""
    output := orString process.outputRtspUrl ""
    config :=
      { inputUrl := process.inputRtspUrl
        inputTransport := process.inputTransport
        jitterBuffer := number process.inputJitterBuffer
        outputUrl := process.outputRtspUrl
        outputTransport := process.outputTransport
        metadataEnabled := toBoolean process.metadataEnabled
        metadataModule := process.metadataModulePath
        inferenceEnabled := toBoolean process.inferenceEnabled
        intervalFrames := number process.inferenceIntervalFrames
        inputFormat := process.inferenceInputFormat
        inferenceModule := process.inferenceModulePath
        postprocessEnabled := toBoolean process.postprocessEnabled
        postprocessModule := process.postprocessModulePath
        desiredState := process.desiredState == "running" } }

/-! ## `showEditDialog` -/

def isNewline (c : Char) : Bool := c == '\n' || c == '\r'

/-- The white space of HTML. -/
def isAsciiWhitespace (c : Char) : Bool :=
  c == '\t' || c == '\n' || c.toNat == 0x0C || c == '\r' || c == ' '

/-- What a text field makes of its value. -/
def textField (value : String) : String :=
  String.ofList (value.toList.filter fun c => !isNewline c)

/-- What a URL field makes of its value. -/
def urlField (value : String) : String :=
  String.ofList (stripChars isAsciiWhitespace (textField value).toList)

/-- The option that is selected by setting the value. -/
def selected (options : List String) (value : String) : Option String :=
  if options.contains value then some value else none

/-- The fields of the form.  A number field is the integer that its digits denote. -/
structure Form where
  name : String
  desiredState : Bool
  inputRtspUrl : String
  inputTransport : Option String
  jitterBuffer : Nat
  outputRtspUrl : String
  outputTransport : Option String
  metadataEnabled : Bool
  metadataModule : String
  inferenceEnabled : Bool
  inferenceModule : String
  gpuid : Nat
  intervalFrames : Nat
  inputFormat : Option String
  frameType : Option String
  postprocessEnabled : Bool
  postprocessModule : String
  deriving DecidableEq, Repr

/-- `showEditDialog`.  A module that is `null` empties its field. -/
def showEditDialog (process : Displayed) : Form :=
  let config := process.config
  { name := textField process.name
    desiredState := config.desiredState
    inputRtspUrl := urlField (orString config.inputUrl process.input)
    inputTransport := selected ["tcp", "udp"] (orString config.inputTransport "tcp")
    jitterBuffer := shortest (orNumber config.jitterBuffer 30)
    outputRtspUrl := urlField (orString config.outputUrl ("rtsp://" ++ process.output))
    outputTransport := selected ["tcp", "udp"] (orString config.outputTransport "tcp")
    metadataEnabled := config.metadataEnabled
    metadataModule := textField (config.metadataModule.getD "")
    inferenceEnabled := config.inferenceEnabled
    inferenceModule := textField (config.inferenceModule.getD "")
    gpuid := shortest process.gpu
    intervalFrames := shortest (orNumber config.intervalFrames 3)
    inputFormat := selected ["native", "rgb", "rgbp"] (orString config.inputFormat "native")
    frameType := selected ["pytorch"] process.frameType
    postprocessEnabled := config.postprocessEnabled
    postprocessModule := textField (config.postprocessModule.getD "") }

/-! ## The submit handler -/

/-- The constraints of the form, without which the browser does not submit it; the ones of the
number fields hold of every natural number. -/
def Form.valid (validUrl : String → Bool) (form : Form) : Bool :=
  form.name != "" && form.inputRtspUrl != "" && validUrl form.inputRtspUrl &&
    form.outputRtspUrl != "" && validUrl form.outputRtspUrl &&
    (!form.inferenceEnabled || form.inferenceModule != "")

/-- `Number(text)`, written again by `JSON.stringify`. -/
def resent (field : Nat) : Nat := shortest (double field)

/-- The submit handler.  `none` is a body without one of the members that are required; the
sequence number is not in the form. -/
def submit (form : Form) : Option Body := do
  let inputTransport ← form.inputTransport
  let outputTransport ← form.outputTransport
  let inputFormat ← form.inputFormat
  let frameType ← form.frameType
  some
    { name := form.name
      desiredState := form.desiredState
      inputRtspUrl := form.inputRtspUrl
      inputTransport := inputTransport
      jitterBuffer := resent form.jitterBuffer
      outputRtspUrl := form.outputRtspUrl
      outputTransport := outputTransport
      metadataEnabled := form.metadataEnabled
      metadataModule := form.metadataModule
      inferenceEnabled := form.inferenceEnabled
      gpuid := resent form.gpuid
      intervalFrames := resent form.intervalFrames
      inputFormat := inputFormat
      frameType := frameType
      inferenceModule := form.inferenceModule
      postprocessEnabled := form.postprocessEnabled
      postprocessModule := form.postprocessModule
      sequence := 0 }

/-! ## The server -/

/-- `PUT /api/processes`. -/
def put (s : Supervisor.State) (time processId : String) (body : Body) : Supervisor.State :=
  match validate body with
  | none => s
  | some process =>
    if process.name.1 ≠ processId then s else s.serve (.updateProcess time processId process)

/-- A process is edited: the dialog is opened and its form submitted as it is. -/
def edit (validUrl : String → Bool) (s : Supervisor.State) (time : String) (row : Row) :
    Supervisor.State :=
  let form := showEditDialog (normalizeProcess row)
  if form.valid validUrl then
    match submit form with
    | none => s
    | some body => put s time form.name body
  else s

/-! ## The identity -/

/-- The row is in the table, as `addProcess` has stored it. -/
def Stored (s : Supervisor.State) (row : Row) : Prop :=
  s.repository.get row.id = some row ∧ ∃ process, makeRecord process = some row.toRecord

/-- The row is in the table with another date of its last change, if any. -/
def Unchanged (s : Supervisor.State) (row : Row) : Prop :=
  ∃ updatedAt, s.repository.get row.id = some { row with updatedAt := updatedAt }

/-- The numbers that the dialog shows. -/
def numberFields (row : Row) : List Int :=
  [row.inputJitterBuffer, row.inferenceGpuid, row.inferenceIntervalFrames]

/-- The texts that the dialog shows, but for the name. -/
def textFields (row : Row) : List String :=
  [row.inputRtspUrl, row.outputRtspUrl, row.metadataModulePath.getD "",
    row.inferenceModulePath.getD "", row.postprocessModulePath.getD ""]

/-- What is written for a stored integer. -/
def shown (value : Int) : Int := shortest (number value)

/-- The form is not submitted, or names another process, or is refused by the table. -/
def Refused (validUrl : String → Bool) (row : Row) : Prop :=
  validUrl (urlField row.inputRtspUrl) = false ∨ validUrl (urlField row.outputRtspUrl) = false ∨
    textField row.id ≠ row.id ∨ ∃ value ∈ numberFields row, fitsInteger (shown value) = false

/-- The dialog shows the row as it is: neither of the two numbers that have a default is zero, every
number is written as it is stored, and no text has a line break. -/
def Shown (row : Row) : Prop :=
  row.inputJitterBuffer ≠ 0 ∧ row.inferenceIntervalFrames ≠ 0 ∧
    (∀ value ∈ numberFields row, shown value = value) ∧
    ∀ text ∈ textFields row, ∀ c ∈ text.toList, isNewline c = false

/-! ## Fields -/

section

variable {s : String} {n : Nat}

theorem whiteSpace_of_isNewline {c : Char} (h : isNewline c = true) : whiteSpace c = true := by
  simp only [isNewline, Bool.or_eq_true, beq_iff_eq] at h
  rcases h with rfl | rfl <;> rfl

theorem whiteSpace_of_isAsciiWhitespace {c : Char} (h : isAsciiWhitespace c = true) :
    whiteSpace c = true := by
  simp only [isAsciiWhitespace, Bool.or_eq_true, beq_iff_eq] at h
  rcases h with (((rfl | rfl) | h) | rfl) | rfl
  · rfl
  · rfl
  · simp [whiteSpace, h]
  · rfl
  · rfl

theorem trim_eq_iff : trim s = s ↔ stripChars whiteSpace s.toList = s.toList := by
  rw [← String.toList_inj, trim, String.toList_ofList]

theorem toList_textField : (textField s).toList = s.toList.filter fun c => !isNewline c := by
  rw [textField, String.toList_ofList]

theorem toList_eq_nil : s.toList = [] ↔ s = "" := by
  rw [← String.toList_inj]
  rfl

theorem not_isNewline {c : Char} (h : whiteSpace c = false) : (!isNewline c) = true := by
  cases hn : isNewline c with
  | false => rfl
  | true => rw [whiteSpace_of_isNewline hn] at h; cases h

/-- Taking out line breaks leaves a stripped text stripped. -/
theorem trim_textField (h : trim s = s) : trim (textField s) = textField s := by
  rw [trim_eq_iff] at h ⊢
  rw [toList_textField]
  exact stripChars_filter (fun _ => not_isNewline) h

theorem urlField_eq (h : trim s = s) : urlField s = textField s := by
  have htext := trim_eq_iff.1 (trim_textField h)
  rw [urlField, stripChars_eq_of_imp (fun c hc => ?_) htext, String.ofList_toList]
  cases ha : isAsciiWhitespace c with
  | false => rfl
  | true => rw [whiteSpace_of_isAsciiWhitespace ha] at hc; cases hc

theorem textField_eq_iff : textField s = s ↔ ∀ c ∈ s.toList, isNewline c = false := by
  rw [← String.toList_inj, toList_textField, List.filter_eq_self]
  simp

theorem textField_ne_empty (h : trim s = s) (hne : s ≠ "") : textField s ≠ "" := by
  have htext := trim_eq_iff.1 (trim_textField h)
  rw [trim_eq_iff] at h
  rw [Ne, ← toList_eq_nil, ← htext, toList_textField]
  refine stripChars_filter_ne_nil (fun _ => not_isNewline) ?_
  rw [h, Ne, toList_eq_nil]
  exact hne

/-- A text that is not blank is not blank without its line breaks. -/
theorem strip_textField_ne_empty (h : strip s ≠ "") : strip (textField s) ≠ "" := by
  rw [Ne, ← toList_eq_nil, strip, String.toList_ofList] at h ⊢
  rw [toList_textField]
  refine stripChars_filter_ne_nil (fun c hc => not_isNewline ?_) h
  simp only [isSpace, Bool.or_eq_false_iff] at hc
  exact hc.1

end

@[simp]
theorem orString_of_ne {a b : String} (h : a ≠ "") : orString a b = a := if_neg h

@[simp]
theorem selected_transport (t : Transport) :
    selected ["tcp", "udp"] (orString t.value "tcp") = some t.value := by cases t <;> rfl

@[simp]
theorem selected_inputFormat (f : InputFormat) :
    selected ["native", "rgb", "rgbp"] (orString f.value "native") = some f.value := by
  cases f <;> rfl

@[simp]
theorem selected_frameType (f : FrameType) :
    selected ["pytorch"] (orString f.value "pytorch") = some f.value := by cases f; rfl

@[simp]
theorem toBoolean_toInt (b : Bool) : toBoolean b.toInt = b := by cases b <;> rfl

@[simp]
theorem number_natCast (n : Nat) : number n = double n := rfl

/-- The digits of a number are read as that number. -/
theorem resent_shortest {x : Nat} (h : double x = x) : resent (shortest x) = shortest x := by
  rw [resent, double_shortest h]

theorem double_orNumber {n default : Nat} (h : default < 2 ^ 53) :
    double (orNumber (double n) default) = orNumber (double n) default := by
  unfold orNumber
  split
  · exact double_of_lt h
  · exact double_double n

/-! ## The way of a row -/

/-- A text without its line breaks. -/
def reshownStr (s : FieldStr) : FieldStr := ⟨textField s.1, trim_textField s.2⟩

def reshownNonEmptyStr (s : NonEmptyStr) : NonEmptyStr :=
  ⟨textField s.1, trim_textField s.2.1, textField_ne_empty s.2.1 s.2.2⟩

/-- The request that is sent for a row, by the request that the row was added with. -/
def reshown (process : CreateProcessRequest) : CreateProcessRequest :=
  { process with
    name := reshownNonEmptyStr process.name
    inputRtspUrl := reshownNonEmptyStr process.inputRtspUrl
    jitterBuffer := shortest (orNumber (double process.jitterBuffer) 30)
    outputRtspUrl := reshownNonEmptyStr process.outputRtspUrl
    metadataModule := reshownStr process.metadataModule
    gpuid := shortest (double process.gpuid)
    intervalFrames := shortest (orNumber (double process.intervalFrames) 3)
    inferenceModule := reshownStr process.inferenceModule
    postprocessModule := reshownStr process.postprocessModule
    sequence := 0 }

section

variable {process : CreateProcessRequest} {row : Row}

theorem submit_eq (h : process.record = row.toRecord) :
    submit (showEditDialog (normalizeProcess row)) = some (reshown process).body := by
  obtain ⟨record, createdAt, updatedAt⟩ := row
  dsimp only at h
  subst h
  simp [submit, showEditDialog, normalizeProcess, CreateProcessRequest.record,
    CreateProcessRequest.body, reshown, reshownStr, reshownNonEmptyStr, process.inputRtspUrl.2.2,
    process.outputRtspUrl.2.2, urlField_eq process.inputRtspUrl.2.1,
    urlField_eq process.outputRtspUrl.2.1, resent_shortest, double_orNumber]
  cases process.desiredState <;> rfl

theorem strip_module (hinvalid : process.invalid = false)
    (henabled : process.inferenceEnabled = true) :
    strip (textField process.inferenceModule.1) ≠ "" := by
  refine strip_textField_ne_empty fun hblank => ?_
  simp [CreateProcessRequest.invalid, henabled, hblank] at hinvalid

theorem invalid_reshown (hinvalid : process.invalid = false) :
    (reshown process).invalid = false := by
  cases henabled : process.inferenceEnabled with
  | false => simp [CreateProcessRequest.invalid, reshown, henabled]
  | true =>
    have hstrip := strip_module hinvalid henabled
    simp [CreateProcessRequest.invalid, reshown, reshownStr, hstrip]

/-- All that keeps the form from being submitted is the browser's view of the URLs. -/
theorem valid_eq (validUrl : String → Bool) (h : process.record = row.toRecord)
    (hinvalid : process.invalid = false) :
    (showEditDialog (normalizeProcess row)).valid validUrl =
      (validUrl (urlField row.inputRtspUrl) && validUrl (urlField row.outputRtspUrl)) := by
  obtain ⟨record, createdAt, updatedAt⟩ := row
  dsimp only at h
  subst h
  have hmodule :
      (!process.inferenceEnabled || textField process.inferenceModule.1 != "") = true := by
    cases henabled : process.inferenceEnabled with
    | false => rfl
    | true =>
      refine bne_iff_ne.2 fun hempty => strip_module hinvalid henabled ?_
      rw [hempty]
      rfl
  have hname := bne_iff_ne.2 (textField_ne_empty process.name.2.1 process.name.2.2)
  have hinput := bne_iff_ne.2 (textField_ne_empty process.inputRtspUrl.2.1 process.inputRtspUrl.2.2)
  have houtput :=
    bne_iff_ne.2 (textField_ne_empty process.outputRtspUrl.2.1 process.outputRtspUrl.2.2)
  simp only [Form.valid, showEditDialog, normalizeProcess, CreateProcessRequest.record,
    orString_of_ne process.inputRtspUrl.2.2, orString_of_ne process.outputRtspUrl.2.2,
    urlField_eq process.inputRtspUrl.2.1, urlField_eq process.outputRtspUrl.2.1,
    toBoolean_toInt, Option.getD_some, hname, hinput, houtput, hmodule, Bool.true_and,
    Bool.and_true]

theorem spawn_repository (s : Supervisor.State) (thread : Supervisor.Thread) :
    (s.spawn thread).repository = s.repository := rfl

/-- The table after `updateProcess`. -/
theorem updateProcess_repository (s : Supervisor.State) (time processId : String) {record : Record}
    (h : makeRecord process = some record) :
    (s.updateProcess time processId process).repository =
      match s.repository.update time processId record with
      | .ok (_, repository) => repository
      | .error _ => s.repository := by
  unfold Supervisor.State.updateProcess
  rw [h]
  dsimp only
  cases s.repository.update time processId record <;> exact spawn_repository _ _

/-- What `updateProcess` leaves of a row. -/
theorem get_updateProcess (s : Supervisor.State) (time processId : String) {record : Record}
    (hget : s.repository.get row.id = some row) (h : makeRecord process = some record)
    (hchecks : record.checks = true) :
    (s.updateProcess time processId process).repository.get row.id =
      some (if record.integers.all fitsInteger = true ∧ row.id = processId
        then row.set time record else row) := by
  rw [updateProcess_repository s time processId h]
  cases hfits : record.integers.all fitsInteger with
  | false =>
    rw [ProcessRepository.update_overflow time processId hfits,
      if_neg (fun h => Bool.false_ne_true h.1)]
    exact hget
  | true =>
    obtain ⟨repository, hupdate, hrows⟩ : ∃ repository,
        s.repository.update time processId record =
          .ok ((s.repository.get processId).isSome, repository) ∧
            repository.rows = s.repository.updatedRows time processId record :=
      ProcessRepository.update_eq_ok hfits hchecks
    rw [hupdate]
    refine (ProcessRepository.get_of_rows_eq_updatedRows hrows hget).trans ?_
    simp only [true_and]

/-- What is in the table afterwards. -/
theorem get_edit (validUrl : String → Bool) (s : Supervisor.State) (time : String)
    (hget : s.repository.get row.id = some row) (h : process.record = row.toRecord)
    (hinvalid : process.invalid = false) :
    (edit validUrl s time row).repository.get row.id =
      some (if (validUrl (urlField row.inputRtspUrl) &&
            validUrl (urlField row.outputRtspUrl)) = true ∧
          (reshown process).record.integers.all fitsInteger = true ∧ row.id = textField row.id
        then row.set time (reshown process).record else row) := by
  have hname : (reshown process).name.1 = textField row.id := by rw [← h]; rfl
  unfold edit
  simp only [valid_eq validUrl h hinvalid, submit_eq h]
  cases validUrl (urlField row.inputRtspUrl) && validUrl (urlField row.outputRtspUrl) with
  | false => simpa using hget
  | true =>
    have hput : put s time (showEditDialog (normalizeProcess row)).name (reshown process).body =
        s.updateProcess time (textField row.id) (reshown process) := by
      unfold put
      rw [validate_body]
      exact if_neg (not_not.2 hname)
    simp only [if_true, hput, true_and]
    exact get_updateProcess s time _ hget
      (makeRecord_eq_some.2 ⟨invalid_reshown hinvalid, rfl⟩) (checks_record _)

theorem shortest_orNumber_zero {default : Nat} (hlt : default < 2 ^ 53) :
    shortest (orNumber (double 0) default) = default := by
  rw [orNumber, if_pos (double_eq_zero.2 rfl), shortest_of_lt hlt]

theorem orNumber_of_ne {n : Nat} (h : n ≠ 0) (default : Nat) :
    orNumber (double n) default = double n :=
  if_neg fun hzero => h (double_eq_zero.1 hzero)

/-- A default stands for zero only. -/
theorem shortest_orNumber (n default : Nat) (hpos : 0 < default) (hlt : default < 2 ^ 53) :
    shortest (orNumber (double n) default) = n ↔ n ≠ 0 ∧ shortest (double n) = n := by
  by_cases h0 : n = 0
  · subst h0
    rw [shortest_orNumber_zero hlt]
    omega
  · rw [orNumber_of_ne h0]
    simp [h0]

/-- The default fits if it stands for the number. -/
theorem fits_orNumber {n default : Nat} (hlt : default < 2 ^ 53) :
    fitsInteger (shortest (orNumber (double n) default)) = fitsInteger (shortest (double n)) := by
  by_cases h0 : n = 0
  · subst h0
    have hzero : shortest (double 0) = 0 := by decide
    have hfits : fitsInteger default = true := by
      simp only [fitsInteger, Bool.and_eq_true, decide_eq_true_eq]
      omega
    rw [shortest_orNumber_zero hlt, hzero, hfits]
    rfl
  · rw [orNumber_of_ne h0]

theorem fits_reshown (h : process.record = row.toRecord) :
    (reshown process).record.integers.all fitsInteger =
      (numberFields row).all fun value => fitsInteger (shown value) := by
  have hflag : ∀ b : Bool, fitsInteger b.toInt = true := by decide
  obtain ⟨record, createdAt, updatedAt⟩ := row
  dsimp only at h
  subst h
  simp [Record.integers, CreateProcessRequest.record, reshown, numberFields, shown, hflag,
    fits_orNumber]

/-- What is stored is what was stored if the dialog has shown it. -/
theorem set_eq_iff (h : process.record = row.toRecord) (time updatedAt : String) :
    row.set time (reshown process).record = { row with updatedAt := updatedAt } ↔
      updatedAt = time ∧ Shown row := by
  obtain ⟨record, createdAt, updatedAt⟩ := row
  dsimp only at h
  subst h
  have hzero : ∀ n : Nat, (n : Int) ≠ 0 ↔ n ≠ 0 := by
    intro n
    omega
  have hjitter := shortest_orNumber process.jitterBuffer 30 (by decide) (by decide)
  have hinterval := shortest_orNumber process.intervalFrames 3 (by decide) (by decide)
  simp only [Row.set, CreateProcessRequest.record, reshown, Shown, numberFields, textFields, shown,
    reshownStr, reshownNonEmptyStr, ← textField_eq_iff, Row.mk.injEq, Record.mk.injEq,
    List.forall_mem_cons, Option.some.injEq, Option.getD_some, Int.natCast_inj, number_natCast,
    hjitter, hinterval, hzero, eq_comm (b := time)]
  simp only [List.not_mem_nil, false_imp_iff, implies_true, true_and, and_true]
  constructor
  · rintro ⟨⟨hinput, ⟨hj0, hj⟩, houtput, hmetadata, hgpuid, ⟨hi0, hi⟩, hinference, hpostprocess,
      _⟩, htime⟩
    exact ⟨htime, hj0, hi0, ⟨hj, hgpuid, hi⟩, hinput, houtput, hmetadata, hinference, hpostprocess⟩
  · rintro ⟨htime, hj0, hi0, ⟨hj, hgpuid, hi⟩, hinput, houtput, hmetadata, hinference, hpostprocess⟩
    exact ⟨⟨hinput, ⟨hj0, hj⟩, houtput, hmetadata, hgpuid, ⟨hi0, hi⟩, hinference, hpostprocess,
      rfl⟩, htime⟩

/-- A row comes back as it was exactly if nothing is stored or the dialog has shown it as it is. -/
theorem unchanged_iff (validUrl : String → Bool) (s : Supervisor.State) (time : String) (row : Row)
    (h : Stored s row) :
    Unchanged (edit validUrl s time row) row ↔ Refused validUrl row ∨ Shown row := by
  obtain ⟨hget, process, hmake⟩ := h
  obtain ⟨hinvalid, hrecord⟩ := makeRecord_eq_some.1 hmake
  unfold Unchanged
  rw [get_edit validUrl s time hget hrecord hinvalid, fits_reshown hrecord]
  split
  case isTrue hstored =>
    obtain ⟨hurls, hfits, hname⟩ := hstored
    have hrefused : ¬ Refused validUrl row := by
      simp only [Bool.and_eq_true, List.all_eq_true] at hurls hfits
      rintro (hinput | houtput | hrenamed | ⟨value, hmem, hvalue⟩)
      · simp [hurls.1] at hinput
      · simp [hurls.2] at houtput
      · exact hrenamed hname.symm
      · simp [hfits value hmem] at hvalue
    rw [or_iff_right hrefused]
    simp only [Option.some.injEq, set_eq_iff hrecord, exists_eq_left]
  case isFalse hstored =>
    have hrefused : Refused validUrl row := by
      by_contra hnot
      simp only [Refused, not_or, not_exists, not_and, Bool.not_eq_false, not_not] at hnot
      obtain ⟨hinput, houtput, hname, hfits⟩ := hnot
      exact hstored ⟨by simp [hinput, houtput], List.all_eq_true.2 hfits, hname.symm⟩
    exact ⟨fun _ => .inl hrefused, fun _ => ⟨row.updatedAt, rfl⟩⟩

end

/-- What `addProcess` stores is stored. -/
theorem stored_addProcess {s : Supervisor.State} {time : String} {process : CreateProcessRequest}
    {record : Record} {repository : ProcessRepository} (hmake : makeRecord process = some record)
    (hadd : s.repository.add time record = .ok repository) :
    Stored (s.addProcess time process) ⟨record, time, time⟩ := by
  refine ⟨?_, process, hmake⟩
  have hrepository : (s.addProcess time process).repository = repository := by
    unfold Supervisor.State.addProcess
    rw [hmake]
    dsimp only
    rw [hadd]
    exact spawn_repository _ _
  rw [hrepository]
  exact ProcessRepository.get_add_self hadd

/-! ## Two rows -/

/-- A process without a module. -/
def camera (jitterBuffer : Nat) : CreateProcessRequest where
  name := ⟨"camera", by decide⟩
  desiredState := false
  inputRtspUrl := ⟨"rtsp://in", by decide⟩
  inputTransport := .tcp
  jitterBuffer := jitterBuffer
  outputRtspUrl := ⟨"rtsp://out", by decide⟩
  outputTransport := .udp
  metadataEnabled := false
  metadataModule := ⟨"", by decide⟩
  inferenceEnabled := false
  gpuid := 0
  intervalFrames := 3
  inputFormat := .native
  frameType := .pytorch
  inferenceModule := ⟨"", by decide⟩
  postprocessEnabled := false
  postprocessModule := ⟨"", by decide⟩
  sequence := 1

def cameraRow (jitterBuffer : Nat) : Row := ⟨(camera jitterBuffer).record, "now", "now"⟩

def emptyTable : ProcessRepository := ⟨[], List.nodup_nil, by simp⟩

/-- A supervisor that has started with an empty table and has added the process. -/
def added (jitterBuffer : Nat) : Supervisor.State :=
  (Supervisor.State.init 0 emptyTable).addProcess "now" (camera jitterBuffer)

theorem stored_camera {jitterBuffer : Nat}
    (hfits : ((camera jitterBuffer).record.sequence ::
      (camera jitterBuffer).record.integers).all fitsInteger = true) :
    Stored (added jitterBuffer) (cameraRow jitterBuffer) := by
  have hkey : (camera jitterBuffer).record.id ∉ emptyTable.rows.map fun row => row.id :=
    List.not_mem_nil
  have hchecks := checks_record (camera jitterBuffer)
  obtain ⟨repository, hadd⟩ := ProcessRepository.exists_add "now" hfits hchecks hkey
  have hinvalid : (camera jitterBuffer).invalid = false := Bool.false_and _
  have hmake := makeRecord_eq_some.2 ⟨hinvalid, rfl⟩
  exact stored_addProcess (s := Supervisor.State.init 0 emptyTable) hmake hadd

/-- The row with the numbers and texts of the placeholders. -/
theorem camera_unchanged :
    Unchanged (edit (fun _ => true) (added 30) "later" (cameraRow 30)) (cameraRow 30) := by
  refine (unchanged_iff _ _ _ _ (stored_camera (by decide))).2 (.inr ?_)
  have htexts : ∀ text ∈ textFields (cameraRow 30), textField text = text := by decide
  exact ⟨by decide, by decide, by decide, fun text h => textField_eq_iff.1 (htexts text h)⟩

/-- A jitter buffer of zero, which the dialog shows as 30. -/
theorem zeroJitter_changed :
    ¬ Unchanged (edit (fun _ => true) (added 0) "later" (cameraRow 0)) (cameraRow 0) := by
  rintro ⟨updatedAt, hget⟩
  have hrecord : (camera 0).record = (cameraRow 0).toRecord := rfl
  have hinvalid : (camera 0).invalid = false := rfl
  have hstored : (reshown (camera 0)).record.integers.all fitsInteger = true := by decide
  have hname : (cameraRow 0).id = textField (cameraRow 0).id := by decide
  rw [get_edit _ _ _ (stored_camera (by decide)).1 hrecord hinvalid,
    if_pos ⟨rfl, hstored, hname⟩, Option.some.injEq] at hget
  have hjitter : (reshown (camera 0)).record.inputJitterBuffer = 0 :=
    congrArg (fun row : Row => row.inputJitterBuffer) hget
  exact absurd hjitter (by decide)

end PipeWorks.Conductor.ProcessForm
