import PipeWorks.Conductor.ProcessRepository
import PipeWorks.Python.Str

/-!
# Process definitions (`CreateProcessRequest` and `Supervisor._makeRecord`)

The request model of `conductor/web/http_server.py` strips its strings, checks their lengths, the
literals and the lower bounds (`validate`); what it accepts carries these facts in its types.
`makeRecord` turns a request into the parameters of `INSERT` and `UPDATE`.
-/

set_option autoImplicit false

namespace PipeWorks.Conductor

open PipeWorks.Python

/-- A `str` field of the model: `str_strip_whitespace` has been applied. -/
abbrev FieldStr := { s : String // trim s = s }

/-- A `str` field with `min_length=1`. -/
abbrev NonEmptyStr := { s : String // trim s = s ∧ s ≠ "" }

inductive Transport where
  | tcp
  | udp
  deriving DecidableEq, Repr

inductive InputFormat where
  | native
  | rgb
  | rgbp
  deriving DecidableEq, Repr

inductive FrameType where
  | pytorch
  deriving DecidableEq, Repr

def Transport.value : Transport → String
  | .tcp => "tcp"
  | .udp => "udp"

def InputFormat.value : InputFormat → String
  | .native => "native"
  | .rgb => "rgb"
  | .rgbp => "rgbp"

def FrameType.value : FrameType → String
  | .pytorch => "pytorch"

/-- An accepted request. -/
structure CreateProcessRequest where
  name : NonEmptyStr
  desiredState : Bool
  inputRtspUrl : NonEmptyStr
  inputTransport : Transport
  jitterBuffer : Nat
  outputRtspUrl : NonEmptyStr
  outputTransport : Transport
  metadataEnabled : Bool
  metadataModule : FieldStr
  inferenceEnabled : Bool
  gpuid : Nat
  intervalFrames : Nat
  inputFormat : InputFormat
  frameType : FrameType
  inferenceModule : FieldStr
  postprocessEnabled : Bool
  postprocessModule : FieldStr
  sequence : Nat

/-- A request body, after its JSON has been read and its defaults have been filled in. -/
structure Body where
  name : String
  desiredState : Bool
  inputRtspUrl : String
  inputTransport : String
  jitterBuffer : Int
  outputRtspUrl : String
  outputTransport : String
  metadataEnabled : Bool
  metadataModule : String
  inferenceEnabled : Bool
  gpuid : Int
  intervalFrames : Int
  inputFormat : String
  frameType : String
  inferenceModule : String
  postprocessEnabled : Bool
  postprocessModule : String
  sequence : Int
  deriving DecidableEq, Repr

/-- A `str` field. -/
def fieldStr (s : String) : FieldStr := ⟨trim s, by simp [trim, stripChars_idem]⟩

/-- `Field(min_length=1)`. -/
def nonEmptyStr? (s : String) : Option NonEmptyStr :=
  if h : trim s ≠ "" then some ⟨trim s, (fieldStr s).2, h⟩ else none

/-- `Field(ge=0)`. -/
def ge0? (i : Int) : Option Nat := if 0 ≤ i then some i.toNat else none

def transport? : String → Option Transport
  | "tcp" => some .tcp
  | "udp" => some .udp
  | _ => none

def inputFormat? : String → Option InputFormat
  | "native" => some .native
  | "rgb" => some .rgb
  | "rgbp" => some .rgbp
  | _ => none

def frameType? : String → Option FrameType
  | "pytorch" => some .pytorch
  | _ => none

/-- The validation of a request body. -/
def validate (b : Body) : Option CreateProcessRequest := do
  let name ← nonEmptyStr? b.name
  let inputRtspUrl ← nonEmptyStr? b.inputRtspUrl
  let inputTransport ← transport? b.inputTransport
  let jitterBuffer ← ge0? b.jitterBuffer
  let outputRtspUrl ← nonEmptyStr? b.outputRtspUrl
  let outputTransport ← transport? b.outputTransport
  let gpuid ← ge0? b.gpuid
  let intervalFrames ← ge0? b.intervalFrames
  let inputFormat ← inputFormat? b.inputFormat
  let frameType ← frameType? b.frameType
  let sequence ← ge0? b.sequence
  some
    { name := name
      desiredState := b.desiredState
      inputRtspUrl := inputRtspUrl
      inputTransport := inputTransport
      jitterBuffer := jitterBuffer
      outputRtspUrl := outputRtspUrl
      outputTransport := outputTransport
      metadataEnabled := b.metadataEnabled
      metadataModule := fieldStr b.metadataModule
      inferenceEnabled := b.inferenceEnabled
      gpuid := gpuid
      intervalFrames := intervalFrames
      inputFormat := inputFormat
      frameType := frameType
      inferenceModule := fieldStr b.inferenceModule
      postprocessEnabled := b.postprocessEnabled
      postprocessModule := fieldStr b.postprocessModule
      sequence := sequence }

/-- The inference is enabled and has no module. -/
def CreateProcessRequest.invalid (process : CreateProcessRequest) : Bool :=
  process.inferenceEnabled && strip process.inferenceModule.1 == ""

/-- The record of a request that is not invalid. -/
def CreateProcessRequest.record (process : CreateProcessRequest) : Record :=
  { id := process.name.1
    inputRtspUrl := process.inputRtspUrl.1
    inputTransport := process.inputTransport.value
    inputJitterBuffer := process.jitterBuffer
    outputRtspUrl := process.outputRtspUrl.1
    outputTransport := process.outputTransport.value
    metadataEnabled := process.metadataEnabled.toInt
    metadataModulePath := some process.metadataModule.1
    inferenceEnabled := process.inferenceEnabled.toInt
    inferenceGpuid := process.gpuid
    inferenceIntervalFrames := process.intervalFrames
    inferenceInputFormat := process.inputFormat.value
    inferenceFrameType := process.frameType.value
    inferenceModulePath := some process.inferenceModule.1
    postprocessEnabled := process.postprocessEnabled.toInt
    postprocessModulePath := some process.postprocessModule.1
    desiredState := if process.desiredState then "running" else "stopped"
    sequence := process.sequence }

/-- `_makeRecord`; `none` is `InvalidProcessError`. -/
def makeRecord (process : CreateProcessRequest) : Option Record :=
  if process.invalid then none else some process.record

/-! ## Accepted values -/

@[simp]
theorem transport?_value (t : Transport) : transport? t.value = some t := by cases t <;> rfl

@[simp]
theorem inputFormat?_value (f : InputFormat) : inputFormat? f.value = some f := by cases f <;> rfl

@[simp]
theorem frameType?_value (f : FrameType) : frameType? f.value = some f := by cases f; rfl

@[simp]
theorem ge0?_natCast (n : Nat) : ge0? n = some n := by simp [ge0?]

theorem nonEmptyStr?_eq {s : String} (h : trim s = s ∧ s ≠ "") : nonEmptyStr? s = some ⟨s, h⟩ := by
  have hne : trim s ≠ "" := by
    rw [h.1]
    exact h.2
  unfold nonEmptyStr?
  rw [dif_pos hne]
  exact congrArg some (Subtype.ext h.1)

theorem fieldStr_eq {s : String} (h : trim s = s) : fieldStr s = ⟨s, h⟩ :=
  Subtype.ext h

/-- The body that gives a request as it is. -/
def CreateProcessRequest.body (process : CreateProcessRequest) : Body :=
  { name := process.name.1
    desiredState := process.desiredState
    inputRtspUrl := process.inputRtspUrl.1
    inputTransport := process.inputTransport.value
    jitterBuffer := process.jitterBuffer
    outputRtspUrl := process.outputRtspUrl.1
    outputTransport := process.outputTransport.value
    metadataEnabled := process.metadataEnabled
    metadataModule := process.metadataModule.1
    inferenceEnabled := process.inferenceEnabled
    gpuid := process.gpuid
    intervalFrames := process.intervalFrames
    inputFormat := process.inputFormat.value
    frameType := process.frameType.value
    inferenceModule := process.inferenceModule.1
    postprocessEnabled := process.postprocessEnabled
    postprocessModule := process.postprocessModule.1
    sequence := process.sequence }

theorem validate_body (process : CreateProcessRequest) :
    validate process.body = some process := by
  simp [validate, CreateProcessRequest.body, nonEmptyStr?_eq process.name.2,
    nonEmptyStr?_eq process.inputRtspUrl.2, nonEmptyStr?_eq process.outputRtspUrl.2,
    fieldStr_eq process.metadataModule.2, fieldStr_eq process.inferenceModule.2,
    fieldStr_eq process.postprocessModule.2]

theorem makeRecord_eq_some {process : CreateProcessRequest} {record : Record} :
    makeRecord process = some record ↔ process.invalid = false ∧ process.record = record := by
  unfold makeRecord
  cases process.invalid <;> simp

/-- The record of a request meets the constraints of the schema. -/
theorem checks_record (process : CreateProcessRequest) : process.record.checks = true := by
  have htransport : ∀ t : Transport, t.value = "tcp" ∨ t.value = "udp" := by
    rintro (_ | _) <;> simp [Transport.value]
  have hformat : ∀ f : InputFormat, f.value = "native" ∨ f.value = "rgb" ∨ f.value = "rgbp" := by
    rintro (_ | _ | _) <;> simp [InputFormat.value]
  have hframe : ∀ f : FrameType, f.value = "pytorch" := fun .pytorch => rfl
  have hflag : ∀ b : Bool, b.toInt = 0 ∨ b.toInt = 1 := by decide
  simp [Record.checks, CreateProcessRequest.record, htransport, hformat, hframe, hflag]

end PipeWorks.Conductor
