import PipeWorks.Lib.Fails
import PipeWorks.NvidiaPipe.Config
import PipeWorks.NvidiaPipe.Receive
import PipeWorks.Python.Int

/-!
# What a pipeline reads of its configuration (`nvidia_pipe/cli.py`)

`validateConfig` checks the document; then `run_pipeline`, `receive`, `decode` and `send` read it,
at their own time and in their own way.  `runPipeline` is the sequence of these reads, with the
calls between them that have nothing to do with the configuration; `World` says what such a call
raises.

`neverMistyped_iff`: for an accepted document, what the reads of a run raise is never a `TypeError`,
a `KeyError` or an `AttributeError` exactly if the values that `validateConfig` does not look at
have the types that the reads assume.  `null_postprocess_raises` is an accepted document whose run
ends with a `TypeError`.

Tuples and sets of a document are read as sequences here, and so are the sequences and mappings that
contain themselves, as far down as anything is read of them.
-/

set_option autoImplicit false

namespace PipeWorks.NvidiaPipe.Startup

open PipeWorks.Python PipeWorks.NvidiaPipe.Config Fails

/-! ## Values -/

/-- What the packages make of values: the scalars that are neither null nor a Boolean, an integer or
a text (`int` and truth value), and the arguments of `av.open`. -/
structure Packages where
  scalarInt : String → String → Except PyError Int
  scalarTruth : String → String → Bool
  /-- what `av.open` raises because of this URL and this transport -/
  avOpen : Yaml → Yaml → Option PyError

section

variable (p : Packages)

/-- `int(value)`. -/
def int : Yaml → Except PyError Int
  | .int i => .ok i
  | .bool b => .ok (if b then 1 else 0)
  | .str s =>
    match intOfStr s with
    | some i => .ok i
    | none => .error .valueError
  | .scalar tag text => p.scalarInt tag text
  | .null | .sequence _ | .mapping _ => .error .typeError

/-- `bool(value)`. -/
def truth : Yaml → Bool
  | .null => false
  | .bool b => b
  | .int i => i != 0
  | .str s => s != ""
  | .scalar tag text => p.scalarTruth tag text
  | .sequence items => !items.isEmpty
  | .mapping members => !members.isEmpty

end

/-- `value[key]`. -/
def item (key : String) : Yaml → Except PyError Yaml
  | .mapping members =>
    match Mapping.get? key members with
    | some value => .ok value
    | none => .error .keyError
  | _ => .error .typeError

/-- `value.get(key)`. -/
def get (key : String) : Yaml → Except PyError (Option Yaml)
  | .mapping members => .ok (Mapping.get? key members)
  | _ => .error .attributeError

/-- `value.strip()`. -/
def strip : Yaml → Except PyError String
  | .str s => .ok (Python.strip s)
  | _ => .error .attributeError

/-- `Path(value)`. -/
def path : Yaml → Except PyError String
  | .str s => .ok s
  | _ => .error .typeError

/-! ## `validate_config` -/

/-- How `validate_config` ends without returning. -/
inductive Refusal where
  /-- `raise ValueError(message)` -/
  | refused (message : String)
  /-- an expression raises -/
  | raised (e : PyError)
  deriving DecidableEq, Repr

/-- A text that is not blank. -/
def nonEmpty : Yaml → Bool
  | .str s => Python.strip s != ""
  | _ => false

def checkSection (config : Mapping) (name : String) : Except Refusal Unit :=
  match config.get? name with
  | some (.mapping _) => .ok ()
  | _ => .error (.refused ("필수 설정 섹션이 없습니다: " ++ name))

/-- The RTSP mapping of a section has a URL and a transport. -/
def checkRtsp (p : Packages) (config : Mapping) (name : String) : Except Refusal Unit := do
  let values ← (item name (.mapping config)).mapError .raised
  let rtsp ← (get "rtsp" values).mapError .raised
  match rtsp with
  | some (.mapping rtsp) =>
    if (Mapping.get? "url" rtsp).any (truth p) && (Mapping.get? "transport" rtsp).any (truth p)
    then .ok ()
    else .error (.refused ("필수 RTSP 설정이 없습니다: " ++ name ++ ".rtsp"))
  | _ => .error (.refused ("필수 RTSP 설정이 없습니다: " ++ name ++ ".rtsp"))

/-- The check that `validate_config` and `jitter_buffer_size` make of `jitter_buffer`. -/
def jitterBuffer? : Option Yaml → Option Nat
  | none => some 0
  | some (.int (.ofNat n)) => some n
  | some _ => none

def jitterBufferMessage : String := "input.rtsp.jitter_buffer must be a non-negative integer"

def checkJitterBuffer (config : Mapping) : Except Refusal Unit := do
  let input ← (item "input" (.mapping config)).mapError .raised
  let rtsp ← (item "rtsp" input).mapError .raised
  let jitterBuffer ← (get "jitter_buffer" rtsp).mapError .raised
  match jitterBuffer? jitterBuffer with
  | some _ => .ok ()
  | none => .error (.refused jitterBufferMessage)

def required : List String := ["gpuid", "interval_frames", "input_format", "frame_type", "model"]

def checkInference (p : Packages) (config : Mapping) : Except Refusal Unit := do
  let inference ← (item "inference" (.mapping config)).mapError .raised
  match inference with
  | .mapping members =>
    let missing := required.filter fun key => (Mapping.get? key members).isNone
    if missing = [] then do
      let value ← (item "interval_frames" inference).mapError .raised
      let intervalFrames ← (int p value).mapError .raised
      if intervalFrames < 0 then .error (.refused "interval_frames는 0 이상이어야 합니다") else .ok ()
    else .error (.refused ("필수 추론 설정이 없습니다: " ++ ", ".intercalate missing))
  -- `key not in inference`; a section that is no mapping has been refused before
  | _ => .error (.raised .typeError)

def checkPostprocess (config : Mapping) : Except Refusal Unit :=
  match config.get? "postprocess" with
  | none | some .null => .ok ()
  | some value =>
    if nonEmpty value then .ok ()
    else .error (.refused "postprocess must be a non-empty module path when configured")

def checkName (config : Mapping) : Except Refusal Unit :=
  if (config.get? "name").any nonEmpty then .ok ()
  else .error (.refused "Pipeline configuration requires a non-empty name")

def validateConfig (p : Packages) (config : Mapping) : Except Refusal Unit := do
  checkName config
  checkSection config "input"
  checkSection config "output"
  checkSection config "inference"
  checkRtsp p config "input"
  checkRtsp p config "output"
  checkJitterBuffer config
  checkInference p config
  checkPostprocess config

/-! ## The reads of a run -/

/-- The calls between the reads. -/
inductive Call where
  | configureCudaDllPath
  | loadModule (path : String)
  | loadPostprocess (path : String)
  | livePostprocess
  | liveModel
  | startSender
  | inferenceResultQueue
  | cudaStream (gpuid : Int)
  | importCodecs
  /-- from the open connection to the first packet -/
  | firstPacket
  | createDecoder (gpuid : Int)
  deriving DecidableEq, Repr

/-- What a call raises. -/
abbrev World := Call → Option PyError

/-- Where an exception comes from. -/
inductive Failure where
  | read (e : PyError)
  | elsewhere (e : PyError)
  deriving DecidableEq, Repr

abbrev Run := Except Failure

def read {α : Type} (r : Except PyError α) : Run α := r.mapError .read

def call (w : World) (c : Call) : Run Unit :=
  match w c with
  | none => .ok ()
  | some e => .error (.elsewhere e)

/-- `jitter_buffer_size`. -/
def jitterBufferSize (config : Yaml) : Except PyError Nat := do
  let rtsp ← item "rtsp" (← item "input" config)
  match jitterBuffer? (← get "jitter_buffer" rtsp) with
  | some n => .ok n
  | none => .error .valueError

/-- `decode`, at its first packet. -/
def decode (p : Packages) (w : World) (config : Yaml) : Run Unit := do
  let gpuid ← read (do int p (← item "gpuid" (← item "inference" config)))
  let inputFormat ← read (do item "input_format" (← item "inference" config))
  match inputFormat with
  | .str "native" | .str "rgb" | .str "rgbp" => call w (.createDecoder gpuid)
  | _ => .error (.read .valueError)

/-- `receive`, up to its first packet, and then `decode`.  If `av.open` raises something that
`receive` handles, the loop tries again for ever. -/
def receive (p : Packages) (w : World) (config : Yaml) : Run Unit := do
  let inputRtsp ← read (do item "rtsp" (← item "input" config))
  let url ← read (item "url" inputRtsp)
  let transport ← read (item "transport" inputRtsp)
  let _ ← read (jitterBufferSize config)
  call w .importCodecs
  match p.avOpen url transport with
  | none => do
    call w .firstPacket
    decode p w config
  | some e => if Receive.handled e then .ok () else .error (.read e)

/-- The expression for `live_postprocess`. -/
def openPostprocess (w : World) (config : Mapping) : Run Unit :=
  if (config.get? "postprocess").isSome then do
    let postprocess ← read (item "postprocess" (.mapping config))
    let postprocessPath ← read (path postprocess)
    call w (.loadPostprocess postprocessPath)
    let _ ← read (path postprocess)
    call w .livePostprocess
  else .ok ()

/-- `run_pipeline`, from behind `validate_config`. -/
def runPipeline (p : Packages) (w : World) (config : Mapping) : Run Unit := do
  let name ← read (item "name" (.mapping config))
  let _ ← read (strip name)
  let inference ← read (item "inference" (.mapping config))
  let gpuid ← read (do int p (← item "gpuid" inference))
  let _ ← read (do int p (← item "interval_frames" inference))
  let _ ← read (item "frame_type" inference)
  let model ← read (item "model" inference)
  call w .configureCudaDllPath
  let modelPath ← read (path model)
  call w (.loadModule modelPath)
  openPostprocess w config
  let _ ← read (path model)
  call w .liveModel
  let _ ← read (inferenceParameters config)
  call w .startSender
  call w (.cudaStream gpuid)
  call w .inferenceResultQueue
  receive p w (.mapping config)

/-- `send_worker`, up to its call of `send`. -/
def configureLogging (config : Yaml) : Run Unit := do
  let name ← read (get "name" config)
  match name with
  | some (.str s) => if Python.strip s ≠ "" then (do let _ ← read (strip (.str s))) else .ok ()
  | _ => .ok ()

/-- `send`, up to the first packet; what `av.open` raises later is caught. -/
def send (config : Yaml) : Run (Yaml × Yaml) := do
  configureLogging config
  let outputRtsp ← read (do item "rtsp" (← item "output" config))
  let url ← read (item "url" outputRtsp)
  let transport ← read (item "transport" outputRtsp)
  .ok (url, transport)

/-! ## What has been accepted -/

variable {p : Packages} {config : Mapping}

/-- The parts of a document that its validation has seen. -/
structure Accepted (p : Packages) (config : Mapping) where
  name : String
  input : Mapping
  inputRtsp : Mapping
  url : Yaml
  transport : Yaml
  output : Mapping
  outputRtsp : Mapping
  outputUrl : Yaml
  outputTransport : Yaml
  bufferSize : Nat
  inference : Mapping
  gpuid : Yaml
  intervalFrames : Yaml
  inputFormat : Yaml
  frameType : Yaml
  model : Yaml
  interval : Int
  name_eq : config.get? "name" = some (.str name)
  input_eq : config.get? "input" = some (.mapping input)
  inputRtsp_eq : Mapping.get? "rtsp" input = some (.mapping inputRtsp)
  url_eq : Mapping.get? "url" inputRtsp = some url
  transport_eq : Mapping.get? "transport" inputRtsp = some transport
  output_eq : config.get? "output" = some (.mapping output)
  outputRtsp_eq : Mapping.get? "rtsp" output = some (.mapping outputRtsp)
  outputUrl_eq : Mapping.get? "url" outputRtsp = some outputUrl
  outputTransport_eq : Mapping.get? "transport" outputRtsp = some outputTransport
  bufferSize_eq : jitterBuffer? (Mapping.get? "jitter_buffer" inputRtsp) = some bufferSize
  inference_eq : config.get? "inference" = some (.mapping inference)
  gpuid_eq : Mapping.get? "gpuid" inference = some gpuid
  intervalFrames_eq : Mapping.get? "interval_frames" inference = some intervalFrames
  inputFormat_eq : Mapping.get? "input_format" inference = some inputFormat
  frameType_eq : Mapping.get? "frame_type" inference = some frameType
  model_eq : Mapping.get? "model" inference = some model
  interval_eq : int p intervalFrames = .ok interval
  postprocess : config.get? "postprocess" = none ∨ config.get? "postprocess" = some .null ∨
    ∃ path, config.get? "postprocess" = some (.str path)

theorem item_eq {key : String} {members : Mapping} {value : Yaml}
    (h : Mapping.get? key members = some value) : item key (.mapping members) = .ok value := by
  simp [item, h]

theorem checkName_ok (h : checkName config = .ok ()) :
    ∃ name, config.get? "name" = some (.str name) := by
  unfold checkName at h
  split at h
  · rename_i hname
    obtain ⟨value, hvalue, hnonEmpty⟩ := (Option.any_eq_true ..).1 hname
    cases value <;> first | exact ⟨_, hvalue⟩ | cases hnonEmpty
  · cases h

theorem checkSection_ok {name : String} (h : checkSection config name = .ok ()) :
    ∃ members, config.get? name = some (.mapping members) := by
  unfold checkSection at h
  split at h
  · rename_i members heq
    exact ⟨members, heq⟩
  · cases h

theorem checkRtsp_ok {name : String} {members : Mapping}
    (hsection : config.get? name = some (.mapping members))
    (h : checkRtsp p config name = .ok ()) :
    ∃ rtsp url transport, Mapping.get? "rtsp" members = some (.mapping rtsp) ∧
      Mapping.get? "url" rtsp = some url ∧ Mapping.get? "transport" rtsp = some transport := by
  simp only [checkRtsp, item_eq hsection, get, bind_eq_ok] at h
  obtain ⟨values, hvalues, rtsp, hrtsp, h⟩ := h
  cases hvalues
  cases hrtsp
  split at h
  · rename_i rtsp heq
    split at h
    · rename_i hboth
      obtain ⟨hurl, htransport⟩ := Bool.and_eq_true_iff.1 hboth
      obtain ⟨url, hurl, -⟩ := (Option.any_eq_true ..).1 hurl
      obtain ⟨transport, htransport, -⟩ := (Option.any_eq_true ..).1 htransport
      exact ⟨rtsp, url, transport, heq, hurl, htransport⟩
    · cases h
  · cases h

theorem checkJitterBuffer_ok {input rtsp : Mapping}
    (hinput : config.get? "input" = some (.mapping input))
    (hrtsp : Mapping.get? "rtsp" input = some (.mapping rtsp))
    (h : checkJitterBuffer config = .ok ()) :
    ∃ n, jitterBuffer? (Mapping.get? "jitter_buffer" rtsp) = some n := by
  simp only [checkJitterBuffer, item_eq hinput, bind_eq_ok] at h
  obtain ⟨_, h₁, _, h₂, _, h₃, h⟩ := h
  cases h₁
  rw [item_eq hrtsp] at h₂
  cases h₂
  cases h₃
  split at h
  · rename_i n heq
    exact ⟨n, heq⟩
  · cases h

theorem checkInference_ok {inference : Mapping}
    (hinference : config.get? "inference" = some (.mapping inference))
    (h : checkInference p config = .ok ()) :
    (∀ key ∈ required, ∃ value, Mapping.get? key inference = some value) ∧
      ∀ value, Mapping.get? "interval_frames" inference = some value →
        ∃ i, int p value = .ok i := by
  simp only [checkInference, item_eq hinference, bind_eq_ok] at h
  obtain ⟨_, h₁, h⟩ := h
  cases h₁
  simp only at h
  split at h
  · rename_i hmissing
    refine ⟨fun key hkey => ?_, fun value hvalue => ?_⟩
    · have hpresent := List.filter_eq_nil_iff.1 hmissing key hkey
      rw [Option.isNone_iff_eq_none] at hpresent
      exact Option.ne_none_iff_exists'.1 hpresent
    · simp only [item_eq hvalue, bind_eq_ok] at h
      obtain ⟨_, h₂, i, h₃, -⟩ := h
      cases h₂
      cases hint : int p value with
      | error e =>
        rw [hint] at h₃
        cases h₃
      | ok i => exact ⟨i, rfl⟩
  · cases h

theorem checkPostprocess_ok (h : checkPostprocess config = .ok ()) :
    config.get? "postprocess" = none ∨ config.get? "postprocess" = some .null ∨
      ∃ path, config.get? "postprocess" = some (.str path) := by
  unfold checkPostprocess at h
  split at h
  · rename_i hnone
    exact .inl hnone
  · rename_i hnull
    exact .inr (.inl hnull)
  · rename_i value _ hvalue
    split at h
    · rename_i hnonEmpty
      cases value <;> first | exact .inr (.inr ⟨_, hvalue⟩) | cases hnonEmpty
    · cases h

/-- **What is known of an accepted document.** -/
theorem accepted_of_validateConfig (h : validateConfig p config = .ok ()) :
    Nonempty (Accepted p config) := by
  simp only [validateConfig, bind_eq_ok] at h
  obtain ⟨⟨⟩, hname, ⟨⟩, hinput, ⟨⟩, houtput, ⟨⟩, hinference, ⟨⟩, hinputRtsp, ⟨⟩, houtputRtsp, ⟨⟩,
    hjitter, ⟨⟩, hcheck, hpostprocess⟩ := h
  obtain ⟨name, name_eq⟩ := checkName_ok hname
  obtain ⟨input, input_eq⟩ := checkSection_ok hinput
  obtain ⟨output, output_eq⟩ := checkSection_ok houtput
  obtain ⟨inference, inference_eq⟩ := checkSection_ok hinference
  obtain ⟨inputRtsp, url, transport, inputRtsp_eq, url_eq, transport_eq⟩ :=
    checkRtsp_ok input_eq hinputRtsp
  obtain ⟨outputRtsp, outputUrl, outputTransport, outputRtsp_eq, outputUrl_eq,
    outputTransport_eq⟩ := checkRtsp_ok output_eq houtputRtsp
  obtain ⟨bufferSize, bufferSize_eq⟩ := checkJitterBuffer_ok input_eq inputRtsp_eq hjitter
  obtain ⟨hrequired, hinterval⟩ := checkInference_ok inference_eq hcheck
  obtain ⟨gpuid, gpuid_eq⟩ := hrequired "gpuid" (by decide)
  obtain ⟨intervalFrames, intervalFrames_eq⟩ := hrequired "interval_frames" (by decide)
  obtain ⟨inputFormat, inputFormat_eq⟩ := hrequired "input_format" (by decide)
  obtain ⟨frameType, frameType_eq⟩ := hrequired "frame_type" (by decide)
  obtain ⟨model, model_eq⟩ := hrequired "model" (by decide)
  obtain ⟨interval, interval_eq⟩ := hinterval intervalFrames intervalFrames_eq
  exact ⟨{
    name, input, inputRtsp, url, transport, output, outputRtsp, outputUrl, outputTransport,
    bufferSize, inference, gpuid, intervalFrames, inputFormat, frameType, model, interval,
    name_eq, input_eq, inputRtsp_eq, url_eq, transport_eq, output_eq, outputRtsp_eq,
    outputUrl_eq, outputTransport_eq, bufferSize_eq, inference_eq, gpuid_eq, intervalFrames_eq,
    inputFormat_eq, frameType_eq, model_eq, interval_eq
    postprocess := checkPostprocess_ok hpostprocess }⟩

/-! ## What the reads raise -/

/-- The classes that say that a value does not have the shape the code assumes. -/
def shapeErrors : List PyError := [.typeError, .keyError, .attributeError]

/-- No read has raised one of them. -/
def Harmless : Failure → Prop
  | .read e => e.caughtBy shapeErrors = false
  | .elsewhere _ => True

/-- `int(value)` does not raise one of them. -/
def Numeric (p : Packages) (value : Yaml) : Prop :=
  FailsWith (fun e => e.caughtBy shapeErrors = false) (int p value)

/-! Each kind of step, with what comes after it. -/

section

variable {α : Type} (w : World)

theorem read_ok (value : α) : read (.ok value : Except PyError α) = .ok value := rfl

theorem call_harmless (c : Call) : FailsWith Harmless (call w c) := by
  unfold call
  split
  · exact failsWith_ok ()
  · exact (failsWith_error _).2 trivial

theorem failsWith_call (c : Call) {β : Type} (f : Unit → Run β) :
    FailsWith Harmless (call w c >>= f) ↔ (w c = none → FailsWith Harmless (f ())) := by
  unfold call
  cases hc : w c with
  | none => exact ⟨fun h _ => h, fun h => h rfl⟩
  | some e =>
    refine iff_of_true ?_ fun h => by cases h
    exact fun failure h => by cases h; exact trivial

theorem failsWith_read (r : Except PyError α) {β : Type} (f : α → Run β) :
    FailsWith Harmless (read r >>= f) ↔
      FailsWith (fun e => e.caughtBy shapeErrors = false) r ∧
        ∀ value, r = .ok value → FailsWith Harmless (f value) := by
  rw [failsWith_bind]
  unfold read
  rw [failsWith_mapError]
  refine and_congr Iff.rfl (forall_congr' fun value => ?_)
  cases r <;> simp [Except.mapError]

end

variable (a : Accepted p config) (w : World)

/-- The decoder reads what the main thread has read before, and then a text. -/
theorem decode_harmless {g : Int} (hg : int p a.gpuid = .ok g) :
    FailsWith Harmless (decode p w (.mapping config)) := by
  simp only [decode, item_eq a.inference_eq, item_eq a.gpuid_eq, item_eq a.inputFormat_eq, hg,
    read_ok, ok_bind]
  split
  · exact call_harmless w _
  · exact call_harmless w _
  · exact call_harmless w _
  · rw [failsWith_error]
    show PyError.caughtBy .valueError shapeErrors = false
    decide

theorem jitterBufferSize_eq : jitterBufferSize (.mapping config) = .ok a.bufferSize := by
  simp only [jitterBufferSize, item_eq a.input_eq, item_eq a.inputRtsp_eq, get, ok_bind,
    a.bufferSize_eq]

theorem shape_of_handled {e : PyError} (h : Receive.handled e = true) :
    e.caughtBy shapeErrors = false := by
  cases e <;> first | rfl | cases h

/-- `receive` gives `av.open` the values of the document. -/
theorem receive_harmless {g : Int} (hg : int p a.gpuid = .ok g) :
    FailsWith Harmless (receive p w (.mapping config)) ↔
      (w .importCodecs = none →
        ∀ e, p.avOpen a.url a.transport = some e → e.caughtBy shapeErrors = false) := by
  simp only [receive, item_eq a.input_eq, item_eq a.inputRtsp_eq, item_eq a.url_eq,
    item_eq a.transport_eq, jitterBufferSize_eq a, read_ok, ok_bind, failsWith_call]
  refine forall_congr' fun _ => ?_
  cases hopen : p.avOpen a.url a.transport with
  | none =>
    refine iff_of_true ?_ fun e h => by cases h
    rw [failsWith_call]
    exact fun _ => decode_harmless a w hg
  | some e =>
    simp only
    split
    · rename_i hhandled
      refine iff_of_true (failsWith_ok ()) ?_
      rintro _ ⟨⟩
      exact shape_of_handled hhandled
    · rw [failsWith_error]
      constructor
      · rintro h _ ⟨⟩
        exact h
      · exact fun h => h e rfl

/-- `inference_parameters` raises nothing but `ValueError`. -/
theorem inferenceParameters_quiet (config : Mapping) :
    FailsWith (fun e => e.caughtBy shapeErrors = false) (inferenceParameters config) := by
  unfold inferenceParameters
  split
  · split
    · exact failsWith_ok _
    · exact failsWith_ok _
    · exact failsWith_ok _
    · exact (failsWith_error _).2 (by decide)
  · exact failsWith_ok _

theorem path_quiet (value : Yaml) :
    FailsWith (fun e => e.caughtBy shapeErrors = false) (path value) ↔ ∃ s, value = .str s := by
  cases value with
  | str s => exact iff_of_true (failsWith_ok s) ⟨s, rfl⟩
  | _ =>
    refine iff_of_false (fun h => ?_) (fun h => by obtain ⟨s, hs⟩ := h; cases hs)
    exact absurd (h _ rfl) (by decide)

/-- A `postprocess` that is there is taken for a path. -/
theorem openPostprocess_harmless (hpostprocess : config.get? "postprocess" = none ∨
      config.get? "postprocess" = some .null ∨
      ∃ path, config.get? "postprocess" = some (.str path)) :
    FailsWith Harmless (openPostprocess w config) ↔ config.get? "postprocess" ≠ some .null := by
  unfold openPostprocess
  rcases hpostprocess with heq | heq | ⟨s, heq⟩
  · simp [heq]
  · simp only [heq, Option.isSome_some, if_true, item_eq heq, read_ok, ok_bind, failsWith_read,
      path_quiet]
    refine iff_of_false (fun h => ?_) fun h => h rfl
    obtain ⟨⟨s, hs⟩, -⟩ := h
    cases hs
  · simp only [heq, Option.isSome_some, if_true, item_eq heq, path, read_ok, ok_bind,
      failsWith_call]
    exact iff_of_true (fun _ => call_harmless w _) (by simp)

theorem runPipeline_eq :
    runPipeline p w config = (read (int p a.gpuid) >>= fun gpuid =>
      call w .configureCudaDllPath >>= fun _ =>
      read (path a.model) >>= fun modelPath =>
      call w (.loadModule modelPath) >>= fun _ =>
      openPostprocess w config >>= fun _ =>
      read (path a.model) >>= fun _ =>
      call w .liveModel >>= fun _ =>
      read (inferenceParameters config) >>= fun _ =>
      call w .startSender >>= fun _ =>
      call w (.cudaStream gpuid) >>= fun _ =>
      call w .inferenceResultQueue >>= fun _ =>
      receive p w (.mapping config)) := by
  simp only [runPipeline, item_eq a.name_eq, strip, item_eq a.inference_eq, item_eq a.gpuid_eq,
    item_eq a.intervalFrames_eq, a.interval_eq, item_eq a.frameType_eq, item_eq a.model_eq,
    read_ok, ok_bind]

theorem send_harmless (a : Accepted p config) : FailsWith Harmless (send (.mapping config)) := by
  have hname : Mapping.get? "name" config = some (.str a.name) := a.name_eq
  have hlogging : configureLogging (.mapping config) = .ok () := by
    simp only [configureLogging, get, hname, strip, read_ok, ok_bind]
    split <;> rfl
  simp only [send, hlogging, item_eq a.output_eq, item_eq a.outputRtsp_eq,
    item_eq a.outputUrl_eq, item_eq a.outputTransport_eq, read_ok, ok_bind]
  exact failsWith_ok _

/-! ## The values that are not checked -/

/-- The value under a key of a section. -/
def inSection (config : Mapping) (name key : String) : Option Yaml :=
  match config.get? name with
  | some (.mapping members) => Mapping.get? key members
  | _ => none

/-- The value under a key of `input.rtsp`. -/
def inInputRtsp (config : Mapping) (key : String) : Option Yaml :=
  match inSection config "input" "rtsp" with
  | some (.mapping members) => Mapping.get? key members
  | _ => none

/-- `int` makes a number of `gpuid`; if it does not, the run ends there. -/
def HasGpu (p : Packages) (config : Mapping) : Prop :=
  ∃ gpuid g, inSection config "inference" "gpuid" = some gpuid ∧ int p gpuid = .ok g

/-- The unchecked values have the types that the reads assume, as far as a run gets to them. -/
structure WellTyped (p : Packages) (config : Mapping) : Prop where
  gpuid : ∀ gpuid, inSection config "inference" "gpuid" = some gpuid → Numeric p gpuid
  model : HasGpu p config → ∃ path, inSection config "inference" "model" = some (.str path)
  postprocess : HasGpu p config → config.get? "postprocess" ≠ some .null
  avOpen : HasGpu p config → (∃ parameters, inferenceParameters config = .ok parameters) →
    ∀ url transport e, inInputRtsp config "url" = some url →
      inInputRtsp config "transport" = some transport → p.avOpen url transport = some e →
      e.caughtBy shapeErrors = false

/-- No read of the configuration raises a `TypeError`, a `KeyError` or an `AttributeError`, whatever
the calls between them do. -/
def NeverMistyped (p : Packages) (config : Mapping) : Prop :=
  (∀ w, FailsWith Harmless (runPipeline p w config)) ∧ FailsWith Harmless (send (.mapping config))

theorem inSection_eq {name key : String} {members : Mapping} {value : Yaml}
    (hsection : config.get? name = some (.mapping members))
    (hvalue : Mapping.get? key members = some value) :
    inSection config name key = some value := by
  simp [inSection, hsection, hvalue]

theorem inInputRtsp_eq {key : String} {value : Yaml}
    (hvalue : Mapping.get? key a.inputRtsp = some value) :
    inInputRtsp config key = some value := by
  simp [inInputRtsp, inSection_eq a.input_eq a.inputRtsp_eq, hvalue]

theorem hasGpu_iff : HasGpu p config ↔ ∃ g, int p a.gpuid = .ok g := by
  have hgpuid := inSection_eq a.inference_eq a.gpuid_eq
  constructor
  · rintro ⟨gpuid, g, hvalue, hg⟩
    rw [hgpuid] at hvalue
    cases hvalue
    exact ⟨g, hg⟩
  · rintro ⟨g, hg⟩
    exact ⟨a.gpuid, g, hgpuid, hg⟩

/-- The condition, in terms of what the validation has seen. -/
theorem wellTyped_iff : WellTyped p config ↔
    Numeric p a.gpuid ∧ ∀ g, int p a.gpuid = .ok g →
      (∃ path, a.model = .str path) ∧ config.get? "postprocess" ≠ some .null ∧
      ∀ parameters, inferenceParameters config = .ok parameters →
        ∀ e, p.avOpen a.url a.transport = some e → e.caughtBy shapeErrors = false := by
  have hgpuid := inSection_eq a.inference_eq a.gpuid_eq
  have hmodel := inSection_eq a.inference_eq a.model_eq
  have hurl := inInputRtsp_eq a a.url_eq
  have htransport := inInputRtsp_eq a a.transport_eq
  constructor
  · intro h
    refine ⟨h.gpuid a.gpuid hgpuid, fun g hg => ?_⟩
    have hhas := (hasGpu_iff a).2 ⟨g, hg⟩
    refine ⟨?_, h.postprocess hhas, fun parameters hparameters e he => ?_⟩
    · obtain ⟨path, hpath⟩ := h.model hhas
      rw [hmodel] at hpath
      exact ⟨path, Option.some.inj hpath⟩
    · exact h.avOpen hhas ⟨parameters, hparameters⟩ a.url a.transport e hurl htransport he
  · rintro ⟨hnumeric, hrest⟩
    constructor
    · intro gpuid hvalue
      rw [hgpuid] at hvalue
      cases hvalue
      exact hnumeric
    · intro hhas
      obtain ⟨g, hg⟩ := (hasGpu_iff a).1 hhas
      obtain ⟨path, hpath⟩ := (hrest g hg).1
      exact ⟨path, by rw [hmodel, hpath]⟩
    · intro hhas
      obtain ⟨g, hg⟩ := (hasGpu_iff a).1 hhas
      exact (hrest g hg).2.1
    · rintro hhas ⟨parameters, hparameters⟩ url transport e hurl' htransport' he
      obtain ⟨g, hg⟩ := (hasGpu_iff a).1 hhas
      rw [hurl] at hurl'
      rw [htransport] at htransport'
      cases hurl'
      cases htransport'
      exact (hrest g hg).2.2 parameters hparameters e he

/-- A run in which no other call raises gets to every read. -/
theorem openPostprocess_ok (hpostprocess : config.get? "postprocess" = none ∨
      config.get? "postprocess" = some .null ∨ ∃ path, config.get? "postprocess" = some (.str path))
    (hnull : config.get? "postprocess" ≠ some .null) :
    openPostprocess (fun _ => none) config = .ok () := by
  unfold openPostprocess
  rcases hpostprocess with heq | heq | ⟨s, heq⟩
  · simp [heq]
  · exact absurd heq hnull
  · simp only [heq, Option.isSome_some, if_true, item_eq heq, path, read_ok, ok_bind]
    rfl

theorem wellTyped_of_run (a : Accepted p config)
    (h : FailsWith Harmless (runPipeline p (fun _ => none) config)) :
    WellTyped p config := by
  rw [wellTyped_iff a]
  simp only [runPipeline_eq a, failsWith_read, failsWith_call, forall_const, path_quiet] at h
  obtain ⟨hnumeric, hrest⟩ := h
  refine ⟨hnumeric, fun g hg => ?_⟩
  obtain ⟨hmodel, hopen⟩ := hrest g hg
  obtain ⟨path, hpath⟩ := hmodel
  have hopen := hopen path (by rw [hpath]; rfl)
  rw [failsWith_bind, openPostprocess_harmless _ a.postprocess] at hopen
  obtain ⟨hnull, hafter⟩ := hopen
  have hafter := hafter () (openPostprocess_ok a.postprocess hnull)
  simp only [failsWith_read, failsWith_call, forall_const] at hafter
  obtain ⟨-, hafter⟩ := hafter
  refine ⟨⟨path, hpath⟩, hnull, fun parameters hparameters => ?_⟩
  have hreceive := (hafter path (by rw [hpath]; rfl)).2 parameters hparameters
  exact (receive_harmless a _ hg).1 hreceive rfl

theorem run_of_wellTyped (a : Accepted p config) (h : WellTyped p config) (w : World) :
    FailsWith Harmless (runPipeline p w config) := by
  rw [wellTyped_iff a] at h
  obtain ⟨hnumeric, hrest⟩ := h
  rw [runPipeline_eq a, failsWith_read]
  refine ⟨hnumeric, fun g hg => ?_⟩
  obtain ⟨hmodel, hnull, hopen⟩ := hrest g hg
  have hpath := (path_quiet a.model).2 hmodel
  rw [failsWith_call]
  intro _
  rw [failsWith_read]
  refine ⟨hpath, fun modelPath _ => ?_⟩
  rw [failsWith_call]
  intro _
  rw [failsWith_bind, openPostprocess_harmless _ a.postprocess]
  refine ⟨hnull, fun _ _ => ?_⟩
  rw [failsWith_read]
  refine ⟨hpath, fun _ _ => ?_⟩
  rw [failsWith_call]
  intro _
  rw [failsWith_read]
  refine ⟨inferenceParameters_quiet config, fun parameters hparameters => ?_⟩
  simp only [failsWith_call]
  intro _ _ _
  exact (receive_harmless a w hg).2 fun _ => hopen parameters hparameters

/-- **No read of an accepted document finds a value of the wrong shape**, exactly if the values that
its validation does not look at have the types the reads assume. -/
theorem neverMistyped_iff (p : Packages) (config : Mapping)
    (h : validateConfig p config = .ok ()) : NeverMistyped p config ↔ WellTyped p config := by
  obtain ⟨a⟩ := accepted_of_validateConfig h
  constructor
  · exact fun h => wellTyped_of_run a (h.1 _)
  · exact fun h => ⟨run_of_wellTyped a h, send_harmless a⟩

/-! ## Documents -/

/-- `av.open` takes texts; the documents below have no scalars that would be converted. -/
def somePackages : Packages where
  scalarInt _ _ := .error .valueError
  scalarTruth _ _ := true
  avOpen url transport :=
    match url, transport with
    | .str _, .str _ => none
    | .str _, _ => some .typeError
    | _, _ => some .valueError

/-- A document without `postprocess`. -/
def document : Mapping :=
  let rtsp : Yaml := .mapping [(.str "rtsp", .mapping [
    (.str "url", .str "rtsp://camera"), (.str "transport", .str "tcp")])]
  [(.str "name", .str "camera"), (.str "input", rtsp), (.str "output", rtsp),
    (.str "inference", .mapping [
      (.str "gpuid", .int 0), (.str "interval_frames", .int 1), (.str "input_format", .str "rgb"),
      (.str "frame_type", .str "pytorch"), (.str "model", .str "model.py")])]

theorem document_starts : NeverMistyped somePackages document := by
  refine (neverMistyped_iff somePackages document rfl).2 ⟨?_, ?_, ?_, ?_⟩
  · rintro _ ⟨⟩
    exact failsWith_ok _
  · exact fun _ => ⟨_, rfl⟩
  · exact fun _ h => by cases h
  · rintro _ _ _ _ e ⟨⟩ ⟨⟩ ⟨⟩

/-- `postprocess:` without a value counts as not configured when the document is checked, and as
configured when it is read. -/
theorem null_postprocess_raises : ¬ ∀ p config, validateConfig p config = .ok () →
    NeverMistyped p config := by
  intro h
  have hnever := (h somePackages (document ++ [(.str "postprocess", .null)]) rfl).1 fun _ => none
  have hquiet : PyError.caughtBy .typeError shapeErrors = false := hnever (.read .typeError) rfl
  exact absurd hquiet (by decide)

end PipeWorks.NvidiaPipe.Startup
