import PipeWorks.NvidiaPipe.Encode
import PipeWorks.NvidiaPipe.Keyframe
import PipeWorks.NvidiaPipe.ProcessedFrames
import PipeWorks.NvidiaPipe.SendSession

/-!
# The video path (`run_pipeline` of `nvidia_pipe/cli.py`)

`receive`, `decode`, `processed_frames` and `encode` are generators, each of which asks the one
before it only when it has nothing left to yield; the loop of `run_pipeline` asks `encode`, makes
a packet of bytes of what it gets, and submits it to the sender.  `step` executes the code between
two answers of the outside world, which are those of `Decode.step`, of the model, of the encoder
and of `submit`; a keyboard interrupt may come in between.

`receive` never ends but by an exception, and neither do the generators behind it; so the code
behind the loop of `encode`, which would empty the encoder, is not reached, and the path is left
by an exception only.

* `pipeline_accounts` — every frame is taken, encoded and submitted in order, once, under the
  header of the first one, and the counters say how many;
* `muxed_streams_agree` — whatever of these packets reaches `send`, and whatever fails there,
  every container is configured for every packet that is muxed into it.
-/

set_option autoImplicit false

namespace PipeWorks.NvidiaPipe.RunPipeline

open StepSystem
open Python (PyError)
open Decode (GpuFrame)
open ProcessedFrames (Turn ModelCall)
open EncodedBytes (Value encodedBytes)
open Encode (Encoder createEncoder encodedPacket encoderFps)

variable {ρ : Type}

/-! ## The code -/

/-- What `run_pipeline` has read of the configuration. -/
structure Settings where
  jitterBuffer : ℕ
  decode : Decode.Config
  intervalFrames : ℕ
  frameType : String
  /-- the calls within one another that the interpreter allows -/
  recursionLimit : ℕ

inductive Pc where
  /-- `encode` asks for a frame -/
  | pulling
  /-- in the loop of `encode` over the packets of a frame, with these to be yielded -/
  | yielding (packets : List Value)
  /-- behind `finally` -/
  | left (raised : PyError)

structure State (ρ : Type) where
  decode : Decode.State
  processed : ProcessedFrames.State GpuFrame ρ
  encoder : Option Encoder
  pc : Pc
  sentFrameCount : ℕ
  resultQueueClosed : Bool
  /-- history: the frames `processed_frames` has taken, with what has come of them -/
  turns : List (Turn GpuFrame ρ)
  /-- history: the frames `Encode` has been called with -/
  encoded : List GpuFrame
  /-- history: the packets `Encode` has returned -/
  produced : List Value
  /-- history: the packets the sender has taken -/
  submitted : List Send.EncodedPacket

/-- What the outside world answers. -/
inductive Label (ρ : Type) where
  /-- to `receive` and `decode` -/
  | decode (l : Decode.Label)
  /-- for a frame: what comes of the model and of `InferenceResultQueue.submit`, and, if a frame is
      yielded, of `CreateEncoder` and `Encode` -/
  | frame (call : ModelCall GpuFrame ρ) (submitRaises : Bool) (created : Option PyError)
      (encoded : Except PyError (List Value))
  /-- for a packet: what `Sender.submit` raises -/
  | packet (submitRaises : Option PyError)
  | interrupt

/-- Behind `reset_frame_counters`, with the generators created. -/
def State.init (now : ℤ) : State ρ :=
  { decode := Decode.State.init now
    processed := ProcessedFrames.State.init
    encoder := none
    pc := .pulling
    sentFrameCount := 0
    resultQueueClosed := false
    turns := []
    encoded := []
    produced := []
    submitted := [] }

/-- `finally: inference_result_queue.close()`. -/
def State.leave (s : State ρ) (e : PyError) : State ρ :=
  { s with pc := .left e, resultQueueClosed := true }

/-- The exception that has ended `receive` or `decode`. -/
def raised? (d : Decode.State) : Option PyError :=
  match d.raised, d.receive.phase with
  | some e, _ => some e
  | none, .raised e => some e
  | none, _ => none

/-- The loop over the packets of a frame goes on, or the next frame is asked for. -/
def goOn : List Value → Pc
  | [] => .pulling
  | packets => .yielding packets

/-- `encoder.Encode(frame.frame_data)`. -/
def State.encode (s : State ρ) (frame : GpuFrame) : Except PyError (List Value) → State ρ
  | .error e => { s with encoded := s.encoded ++ [frame] }.leave e
  | .ok packets =>
    { s with
      pc := goOn packets
      encoded := s.encoded ++ [frame]
      produced := s.produced ++ packets }

/-- A round of the loop of `encode`, up to its first packet. -/
def State.onFrame (c : Settings) (s : State ρ) (frame : GpuFrame) (created : Option PyError)
    (encoded : Except PyError (List Value)) : State ρ :=
  match s.encoder, created with
  | some _, _ => s.encode frame encoded
  | none, some e => s.leave e
  | none, none =>
    { s with encoder := some (createEncoder c.decode.cudaStream frame) }.encode frame encoded

/-- A round of the loop of `processed_frames`, and what `encode` does with the frame it yields. -/
def State.onTurn (c : Settings) (s : State ρ) (t : Turn GpuFrame ρ) (created : Option PyError)
    (encoded : Except PyError (List Value)) : State ρ :=
  let processed := ProcessedFrames.onFrame c.frameType c.intervalFrames s.processed t
  let s' := { s with processed := processed, turns := s.turns ++ [t] }
  match processed.yielded[s.processed.yielded.length]? with
  | none => s'
  | some frame => s'.onFrame c frame created encoded

/-- A timestamp is an `int` or `None`. -/
def asTimestamp : Value → Option ℤ
  | .int n => some n
  | _ => none

/-- `cpu_packet`, the packet of bytes made of what `encode` yields. -/
def cpuPacket (recursionLimit : ℕ) (packet : Encode.EncodedPacket) :
    Except PyError Send.EncodedPacket := do
  let packetData ← encodedBytes recursionLimit packet.packetData
  return {
    codec := packet.codec
    width := packet.width
    height := packet.height
    timeBase := packet.timeBase
    pts := packet.pts.bind asTimestamp
    packetData := packetData
    isKeyframe := Keyframe.isIdrKeyframe packet.codec packetData }

/-- From a packet of the encoder to what is submitted. -/
def submission (c : Settings) (encoder : Encoder) (packetData : Value) :
    Except PyError Send.EncodedPacket :=
  encodedPacket encoder packetData >>= cpuPacket c.recursionLimit

/-- A round of the loop of `run_pipeline`. -/
def State.onPacket (c : Settings) (s : State ρ) (encoder : Encoder) (packetData : Value)
    (rest : List Value) (submitRaises : Option PyError) : State ρ :=
  match submission c encoder packetData, submitRaises with
  | .error e, _ => s.leave e
  | .ok _, some e => s.leave e
  | .ok packet, none =>
    { s with
      pc := goOn rest
      sentFrameCount := s.sentFrameCount + 1
      submitted := s.submitted ++ [packet] }

def step (c : Settings) (s : State ρ) : Label ρ → Option (State ρ)
  | .decode l =>
    match s.pc with
    | .pulling =>
      if s.turns.length = s.decode.frames.length then
        (Decode.step c.jitterBuffer c.decode s.decode l).map fun d =>
          match raised? d with
          | some e => { s with decode := d }.leave e
          | none => { s with decode := d }
      else none
    | _ => none
  | .frame call submitRaises created encoded =>
    match s.pc, s.decode.frames[s.turns.length]? with
    | .pulling, some (_, frame) => some (s.onTurn c ⟨frame, call, submitRaises⟩ created encoded)
    | _, _ => none
  | .packet submitRaises =>
    match s.pc with
    | .yielding (packetData :: rest) =>
      s.encoder.map fun encoder => s.onPacket c encoder packetData rest submitRaises
    | _ => none
  | .interrupt =>
    match s.pc with
    | .left _ => none
    | _ => some (s.leave (.other "KeyboardInterrupt"))

/-! ## The property -/

/-- The header of the frame, the flag of the bytes. -/
structure Labelled (frame : GpuFrame) (packet : Send.EncodedPacket) : Prop where
  codec : packet.codec = frame.codec
  width : packet.width = frame.width
  height : packet.height = frame.height
  timeBase : packet.timeBase = 1 / encoderFps frame.frameRate
  keyframe : packet.isKeyframe = Keyframe.isIdrKeyframe frame.codec packet.packetData

/-- The packets of the encoder that are still to be submitted. -/
def State.rest (s : State ρ) : List Value := s.produced.drop s.sentFrameCount

structure Accounted (c : Settings) (s : State ρ) : Prop where
  /-- the frames of the decoder are taken in order -/
  taken : s.turns.map (·.frame) <+: s.decode.frames.map Prod.snd
  processed : s.processed = ProcessedFrames.run c.frameType c.intervalFrames s.turns
  /-- what `processed_frames` yields is encoded in order, and all of it as long as the path is not
      left -/
  encoded : s.encoded <+: s.processed.yielded
  all : (∀ e, s.pc ≠ .left e) → s.encoded = s.processed.yielded
  /-- what the encoder returns is submitted in order -/
  submitted : ∀ encoder ∈ s.encoder,
    (s.produced.take s.sentFrameCount).map (submission c encoder) = s.submitted.map .ok
  counted : s.sentFrameCount = s.submitted.length
  /-- before the next frame is asked for, everything has been submitted -/
  rest : s.pc = .pulling → s.rest = []
  /-- every packet is labelled as the first encoded frame is -/
  labelled : ∀ packet ∈ s.submitted, ∃ frame ∈ s.encoded.head?, Labelled frame packet
  closed : s.resultQueueClosed = true ↔ ∃ e, s.pc = .left e

/-! ## The invariant -/

section

variable {c : Settings} {s t : State ρ} {l : Label ρ} {frame : GpuFrame} {e : PyError}
  {created : Option PyError} {encoded : Except PyError (List Value)}

/-- What holds wherever the path is. -/
structure Stages (c : Settings) (s : State ρ) : Prop where
  taken : s.turns.map (·.frame) <+: s.decode.frames.map Prod.snd
  processed : s.processed = ProcessedFrames.run c.frameType c.intervalFrames s.turns
  encoded : s.encoded <+: s.processed.yielded
  encoder : s.encoder = s.encoded.head?.map (createEncoder c.decode.cudaStream)
  submitted : ∀ encoder ∈ s.encoder,
    (s.produced.take s.sentFrameCount).map (submission c encoder) = s.submitted.map .ok
  started : s.encoder = none → s.submitted = []
  counted : s.sentFrameCount = s.submitted.length

structure Inv (c : Settings) (s : State ρ) : Prop where
  stages : Stages c s
  all : (∀ e, s.pc ≠ .left e) → s.encoded = s.processed.yielded
  rest : (∀ e, s.pc ≠ .left e) → s.pc = goOn s.rest
  closed : s.resultQueueClosed = true ↔ ∃ e, s.pc = .left e

theorem goOn_ne_left (packets : List Value) (e : PyError) : goOn packets ≠ .left e := by
  cases packets <;> exact nofun

theorem closed_goOn (hopen : s.resultQueueClosed = false) (packets : List Value) :
    s.resultQueueClosed = true ↔ ∃ e, goOn packets = .left e := by
  constructor
  · intro hclosed
    rw [hopen] at hclosed
    cases hclosed
  · rintro ⟨e, hpc⟩
    exact absurd hpc (goOn_ne_left packets e)

theorem Stages.leave (h : Stages c s) (e : PyError) : Inv c (s.leave e) where
  stages := ⟨h.taken, h.processed, h.encoded, h.encoder, h.submitted, h.started, h.counted⟩
  all := fun hpc => absurd rfl (hpc e)
  rest := fun hpc => absurd rfl (hpc e)
  closed := ⟨fun _ => ⟨e, rfl⟩, fun _ => rfl⟩

theorem Inv.resultQueueOpen (h : Inv c s) (hpc : ∀ e, s.pc ≠ .left e) :
    s.resultQueueClosed = false :=
  Bool.eq_false_of_not_eq_true fun hclosed => (h.closed.mp hclosed).elim hpc

theorem Inv.rest_eq_nil (h : Inv c s) (hpc : s.pc = .pulling) : s.rest = [] := by
  have hgoOn := h.rest (by rw [hpc]; exact nofun)
  rw [hpc] at hgoOn
  cases hrest : s.rest with
  | nil => rfl
  | cons p rest =>
    rw [hrest] at hgoOn
    cases hgoOn

theorem Inv.rest_eq_cons (h : Inv c s) {packet : Value} {rest : List Value}
    (hpc : s.pc = .yielding (packet :: rest)) : s.rest = packet :: rest := by
  have hgoOn := h.rest (by rw [hpc]; exact nofun)
  rw [hpc] at hgoOn
  cases hrest : s.rest with
  | nil =>
    rw [hrest] at hgoOn
    cases hgoOn
  | cons p rest' =>
    rw [hrest] at hgoOn
    cases hgoOn
    rfl

theorem prefix_concat {α : Type*} {xs ys : List α} {y : α} (h : xs <+: ys)
    (hy : ys[xs.length]? = some y) : xs ++ [y] <+: ys := by
  obtain ⟨hlt, hget⟩ := List.getElem?_eq_some_iff.mp hy
  have htake : xs ++ [y] = ys.take (xs.length + 1) := by
    rw [List.take_succ_eq_append_getElem hlt, hget, ← List.prefix_iff_eq_take.mp h]
  rw [htake]
  exact List.take_prefix _ _

/-! ## The decoder -/

theorem onPacket_frames (config : Decode.Config) (x : Decode.State) (l : Decode.Label)
    (packet : Receive.ReceivedPacket) : x.frames <+: (x.onPacket config l packet).frames := by
  have hdecode : ∀ (y : Decode.State) (d : Decode.Decoder),
      y.frames <+: (y.decode d packet l.decoded).frames := by
    intro y d
    cases l.decoded with
    | error e => exact List.prefix_refl _
    | ok frames => exact List.prefix_append _ _
  unfold Decode.State.onPacket
  split
  · exact hdecode x _
  · split
    · exact List.prefix_refl _
    · rename_i d _
      exact hdecode { x with decoder := some d } d

theorem decode_frames {n : ℕ} {config : Decode.Config} {x y : Decode.State} {l : Decode.Label}
    (h : Decode.step n config x l = some y) : x.frames <+: y.frames := by
  obtain ⟨r, -, rfl⟩ := Decode.step_cases h
  split
  · exact List.prefix_refl _
  · exact onPacket_frames config { x with receive := r } l _

theorem Inv.decode (h : Inv c s) {d : Decode.State}
    (hframes : s.decode.frames <+: d.frames) : Inv c { s with decode := d } where
  stages :=
    { taken := h.stages.taken.trans (hframes.map _)
      processed := h.stages.processed
      encoded := h.stages.encoded
      encoder := h.stages.encoder
      submitted := h.stages.submitted
      started := h.stages.started
      counted := h.stages.counted }
  all := h.all
  rest := h.rest
  closed := h.closed

/-! ## A frame -/

theorem Stages.le_produced (h : Stages c s) : s.sentFrameCount ≤ s.produced.length := by
  cases hencoder : s.encoder with
  | none =>
    rw [h.counted, h.started hencoder]
    exact Nat.zero_le _
  | some encoder =>
    have hlength := congrArg List.length (h.submitted encoder hencoder)
    rw [List.length_map, List.length_map, List.length_take, ← h.counted] at hlength
    omega

theorem Inv.all_sent (h : Inv c s) (hpc : s.pc = .pulling) :
    s.sentFrameCount = s.produced.length := by
  have hle := h.stages.le_produced
  have hge := List.drop_eq_nil_iff.mp (h.rest_eq_nil hpc)
  omega

/-- A frame that `processed_frames` has yielded, on its way into the encoder. -/
structure Entering (c : Settings) (s : State ρ) (frame : GpuFrame) : Prop where
  taken : s.turns.map (·.frame) <+: s.decode.frames.map Prod.snd
  processed : s.processed = ProcessedFrames.run c.frameType c.intervalFrames s.turns
  encoded : s.processed.yielded = s.encoded ++ [frame]
  submitted : ∀ encoder ∈ s.encoder,
    (s.produced.take s.sentFrameCount).map (submission c encoder) = s.submitted.map .ok
  counted : s.sentFrameCount = s.submitted.length
  all : s.sentFrameCount = s.produced.length
  resultQueueOpen : s.resultQueueClosed = false

theorem Entering.encode (h : Entering c s frame)
    (hencoder : s.encoder = (s.encoded ++ [frame]).head?.map (createEncoder c.decode.cudaStream))
    (encoded : Except PyError (List Value)) : Inv c (s.encode frame encoded) := by
  have hstarted : s.encoder = none → s.submitted = [] := by
    rw [hencoder]
    cases s.encoded <;> exact nofun
  have hprefix : s.encoded ++ [frame] <+: s.processed.yielded :=
    h.encoded ▸ List.prefix_refl _
  cases encoded with
  | error e =>
    have hstages : Stages c { s with encoded := s.encoded ++ [frame] } :=
      ⟨h.taken, h.processed, hprefix, hencoder, h.submitted, hstarted, h.counted⟩
    exact hstages.leave e
  | ok packets =>
    have hsent : (s.produced ++ packets).take s.sentFrameCount =
        s.produced.take s.sentFrameCount :=
      List.take_append_of_le_length h.all.le
    have hrest : (s.produced ++ packets).drop s.sentFrameCount = packets := by
      rw [h.all, List.drop_left]
    exact
      { stages :=
          { taken := h.taken
            processed := h.processed
            encoded := hprefix
            encoder := hencoder
            submitted := by
              intro encoder hmem
              show ((s.produced ++ packets).take s.sentFrameCount).map _ = _
              rw [hsent]
              exact h.submitted encoder hmem
            started := hstarted
            counted := h.counted }
        all := fun _ => h.encoded.symm
        rest := fun _ => congrArg goOn hrest.symm
        closed := closed_goOn h.resultQueueOpen packets }

theorem Entering.onFrame (h : Entering c s frame)
    (hencoder : s.encoder = s.encoded.head?.map (createEncoder c.decode.cudaStream))
    (hstarted : s.encoder = none → s.submitted = []) (created : Option PyError)
    (encoded : Except PyError (List Value)) : Inv c (s.onFrame c frame created encoded) := by
  have hprefix : s.encoded <+: s.processed.yielded := h.encoded ▸ List.prefix_append _ _
  unfold State.onFrame
  split
  · -- the encoder has been created for another frame
    rename_i encoder hsome
    refine h.encode ?_ encoded
    rw [hencoder] at hsome ⊢
    cases hframes : s.encoded with
    | nil =>
      rw [hframes] at hsome
      cases hsome
    | cons first rest => rfl
  · exact Stages.leave
      ⟨h.taken, h.processed, hprefix, hencoder, h.submitted, hstarted, h.counted⟩ _
  · rename_i hnone
    have hnil : s.encoded = [] := by
      rw [hencoder] at hnone
      cases hframes : s.encoded with
      | nil => rfl
      | cons first rest =>
        rw [hframes] at hnone
        cases hnone
    have hcount : s.sentFrameCount = 0 := by rw [h.counted, hstarted hnone]; rfl
    have hentering : Entering c
        { s with encoder := some (createEncoder c.decode.cudaStream frame) } frame :=
      { h with
        submitted := fun encoder _ => by
          show (s.produced.take s.sentFrameCount).map _ = s.submitted.map _
          rw [hcount, hstarted hnone]
          rfl }
    refine hentering.encode ?_ encoded
    show some _ = (s.encoded ++ [frame]).head?.map _
    rw [hnil]
    rfl

theorem Inv.onTurn (h : Inv c s) (hpc : s.pc = .pulling) {x : Turn GpuFrame ρ}
    (hx : (s.decode.frames.map Prod.snd)[s.turns.length]? = some x.frame)
    (created : Option PyError) (encoded : Except PyError (List Value)) :
    Inv c (s.onTurn c x created encoded) := by
  have hleft : ∀ e, s.pc ≠ .left e := by rw [hpc]; exact nofun
  have htaken : (s.turns ++ [x]).map (·.frame) <+: s.decode.frames.map Prod.snd := by
    rw [List.map_append]
    exact prefix_concat h.stages.taken (by rw [List.length_map]; exact hx)
  have hprocessed : ProcessedFrames.onFrame c.frameType c.intervalFrames s.processed x =
      ProcessedFrames.run c.frameType c.intervalFrames (s.turns ++ [x]) := by
    rw [ProcessedFrames.run_append, h.stages.processed]
  have hyielded : (ProcessedFrames.onFrame c.frameType c.intervalFrames s.processed x).yielded =
      s.processed.yielded ++ (x.output? c.frameType c.intervalFrames).toList :=
    ProcessedFrames.onFrame_yielded s.processed x
  unfold State.onTurn
  dsimp only
  cases houtput : x.output? c.frameType c.intervalFrames with
  | none =>
    rw [houtput, Option.toList_none, List.append_nil] at hyielded
    rw [hyielded, List.getElem?_eq_none (Nat.le_refl _)]
    exact
      { stages :=
          { taken := htaken
            processed := hprocessed
            encoded := hyielded ▸ h.stages.encoded
            encoder := h.stages.encoder
            submitted := h.stages.submitted
            started := h.stages.started
            counted := h.stages.counted }
        all := fun _ => (h.all hleft).trans hyielded.symm
        rest := h.rest
        closed := h.closed }
  | some frame =>
    rw [houtput, Option.toList_some] at hyielded
    rw [hyielded, List.getElem?_concat_length]
    have hentering : Entering c
        { s with
          processed := ProcessedFrames.onFrame c.frameType c.intervalFrames s.processed x
          turns := s.turns ++ [x] } frame :=
      { taken := htaken
        processed := hprocessed
        encoded := by rw [h.all hleft]; exact hyielded
        submitted := h.stages.submitted
        counted := h.stages.counted
        all := h.all_sent hpc
        resultQueueOpen := h.resultQueueOpen hleft }
    exact hentering.onFrame h.stages.encoder h.stages.started created encoded

/-! ## A packet -/

theorem Inv.onPacket (h : Inv c s) {packetData : Value} {rest : List Value}
    (hpc : s.pc = .yielding (packetData :: rest)) {encoder : Encoder}
    (hencoder : s.encoder = some encoder) (submitRaises : Option PyError) :
    Inv c (s.onPacket c encoder packetData rest submitRaises) := by
  have hleft : ∀ e, s.pc ≠ .left e := by rw [hpc]; exact nofun
  have hrest : s.produced.drop s.sentFrameCount = packetData :: rest := h.rest_eq_cons hpc
  unfold State.onPacket
  split
  · exact h.stages.leave _
  · exact h.stages.leave _
  · rename_i packet hpacket
    have hlt : s.sentFrameCount < s.produced.length := by
      by_contra hge
      rw [List.drop_eq_nil_of_le (by omega)] at hrest
      cases hrest
    have hhead : s.produced[s.sentFrameCount] = packetData ∧
        s.produced.drop (s.sentFrameCount + 1) = rest := by
      rw [List.drop_eq_getElem_cons hlt] at hrest
      exact List.cons.inj hrest
    exact
      { stages :=
          { taken := h.stages.taken
            processed := h.stages.processed
            encoded := h.stages.encoded
            encoder := h.stages.encoder
            submitted := by
              intro encoder' hmem
              obtain rfl : encoder = encoder' := Option.some.inj (hencoder.symm.trans hmem)
              show (s.produced.take (s.sentFrameCount + 1)).map _ = (s.submitted ++ [packet]).map _
              rw [List.take_succ_eq_append_getElem hlt, hhead.1, List.map_append, List.map_append,
                h.stages.submitted encoder hmem, List.map_singleton, hpacket]
              rfl
            started := fun hnone => by
              rw [show s.encoder = none from hnone] at hencoder
              cases hencoder
            counted := by
              show s.sentFrameCount + 1 = (s.submitted ++ [packet]).length
              rw [List.length_append, h.stages.counted]
              rfl }
        all := fun _ => h.all hleft
        rest := fun _ => congrArg goOn hhead.2.symm
        closed := closed_goOn (h.resultQueueOpen hleft) rest }

/-! ## Runs -/

theorem inv_init (c : Settings) (now : ℤ) : Inv c (State.init now : State ρ) where
  stages :=
    { taken := List.nil_prefix
      processed := rfl
      encoded := List.prefix_refl _
      encoder := rfl
      submitted := fun encoder hmem => by cases hmem
      started := fun _ => rfl
      counted := rfl }
  all := fun _ => rfl
  rest := fun _ => rfl
  closed := ⟨fun h => absurd h Bool.false_ne_true, fun ⟨_, h⟩ => nomatch h⟩

theorem step_inv (h : Inv c s) (hstep : step c s l = some t) : Inv c t := by
  unfold step at hstep
  split at hstep
  case h_1 =>
    split at hstep
    · split at hstep
      · obtain ⟨d, hd, rfl⟩ := Option.map_eq_some_iff.mp hstep
        have hdecoded := h.decode (decode_frames hd)
        split
        · exact hdecoded.stages.leave _
        · exact hdecoded
      · cases hstep
    · cases hstep
  case h_2 =>
    split at hstep
    · rename_i hpc hframe
      cases hstep
      refine h.onTurn hpc ?_ _ _
      rw [List.getElem?_map, hframe]
      rfl
    · cases hstep
  case h_3 =>
    split at hstep
    · rename_i packetData rest hpc
      obtain ⟨encoder, hencoder, rfl⟩ := Option.map_eq_some_iff.mp hstep
      exact h.onPacket hpc hencoder _
    · cases hstep
  case h_4 =>
    split at hstep
    · cases hstep
    · cases hstep
      exact h.stages.leave _

theorem submission_labelled {packetData : Value} {packet : Send.EncodedPacket}
    (h : submission c (createEncoder c.decode.cudaStream frame) packetData = .ok packet) :
    Labelled frame packet := by
  unfold submission encodedPacket at h
  split at h
  · rename_i items
    change cpuPacket c.recursionLimit _ = .ok packet at h
    unfold cpuPacket at h
    cases hbytes : encodedBytes c.recursionLimit (.dict items) with
    | error e =>
      rw [hbytes] at h
      cases h
    | ok bytes =>
      rw [hbytes] at h
      cases h
      exact ⟨rfl, rfl, rfl, rfl, rfl⟩
  · cases h

theorem Inv.labelled (h : Inv c s) {packet : Send.EncodedPacket} (hmem : packet ∈ s.submitted) :
    ∃ frame ∈ s.encoded.head?, Labelled frame packet := by
  cases hencoder : s.encoder with
  | none =>
    rw [h.stages.started hencoder] at hmem
    cases hmem
  | some encoder =>
    have hfirst := h.stages.encoder
    rw [hencoder] at hfirst
    obtain ⟨frame, hframe, rfl⟩ := Option.map_eq_some_iff.mp hfirst.symm
    have hok : (Except.ok packet : Except PyError Send.EncodedPacket) ∈
        (s.produced.take s.sentFrameCount).map
          (submission c (createEncoder c.decode.cudaStream frame)) := by
      rw [h.stages.submitted _ hencoder]
      exact List.mem_map_of_mem hmem
    obtain ⟨packetData, -, hsubmission⟩ := List.mem_map.mp hok
    exact ⟨frame, hframe, submission_labelled hsubmission⟩

theorem Inv.accounted (h : Inv c s) : Accounted c s where
  taken := h.stages.taken
  processed := h.stages.processed
  encoded := h.stages.encoded
  all := h.all
  submitted := h.stages.submitted
  counted := h.stages.counted
  rest := h.rest_eq_nil
  labelled := fun _ hmem => h.labelled hmem
  closed := h.closed

end

/-- **The video path**, whatever the camera, the decoder, the model, the encoder and the sender
answer: at any time the frames of the decoder have been taken, the outputs of the model encoded and
the packets of the encoder submitted each in order, without a gap and without a copy, under the
header of the first encoded frame; everything the encoder has returned is submitted before the next
frame is asked for; and the result queue is closed exactly when the path has been left. -/
theorem pipeline_accounts (c : Settings) (now : ℤ) (labels : List (Label ρ)) :
    Always (step c) (Accounted c) (State.init now) labels :=
  always_of_invariant (fun _ h => Inv.accounted h) (fun _ _ _ h hstep => step_inv h hstep)
    (inv_init c now)

/-! ## The way on through `send` -/

section

variable {x y : Send.State} {event : Send.Event}

/-- Every container has been configured for a packet that `send` has been given. -/
structure Configured (x : Send.State) : Prop where
  item : ∀ it, x.pc.item? = some it → x.fetched[it.position]? = some it.packet
  stream : ∀ out, x.outputStream = some out → ∃ p ∈ x.fetched, out = Send.outputStreamOf p
  muxed : ∀ m ∈ x.muxed, ∃ p q, x.fetched[m.position]? = some p ∧ q ∈ x.fetched ∧
    m.sendPacket = Send.sendPacketOf p (Send.outputStreamOf q)

theorem configured_init : Configured Send.State.init where
  item := fun _ h => by cases h
  stream := fun _ h => by cases h
  muxed := fun _ h => by cases h

/-- A step that does not mux. -/
theorem Configured.of_frame (h : Configured x) (hfetched : y.fetched = x.fetched)
    (hmuxed : y.muxed = x.muxed) (hitem : ∀ it, y.pc.item? = some it → x.pc.item? = some it)
    (hstream : ∀ out, y.outputStream = some out → ∃ p ∈ x.fetched, out = Send.outputStreamOf p) :
    Configured y where
  item := fun it hit => hfetched ▸ h.item it (hitem it hit)
  stream := fun out hout => hfetched ▸ hstream out hout
  muxed := by
    rw [hmuxed, hfetched]
    exact h.muxed

theorem Configured.fail (h : Configured x) {it : Send.Item} (hit : x.pc.item? = some it) :
    Configured (x.fail it) := by
  obtain ⟨hfetched, hmuxed, -, -, -, -, hitem⟩ := Send.fail_frame x it
  refine h.of_frame hfetched hmuxed (fun it' h' => hit.trans (hitem.symm.trans h')) ?_
  unfold Send.State.fail
  split <;> exact h.stream

theorem Configured.next (h : Configured x) (p : Send.EncodedPacket) :
    Configured { x with pc := .loop ⟨x.fetched.length, p⟩, fetched := x.fetched ++ [p] } where
  item := by
    rintro it ⟨⟩
    exact List.getElem?_concat_length
  stream := fun out hout => by
    obtain ⟨q, hq, heq⟩ := h.stream out hout
    exact ⟨q, List.mem_append_left _ hq, heq⟩
  muxed := fun m hm => by
    obtain ⟨q, r, hq, hr, heq⟩ := h.muxed m hm
    refine ⟨q, r, ?_, List.mem_append_left _ hr, heq⟩
    rw [List.getElem?_append_left (List.getElem?_eq_some_iff.mp hq).1]
    exact hq

theorem Configured.step (h : Configured x) (hstep : Send.step x event = some y) :
    Configured y := by
  cases Send.step_transition hstep with
  | shutdown => exact h.of_frame rfl rfl (fun _ => id) h.stream
  | next p hpc => exact h.next p
  | exhausted hpc =>
    unfold Send.State.toFinally
    split <;> exact h.of_frame rfl rfl (fun _ hit => nomatch hit) h.stream
  | check it hpc =>
    have hit := Send.item?_pc hpc
    unfold Send.State.check
    split
    · exact h.of_frame rfl rfl (fun _ hit => nomatch hit) h.stream
    · split
      · exact h.of_frame rfl rfl (fun _ hit => nomatch hit) h.stream
      · split <;> exact h.of_frame rfl rfl (fun _ hit' => hit.trans hit') h.stream
  | avOpen it hpc =>
    exact h.of_frame rfl rfl (fun _ hit => (Send.item?_pc hpc).trans hit) h.stream
  | avOpenRaises it hpc => exact h.fail (Send.item?_pc hpc)
  | addStream it hpc =>
    have hit := Send.item?_pc hpc
    refine h.of_frame rfl rfl (fun _ hit' => hit.trans hit') fun out hout => ?_
    cases hout
    exact ⟨it.packet, List.mem_of_getElem? (h.item it hit), rfl⟩
  | addStreamRaises it hpc => exact h.fail (Send.item?_pc hpc)
  | muxed it now k out hpc hk hout =>
    have hit := Send.item?_pc hpc
    refine ⟨fun _ hit' => (nomatch hit'), h.stream, fun m hm => ?_⟩
    rcases List.mem_append.mp hm with hm | hm
    · exact h.muxed m hm
    · obtain ⟨q, hq, rfl⟩ := h.stream out hout
      obtain rfl := List.mem_singleton.mp hm
      exact ⟨it.packet, q, h.item it hit, hq, rfl⟩
  | muxRaises it hpc => exact h.fail (Send.item?_pc hpc)
  | close it hpc =>
    exact h.of_frame rfl rfl (fun _ hit => (Send.item?_pc hpc).trans hit) fun _ hout => nomatch hout
  | closeRaises it hpc => exact h.of_frame rfl rfl (fun _ hit => nomatch hit) h.stream
  | wait it hpc =>
    exact h.of_frame rfl rfl (fun _ hit => (Send.item?_pc hpc).trans hit) h.stream
  | finish pending ok hpc => exact h.of_frame rfl rfl (fun _ hit => nomatch hit) h.stream

end

/-- **Streams agree with their packets.**  When `send` is given packets that the path has
submitted, in any order and with any of them left out, then whatever is opened, fails and is opened
again, a packet is muxed into a stream that has been configured with the codec, the size and the
time base of that very packet. -/
theorem muxed_streams_agree (c : Settings) (now : ℤ) (labels : List (Label ρ)) (s : State ρ)
    (hs : run (step c) (State.init now) labels = some s) (events : List Send.Event)
    (x : Send.State) (hx : run Send.step Send.State.init events = some x)
    (hfetched : ∀ p ∈ x.fetched, p ∈ s.submitted) :
    ∀ m ∈ x.muxed, ∃ p ∈ s.submitted, x.fetched[m.position]? = some p ∧
      m.sendPacket = Send.sendPacketOf p (Send.outputStreamOf p) := by
  have hinv : Inv c s := run_invariant (fun _ _ _ h hstep => step_inv h hstep) (inv_init c now) hs
  have hconfigured : Configured x :=
    run_invariant (fun _ _ _ h hstep => Configured.step h hstep) configured_init hx
  intro m hm
  obtain ⟨p, q, hp, hq, hmuxed⟩ := hconfigured.muxed m hm
  have hp' := hfetched p (List.mem_of_getElem? hp)
  obtain ⟨first, hfirst, hlabel⟩ := hinv.labelled hp'
  obtain ⟨first', hfirst', hlabel'⟩ := hinv.labelled (hfetched q hq)
  obtain rfl : first = first' := Option.some.inj (hfirst.symm.trans hfirst')
  refine ⟨p, hp', hp, ?_⟩
  have hstream : Send.outputStreamOf q = Send.outputStreamOf p := by
    unfold Send.outputStreamOf
    rw [hlabel.codec, hlabel'.codec, hlabel.width, hlabel'.width, hlabel.height, hlabel'.height,
      hlabel.timeBase, hlabel'.timeBase]
  rw [hmuxed, hstream]

/-- The model is bypassed. -/
def bypassed : Settings := ⟨0, ⟨0, "native", none⟩, 0, "pytorch", 1000⟩

/-- An IDR unit, as NVENC hands it out. -/
def idrPacket (timestamp : ℤ) : Value :=
  .dict [(.str "timestamp", .int timestamp), (.str "data", .bytesLike [0, 0, 1, 0x65])]

/-- Two frames go through, and the camera is interrupted. -/
def twoFramesScript : List (Label Unit) :=
  [.decode (Decode.answer (.opens [Decode.stream "h264"])), .decode (Decode.answer .inspect),
    .decode (Decode.answer (Decode.packetAt 0)), .frame .raises false none (.ok [idrPacket 0]),
    .packet none, .decode (Decode.answer (Decode.packetAt 3600)),
    .frame .raises false none (.ok [idrPacket 1]), .packet none, .interrupt]

def idrEncoded (pts : ℤ) : Send.EncodedPacket :=
  ⟨"h264", 1920, 1080, 1 / 25, some pts, [0, 0, 1, 0x65], true⟩

/-- The first one is lost, the second one goes out. -/
def oneMuxedScript : List Send.Event :=
  [.next (idrEncoded 1), .check, .avOpen true, .addStream true, .muxed 0]

theorem keyframe_idr : Keyframe.isIdrKeyframe "h264" [0, 0, 1, 0x65] = true := by
  have hfind : Keyframe.find [0, 0, 1, 0x65] AnnexB.startCode 0 = some 0 := by decide
  rw [Keyframe.isIdrKeyframe_eq, Keyframe.scan_some hfind rfl]
  decide

theorem muxed_streams_agree_idr :
    ∃ s x, run (step bypassed) (State.init 0) twoFramesScript = some s ∧
      run Send.step Send.State.init oneMuxedScript = some x ∧ x.muxed ≠ [] ∧
      ∀ m ∈ x.muxed, ∃ p ∈ s.submitted, x.fetched[m.position]? = some p ∧
        m.sendPacket = Send.sendPacketOf p (Send.outputStreamOf p) := by
  refine ⟨_, _, rfl, rfl, by decide, muxed_streams_agree bypassed 0 twoFramesScript _ rfl
    oneMuxedScript _ rfl ?_⟩
  intro p hp
  obtain rfl : p = idrEncoded 1 := List.mem_singleton.mp hp
  have hlast : idrEncoded 1 = ⟨"h264", 1920, 1080, 1 / (encoderFps (some 25) : ℕ), some 1,
      [0, 0, 1, 0x65], Keyframe.isIdrKeyframe "h264" [0, 0, 1, 0x65]⟩ := by
    rw [keyframe_idr, show encoderFps (some 25) = 25 by decide +kernel]
    rfl
  rw [hlast]
  exact List.mem_cons_of_mem _ (List.mem_singleton_self _)

end PipeWorks.NvidiaPipe.RunPipeline
