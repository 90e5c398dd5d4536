import Mathlib.Data.List.Forall2
import PipeWorks.Lib.PopMin
import PipeWorks.Lib.StepSystem
import PipeWorks.Python.Exception
import PipeWorks.RtspStatus

/-!
# The RTSP input loop (`nvidia_pipe/receive.py`)

`receive` is an endless generator: open the input, demux it, annotate and hand on every packet
that carries both timestamps (through a jitter buffer of `bufferSize` packets), and after the
connection has ended sleep three seconds and try again.  `step` executes the code between two
answers of the outside world: an `Event` is what `av.open`, the demuxer or the clock answers.

Fields marked *history* are never read by the code: they record what was delivered, yielded and
reported, so that properties of whole runs can be stated.

The clock that `time.monotonic` reads counts nanoseconds; strings are lowered letter by letter
as far as ASCII goes, which is all that matters for a key of `codec_ids`.
-/

set_option autoImplicit false

namespace PipeWorks.NvidiaPipe.Receive

open StepSystem PopMin PipeWorks.Python

/-! ## Data -/

/-- The members of `nvc.cudaVideoCodec` the code uses. -/
inductive CudaVideoCodec where
  | H264
  | HEVC
  deriving DecidableEq, Repr

/-- `codec_ids`: the codec names the hardware decoder supports. -/
def codecIds : String → Option CudaVideoCodec
  | "h264" => some .H264
  | "hevc" => some .HEVC
  | "h265" => some .HEVC
  | _ => none

/-- `str.lower`. -/
def lower (s : String) : String := String.ofList (s.toList.map Char.toLower)

/-- A video stream of the container, as far as the code reads it. -/
structure VideoStream where
  /-- `codec_context.name` -/
  codecName : String
  width : Nat
  height : Nat
  averageRate : Option Rat
  timeBase : Rat
  deriving DecidableEq, Repr

/-- The codec `receive` selects for a stream. -/
def VideoStream.codec (v : VideoStream) : Option CudaVideoCodec := codecIds (lower v.codecName)

/-- A demuxed packet. -/
structure DemuxPacket where
  data : List UInt8
  pts : Option Int
  dts : Option Int
  duration : Option Int
  isKeyframe : Bool
  deriving DecidableEq, Repr

/-- A demuxed packet that carries both timestamps: the packets the code accepts. -/
structure StampedPacket where
  data : List UInt8
  pts : Int
  dts : Int
  duration : Option Int
  isKeyframe : Bool
  deriving DecidableEq, Repr

/-- The negation of `packet.pts is None or packet.dts is None`. -/
def DemuxPacket.stamped? (p : DemuxPacket) : Option StampedPacket :=
  match p.pts, p.dts with
  | some pts, some dts => some ⟨p.data, pts, dts, p.duration, p.isKeyframe⟩
  | _, _ => none

/-- `nvc.PacketData`, with the bytes its address `bsl_data` points to. -/
structure PacketData where
  bslData : List UInt8
  bsl : Nat
  pts : Int
  dts : Int
  duration : Option Int
  key : Bool
  isVideo : Bool
  deriving DecidableEq, Repr

structure ReceivedPacket where
  codec : CudaVideoCodec
  inputStream : VideoStream
  packetData : PacketData
  bitstreamBuffer : List UInt8
  deriving DecidableEq, Repr

/-- An entry `(pts, jitter_sequence, received_packet)` of the heap. -/
abbrev JitterEntry := Int × Nat × ReceivedPacket

/-- Tuple comparison, up to the sequence number that tells any two entries apart. -/
def JitterEntry.lt (a b : JitterEntry) : Bool :=
  a.1 < b.1 || (a.1 == b.1 && a.2.1 < b.2.1)

/-- The locals of one pass through the `try` block. -/
structure Connection where
  inputStream : VideoStream
  codec : CudaVideoCodec
  previousPts : Option Int
  jitterPackets : List JitterEntry
  jitterSequence : Nat
  /-- history: the packets demuxed from this connection -/
  arrived : List DemuxPacket
  /-- history: the packets yielded from this connection -/
  yielded : List ReceivedPacket
  deriving DecidableEq, Repr

/-- Where the generator stands.  The container is open in `inspecting` and `demuxing`. -/
inductive Phase where
  /-- about to call `av.open` -/
  | connecting
  /-- `av.open` returned a container with these video streams -/
  | inspecting (video : List VideoStream)
  /-- in the `for packet in container.demux(video=0)` loop -/
  | demuxing (c : Connection)
  /-- in `time.sleep(3)` -/
  | waiting
  /-- left by an exception that no clause catches -/
  | raised (e : PyError)
  deriving DecidableEq, Repr

structure State where
  phase : Phase
  inputRtspStatus : RtspStatus
  outOfOrderFrameCount : Nat
  timestampAnomalyCount : Nat
  nextTimestampAnomalyLogAt : Int
  /-- history: the counts of the periodic warnings, in order -/
  anomalyReports : List Nat
  /-- history: the connections left for another attempt, as they were then -/
  finished : List Connection
  deriving DecidableEq, Repr

/-- What the outside world answers. -/
inductive Event where
  | openRaises (e : PyError)
  | opens (video : List VideoStream)
  /-- the code between `av.open` and the demux loop, which asks nothing -/
  | inspect
  /-- the demuxer delivers a packet (`none`: a false value), the clock stands at `now` -/
  | packet (p : Option DemuxPacket) (now : Int)
  | endOfStream
  /-- the demuxer, or the handling of the packet it delivered, raises -/
  | demuxRaises (e : PyError)
  /-- `time.sleep` returns -/
  | wake
  deriving DecidableEq, Repr

/-! ## The code -/

/-- `TIMESTAMP_ANOMALY_LOG_INTERVAL_SECONDS = 5.0`. -/
def TIMESTAMP_ANOMALY_LOG_INTERVAL : Int := 5000000000

def State.init (now : Int) : State :=
  { phase := .connecting
    inputRtspStatus := .disconnected
    outOfOrderFrameCount := 0
    timestampAnomalyCount := 0
    nextTimestampAnomalyLogAt := now + TIMESTAMP_ANOMALY_LOG_INTERVAL
    anomalyReports := []
    finished := [] }

/-- The duration written into a packet that follows one with `previousPts`. -/
def packetDuration (previousPts : Option Int) (p : StampedPacket) : Option Int :=
  match previousPts with
  | none => p.duration
  | some previous => some (max 0 (p.pts - previous))

/-- `duration <= 0`, asked only of a packet that has a predecessor. -/
def isAnomaly (previousPts : Option Int) (p : StampedPacket) : Bool :=
  match previousPts with
  | none => false
  | some previous => decide (p.pts - previous ≤ 0)

/-- The packet handed on for `p`.  `create_string_buffer` appends a zero byte, which `bsl`
    leaves out again. -/
def receivedPacket (v : VideoStream) (codec : CudaVideoCodec) (previousPts : Option Int)
    (p : StampedPacket) : ReceivedPacket :=
  let bitstream := p.data ++ [0]
  { codec := codec
    inputStream := v
    packetData :=
      { bslData := bitstream
        bsl := bitstream.length - 1
        pts := p.pts
        dts := p.dts
        duration := packetDuration previousPts p
        key := p.isKeyframe
        isVideo := true }
    bitstreamBuffer := bitstream }

/-- The periodic summary: at most one warning per interval, and only if there is something to
    report. -/
def State.reportAnomalies (s : State) (now : Int) : State :=
  if now ≥ s.nextTimestampAnomalyLogAt then
    let s' := { s with nextTimestampAnomalyLogAt := now + TIMESTAMP_ANOMALY_LOG_INTERVAL }
    if s.timestampAnomalyCount = 0 then s'
    else { s' with
      anomalyReports := s.anomalyReports ++ [s.timestampAnomalyCount]
      timestampAnomalyCount := 0 }
  else s

def State.countAnomaly (s : State) : Bool → State
  | false => s
  | true => { s with
      timestampAnomalyCount := s.timestampAnomalyCount + 1
      outOfOrderFrameCount := s.outOfOrderFrameCount + 1 }

/-- Hand a received packet on: directly, or through the heap, from which the least entry is
    yielded once it holds more than `bufferSize`. -/
def Connection.deliver (bufferSize : Nat) (c : Connection) (r : ReceivedPacket) : Connection :=
  if bufferSize = 0 then { c with yielded := c.yielded ++ [r] }
  else
    let heap := c.jitterPackets ++ [(r.packetData.pts, c.jitterSequence, r)]
    let c' := { c with jitterPackets := heap, jitterSequence := c.jitterSequence + 1 }
    if heap.length > bufferSize then
      match popMin JitterEntry.lt heap with
      | some (entry, rest) =>
        { c' with jitterPackets := rest, yielded := c.yielded ++ [entry.2.2] }
      | none => c'
    else c'

/-- The locals after an accepted packet. -/
def Connection.accept (bufferSize : Nat) (c : Connection) (p : StampedPacket) : Connection :=
  { c with previousPts := some p.pts }.deliver bufferSize
    (receivedPacket c.inputStream c.codec c.previousPts p)

/-- The locals after a demuxed packet: one without both timestamps is passed over. -/
def Connection.onPacket (bufferSize : Nat) (c : Connection) (p : DemuxPacket) : Connection :=
  let c' := { c with arrived := c.arrived ++ [p] }
  match p.stamped? with
  | none => c'
  | some q => c'.accept bufferSize q

/-- The counters after a demuxed packet. -/
def State.onPacket (s : State) (previousPts : Option Int) (now : Int) (p : DemuxPacket) : State :=
  match p.stamped? with
  | none => s
  | some q => (s.countAnomaly (isAnomaly previousPts q)).reportAnomalies now

/-- One pass of the demux loop; `if not packet: continue` passes over a false value. -/
def onPacket (bufferSize : Nat) (s : State) (c : Connection) (now : Int) :
    Option DemuxPacket → State
  | none => s
  | some p =>
    { s.onPacket c.previousPts now p with phase := .demuxing (c.onPacket bufferSize p) }

/-- `except (av.FFmpegError, OSError, IndexError)`. -/
def handled (e : PyError) : Bool := e.caughtBy [.ffmpegError, .osError, .indexError]

/-- Leave the `try` block with an exception, through the `except` clause if it catches it and
    through `finally`. -/
def State.leave (s : State) (e : PyError) : State :=
  if handled e then { s with inputRtspStatus := .disconnected, phase := .waiting }
  else { s with phase := .raised e }

/-- Keep a connection that another attempt follows. -/
def State.finish (s : State) (c : Connection) : State :=
  match s.phase with
  | .waiting => { s with finished := s.finished ++ [c] }
  | _ => s

def Connection.start (v : VideoStream) (codec : CudaVideoCodec) : Connection :=
  { inputStream := v
    codec := codec
    previousPts := none
    jitterPackets := []
    jitterSequence := 0
    arrived := []
    yielded := [] }

/-- From `container.streams.video[0]` to the head of the demux loop. -/
def inspect (s : State) (video : List VideoStream) : State :=
  match video with
  | [] => s.leave .indexError
  | v :: _ =>
    match v.codec with
    | none => s.leave .valueError
    | some codec =>
      { s with inputRtspStatus := .connected, phase := .demuxing (Connection.start v codec) }

/-- `receive` between two answers of the outside world. -/
def step (bufferSize : Nat) (s : State) (e : Event) : Option State :=
  match s.phase, e with
  | .connecting, .openRaises x => some (s.leave x)
  | .connecting, .opens video => some { s with phase := .inspecting video }
  | .inspecting video, .inspect => some (inspect s video)
  | .demuxing c, .packet p now => some (onPacket bufferSize s c now p)
  | .demuxing c, .endOfStream => some ({ s with phase := .waiting }.finish c)
  | .demuxing c, .demuxRaises x => some ((s.leave x).finish c)
  | .waiting, .wake => some { s with phase := .connecting }
  | _, _ => none

/-! ## What the parts of a step write -/

theorem leave_of_handled {s : State} {e : PyError} (h : handled e = true) :
    s.leave e = { s with inputRtspStatus := .disconnected, phase := .waiting } := if_pos h

theorem leave_of_not_handled {s : State} {e : PyError} (h : ¬ handled e = true) :
    s.leave e = { s with phase := .raised e } := if_neg h

@[simp] theorem finish_phase (s : State) (c : Connection) : (s.finish c).phase = s.phase := by
  unfold State.finish
  split <;> rfl

@[simp] theorem finish_status (s : State) (c : Connection) :
    (s.finish c).inputRtspStatus = s.inputRtspStatus := by
  unfold State.finish
  split <;> rfl

theorem countAnomaly_frame (s : State) (b : Bool) :
    (s.countAnomaly b).finished = s.finished ∧
      (s.countAnomaly b).inputRtspStatus = s.inputRtspStatus := by
  cases b <;> exact ⟨rfl, rfl⟩

theorem reportAnomalies_frame (s : State) (now : Int) :
    (s.reportAnomalies now).finished = s.finished ∧
      (s.reportAnomalies now).inputRtspStatus = s.inputRtspStatus := by
  unfold State.reportAnomalies
  split
  · simp only
    split <;> exact ⟨rfl, rfl⟩
  · exact ⟨rfl, rfl⟩

/-- A packet changes nothing of the state but the counters and the connection. -/
theorem state_onPacket_frame (s : State) (previousPts : Option Int) (now : Int)
    (p : DemuxPacket) :
    (s.onPacket previousPts now p).finished = s.finished ∧
      (s.onPacket previousPts now p).inputRtspStatus = s.inputRtspStatus := by
  unfold State.onPacket
  split
  · exact ⟨rfl, rfl⟩
  · rename_i q _
    have hcount := countAnomaly_frame s (isAnomaly previousPts q)
    have hreport := reportAnomalies_frame (s.countAnomaly (isAnomaly previousPts q)) now
    exact ⟨hreport.1.trans hcount.1, hreport.2.trans hcount.2⟩

end PipeWorks.NvidiaPipe.Receive
