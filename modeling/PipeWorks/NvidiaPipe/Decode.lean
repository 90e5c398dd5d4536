import PipeWorks.NvidiaPipe.JitterBuffer

/-!
# Decoding what is received (`decode` of `nvidia_pipe/decode.py`)

`decode` pulls packets out of `receive` and keeps one decoder, which it creates with the codec of
the first packet.  `step` is a step of `receive` followed, if it has yielded a packet, by what
`decode` does with that packet; what the decoder answers is part of the label.

`always_ownCodec_iff`: the decoder is fed its own codec, and its frames are labelled with it, in
every state of a run exactly when every connection that hands on a packet has the codec of the
decoder.  `changedCodec_not_own` is a camera that comes back with another codec.
-/

set_option autoImplicit false

namespace PipeWorks.NvidiaPipe.Decode

open StepSystem PipeWorks.Python
open Receive (CudaVideoCodec ReceivedPacket Connection)

/-! ## The code -/

inductive OutputColorType where
  | NATIVE
  | RGB
  | RGBP
  deriving DecidableEq, Repr

/-- The output format of `config["inference"]["input_format"]`. -/
def outputColorType? : String → Option OutputColorType
  | "native" => some .NATIVE
  | "rgb" => some .RGB
  | "rgbp" => some .RGBP
  | _ => none

structure Config where
  gpuid : Nat
  inputFormat : String
  /-- the handle of the stream, if `decode` is given one -/
  cudaStream : Option Nat
  deriving DecidableEq, Repr

/-- A decoder, by the arguments of `CreateDecoder`, and the locals that are set with it. -/
structure Decoder where
  gpuid : Nat
  codec : CudaVideoCodec
  outputColorType : OutputColorType
  cudaStream : Option Nat
  /-- `pixel_format.name` -/
  pixelFormat : String
  timeBase : Rat
  deriving DecidableEq, Repr

/-- What `Decode` returns a list of. -/
structure FrameData where
  pts : Int
  surface : Nat
  deriving DecidableEq, Repr

structure GpuFrame where
  gpuid : Nat
  codec : String
  width : Nat
  height : Nat
  pixelFormat : String
  timeBase : Rat
  frameRate : Option Rat
  pts : Int
  frameData : FrameData
  deriving DecidableEq, Repr

structure State where
  receive : Receive.State
  decoder : Option Decoder
  /-- the exception that has ended `decode` -/
  raised : Option PyError
  /-- history: the calls of `Decode` -/
  fed : List (Decoder × ReceivedPacket)
  /-- history: the yielded frames, with the decoder that has produced them -/
  frames : List (Decoder × GpuFrame)
  deriving DecidableEq, Repr

/-- An event of `receive`, and what the library answers if `decode` asks it. -/
structure Label where
  event : Receive.Event
  /-- the exception of `CreateDecoder`, or the name of the pixel format -/
  created : Except PyError String
  decoded : Except PyError (List FrameData)

def State.init (now : Int) : State := ⟨Receive.State.init now, none, none, [], []⟩

/-- `codec.name.lower()`. -/
def codecName : CudaVideoCodec → String
  | .H264 => "h264"
  | .HEVC => "hevc"

/-- The packet that a step of `receive` from `s` to `t` has yielded. -/
def yielded? (s t : Receive.State) : Option ReceivedPacket :=
  match s.phase, t.phase with
  | .demuxing c, .demuxing c' => c'.yielded[c.yielded.length]?
  | _, _ => none

def createDecoder (config : Config) (packet : ReceivedPacket) (created : Except PyError String) :
    Except PyError Decoder :=
  match outputColorType? config.inputFormat with
  | none => .error .valueError
  | some outputColorType => created.map fun pixelFormat =>
    { gpuid := config.gpuid
      codec := packet.codec
      outputColorType := outputColorType
      cudaStream := config.cudaStream
      pixelFormat := pixelFormat
      timeBase := packet.inputStream.timeBase }

def gpuFrame (d : Decoder) (packet : ReceivedPacket) (frameData : FrameData) : GpuFrame :=
  { gpuid := d.gpuid
    codec := codecName packet.codec
    width := packet.inputStream.width
    height := packet.inputStream.height
    pixelFormat := d.pixelFormat
    timeBase := d.timeBase
    frameRate := packet.inputStream.averageRate
    pts := frameData.pts
    frameData := frameData }

/-- `decoder.Decode(packet.packet_data)` and the frames it yields. -/
def State.decode (s : State) (d : Decoder) (packet : ReceivedPacket) :
    Except PyError (List FrameData) → State
  | .error e => { s with fed := s.fed ++ [(d, packet)], raised := some e }
  | .ok frames =>
    { s with
      fed := s.fed ++ [(d, packet)]
      frames := s.frames ++ frames.map fun frameData => (d, gpuFrame d packet frameData) }

/-- The body of the loop. -/
def State.onPacket (config : Config) (s : State) (l : Label) (packet : ReceivedPacket) : State :=
  match s.decoder with
  | some d => s.decode d packet l.decoded
  | none =>
    match createDecoder config packet l.created with
    | .error e => { s with raised := some e }
    | .ok d => { s with decoder := some d }.decode d packet l.decoded

def step (bufferSize : Nat) (config : Config) (s : State) (l : Label) : Option State :=
  if s.raised.isSome then none
  else (Receive.step bufferSize s.receive l.event).map fun t =>
    match yielded? s.receive t with
    | none => { s with receive := t }
    | some packet => { s with receive := t }.onPacket config l packet

/-- The decoder has been fed its own codec only, and its frames say so. -/
structure OwnCodec (s : State) : Prop where
  fed : ∀ x ∈ s.fed, x.2.codec = x.1.codec
  frames : ∀ x ∈ s.frames, x.2.codec = codecName x.1.codec

/-- The connection hands on a packet when the demuxer delivers `p`: directly, or out of the jitter
    buffer, which is full. -/
def HandsOn (bufferSize : Nat) (c : Connection) (p : Receive.DemuxPacket) : Prop :=
  p.stamped?.isSome = true ∧ (bufferSize = 0 ∨ bufferSize ≤ c.jitterPackets.length)

/-- A connection that hands on a packet has the codec of the decoder. -/
def SameCodec (bufferSize : Nat) (s : State) (l : Label) : Prop :=
  ∀ c d p now, s.receive.phase = .demuxing c → s.decoder = some d → l.event = .packet (some p) now →
    HandsOn bufferSize c p → c.codec = d.codec

variable {n : Nat} {config : Config} {s t : State} {l : Label} {c : Connection}
  {packet : ReceivedPacket}

/-! ## What `receive` yields -/

theorem annotated_codec (v : Receive.VideoStream) (codec : CudaVideoCodec) :
    ∀ (previousPts : Option Int) (ps : List Receive.StampedPacket),
      ∀ r ∈ Receive.annotated v codec previousPts ps, r.codec = codec
  | _, [], _, hr => by cases hr
  | _, p :: ps, r, hr => by
    rcases List.mem_cons.mp hr with rfl | hr
    · rfl
    · exact annotated_codec v codec (some p.pts) ps r hr

/-- Whatever a connection has handed on has its codec. -/
theorem codec_of_mem_yielded (h : c.Inv n) (hr : packet ∈ c.yielded) : packet.codec = c.codec :=
  annotated_codec c.inputStream c.codec none _ packet
    (h.content.subset (List.mem_append_left _ hr))

theorem deliver_yielded (c : Connection) (r : ReceivedPacket)
    (h : n = 0 ∨ n ≤ c.jitterPackets.length) :
    ∃ r', (c.deliver n r).yielded = c.yielded ++ [r'] := by
  unfold Connection.deliver
  split
  · exact ⟨r, rfl⟩
  · rename_i hn
    simp only [List.length_append, List.length_singleton]
    rw [if_pos (by have := h.resolve_left hn; omega)]
    split
    · exact ⟨_, rfl⟩
    · rename_i hnone
      exact absurd (PopMin.popMin_none hnone) (by simp)

theorem deliver_yielded_of_room (c : Connection) (r : ReceivedPacket)
    (h : ¬ (n = 0 ∨ n ≤ c.jitterPackets.length)) : (c.deliver n r).yielded = c.yielded := by
  unfold Connection.deliver
  rw [if_neg fun hn => h (.inl hn)]
  simp only [List.length_append, List.length_singleton]
  rw [if_neg (by omega)]

theorem onPacket_yielded (c : Connection) (p : Receive.DemuxPacket) :
    (HandsOn n c p → ∃ r', (c.onPacket n p).yielded = c.yielded ++ [r']) ∧
      (¬ HandsOn n c p → (c.onPacket n p).yielded = c.yielded) := by
  unfold Connection.onPacket HandsOn
  cases hp : p.stamped? with
  | none => simp
  | some q =>
    simp only [Connection.accept, Option.isSome_some, true_and]
    exact ⟨fun h => deliver_yielded _ _ h, fun h => deliver_yielded_of_room _ _ h⟩

theorem yielded?_of_phase {a b : Receive.State} {c c' : Connection} (ha : a.phase = .demuxing c)
    (hb : b.phase = .demuxing c') : yielded? a b = c'.yielded[c.yielded.length]? := by
  simp only [yielded?, ha, hb]

theorem yielded?_eq_none {a b : Receive.State} (hb : ∀ c, b.phase ≠ .demuxing c) :
    yielded? a b = none := by
  unfold yielded?
  split
  · exact absurd ‹_› (hb _)
  · rfl

theorem leave_not_demuxing (a : Receive.State) (e : PyError) :
    ∀ c, (a.leave e).phase ≠ .demuxing c := by
  intro c
  by_cases h : Receive.handled e = true
  · simp [Receive.leave_of_handled h]
  · simp [Receive.leave_of_not_handled h]

/-- Only a delivered packet makes `receive` yield. -/
theorem yielded?_eq_some {a b : Receive.State} {e : Receive.Event}
    (hstep : Receive.step n a e = some b) (h : yielded? a b = some packet) :
    ∃ c p now, a.phase = .demuxing c ∧ e = .packet (some p) now ∧
      b.phase = .demuxing (c.onPacket n p) := by
  have hdemuxing : ∃ c, a.phase = .demuxing c := by
    unfold yielded? at h
    split at h
    · exact ⟨_, ‹_›⟩
    · cases h
  obtain ⟨c, hc⟩ := hdemuxing
  simp only [Receive.step, hc] at hstep
  cases e with
  | packet p now =>
    cases p with
    | none =>
      cases hstep
      have h : yielded? a a = some packet := h
      rw [yielded?_of_phase hc hc] at h
      simp at h
    | some p =>
      cases hstep
      exact ⟨c, p, now, hc, rfl, rfl⟩
  | endOfStream =>
    cases hstep
    rw [yielded?_eq_none (by simp)] at h
    cases h
  | demuxRaises x =>
    cases hstep
    rw [yielded?_eq_none (by simpa using leave_not_demuxing a x)] at h
    cases h
  | openRaises _ | opens _ | inspect | wake => cases hstep

/-- What is yielded when a packet is delivered. -/
theorem yielded?_packet {a b : Receive.State} (ha : a.phase = .demuxing c) {p : Receive.DemuxPacket}
    (hb : b.phase = .demuxing (c.onPacket n p)) :
    (HandsOn n c p → ∃ r ∈ (c.onPacket n p).yielded, yielded? a b = some r) ∧
      (¬ HandsOn n c p → yielded? a b = none) := by
  rw [yielded?_of_phase ha hb]
  constructor
  · intro hands
    obtain ⟨r, hr⟩ := (onPacket_yielded c p).1 hands
    exact ⟨r, by simp [hr], by simp [hr]⟩
  · intro hands
    rw [(onPacket_yielded c p).2 hands]
    simp

/-! ## What `decode` does with it -/

theorem OwnCodec.decode (h : OwnCodec s) {d : Decoder} (hcodec : packet.codec = d.codec)
    (decoded : Except PyError (List FrameData)) : OwnCodec (s.decode d packet decoded) := by
  have hfed : ∀ x ∈ s.fed ++ [(d, packet)], x.2.codec = x.1.codec := by
    intro x hx
    rcases List.mem_append.mp hx with hx | hx
    · exact h.fed x hx
    · rw [List.mem_singleton.mp hx]
      exact hcodec
  cases decoded with
  | error e => exact ⟨hfed, h.frames⟩
  | ok frames =>
    refine ⟨hfed, fun x hx => ?_⟩
    rcases List.mem_append.mp hx with hx | hx
    · exact h.frames x hx
    · obtain ⟨f, -, rfl⟩ := List.mem_map.mp hx
      exact congrArg codecName hcodec

theorem createDecoder_codec {created : Except PyError String} {d : Decoder}
    (h : createDecoder config packet created = .ok d) : packet.codec = d.codec := by
  unfold createDecoder at h
  split at h
  · cases h
  · cases created with
    | error e => cases h
    | ok pixelFormat =>
      cases h
      rfl

theorem OwnCodec.onPacket (h : OwnCodec s)
    (hcodec : ∀ d, s.decoder = some d → packet.codec = d.codec) :
    OwnCodec (s.onPacket config l packet) := by
  unfold State.onPacket
  split
  · rename_i d hd
    exact h.decode (hcodec d hd) l.decoded
  · split
    · exact ⟨h.fed, h.frames⟩
    · rename_i d hd
      have hnew : OwnCodec { s with decoder := some d } := ⟨h.fed, h.frames⟩
      exact hnew.decode (createDecoder_codec hd) l.decoded

theorem onPacket_of_decoder {d : Decoder} (h : s.decoder = some d) :
    s.onPacket config l packet = s.decode d packet l.decoded := by
  simp only [State.onPacket, h]

theorem mem_fed_decode (s : State) (d : Decoder) (packet : ReceivedPacket)
    (decoded : Except PyError (List FrameData)) :
    (d, packet) ∈ (s.decode d packet decoded).fed := by
  cases decoded <;> simp [State.decode]

/-- A step of `receive`, and what comes of it. -/
theorem step_cases (hstep : step n config s l = some t) :
    ∃ r, Receive.step n s.receive l.event = some r ∧
      t = match yielded? s.receive r with
        | none => { s with receive := r }
        | some packet => { s with receive := r }.onPacket config l packet := by
  unfold step at hstep
  split at hstep
  · cases hstep
  · obtain ⟨r, hr, rfl⟩ := Option.map_eq_some_iff.mp hstep
    exact ⟨r, hr, rfl⟩

theorem onPacket_receive (s : State) (l : Label) (packet : ReceivedPacket) :
    (s.onPacket config l packet).receive = s.receive := by
  unfold State.onPacket
  split
  · cases l.decoded <;> rfl
  · split
    · rfl
    · cases l.decoded <;> rfl

/-- The invariant of the run: the one of `receive`, and the property itself. -/
structure Inv (n : Nat) (s : State) : Prop where
  connections : ∀ c ∈ s.receive.connections, c.Inv n
  ownCodec : OwnCodec s

theorem inv_init (n : Nat) (now : Int) : Inv n (State.init now) where
  connections := fun c hc => by
    have hc : c ∈ (Receive.State.init now).connections := hc
    rw [Receive.init_connections] at hc
    cases hc
  ownCodec :=
    { fed := fun x hx => by cases hx
      frames := fun x hx => by cases hx }

theorem mem_connections {a : Receive.State} (h : a.phase = .demuxing c) : c ∈ a.connections := by
  simp [Receive.State.connections, h]

/-- The packet that is yielded has the codec of the connection that the demuxer reads. -/
theorem codec_of_yielded {a b : Receive.State} {p : Receive.DemuxPacket}
    (hinv : ∀ c ∈ b.connections, c.Inv n) (ha : a.phase = .demuxing c)
    (hb : b.phase = .demuxing (c.onPacket n p)) (h : yielded? a b = some packet) :
    HandsOn n c p ∧ packet.codec = c.codec := by
  have hands : HandsOn n c p := by
    by_contra hands
    rw [(yielded?_packet ha hb).2 hands] at h
    cases h
  obtain ⟨r, hr, hyield⟩ := (yielded?_packet ha hb).1 hands
  rw [h] at hyield
  cases hyield
  have hcodec := codec_of_mem_yielded (hinv _ (mem_connections hb)) hr
  exact ⟨hands, hcodec.trans (Receive.onPacket_frame n c p).2.1⟩

theorem step_inv (h : Inv n s) (hsame : SameCodec n s l) (hstep : step n config s l = some t) :
    Inv n t := by
  obtain ⟨r, hr, rfl⟩ := step_cases hstep
  have hconnections := Receive.step_connections_inv h.connections hr
  have hnext : OwnCodec { s with receive := r } := ⟨h.ownCodec.fed, h.ownCodec.frames⟩
  cases hyield : yielded? s.receive r with
  | none => exact ⟨hconnections, hnext⟩
  | some packet =>
    obtain ⟨c, p, now, hc, he, hc'⟩ := yielded?_eq_some hr hyield
    obtain ⟨hands, hcodec⟩ := codec_of_yielded hconnections hc hc' hyield
    refine ⟨?_, hnext.onPacket fun d hd => ?_⟩
    · rw [onPacket_receive]
      exact hconnections
    · exact hcodec.trans (hsame c d p now hc hd he hands)

/-- A packet of another codec goes to the decoder all the same. -/
theorem step_not_ownCodec (h : Inv n s) (hsame : ¬ SameCodec n s l)
    (hstep : step n config s l = some t) : ¬ OwnCodec t := by
  simp only [SameCodec, not_forall] at hsame
  obtain ⟨c, d, p, now, hc, hd, he, hands, hne⟩ := hsame
  obtain ⟨r, hr, rfl⟩ := step_cases hstep
  have hconnections := Receive.step_connections_inv h.connections hr
  have hc' : r.phase = .demuxing (c.onPacket n p) := by
    simp only [Receive.step, hc, he] at hr
    cases hr
    rfl
  obtain ⟨packet, -, hyield⟩ := (yielded?_packet hc hc').1 hands
  obtain ⟨-, hcodec⟩ := codec_of_yielded hconnections hc hc' hyield
  have hdecoder : ({ s with receive := r } : State).decoder = some d := hd
  rw [hyield]
  simp only [onPacket_of_decoder hdecoder]
  intro hown
  have hfed := hown.fed _ (mem_fed_decode { s with receive := r } d packet l.decoded)
  exact hne (hcodec.symm.trans hfed)

/-! ## Runs -/

/-- **When a decoder is only fed its own codec**: in every state of a run, for any number of
    connections, exactly when every connection that hands on a packet has the codec of the decoder
    (of the first packet, that is). -/
theorem always_ownCodec_iff (n : Nat) (config : Config) (now : Int) (labels : List Label) :
    Always (step n config) OwnCodec (State.init now) labels ↔
      StepsMeet (step n config) (SameCodec n) (State.init now) labels :=
  always_iff_stepsMeet (I := Inv n) (fun _ h => h.ownCodec)
    (fun _ _ _ h hsame hstep => step_inv h hsame hstep)
    (fun _ _ _ h hsame hstep => step_not_ownCodec h hsame hstep) (inv_init n now)

/-- A stream of the given codec. -/
def stream (codecName : String) : Receive.VideoStream :=
  ⟨codecName, 1920, 1080, some 25, 1 / 90000⟩

def packetAt (pts : Int) : Receive.Event :=
  .packet (some ⟨[0, 0, 1, 0x65], some pts, some pts, none, true⟩) 0

/-- The library answers with one frame. -/
def answer (e : Receive.Event) : Label := ⟨e, .ok "NV12", .ok [⟨0, 0⟩]⟩

/-- The camera delivers H.264, ends the stream and comes back with HEVC. -/
def changedCodecScript : List Label :=
  [.opens [stream "h264"], .inspect, packetAt 0, .endOfStream, .wake, .opens [stream "hevc"],
    .inspect, packetAt 0].map answer

theorem changedCodec_not_own :
    ¬ Always (step 0 ⟨0, "native", none⟩) OwnCodec (State.init 0) changedCodecScript := by
  intro h
  have hown := always_iff_runs.mp h changedCodecScript _ (List.prefix_refl _) rfl
  exact absurd hown.fed (by decide)

end PipeWorks.NvidiaPipe.Decode
