import PipeWorks.Lib.StepSystem

/-!
# The RTSP output loop (`send` of `nvidia_pipe/send.py`)

`send` muxes the packets of an iterator into an RTSP container that it opens itself and throws
away after any failure; after a failure nothing is muxed until the next keyframe.  `step`
executes the code between two answers of the outside world, an `Event` being what the iterator,
`av.open`, `add_stream`, `mux`, `close` or the backoff answers, or the moment at which another
process sets `shutdown_event`.

Containers are numbered in the order in which they are opened and packets by their position in
the input.  Fields marked *history* are never read by the code.
-/

set_option autoImplicit false

namespace PipeWorks.NvidiaPipe.Send

open StepSystem

/-! ## Data -/

structure EncodedPacket where
  codec : String
  width : Nat
  height : Nat
  timeBase : Rat
  pts : Option Int
  packetData : List UInt8
  isKeyframe : Bool
  deriving DecidableEq, Repr

/-- What `add_stream` and the three assignments after it configure. -/
structure OutputStream where
  codec : String
  width : Nat
  height : Nat
  timeBase : Rat
  deriving DecidableEq, Repr

/-- The `av.Packet` given to `mux`. -/
structure SendPacket where
  packetData : List UInt8
  stream : OutputStream
  pts : Option Int
  dts : Option Int
  timeBase : Rat
  deriving DecidableEq, Repr

/-- The current packet, with its position in the input. -/
structure Item where
  position : Nat
  packet : EncodedPacket
  deriving DecidableEq, Repr

/-- A successful `mux`. -/
structure Muxed where
  container : Nat
  position : Nat
  sendPacket : SendPacket
  deriving DecidableEq, Repr

/-- The three `mp.Value`s the parent process reads. -/
structure Shared where
  heartbeat : Int
  hasSuccessfulMux : Bool
  awaitingMux : Bool
  deriving DecidableEq, Repr

inductive Pc where
  /-- at `for packet in packets` -/
  | fetch
  /-- at `while not shutdown_event.is_set()` -/
  | loop (it : Item)
  /-- about to call `av.open` -/
  | opening (it : Item)
  /-- about to call `add_stream` and to configure the stream -/
  | adding (it : Item)
  /-- about to build the packet and to call `mux` -/
  | muxing (it : Item)
  /-- in the `except` clause, about to close the container -/
  | closing (it : Item)
  /-- in `shutdown_event.wait(1)` -/
  | backoff (it : Item)
  /-- in `finally`, about to close the container; an exception may be pending -/
  | finishing (pending : Bool)
  | ended (raised : Bool)
  deriving DecidableEq, Repr

structure State where
  pc : Pc
  container : Option Nat
  outputStream : Option OutputStream
  connected : Bool
  awaitingKeyframe : Bool
  /-- `shutdown_event` -/
  shutdown : Bool
  /-- history: the packets the iterator has delivered -/
  fetched : List EncodedPacket
  /-- history: how many containers have been opened -/
  opened : Nat
  /-- history: the successful calls of `mux`, in order -/
  muxed : List Muxed
  /-- history: the positions at which an attempt has failed -/
  failed : List Nat
  /-- history: the containers whose `close` has been called -/
  closed : List Nat
  deriving DecidableEq, Repr

inductive Event where
  | next (p : EncodedPacket)
  | exhausted
  /-- the `while` condition and the keyframe test, which ask nothing -/
  | check
  | avOpen (ok : Bool)
  /-- `add_stream` or one of the three assignments raises if not `ok` -/
  | addStream (ok : Bool)
  /-- `mux` returns, and `time.monotonic()` then answers `now` -/
  | muxed (now : Int)
  /-- `av.Packet` or `mux` raises -/
  | muxRaises
  | close (ok : Bool)
  /-- the backoff ends -/
  | wait
  /-- another process sets `shutdown_event` -/
  | shutdown
  deriving DecidableEq, Repr

/-! ## The code -/

def State.init : State :=
  { pc := .fetch
    container := none
    outputStream := none
    connected := false
    awaitingKeyframe := true
    shutdown := false
    fetched := []
    opened := 0
    muxed := []
    failed := []
    closed := [] }

/-- The head of the `while` loop; leaving it moves on to the next packet. -/
def State.check (s : State) (it : Item) : State :=
  if s.shutdown then { s with pc := .fetch }
  else if s.awaitingKeyframe && !it.packet.isKeyframe then { s with pc := .fetch }
  else match s.container with
    | none => { s with pc := .opening it }
    | some _ => { s with pc := .muxing it }

/-- The `except` clause, up to the call of `close` if there is a container. -/
def State.fail (s : State) (it : Item) : State :=
  let s' := { s with
    connected := false
    awaitingKeyframe := true
    failed := s.failed ++ [it.position] }
  match s.container with
  | none => { s' with pc := .backoff it }
  | some _ => { s' with pc := .closing it }

/-- `finally`, up to the call of `close` if there is a container. -/
def State.toFinally (s : State) (pending : Bool) : State :=
  match s.container with
  | none => { s with pc := .ended pending }
  | some _ => { s with pc := .finishing pending }

def outputStreamOf (p : EncodedPacket) : OutputStream := ⟨p.codec, p.width, p.height, p.timeBase⟩

/-- The packet built for `mux`: `dts` is the packet's `pts`, the time base is the stream's, which is
read back as it has been assigned. -/
def sendPacketOf (p : EncodedPacket) (out : OutputStream) : SendPacket :=
  ⟨p.packetData, out, p.pts, p.pts, out.timeBase⟩

/-- After a successful `mux`; leaves the `while` loop. -/
def State.muxOk (s : State) (it : Item) (container : Nat) (out : OutputStream) : State :=
  { s with
    connected := true
    awaitingKeyframe := false
    pc := .fetch
    muxed := s.muxed ++ [⟨container, it.position, sendPacketOf it.packet out⟩] }

/-- What an event writes into the shared values: only a successful `mux` writes them. -/
def Shared.onEvent (sh : Shared) : Event → Shared
  | .muxed now => { sh with heartbeat := now, hasSuccessfulMux := true, awaitingMux := false }
  | _ => sh

/-- `send` between two answers of the outside world. -/
def step (s : State) (e : Event) : Option State :=
  match s.pc, e with
  | _, .shutdown => some { s with shutdown := true }
  | .fetch, .next p =>
    some { s with pc := .loop ⟨s.fetched.length, p⟩, fetched := s.fetched ++ [p] }
  | .fetch, .exhausted => some (s.toFinally false)
  | .loop it, .check => some (s.check it)
  | .opening it, .avOpen true =>
    some { s with pc := .adding it, container := some s.opened, opened := s.opened + 1 }
  | .opening it, .avOpen false => some (s.fail it)
  | .adding it, .addStream true =>
    some { s with pc := .muxing it, outputStream := some (outputStreamOf it.packet) }
  | .adding it, .addStream false => some (s.fail it)
  | .muxing it, .muxed _ =>
    match s.container, s.outputStream with
    | some k, some out => some (s.muxOk it k out)
    | _, _ => none
  | .muxing it, .muxRaises => some (s.fail it)
  | .closing it, .close true =>
    some { s with
      pc := .backoff it
      container := none
      outputStream := none
      closed := s.closed ++ s.container.toList }
  | .closing _, .close false =>
    some { s with pc := .finishing true, closed := s.closed ++ s.container.toList }
  | .backoff it, .wait => some { s with pc := .loop it }
  | .finishing pending, .close ok =>
    some { s with pc := .ended (pending || !ok), closed := s.closed ++ s.container.toList }
  | _, _ => none

/-- The steps one by one, each with what it needs. -/
inductive Transition (s : State) : Event → State → Prop where
  | shutdown : Transition s .shutdown { s with shutdown := true }
  | next (p : EncodedPacket) (hpc : s.pc = .fetch) :
    Transition s (.next p)
      { s with pc := .loop ⟨s.fetched.length, p⟩, fetched := s.fetched ++ [p] }
  | exhausted (hpc : s.pc = .fetch) : Transition s .exhausted (s.toFinally false)
  | check (it : Item) (hpc : s.pc = .loop it) : Transition s .check (s.check it)
  | avOpen (it : Item) (hpc : s.pc = .opening it) :
    Transition s (.avOpen true)
      { s with pc := .adding it, container := some s.opened, opened := s.opened + 1 }
  | avOpenRaises (it : Item) (hpc : s.pc = .opening it) :
    Transition s (.avOpen false) (s.fail it)
  | addStream (it : Item) (hpc : s.pc = .adding it) :
    Transition s (.addStream true)
      { s with pc := .muxing it, outputStream := some (outputStreamOf it.packet) }
  | addStreamRaises (it : Item) (hpc : s.pc = .adding it) :
    Transition s (.addStream false) (s.fail it)
  | muxed (it : Item) (now : Int) (k : Nat) (out : OutputStream) (hpc : s.pc = .muxing it)
      (hk : s.container = some k) (hout : s.outputStream = some out) :
    Transition s (.muxed now) (s.muxOk it k out)
  | muxRaises (it : Item) (hpc : s.pc = .muxing it) : Transition s .muxRaises (s.fail it)
  | close (it : Item) (hpc : s.pc = .closing it) :
    Transition s (.close true)
      { s with
        pc := .backoff it
        container := none
        outputStream := none
        closed := s.closed ++ s.container.toList }
  | closeRaises (it : Item) (hpc : s.pc = .closing it) :
    Transition s (.close false)
      { s with pc := .finishing true, closed := s.closed ++ s.container.toList }
  | wait (it : Item) (hpc : s.pc = .backoff it) : Transition s .wait { s with pc := .loop it }
  | finish (pending ok : Bool) (hpc : s.pc = .finishing pending) :
    Transition s (.close ok)
      { s with pc := .ended (pending || !ok), closed := s.closed ++ s.container.toList }

theorem step_transition {s t : State} {e : Event} (h : step s e = some t) : Transition s e t := by
  unfold step at h
  split at h
  case h_9 =>
    split at h <;> cases h
    exact .muxed _ _ _ _ ‹_› ‹_› ‹_›
  all_goals cases h
  · exact .shutdown
  · exact .next _ ‹_›
  · exact .exhausted ‹_›
  · exact .check _ ‹_›
  · exact .avOpen _ ‹_›
  · exact .avOpenRaises _ ‹_›
  · exact .addStream _ ‹_›
  · exact .addStreamRaises _ ‹_›
  · exact .muxRaises _ ‹_›
  · exact .close _ ‹_›
  · exact .closeRaises _ ‹_›
  · exact .wait _ ‹_›
  · exact .finish _ _ ‹_›

/-! ## Reading a state -/

/-- The packet the code is working on. -/
def Pc.item? : Pc → Option Item
  | .loop it | .opening it | .adding it | .muxing it | .closing it | .backoff it => some it
  | .fetch | .finishing _ | .ended _ => none

/-- How many packets `send` has moved past. -/
def State.passed (s : State) : Nat :=
  match s.pc.item? with
  | some it => it.position
  | none => s.fetched.length

theorem item?_pc {s : State} {pc : Pc} (hpc : s.pc = pc) : s.pc.item? = pc.item? := by
  rw [hpc]

/-- A step that keeps the packet in hand keeps the position. -/
theorem passed_of_pc {s t : State} (hitem : t.pc.item? = s.pc.item?)
    (hfetched : t.fetched = s.fetched) : t.passed = s.passed := by
  unfold State.passed
  rw [hitem, hfetched]

/-- The positions muxed into container `k`, in order. -/
def positionsOf (muxed : List Muxed) (k : Nat) : List Nat :=
  (muxed.filter (·.container == k)).map (·.position)

/-- The packet at position `i` of the input is a keyframe. -/
def KeyframeAt (packets : List EncodedPacket) (i : Nat) : Prop :=
  ∃ p, packets[i]? = some p ∧ p.isKeyframe = true

theorem positionsOf_snoc (muxed : List Muxed) (m : Muxed) (k : Nat) :
    positionsOf (muxed ++ [m]) k =
      positionsOf muxed k ++ if m.container = k then [m.position] else [] := by
  by_cases h : m.container = k <;> simp [positionsOf, h]

theorem keyframeAt_snoc {packets : List EncodedPacket} {p : EncodedPacket} {i : Nat}
    (h : i < packets.length) : KeyframeAt (packets ++ [p]) i ↔ KeyframeAt packets i := by
  simp only [KeyframeAt, List.getElem?_append_left h]

theorem keyframeAt_append {packets : List EncodedPacket} {i : Nat} (h : KeyframeAt packets i)
    (p : EncodedPacket) : KeyframeAt (packets ++ [p]) i := by
  obtain ⟨q, hq, hkey⟩ := h
  exact ⟨q, by rw [List.getElem?_append_left (List.getElem?_eq_some_iff.mp hq).1, hq], hkey⟩

end PipeWorks.NvidiaPipe.Send
