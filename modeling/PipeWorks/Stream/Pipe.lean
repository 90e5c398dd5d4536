import PipeWorks.Conductor.StreamConnection
import PipeWorks.Lib.Fails
import PipeWorks.Lib.Wire
import PipeWorks.Python.JsonRoundTrip
import PipeWorks.Stream.Process

/-!
# The pipe between a stream process and the supervisor

The two programs at the two ends of a named pipe: the main thread of `Process`, with the threads
that send heartbeats and logs beside it, and the `StreamConnection`s of the conductor, one after the
other or several at a time, of which the main thread accepts one after the other.  What is written
to a pipe is a JSON object in UTF-8; a message is in the pipe when `send_bytes` has returned, and
leaves it when `recv_bytes` returns.

* `Conn.Agree`: what the two ends of a connection are to agree on;
* `loads_encode`: what one of the two interpreters has written, the other reads;
* `receiveStep_bytes` and its neighbours: what has been `received`, step by step.
-/

set_option autoImplicit false

namespace PipeWorks.Stream.Pipe

open StepSystem PipeWorks.Python Fails

/-! ## What is said -/

/-- A `str` that comes back as it has been sent. -/
structure Text where
  chars : PyStr
  isText : IsText chars

/-- A `float`. -/
structure FloatText where
  literal : PyStr
  isFloat : IsFloat literal

abbrev Members := List (PyStr × Json)

/-- A `logging.LogRecord`, as `PipeLogHandler.emit` reads it. -/
structure LogRecord where
  created : FloatText
  levelname : Text
  name : Text
  /-- `getMessage()` -/
  message : Text
  /-- what `formatException` makes of `exc_info`, if there is one -/
  exception : Option Text

/-- The message that `emit` puts into the queue. -/
def LogRecord.members (r : LogRecord) : Members :=
  [(pyStr "type", .str (pyStr "log")), (pyStr "created_at", .float r.created.literal),
    (pyStr "level", .str r.levelname.chars), (pyStr "logger", .str r.name.chars),
    (pyStr "message", .str r.message.chars)] ++
    (r.exception.map fun text => (pyStr "exception", Json.str text.chars)).toList

/-- What the threads beside the main thread send. -/
inductive Report where
  | heartbeat
  | log (record : LogRecord)

/-- What `StreamConnection.send` is called with. -/
inductive Request where
  | hello
  | stop
  deriving DecidableEq, Repr

/-- What a stream process sends. -/
inductive Outgoing where
  | answer (r : Request)
  | report (r : Report)

def typed (type : String) : Members := [(pyStr "type", .str (pyStr type))]

def Request.members : Request → Members
  | .hello => typed "hello"
  | .stop => typed "stop"

/-- The answers of `_receiveMessages`. -/
def Request.answer : Request → Members
  | .hello => typed "ready"
  | .stop => typed "stopping"

def Report.members : Report → Members
  | .heartbeat => typed "heartbeat"
  | .log record => record.members

def Outgoing.members : Outgoing → Members
  | .answer r => r.answer
  | .report r => r.members

/-- `json.dumps(message).encode("utf-8")`. -/
def encode (depth : Nat) (message : Members) : Except PyError (List UInt8) :=
  dumpBytes depth (.dict message)

/-! ## What the supervisor makes of it -/

inductive Effect where
  /-- the time of the heartbeat is stored, and the status set to `running` -/
  | heartbeat
  /-- `_event_publisher(event)`, if there is one -/
  | publish (event : Members)

/-- `Supervisor._onMessage`. -/
def onMessage (processId : PyStr) (message : Members) : Option Effect :=
  match message.lookup (pyStr "type") with
  | some (.str type) =>
    if type = pyStr "heartbeat" then some .heartbeat
    else if type = pyStr "log" then
      some (.publish (setItem (pyStr "process_id") (.str processId) message))
    else none
  | _ => none

/-! ## The system -/

/-- A connection: the end of the conductor, and the pipe. -/
structure Conn where
  endpoint : Conductor.StreamConnection.State
  /-- the main thread has accepted it -/
  accepted : Bool
  /-- what the calls of `send` have been given -/
  requests : List Request
  toProcess : List (List UInt8)
  toConductor : List (List UInt8)
  /-- history: the requests whose `send_bytes` has returned -/
  requested : List Request
  /-- history: the requests that the main thread has read -/
  handled : List Request
  /-- history: what the process has sent -/
  sent : List Outgoing

structure State where
  main : Stream.State
  /-- the connection that the main thread has accepted and not closed -/
  current : Option Nat
  conns : List Conn

/-- `StreamConnection.__init__`. -/
def Conn.init : Conn :=
  { endpoint := Conductor.StreamConnection.State.init
    accepted := false
    requests := []
    toProcess := []
    toConductor := []
    requested := []
    handled := []
    sent := [] }

def State.init : State := ⟨Stream.State.init, none, []⟩

/-- What the recursion limits of the two interpreters leave. -/
structure Limits where
  process : Nat
  conductor : Nat
  process_pos : 0 < process
  conductor_pos : 0 < conductor

inductive Label where
  /-- a `StreamConnection` is constructed -/
  | construct
  /-- one of its methods, or its thread, goes on by itself -/
  | conductor (c : Nat) (l : Conductor.StreamConnection.Label)
  /-- its `send` is called -/
  | request (c : Nat) (r : Request)
  /-- `recv_bytes` returns in its thread -/
  | deliver (c : Nat)
  /-- `accept` returns in the main thread -/
  | accept (c : Nat)
  /-- `accept` or `recv_bytes` raises there -/
  | acceptRaises (e : PyError)
  | recvRaises (e : PyError)
  /-- `recv_bytes` returns there; `answerRaises` is what sending the answer raises -/
  | handle (answerRaises : Option PyError)
  /-- another thread of the process sends -/
  | report (r : Report)

/-- A label that neither brings a message nor calls `send`. -/
def isInternal : Conductor.StreamConnection.Label → Bool
  | .receiver (.bytes _) | .send => false
  | _ => true

/-- The request of the `send_bytes` that returns. -/
def Conn.transmitted (conn : Conn) : Conductor.StreamConnection.Label → Option Request
  | .sender i .returns =>
    if conn.endpoint.sends[i]?.any (·.pc == .writing) then conn.requests[i]? else none
  | _ => none

def Conn.onConductor (depth : Nat) (conn : Conn) (l : Conductor.StreamConnection.Label) :
    Option Conn :=
  if isInternal l then
    (Conductor.StreamConnection.step depth conn.endpoint l).bind fun endpoint =>
      match conn.transmitted l with
      | none => some { conn with endpoint := endpoint }
      | some r =>
        (encode depth r.members).toOption.map fun raw =>
          { conn with
            endpoint := endpoint
            toProcess := conn.toProcess ++ [raw]
            requested := conn.requested ++ [r] }
  else none

def Conn.onRequest (depth : Nat) (conn : Conn) (r : Request) : Option Conn :=
  (Conductor.StreamConnection.step depth conn.endpoint .send).map fun endpoint =>
    { conn with endpoint := endpoint, requests := conn.requests ++ [r] }

def Conn.onDeliver (depth : Nat) (conn : Conn) : Option Conn :=
  match conn.toConductor with
  | [] => none
  | raw :: toConductor =>
    (Conductor.StreamConnection.step depth conn.endpoint (.receiver (.bytes raw))).map
      fun endpoint => { conn with endpoint := endpoint, toConductor := toConductor }

/-- The `Client` of the conductor has connected to the `Listener`. -/
def Conn.onAccept (conn : Conn) : Option Conn :=
  if conn.accepted ∨ conn.endpoint.opener = .idle then none else some { conn with accepted := true }

/-- `_sendMessage` of the process. -/
def Conn.sendMessage (depth : Nat) (conn : Conn) (m : Outgoing) : Option Conn :=
  (encode depth m.members).toOption.map fun raw =>
    { conn with toConductor := conn.toConductor ++ [raw], sent := conn.sent ++ [m] }

/-- What the message in hand asks for. -/
def requestOf : Except PyError Message → Option Request
  | .ok .hello => some .hello
  | .ok .stop => some .stop
  | _ => none

/-- The main thread has read the oldest message, and sends the answer if sending does not raise. -/
def Conn.onHandle (depth : Nat) (conn : Conn) (answerRaises : Option PyError) :
    Option (List UInt8 × Conn) :=
  match conn.toProcess with
  | [] => none
  | raw :: toProcess =>
    let request := requestOf (parseMessage depth raw)
    let conn := { conn with toProcess := toProcess, handled := conn.handled ++ request.toList }
    match request, answerRaises with
    | some r, none => (conn.sendMessage depth (.answer r)).map (raw, ·)
    | _, _ => some (raw, conn)

def State.setConn (s : State) (c : Nat) (conn : Conn) : State :=
  { s with conns := s.conns.set c conn }

/-- The main thread has gone on; a connection whose receive loop it has left, it has closed. -/
def State.withMain (s : State) (main : Stream.State) : State :=
  { s with main := main, current := if main.pc = .receiving then s.current else none }

def step (limits : Limits) (s : State) : Label → Option State
  | .construct => some { s with conns := s.conns ++ [Conn.init] }
  | .conductor c l => do
    let conn ← s.conns[c]?
    (conn.onConductor limits.conductor l).map (s.setConn c)
  | .request c r => do
    let conn ← s.conns[c]?
    (conn.onRequest limits.conductor r).map (s.setConn c)
  | .deliver c => do
    let conn ← s.conns[c]?
    (conn.onDeliver limits.conductor).map (s.setConn c)
  | .accept c => do
    let conn ← s.conns[c]?
    let conn ← conn.onAccept
    (Stream.step limits.process s.main .accepted).map
      { s.setConn c conn with current := some c }.withMain
  | .acceptRaises e => (Stream.step limits.process s.main (.acceptRaises e)).map s.withMain
  | .recvRaises e => (Stream.step limits.process s.main (.recvRaises e)).map s.withMain
  | .handle answerRaises => do
    let c ← s.current
    let conn ← s.conns[c]?
    let (raw, conn) ← conn.onHandle limits.process answerRaises
    (Stream.step limits.process s.main (.message raw answerRaises)).map
      (s.setConn c conn).withMain
  | .report r => do
    let c ← s.current
    let conn ← s.conns[c]?
    (conn.sendMessage limits.process (.report r)).map (s.setConn c)

/-! ## What is promised -/

/-- The message of a call of `_on_message`. -/
def messageOf : Conductor.StreamConnection.Callback → Option Members
  | .onMessage message => some message
  | _ => none

/-- What the supervisor has done about a connection. -/
def Conn.effects (conn : Conn) (processId : PyStr) : List Effect :=
  (conn.endpoint.calls.filterMap messageOf).filterMap (onMessage processId)

/-- What it is to do about a message: a log record is published with the name of the process. -/
def Outgoing.effect (processId : PyStr) : Outgoing → Option Effect
  | .answer _ => none
  | .report .heartbeat => some .heartbeat
  | .report (.log record) =>
    some (.publish (record.members ++ [(pyStr "process_id", .str processId)]))

/-- The message that `_on_message` is about to be called with. -/
def inHand : Conductor.StreamConnection.ReceivePc → List Members
  | .message message => [message]
  | _ => []

/-- The messages that the receive thread has taken out of the pipe. -/
def received (s : Conductor.StreamConnection.State) : List Members :=
  s.calls.filterMap messageOf ++ inHand s.receiver

def Outgoing.answer? : Outgoing → Option Request
  | .answer r => some r
  | .report _ => none

/-- The two ends of a connection agree on what has been said. -/
structure Conn.Agree (limits : Limits) (conn : Conn) : Prop where
  /-- what the process has sent and the receive thread has not taken is in the pipe, in order, and
  can be decoded -/
  toConductor : Wire.Carries
    (fun raw => (Conductor.StreamConnection.decode limits.conductor raw).toOption)
    conn.toConductor (conn.sent.map Outgoing.members) (received conn.endpoint)
  /-- what the conductor has sent and the main thread has not taken is in the pipe, in order, and is
  understood -/
  toProcess : Wire.Carries (fun raw => requestOf (parseMessage limits.process raw)) conn.toProcess
    conn.requested conn.handled
  /-- the answers are those to the requests, in order -/
  answers : conn.sent.filterMap Outgoing.answer? <+: conn.handled
  /-- the supervisor does what the reports ask for, in order -/
  effects : ∀ processId, conn.effects processId <+: conn.sent.filterMap (Outgoing.effect processId)

/-! ## What is sent can be read -/

section

variable {depth room : Nat} {raw : List UInt8}

/-- No value is a container. -/
def Flat (message : Members) : Prop := ∀ member ∈ message, member.2.IsScalar

structure Plain (message : Members) : Prop where
  valid : Json.Valid (.dict message)
  flat : Flat message

theorem plain_typed {type : String} (h : IsAscii (pyStr type)) : Plain (typed type) where
  valid := by
    simp only [typed, Json.Valid, ValidMembers, ValidMember]
    exact ⟨List.pairwise_singleton _ _, ⟨IsAscii.isText (by decide), h.isText⟩, trivial⟩
  flat := by
    intro member hmember
    obtain rfl := List.mem_singleton.mp hmember
    trivial

theorem LogRecord.keys (r : LogRecord) : r.members.map Prod.fst =
    ["type", "created_at", "level", "logger", "message"].map pyStr ++
      if r.exception.isSome then [pyStr "exception"] else [] := by
  unfold LogRecord.members
  cases r.exception <;> rfl

theorem LogRecord.valid (r : LogRecord) : Json.Valid (.dict r.members) := by
  have hkey : ∀ {s : PyStr}, IsAscii s → IsText s := IsAscii.isText
  have hnodup : (r.members.map Prod.fst).Nodup := by
    rw [r.keys]
    cases r.exception.isSome <;> decide
  rw [Json.Valid]
  refine ⟨hnodup, ?_⟩
  unfold LogRecord.members
  cases r.exception with
  | none =>
    exact ⟨⟨hkey (by decide), hkey (by decide)⟩, ⟨hkey (by decide), r.created.isFloat⟩,
      ⟨hkey (by decide), r.levelname.isText⟩, ⟨hkey (by decide), r.name.isText⟩,
      ⟨hkey (by decide), r.message.isText⟩, trivial⟩
  | some text =>
    exact ⟨⟨hkey (by decide), hkey (by decide)⟩, ⟨hkey (by decide), r.created.isFloat⟩,
      ⟨hkey (by decide), r.levelname.isText⟩, ⟨hkey (by decide), r.name.isText⟩,
      ⟨hkey (by decide), r.message.isText⟩, ⟨hkey (by decide), text.isText⟩, trivial⟩

theorem LogRecord.flat (r : LogRecord) : Flat r.members := by
  intro member hmember
  rcases List.mem_append.mp hmember with hmember | hmember
  · simp only [List.mem_cons, List.not_mem_nil, or_false] at hmember
    obtain rfl | rfl | rfl | rfl | rfl := hmember <;> trivial
  · obtain ⟨text, -, rfl⟩ := Option.map_eq_some_iff.mp (Option.mem_toList.mp hmember)
    trivial

theorem Outgoing.plain : ∀ m : Outgoing, Plain m.members
  | .answer .hello => plain_typed (by decide)
  | .answer .stop => plain_typed (by decide)
  | .report .heartbeat => plain_typed (by decide)
  | .report (.log r) => ⟨r.valid, r.flat⟩

theorem Request.plain : ∀ r : Request, Plain r.members
  | .hello => plain_typed (by decide)
  | .stop => plain_typed (by decide)

/-- What one interpreter has written, another one reads. -/
theorem loads_encode {message : Members} (hplain : Plain message) (hroom : 0 < room)
    (h : encode depth message = .ok raw) :
    (decodeUtf8 raw >>= loads room) = .ok (.dict message) :=
  loads_dumpBytes hplain.valid (dumpBytes_scalars hplain.flat h) hroom

theorem decode_encode (m : Outgoing) (hroom : 0 < room) (h : encode depth m.members = .ok raw) :
    (Conductor.StreamConnection.decode room raw).toOption = some m.members := by
  have hloads := loads_encode m.plain hroom h
  obtain ⟨text, htext, hloads⟩ := bind_eq_ok.mp hloads
  simp only [Conductor.StreamConnection.decode, htext, hloads, ok_bind]
  rfl

theorem requestOf_encode (r : Request) (hroom : 0 < room) (h : encode depth r.members = .ok raw) :
    requestOf (parseMessage room raw) = some r := by
  rw [parseMessage_dict (loads_encode r.plain hroom h)]
  cases r <;> rfl

end

/-! ## The thread that receives -/

section

open Conductor.StreamConnection (Stage Inv Outcome Received openStep receiveStep closeStep sendStep)

variable {depth : Nat} {s t : Conductor.StreamConnection.State}

theorem received_eq (hcalls : t.calls.filterMap messageOf = s.calls.filterMap messageOf)
    (hreceiver : inHand t.receiver = inHand s.receiver) : received t = received s := by
  rw [received, received, hcalls, hreceiver]

/-- A callback without a message is called. -/
theorem filterMap_call {c : Conductor.StreamConnection.Callback} (hc : messageOf c = none)
    (calls : List Conductor.StreamConnection.Callback) :
    (calls ++ [c]).filterMap messageOf = calls.filterMap messageOf := by
  rw [List.filterMap_append, List.filterMap_cons_none hc, List.filterMap_nil, List.append_nil]

theorem openStep_received {o : Outcome} (h : Inv s) (ht : openStep s o = some t) :
    received t = received s := by
  unfold openStep at ht
  split at ht
  case h_5 | h_8 =>
    cases ht
    exact received_eq (filterMap_call rfl _) rfl
  case h_7 =>
    split at ht
    · split at ht <;> cases ht <;> exact received_eq rfl rfl
    · cases ht
  case h_11 hpc =>
    -- the thread is started, and has nothing in hand
    obtain ⟨-, hreceiver, -⟩ := h.stage.of_greeting (.inr hpc)
    cases ht
    exact received_eq rfl (by rw [hreceiver]; rfl)
  case h_13 => cases ht
  all_goals
    cases ht
    exact received_eq rfl rfl

theorem inHand_exceptClause (e : PyError) :
    inHand (Conductor.StreamConnection.exceptClause e) = [] := by
  obtain h | h := Conductor.StreamConnection.exceptClause_cases e <;> rw [h] <;> rfl

theorem receiveStep_received {o : Outcome} (ht : receiveStep depth s (.answer o) = some t) :
    received t = received s := by
  unfold receiveStep at ht
  split at ht
  case h_1 hpc _ =>
    split at ht <;> cases ht
    exact received_eq rfl (by rw [hpc]; dsimp only; split <;> rfl)
  case h_2 hbytes => cases hbytes
  case h_3 hpc _ | h_11 hpc _ =>
    cases ht
    exact received_eq rfl (by rw [hpc]; exact inHand_exceptClause _)
  case h_5 message hpc _ =>
    cases ht
    show (s.calls ++ [Conductor.StreamConnection.Callback.onMessage message]).filterMap messageOf ++
      [] = _
    rw [List.filterMap_append, List.append_nil, received, hpc]
    rfl
  case h_9 hpc _ | h_14 hpc _ | h_17 hpc _ =>
    cases ht
    exact received_eq (filterMap_call rfl _) (by rw [hpc]; rfl)
  case h_13 hpc _ =>
    split at ht <;> cases ht
    exact received_eq rfl (by rw [hpc]; dsimp only; split <;> rfl)
  case h_16 hpc _ =>
    split at ht
    · split at ht <;> cases ht <;> exact received_eq rfl (by rw [hpc]; rfl)
    · cases ht
  case h_19 => cases ht
  all_goals
    rename_i hpc _
    cases ht
    exact received_eq rfl (by rw [hpc]; rfl)

theorem receiveStep_bytes {raw : List UInt8} {message : Members}
    (hdecode : (Conductor.StreamConnection.decode depth raw).toOption = some message)
    (ht : receiveStep depth s (.bytes raw) = some t) : received t = received s ++ [message] := by
  cases hpc : s.receiver <;> simp only [receiveStep, hpc, reduceCtorEq] at ht
  cases hresult : Conductor.StreamConnection.decode depth raw with
  | error e =>
    rw [hresult] at hdecode
    cases hdecode
  | ok decoded =>
    rw [hresult] at hdecode ht
    cases hdecode
    cases ht
    rw [received, received, hpc]
    exact congrArg (· ++ [message]) (List.append_nil _).symm

theorem closeStep_received {i : Nat} {pc : Conductor.StreamConnection.ClosePc} {o : Outcome}
    (ht : closeStep s i pc o = some t) : received t = received s := by
  unfold closeStep at ht
  split at ht
  · split at ht <;> cases ht
    exact received_eq rfl rfl
  · cases ht
    exact received_eq rfl rfl
  · cases ht
    exact received_eq rfl rfl
  · cases ht

theorem sendStep_received {i : Nat} {x : Conductor.StreamConnection.Send} {o : Outcome}
    (ht : sendStep s i x o = some t) : received t = received s := by
  unfold sendStep at ht
  split at ht
  · cases ht
    exact received_eq rfl rfl
  · cases ht
    exact received_eq rfl rfl
  · split at ht
    · split at ht <;> cases ht <;> exact received_eq rfl rfl
    · cases ht
  · cases ht
    exact received_eq rfl rfl
  · cases ht

end

end PipeWorks.Stream.Pipe
