import PipeWorks.Lib.StepSystem
import PipeWorks.Python.Json

/-!
# The control channel of a stream process (`StreamProcess.run` of `stream/cli.py`)

The main thread accepts one control connection after the other and answers its messages; `run`
calls `Pipeline.stop` when it leaves its accept loop.  An event is the outcome of the blocking call
the thread is in: `listener.accept()`, which also runs the authentication handshake, or
`recv_bytes()`, with the outcome of sending the answer.  The connection itself, and the threads
that send logs and heartbeats over it, are not part of this state: they set no flag it reads.

`only_stop_stops_iff`: a run keeps accepting and receiving until a stop message has come exactly
when no event before it raises past the three `except` clauses.  `bad_message_stops` is a run
that a message of invalid UTF-8 ends.
-/

set_option autoImplicit false

namespace PipeWorks.Stream

open StepSystem PipeWorks.Python

inductive Pc where
  /-- in `listener.accept()` -/
  | accepting
  /-- in `connection.recv_bytes()` -/
  | receiving
  /-- `run` has ended, with this exception -/
  | left (raised : Option PyError)
  deriving DecidableEq, Repr

structure State where
  pc : Pc
  stopEvent : Bool
  /-- `run` has called `Pipeline.stop`; the thread of the pipeline may have ended by itself -/
  pipelineStopped : Bool
  /-- history: a stop message has been received -/
  stopReceived : Bool
  deriving DecidableEq, Repr

/-- `run`, once the threads and the pipeline have been started. -/
def State.init : State := ⟨.accepting, false, false, false⟩

inductive Event where
  | acceptRaises (e : PyError)
  | accepted
  | recvRaises (e : PyError)
  /-- a message, and what sending the answer to it raises -/
  | message (raw : List UInt8) (answerRaises : Option PyError)

/-- What `_receiveMessages` makes of a message. -/
inductive Message where
  | hello
  | stop
  | other
  deriving DecidableEq, Repr

/-- `message.get("type")` and the comparisons. -/
def classify : Json → Except PyError Message
  | .dict members =>
    match members.lookup (pyStr "type") with
    | some (.str s) =>
      if s = pyStr "hello" then .ok .hello
      else if s = pyStr "stop" then .ok .stop
      else .ok .other
    | _ => .ok .other
  | _ => .error .attributeError

/-- `json.loads(raw_message.decode("utf-8"))`, and the reading of the result. -/
def parseMessage (depth : Nat) (raw : List UInt8) : Except PyError Message :=
  decodeUtf8 raw >>= loads depth >>= classify

/-- The `finally` clause of `run`. -/
def State.leave (s : State) (raised : Option PyError) : State :=
  { s with pc := .left raised, stopEvent := true, pipelineStopped := true }

/-- The head of the accept loop. -/
def State.acceptLoop (s : State) : State :=
  if s.stopEvent then s.leave none else { s with pc := .accepting }

/-- The head of the receive loop; behind it the connection is closed. -/
def State.receiveLoop (s : State) : State :=
  if s.stopEvent then s.acceptLoop else { s with pc := .receiving }

/-- An exception in `accept`. -/
def State.acceptRaised (s : State) (e : PyError) : State :=
  if e.caughtBy [.assertionError, .authenticationError] then s.acceptLoop else s.leave (some e)

/-- An exception in `_receiveMessages`. -/
def State.receiveRaised (s : State) (e : PyError) : State :=
  if e.caughtBy [.eofError] then s.acceptLoop else s.leave (some e)

/-- A round of `_receiveMessages`, from behind `recv_bytes`. -/
def State.onMessage (s : State) (message : Except PyError Message)
    (answerRaises : Option PyError) : State :=
  match message, answerRaises with
  | .error e, _ => s.receiveRaised e
  | .ok .other, _ => s.receiveLoop
  | .ok .hello, none => s.receiveLoop
  | .ok .hello, some e => s.receiveRaised e
  | .ok .stop, none => State.receiveLoop { s with stopReceived := true, stopEvent := true }
  | .ok .stop, some e => State.receiveRaised { s with stopReceived := true } e

/-- The call whose outcome the event is. -/
def Event.pc : Event → Pc
  | .acceptRaises _ | .accepted => .accepting
  | .recvRaises _ | .message _ _ => .receiving

def State.next (depth : Nat) (s : State) : Event → State
  | .acceptRaises e => s.acceptRaised e
  | .accepted => s.receiveLoop
  | .recvRaises e => s.receiveRaised e
  | .message raw answerRaises => s.onMessage (parseMessage depth raw) answerRaises

def step (depth : Nat) (s : State) (e : Event) : Option State :=
  if s.pc = e.pc then some (s.next depth e) else none

/-- `run` accepts or receives and has not stopped the pipeline, as long as no stop message has
    come. -/
def OnlyStopStops (s : State) : Prop :=
  s.stopReceived = false → (s.pc = .accepting ∨ s.pc = .receiving) ∧ s.pipelineStopped = false

/-- An event that the loops survive: a handshake that fails as the first `except` clause says,
    the end of the connection, and any JSON object; sending the answer may only find the
    connection ended. -/
def Survived (depth : Nat) : Event → Prop
  | .acceptRaises e => e.caughtBy [.assertionError, .authenticationError] = true
  | .accepted => True
  | .recvRaises e => e.caughtBy [.eofError] = true
  | .message raw answerRaises => ∃ members,
      (decodeUtf8 raw >>= loads depth) = .ok (.dict members) ∧
      (classify (.dict members) = .ok .hello →
        ∀ e, answerRaises = some e → e.caughtBy [.eofError] = true)

/-- The event is survived, or comes after a stop message, or is one. -/
def Allowed (depth : Nat) (s : State) (e : Event) : Prop :=
  s.stopReceived = true ∨ Survived depth e

variable {depth : Nat} {s t : State} {e : Event}

/-! ## What a message does -/

theorem not_caught_of_mem {err : PyError} (h : err ∈ decodeErrors) :
    err.caughtBy [.eofError] = false := by
  simp only [decodeErrors, List.mem_cons, List.not_mem_nil, or_false] at h
  rcases h with rfl | rfl | rfl | rfl <;> decide

theorem parseMessage_dict {raw : List UInt8} {members : List (PyStr × Json)}
    (h : (decodeUtf8 raw >>= loads depth) = .ok (.dict members)) :
    parseMessage depth raw = classify (.dict members) := by
  unfold parseMessage
  rw [h]
  rfl

theorem classify_dict (members : List (PyStr × Json)) :
    ∃ message, classify (.dict members) = .ok message := by
  unfold classify
  dsimp only
  split
  · split
    · exact ⟨_, rfl⟩
    · split <;> exact ⟨_, rfl⟩
  · exact ⟨_, rfl⟩

/-- A message is an object, or reading it raises something that no clause catches. -/
theorem parseMessage_cases (depth : Nat) (raw : List UInt8) :
    (∃ members, (decodeUtf8 raw >>= loads depth) = .ok (.dict members)) ∨
      ∃ err, parseMessage depth raw = .error err ∧ err.caughtBy [.eofError] = false := by
  have hdecodes : Decodes (decodeUtf8 raw >>= loads depth) :=
    (decodeUtf8_decodes raw).bind (loads_decodes depth)
  unfold parseMessage
  cases hparse : decodeUtf8 raw >>= loads depth with
  | error err => exact .inr ⟨err, rfl, not_caught_of_mem (hdecodes err hparse)⟩
  | ok value =>
    cases value with
    | dict members => exact .inl ⟨members, rfl⟩
    | _ => exact .inr ⟨.attributeError, rfl, by decide⟩

example : parseMessage 1 ("\x7b\"type\": \"stop\"\x7d".toList.map fun c => UInt8.ofNat c.toNat) =
    .ok .stop := by
  rfl

/-! ## The loops -/

/-- No stop message has come, and `run` is in one of its loops. -/
structure State.Running (s : State) : Prop where
  loop : s.pc = .accepting ∨ s.pc = .receiving
  pipeline : s.pipelineStopped = false
  stopEvent : s.stopEvent = false

def State.Good (s : State) : Prop := s.stopReceived = false → s.Running

theorem State.Good.onlyStopStops (h : s.Good) : OnlyStopStops s :=
  fun hstop => ⟨(h hstop).loop, (h hstop).pipeline⟩

theorem State.Running.acceptLoop (h : s.Running) : s.acceptLoop.Running := by
  unfold State.acceptLoop
  rw [if_neg (by rw [h.stopEvent]; decide)]
  exact ⟨.inl rfl, h.pipeline, h.stopEvent⟩

theorem State.Running.receiveLoop (h : s.Running) : s.receiveLoop.Running := by
  unfold State.receiveLoop
  rw [if_neg (by rw [h.stopEvent]; decide)]
  exact ⟨.inr rfl, h.pipeline, h.stopEvent⟩

theorem State.Running.receiveRaised (h : s.Running) {err : PyError}
    (herr : err.caughtBy [.eofError] = true) : (s.receiveRaised err).Running := by
  unfold State.receiveRaised
  rw [if_pos herr]
  exact h.acceptLoop

theorem State.Running.acceptRaised (h : s.Running) {err : PyError}
    (herr : err.caughtBy [.assertionError, .authenticationError] = true) :
    (s.acceptRaised err).Running := by
  unfold State.acceptRaised
  rw [if_pos herr]
  exact h.acceptLoop

/-- A survived message that is no stop message leaves `run` in its loops. -/
theorem State.Running.onMessage (h : s.Running) {raw : List UInt8} {answer : Option PyError}
    (hsurvived : Survived depth (.message raw answer)) :
    (s.onMessage (parseMessage depth raw) answer).stopReceived = true ∨
      (s.onMessage (parseMessage depth raw) answer).Running := by
  obtain ⟨members, hparse, hanswer⟩ := hsurvived
  rw [parseMessage_dict hparse]
  obtain ⟨message, hmessage⟩ := classify_dict members
  rw [hmessage] at hanswer ⊢
  cases message with
  | other => exact .inr h.receiveLoop
  | hello =>
    cases answer with
    | none => exact .inr h.receiveLoop
    | some err => exact .inr (h.receiveRaised (hanswer rfl err rfl))
  | stop =>
    left
    cases answer with
    | none => rfl
    | some err =>
      show (State.receiveRaised { s with stopReceived := true } err).stopReceived = true
      unfold State.receiveRaised State.acceptLoop State.leave
      split
      · split <;> rfl
      · rfl

/-- What has been received stays received. -/
theorem stopReceived_acceptLoop (h : s.stopReceived = true) : s.acceptLoop.stopReceived = true := by
  unfold State.acceptLoop
  split <;> exact h

theorem stopReceived_receiveLoop (h : s.stopReceived = true) :
    s.receiveLoop.stopReceived = true := by
  unfold State.receiveLoop
  split
  · exact stopReceived_acceptLoop h
  · exact h

theorem stopReceived_receiveRaised (h : s.stopReceived = true) (err : PyError) :
    (s.receiveRaised err).stopReceived = true := by
  unfold State.receiveRaised
  split
  · exact stopReceived_acceptLoop h
  · exact h

theorem stopReceived_onMessage (h : s.stopReceived = true) (parsed : Except PyError Message)
    (answer : Option PyError) : (s.onMessage parsed answer).stopReceived = true := by
  unfold State.onMessage
  split
  · exact stopReceived_receiveRaised h _
  · exact stopReceived_receiveLoop h
  · exact stopReceived_receiveLoop h
  · exact stopReceived_receiveRaised h _
  · exact stopReceived_receiveLoop rfl
  · exact stopReceived_receiveRaised rfl _

theorem stopReceived_next (h : s.stopReceived = true) (e : Event) :
    (s.next depth e).stopReceived = true := by
  cases e with
  | acceptRaises err =>
    show (s.acceptRaised err).stopReceived = true
    unfold State.acceptRaised
    split
    · exact stopReceived_acceptLoop h
    · exact h
  | accepted => exact stopReceived_receiveLoop h
  | recvRaises err => exact stopReceived_receiveRaised h err
  | message raw answer => exact stopReceived_onMessage h _ answer

theorem State.Good.next (h : s.Good) (hallowed : Allowed depth s e) : (s.next depth e).Good := by
  intro hstop
  have hbefore : s.stopReceived = false := by
    by_contra hne
    rw [stopReceived_next (Bool.not_eq_false _ ▸ hne)] at hstop
    cases hstop
  have hrun := h hbefore
  have hsurvived : Survived depth e := by
    rcases hallowed with hafter | hsurvived
    · rw [hbefore] at hafter
      cases hafter
    · exact hsurvived
  cases e with
  | acceptRaises err => exact hrun.acceptRaised hsurvived
  | accepted => exact hrun.receiveLoop
  | recvRaises err => exact hrun.receiveRaised hsurvived
  | message raw answer =>
    rcases hrun.onMessage hsurvived with hnow | hrun
    · have hnow : (s.next depth (.message raw answer)).stopReceived = true := hnow
      rw [hnow] at hstop
      cases hstop
    · exact hrun

/-- `run` has ended and no stop message has come. -/
theorem not_onlyStopStops_leave (h : s.stopReceived = false) (raised : Option PyError) :
    ¬ OnlyStopStops (s.leave raised) := by
  intro hall
  rcases (hall h).1 with hpc | hpc <;> cases hpc

theorem not_onlyStopStops_next (hallowed : ¬ Allowed depth s e) :
    ¬ OnlyStopStops (s.next depth e) := by
  obtain ⟨hbefore, hsurvived⟩ := not_or.mp hallowed
  rw [Bool.not_eq_true] at hbefore
  have hraised : ∀ err : PyError, err.caughtBy [.eofError] = false →
      ¬ OnlyStopStops (s.receiveRaised err) := by
    intro err herr
    unfold State.receiveRaised
    rw [herr]
    exact not_onlyStopStops_leave hbefore _
  cases e with
  | acceptRaises err =>
    have herr : ¬ err.caughtBy [.assertionError, .authenticationError] = true := hsurvived
    show ¬ OnlyStopStops (s.acceptRaised err)
    unfold State.acceptRaised
    rw [if_neg herr]
    exact not_onlyStopStops_leave hbefore _
  | accepted => exact absurd trivial hsurvived
  | recvRaises err => exact hraised err (Bool.not_eq_true _ ▸ hsurvived)
  | message raw answer =>
    show ¬ OnlyStopStops (s.onMessage (parseMessage depth raw) answer)
    rcases parseMessage_cases depth raw with ⟨members, hparse⟩ | ⟨err, hparse, herr⟩
    · -- an object: it must be a `hello` whose answer cannot be sent
      have hunanswered : ∃ err, classify (.dict members) = .ok .hello ∧ answer = some err ∧
          err.caughtBy [.eofError] = false := by
        by_contra hnone
        refine hsurvived ⟨members, hparse, fun hhello err hanswer => ?_⟩
        by_contra herr
        exact hnone ⟨err, hhello, hanswer, Bool.not_eq_true _ ▸ herr⟩
      obtain ⟨err, hhello, rfl, herr⟩ := hunanswered
      rw [parseMessage_dict hparse, hhello]
      exact hraised err herr
    · rw [hparse]
      exact hraised err herr

theorem step_eq (hstep : step depth s e = some t) : t = s.next depth e := by
  unfold step at hstep
  split at hstep
  · exact (Option.some.inj hstep).symm
  · cases hstep

/-! ## Before a stop is requested -/

/-- If the stop event is not set in `t`, it was not set in `s`, and `run` is in one of its loops. -/
def Before (s t : State) : Prop := t.stopEvent = false → s.stopEvent = false ∧ t.Running

theorem before_leave (s t : State) (raised : Option PyError) : Before s (t.leave raised) :=
  fun h => by cases h

theorem Before.acceptLoop (h : Before s t) : Before s t.acceptLoop := by
  unfold State.acceptLoop
  split
  · exact before_leave s t none
  · intro hstop
    obtain ⟨hs, hrun⟩ := h hstop
    exact ⟨hs, .inl rfl, hrun.pipeline, hrun.stopEvent⟩

theorem Before.receiveLoop (h : Before s t) : Before s t.receiveLoop := by
  unfold State.receiveLoop
  split
  · exact h.acceptLoop
  · intro hstop
    obtain ⟨hs, hrun⟩ := h hstop
    exact ⟨hs, .inr rfl, hrun.pipeline, hrun.stopEvent⟩

theorem Before.receiveRaised (h : Before s t) (err : PyError) :
    Before s (t.receiveRaised err) := by
  unfold State.receiveRaised
  split
  · exact h.acceptLoop
  · exact before_leave s t _

theorem Before.acceptRaised (h : Before s t) (err : PyError) : Before s (t.acceptRaised err) := by
  unfold State.acceptRaised
  split
  · exact h.acceptLoop
  · exact before_leave s t _

/-- Until the stop event is set, `run` stays in its loops. -/
theorem before_next (h : Before s s) (e : Event) : Before s (s.next depth e) := by
  cases e with
  | acceptRaises err => exact h.acceptRaised err
  | accepted => exact h.receiveLoop
  | recvRaises err => exact h.receiveRaised err
  | message raw answer =>
    show Before s (s.onMessage (parseMessage depth raw) answer)
    unfold State.onMessage
    split
    · exact h.receiveRaised _
    · exact h.receiveLoop
    · exact h.receiveLoop
    · exact h.receiveRaised _
    · have hset : Before s { s with stopReceived := true, stopEvent := true } := fun h => by cases h
      exact hset.receiveLoop
    · have hreceived : Before s { s with stopReceived := true } := fun hstop =>
        ⟨hstop, (h hstop).2.loop, (h hstop).2.pipeline, hstop⟩
      exact hreceived.receiveRaised _

/-! ## What stops the process -/

/-- **Only a stop message stops the process**, in the runs whose events are all survived until
    one has come, and in no others. -/
theorem only_stop_stops_iff (depth : Nat) (events : List Event) :
    Always (step depth) OnlyStopStops State.init events ↔
      StepsMeet (step depth) (Allowed depth) State.init events :=
  always_iff_stepsMeet (I := State.Good) (fun _ h => h.onlyStopStops)
    (fun _ _ _ h ha hstep => step_eq hstep ▸ h.next ha)
    (fun _ _ _ _ ha hstep => step_eq hstep ▸ not_onlyStopStops_next ha)
    fun _ => ⟨.inl rfl, rfl, rfl⟩

/-- A single byte that is no UTF-8 ends the process. -/
theorem bad_message_stops : ¬ ∀ depth events,
    Always (step depth) OnlyStopStops State.init events := by
  intro h
  have hall := h 0 [.accepted, .message [0xFF] none]
  rw [always_iff_runs] at hall
  have hend := hall _ _ (List.prefix_refl _) rfl rfl
  exact absurd hend (by decide)

end PipeWorks.Stream
