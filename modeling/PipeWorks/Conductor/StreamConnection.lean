import PipeWorks.Lib.StepSystem
import PipeWorks.Python.Json

/-!
# The callbacks of a connection (`StreamConnection` of `conductor/process/stream_connection.py`)

`open` is called once, in one thread; the thread that it starts receives; `close` and `send` are
called any number of times, from any threads, the handlers of the callbacks among them.  A section
under `_lock` is one step, except that a `send` keeps the lock while it writes.  The steps take
from their label what the outside answers: the pipe, and the handlers, which may raise anything.

* `Protocol`: what the callbacks promise, and that nothing is written to a closed connection;
* `Stage`: where the two threads and the calls so far can be together;
* `callbacks_protocol`: every state of every run keeps the promises.
-/

set_option autoImplicit false

namespace PipeWorks.Conductor.StreamConnection

open StepSystem PipeWorks.Python

/-! ## The threads -/

/-- What something outside answers: it returns, raises an `Exception`, or raises something else,
such as `SystemExit`. -/
inductive Outcome where
  | returns
  | raises (e : PyError)
  | exits
  deriving DecidableEq, Repr

inductive Callback where
  | onConnected
  | onClose
  | onError (e : PyError)
  | onMessage (message : List (PyStr × Json))

/-- Where `open` is. -/
inductive OpenPc where
  /-- it has not been called -/
  | idle
  /-- in `Client(...)` -/
  | connecting
  /-- about to call `_on_error` -/
  | failing (e : PyError)
  /-- in `_on_error` -/
  | erring
  /-- about to take the lock -/
  | locking
  /-- about to call `_on_connected` -/
  | connected
  /-- in `_on_connected` -/
  | greeting
  /-- about to start the thread -/
  | starting
  /-- it has returned or raised -/
  | done
  deriving DecidableEq, Repr

/-- Where the receive thread is. -/
inductive ReceivePc where
  /-- it has not been started -/
  | absent
  /-- about to take the lock -/
  | looping
  /-- in `recv_bytes` -/
  | receiving
  /-- about to call `_on_message` -/
  | message (message : List (PyStr × Json))
  /-- in `_on_message` -/
  | handling
  /-- in the inner `except` clause, about to call `_on_error` -/
  | failing (e : PyError)
  /-- in that `_on_error` -/
  | erring
  /-- in the outer `except` clause, about to take the lock -/
  | caught (e : PyError)
  /-- about to call `_on_error` there -/
  | reporting (e : PyError)
  /-- in that `_on_error` -/
  | reported
  /-- in `_notifyClosed`, about to take the lock -/
  | finishing
  /-- about to call `_on_close` -/
  | notifying
  /-- in `_on_close` -/
  | closing
  | ended

/-- A call of `close`. -/
inductive ClosePc where
  | locking
  /-- the section is over; `took` says whether there is a connection to close -/
  | closing (took : Bool)
  | ended (o : Outcome)
  deriving DecidableEq, Repr

inductive SendPc where
  /-- in `json.dumps` -/
  | encoding
  | locking
  /-- in `send_bytes`, under the lock -/
  | writing
  | ended (o : Outcome)
  deriving DecidableEq, Repr

/-- A call of `send`. -/
structure Send where
  pc : SendPc
  /-- history: when it was called, a `close` had returned or `_on_close` had been called -/
  late : Bool
  /-- history: it has called `send_bytes` -/
  written : Bool
  deriving DecidableEq, Repr

structure State where
  /-- `_connection is not None` -/
  connection : Bool
  closing : Bool
  closedNotified : Bool
  opener : OpenPc
  receiver : ReceivePc
  closes : List ClosePc
  sends : List Send
  /-- history: the callbacks that have been called -/
  calls : List Callback
  /-- history: whether `open` has stored a connection; `none` as long as this is open -/
  opened : Option Bool
  /-- history: a `close` has returned -/
  closeReturned : Bool

/-- `StreamConnection.__init__`. -/
def State.init : State :=
  { connection := false
    closing := false
    closedNotified := false
    opener := .idle
    receiver := .absent
    closes := []
    sends := []
    calls := []
    opened := none
    closeReturned := false }

/-- No `send` is writing. -/
def State.lockFree (s : State) : Bool := s.sends.all fun x => x.pc != .writing

def Callback.isClose : Callback → Bool
  | .onClose => true
  | _ => false

def State.call (s : State) (c : Callback) : State := { s with calls := s.calls ++ [c] }

/-- `open`. -/
def openStep (s : State) (o : Outcome) : Option State :=
  match s.opener, o with
  | .idle, .returns => some { s with opener := .connecting }
  | .connecting, .returns => some { s with opener := .locking }
  | .connecting, .raises e => some { s with opener := .failing e, opened := some false }
  | .connecting, .exits => some { s with opener := .done, opened := some false }
  | .failing e, .returns => some { s.call (.onError e) with opener := .erring }
  | .erring, _ => some { s with opener := .done }
  | .locking, _ =>
    if s.lockFree then
      -- the answer is that of `connection.close()`
      if s.closing then some { s with opener := .done, opened := some false }
      else some { s with connection := true, opener := .connected, opened := some true }
    else none
  | .connected, .returns => some { s.call .onConnected with opener := .greeting }
  | .greeting, .returns => some { s with opener := .starting }
  | .greeting, _ => some { s with opener := .done }
  | .starting, .returns => some { s with opener := .done, receiver := .looping }
  | .starting, _ => some { s with opener := .done }
  | _, _ => none

/-- The bytes of a message, decoded; `depth` is what the recursion limit leaves. -/
def decode (depth : Nat) (raw : List UInt8) : Except PyError (List (PyStr × Json)) := do
  let text ← decodeUtf8 raw
  let message ← loads depth text
  match message with
  | .dict members => pure members
  | _ => throw .valueError

inductive Received where
  | bytes (raw : List UInt8)
  /-- anything else -/
  | answer (o : Outcome)
  deriving DecidableEq, Repr

/-- The clauses of the outer `try`. -/
def exceptClause (e : PyError) : ReceivePc :=
  if e.isInstance .eofError then .finishing else .caught e

/-- `_receiveLoop`. -/
def receiveStep (depth : Nat) (s : State) (r : Received) : Option State :=
  match s.receiver, r with
  | .looping, .answer .returns =>
    if s.lockFree then
      some { s with receiver := if !s.connection || s.closing then .finishing else .receiving }
    else none
  | .receiving, .bytes raw =>
    match decode depth raw with
    | .ok message => some { s with receiver := .message message }
    | .error e => some { s with receiver := .failing e }
  | .receiving, .answer (.raises e) => some { s with receiver := exceptClause e }
  | .receiving, .answer .exits => some { s with receiver := .finishing }
  | .message m, .answer .returns => some { s.call (.onMessage m) with receiver := .handling }
  | .handling, .answer .returns => some { s with receiver := .looping }
  | .handling, .answer (.raises e) => some { s with receiver := .failing e }
  | .handling, .answer .exits => some { s with receiver := .finishing }
  | .failing e, .answer .returns => some { s.call (.onError e) with receiver := .erring }
  | .erring, .answer .returns => some { s with receiver := .looping }
  | .erring, .answer (.raises e) => some { s with receiver := exceptClause e }
  | .erring, .answer .exits => some { s with receiver := .finishing }
  | .caught e, .answer .returns =>
    if s.lockFree then
      some { s with receiver := if s.closing then .finishing else .reporting e }
    else none
  | .reporting e, .answer .returns => some { s.call (.onError e) with receiver := .reported }
  -- the `finally` clause comes before what the handler raises
  | .reported, .answer _ => some { s with receiver := .finishing }
  | .finishing, .answer .returns =>
    if s.lockFree then
      if s.closedNotified then some { s with receiver := .ended }
      else some { s with closedNotified := true, connection := false, receiver := .notifying }
    else none
  | .notifying, .answer .returns => some { s.call .onClose with receiver := .closing }
  | .closing, .answer _ => some { s with receiver := .ended }
  | _, _ => none

def State.setClose (s : State) (i : Nat) (pc : ClosePc) : State :=
  { s with closes := s.closes.set i pc }

/-- `close`. -/
def closeStep (s : State) (i : Nat) (pc : ClosePc) (o : Outcome) : Option State :=
  match pc, o with
  | .locking, .returns =>
    if s.lockFree then
      some (State.setClose { s with closing := true, connection := false } i
        (.closing s.connection))
    else none
  | .closing _, .returns => some { s.setClose i (.ended .returns) with closeReturned := true }
  | .closing true, o => some (s.setClose i (.ended o))
  | _, _ => none

def State.setSend (s : State) (i : Nat) (x : Send) : State := { s with sends := s.sends.set i x }

/-- `send`. -/
def sendStep (s : State) (i : Nat) (x : Send) (o : Outcome) : Option State :=
  match x.pc, o with
  | .encoding, .returns => some (s.setSend i { x with pc := .locking })
  | .encoding, o => some (s.setSend i { x with pc := .ended o })
  | .locking, .returns =>
    if s.lockFree then
      if !s.connection || s.closing then
        some (s.setSend i { x with pc := .ended (.raises .runtimeError) })
      else some (s.setSend i { x with pc := .writing, written := true })
    else none
  | .writing, o => some (s.setSend i { x with pc := .ended o })
  | _, _ => none

inductive Label where
  | opener (o : Outcome)
  | receiver (r : Received)
  /-- `close` is called -/
  | close
  | closer (i : Nat) (o : Outcome)
  /-- `send` is called -/
  | send
  | sender (i : Nat) (o : Outcome)
  deriving DecidableEq, Repr

def step (depth : Nat) (s : State) : Label → Option State
  | .opener o => openStep s o
  | .receiver r => receiveStep depth s r
  | .close => some { s with closes := s.closes ++ [.locking] }
  | .closer i o => s.closes[i]?.bind fun pc => closeStep s i pc o
  | .send =>
    some { s with
      sends := s.sends ++ [⟨.encoding, s.closeReturned || s.calls.any Callback.isClose, false⟩] }
  | .sender i o => s.sends[i]?.bind fun x => sendStep s i x o

/-! ## What is promised -/

/-- `c` has been called exactly once. -/
def State.CalledOnce (s : State) (c : Callback) : Prop := ∃! i : Nat, s.calls[i]? = some c

structure Protocol (s : State) : Prop where
  /-- `open` has not connected, or has found the connection closing -/
  refused : s.opened = some false →
    Callback.onConnected ∉ s.calls ∧ Callback.onClose ∉ s.calls
  /-- it has: `_on_connected` is called next, or has been called once -/
  opened : s.opened = some true → s.opener = .connected ∨ s.CalledOnce .onConnected
  connected_once : ∀ i j : Nat,
    s.calls[i]? = some .onConnected → s.calls[j]? = some .onConnected → i = j
  connected_first : ∀ (i : Nat) m, s.calls[i]? = some (.onMessage m) →
    ∃ j < i, s.calls[j]? = some .onConnected
  ended : s.receiver = .ended → s.CalledOnce .onClose
  close_last : ∀ i : Nat, s.calls[i]? = some .onClose → i + 1 = s.calls.length
  /-- nobody is writing, so a `send` gets the lock -/
  lock : s.closeReturned = true ∨ Callback.onClose ∈ s.calls → s.lockFree = true
  /-- a `send` after that does not write, and raises -/
  late : ∀ x ∈ s.sends, x.late = true → x.written = false ∧ x.pc ≠ .ended .returns

/-! ## The invariant -/

def OpenPc.before : OpenPc → Bool
  | .idle | .connecting | .locking => true
  | _ => false

def OpenPc.refused : OpenPc → Bool
  | .failing _ | .erring | .done => true
  | _ => false

def OpenPc.greeted : OpenPc → Bool
  | .greeting | .starting | .done => true
  | _ => false

/-- The thread has been started, and has not called `_on_close`. -/
def ReceivePc.active : ReceivePc → Bool
  | .absent | .closing | .ended => false
  | _ => true

/-- The thread has been through the section of `_notifyClosed`. -/
def ReceivePc.notified : ReceivePc → Bool
  | .notifying | .closing | .ended => true
  | _ => false

/-- A callback of the receive loop. -/
def Callback.isReport : Callback → Bool
  | .onError _ | .onMessage _ => true
  | _ => false

/-- Where the two threads can be, and what has been called. -/
inductive Stage : Option Bool → OpenPc → ReceivePc → List Callback → Prop
  | before {opener : OpenPc} (hopener : opener.before = true) : Stage none opener .absent []
  | refused {opener : OpenPc} {calls : List Callback} (hopener : opener.refused = true)
      (hcalls : ∀ c ∈ calls, ∃ e, c = .onError e) : Stage (some false) opener .absent calls
  | connected : Stage (some true) .connected .absent []
  | greeted {opener : OpenPc} (hopener : opener.greeted = true) :
      Stage (some true) opener .absent [.onConnected]
  | receiving {receiver : ReceivePc} {reports : List Callback} (hactive : receiver.active = true)
      (hreports : ∀ c ∈ reports, c.isReport = true) :
      Stage (some true) .done receiver (.onConnected :: reports)
  | closed {receiver : ReceivePc} {reports : List Callback}
      (hclosed : receiver.active = false) (hnotified : receiver.notified = true)
      (hreports : ∀ c ∈ reports, c.isReport = true) :
      Stage (some true) .done receiver (.onConnected :: reports ++ [.onClose])

/-- The connection is closed or about to be, for good. -/
def State.Dead (s : State) : Prop := s.closing = true ∨ s.closedNotified = true

/-- A `send` that writes nothing. -/
structure Send.Refused (x : Send) : Prop where
  written : x.written = false
  writing : x.pc ≠ .writing
  ended : x.pc ≠ .ended .returns

structure Inv (s : State) : Prop where
  stage : Stage s.opened s.opener s.receiver s.calls
  notified : s.closedNotified = s.receiver.notified
  dead : s.Dead → s.connection = false
  closes : ∀ pc ∈ s.closes, pc ≠ .locking → s.closing = true
  closeReturned : s.closeReturned = true → s.closing = true
  writing : ∀ x ∈ s.sends, x.pc = .writing → s.connection = true
  late : ∀ x ∈ s.sends, x.late = true → s.Dead ∧ x.Refused

theorem inv_init : Inv State.init where
  stage := .before rfl
  notified := rfl
  dead := by simp [State.Dead, State.init]
  closes := by simp [State.init]
  closeReturned := by simp [State.init]
  writing := by simp [State.init]
  late := by simp [State.init]

variable {s t : State}

theorem lockFree_iff : s.lockFree = true ↔ ∀ x ∈ s.sends, x.pc ≠ .writing := by
  simp [State.lockFree]

theorem Inv.lockFree (h : Inv s) (hdead : s.Dead) : s.lockFree = true := by
  rw [lockFree_iff]
  intro x hx hwriting
  have hopen := h.writing x hx hwriting
  rw [h.dead hdead] at hopen
  cases hopen

section

variable {opened : Option Bool} {opener : OpenPc} {receiver : ReceivePc} {calls : List Callback}
  {i : Nat}

theorem not_report {reports : List Callback} (hreports : ∀ c ∈ reports, c.isReport = true)
    {c : Callback} (hc : c.isReport = false) : reports[i]? ≠ some c := by
  intro hi
  have hreport := hreports c (List.mem_of_getElem? hi)
  rw [hc] at hreport
  cases hreport

/-- `_on_connected` is called first, or not at all. -/
theorem Stage.onConnected_at (h : Stage opened opener receiver calls)
    (hi : calls[i]? = some .onConnected) : i = 0 := by
  cases h with
  | before | connected => simp at hi
  | refused _ hcalls =>
    obtain ⟨e, he⟩ := hcalls _ (List.mem_of_getElem? hi)
    cases he
  | greeted => exact Nat.lt_one_iff.1 (List.getElem?_eq_some_iff.1 hi).1
  | receiving _ hreports =>
    cases i with
    | zero => rfl
    | succ i => exact absurd hi (not_report hreports rfl)
  | @closed _ reports _ _ hreports =>
    cases i with
    | zero => rfl
    | succ i =>
      have hi : (reports ++ [Callback.onClose])[i]? = some .onConnected := hi
      rcases List.mem_append.1 (List.mem_of_getElem? hi) with hmem | hmem
      · cases hreports _ hmem
      · cases List.mem_singleton.1 hmem

/-- Nothing is called after `_on_close`. -/
theorem Stage.onClose_at (h : Stage opened opener receiver calls)
    (hi : calls[i]? = some .onClose) :
    i + 1 = calls.length ∧ receiver.active = false ∧ receiver.notified = true := by
  cases h with
  | before | connected => simp at hi
  | refused _ hcalls =>
    obtain ⟨e, he⟩ := hcalls _ (List.mem_of_getElem? hi)
    cases he
  | greeted => simp [List.getElem?_singleton] at hi
  | receiving _ hreports =>
    cases i with
    | zero => simp at hi
    | succ i => exact absurd hi (not_report hreports rfl)
  | @closed _ reports hclosed hnotified hreports =>
    refine ⟨?_, hclosed, hnotified⟩
    by_contra hne
    have hlt := (List.getElem?_eq_some_iff.1 hi).1
    rw [List.length_append, List.length_singleton] at hne hlt
    rw [List.getElem?_append_left (by omega)] at hi
    cases i with
    | zero => simp at hi
    | succ i => exact not_report hreports rfl hi

theorem Stage.onMessage_at (h : Stage opened opener receiver calls)
    {m : List (PyStr × Json)} (hi : calls[i]? = some (.onMessage m)) :
    0 < i ∧ calls[0]? = some .onConnected := by
  have hpos : calls[0]? = some .onConnected → 0 < i := by
    intro hfirst
    rcases Nat.eq_zero_or_pos i with rfl | hpos
    · rw [hi] at hfirst
      cases hfirst
    · exact hpos
  cases h with
  | before | connected => simp at hi
  | refused _ hcalls =>
    obtain ⟨e, he⟩ := hcalls _ (List.mem_of_getElem? hi)
    cases he
  | greeted | receiving | closed => exact ⟨hpos rfl, rfl⟩

theorem Stage.opened_calls (h : Stage (some true) opener receiver calls) :
    opener = .connected ∨ calls[0]? = some .onConnected := by
  cases h with
  | connected => exact .inl rfl
  | greeted | receiving | closed => exact .inr rfl

theorem Stage.ended_calls (h : Stage opened opener .ended calls) :
    calls[calls.length - 1]? = some .onClose := by
  cases h with
  | receiving hactive => cases hactive
  | closed => simp

theorem Stage.refused_calls (h : Stage (some false) opener receiver calls) :
    ∀ c ∈ calls, ∃ e, c = .onError e := by
  cases h with
  | refused _ hcalls => exact hcalls

theorem Stage.of_before (h : Stage opened opener receiver calls) (ho : opener.before = true) :
    opened = none ∧ receiver = .absent ∧ calls = [] := by
  cases h with
  | before => exact ⟨rfl, rfl, rfl⟩
  | refused hopener | greeted hopener => cases opener <;> cases ho <;> cases hopener
  | connected | receiving | closed => cases ho

theorem Stage.of_failing (h : Stage opened opener receiver calls)
    (ho : (∃ e, opener = .failing e) ∨ opener = .erring) :
    opened = some false ∧ receiver = .absent ∧ ∀ c ∈ calls, ∃ e, c = .onError e := by
  cases h with
  | refused _ hcalls => exact ⟨rfl, rfl, hcalls⟩
  | before hopener | greeted hopener => obtain ⟨e, rfl⟩ | rfl := ho <;> cases hopener
  | connected | receiving | closed => simp at ho

theorem Stage.of_connected (h : Stage opened .connected receiver calls) :
    opened = some true ∧ receiver = .absent ∧ calls = [] := by
  cases h with
  | connected => exact ⟨rfl, rfl, rfl⟩
  | before hopener | refused hopener | greeted hopener => cases hopener

theorem Stage.of_greeting (h : Stage opened opener receiver calls)
    (ho : opener = .greeting ∨ opener = .starting) :
    opened = some true ∧ receiver = .absent ∧ calls = [.onConnected] := by
  cases h with
  | greeted => exact ⟨rfl, rfl, rfl⟩
  | before hopener | refused hopener => obtain rfl | rfl := ho <;> cases hopener
  | connected | receiving | closed => simp at ho

theorem Stage.of_active (h : Stage opened opener receiver calls) (ha : receiver.active = true) :
    opened = some true ∧ opener = .done ∧
      ∃ reports, calls = .onConnected :: reports ∧ ∀ c ∈ reports, c.isReport = true := by
  cases h with
  | receiving _ hreports => exact ⟨rfl, rfl, _, rfl, hreports⟩
  | closed hclosed =>
    rw [hclosed] at ha
    cases ha
  | before | refused | connected | greeted => cases ha

/-- The receive loop goes on. -/
theorem Stage.goOn {receiver' : ReceivePc} (h : Stage opened opener receiver calls)
    (ha : receiver.active = true) (ha' : receiver'.active = true) :
    Stage opened opener receiver' calls := by
  obtain ⟨rfl, rfl, reports, rfl, hreports⟩ := h.of_active ha
  exact .receiving ha' hreports

/-- It calls one of its callbacks. -/
theorem Stage.report {receiver' : ReceivePc} {c : Callback}
    (h : Stage opened opener receiver calls) (ha : receiver.active = true)
    (ha' : receiver'.active = true) (hc : c.isReport = true) :
    Stage opened opener receiver' (calls ++ [c]) := by
  obtain ⟨rfl, rfl, reports, rfl, hreports⟩ := h.of_active ha
  refine .receiving ha' fun c' hc' => ?_
  rcases List.mem_append.1 hc' with hc' | hc'
  · exact hreports c' hc'
  · rw [List.mem_singleton.1 hc']
    exact hc

theorem Stage.close (h : Stage opened opener receiver calls) (ha : receiver.active = true) :
    Stage opened opener .closing (calls ++ [.onClose]) := by
  obtain ⟨rfl, rfl, reports, rfl, hreports⟩ := h.of_active ha
  exact .closed rfl rfl hreports

theorem Stage.end (h : Stage opened opener .closing calls) : Stage opened opener .ended calls := by
  cases h with
  | receiving hactive => cases hactive
  | closed _ _ hreports => exact .closed rfl rfl hreports

end

/-- When `_on_close` has been called, the connection is gone. -/
theorem Inv.dead_of_onClose (h : Inv s) (hclose : Callback.onClose ∈ s.calls) : s.Dead := by
  obtain ⟨i, hi⟩ := List.getElem?_of_mem hclose
  obtain ⟨-, -, hnotified⟩ := h.stage.onClose_at hi
  exact .inr (h.notified.trans hnotified)

/-- What the invariant promises. -/
theorem Inv.protocol (h : Inv s) : Protocol s where
  refused := by
    intro hopened
    have hcalls := (hopened ▸ h.stage).refused_calls
    constructor <;> intro hmem <;> obtain ⟨e, he⟩ := hcalls _ hmem <;> cases he
  opened := by
    intro hopened
    rcases (hopened ▸ h.stage).opened_calls with hconnected | hfirst
    · exact .inl hconnected
    · exact .inr ⟨0, hfirst, fun i hi => h.stage.onConnected_at hi⟩
  connected_once := fun i j hi hj =>
    (h.stage.onConnected_at hi).trans (h.stage.onConnected_at hj).symm
  connected_first := by
    intro i m hi
    obtain ⟨hpos, hfirst⟩ := h.stage.onMessage_at hi
    exact ⟨0, hpos, hfirst⟩
  ended := by
    intro hended
    have hlast := (hended ▸ h.stage).ended_calls
    refine ⟨_, hlast, fun i hi => ?_⟩
    have hi := (h.stage.onClose_at hi).1
    omega
  close_last := fun i hi => (h.stage.onClose_at hi).1
  lock := by
    rintro (hreturned | hclose)
    · exact h.lockFree (.inl (h.closeReturned hreturned))
    · exact h.lockFree (h.dead_of_onClose hclose)
  late := fun x hx hlate => ⟨(h.late x hx hlate).2.written, (h.late x hx hlate).2.ended⟩

/-! ## Steps -/

/-- A step of the opening or the receiving thread outside the lock. -/
theorem Inv.withStage (h : Inv s) {opened : Option Bool} {opener : OpenPc} {receiver : ReceivePc}
    {calls : List Callback} (hstage : Stage opened opener receiver calls)
    (hnotified : s.closedNotified = receiver.notified) :
    Inv { s with opened := opened, opener := opener, receiver := receiver, calls := calls } :=
  ⟨hstage, hnotified, h.dead, h.closes, h.closeReturned, h.writing, h.late⟩

/-- The section of `open`. -/
theorem openStep_locking {o : Outcome} (hp : s.opener = .locking) (ht : openStep s o = some t) :
    s.closing = true ∧ t = { s with opener := .done, opened := some false } ∨
      s.closing = false ∧
        t = { s with connection := true, opener := .connected, opened := some true } := by
  have ht : (if s.lockFree then
      if s.closing then some { s with opener := .done, opened := some false }
      else some { s with connection := true, opener := .connected, opened := some true }
    else none) = some t := by
    cases o <;> simpa only [openStep, hp] using ht
  split at ht
  · cases hclosing : s.closing <;> rw [hclosing] at ht <;> cases ht
    · exact .inr ⟨rfl, rfl⟩
    · exact .inl ⟨rfl, rfl⟩
  · cases ht

theorem openStep_inv {o : Outcome} (h : Inv s) (ht : openStep s o = some t) : Inv t := by
  cases hp : s.opener with
  | idle =>
    obtain ⟨hopened, hreceiver, hcalls⟩ := h.stage.of_before (by rw [hp]; rfl)
    cases o <;> simp only [openStep, hp, reduceCtorEq, Option.some.injEq] at ht
    subst ht
    exact h.withStage (by rw [hopened, hreceiver, hcalls]; exact .before rfl) h.notified
  | connecting =>
    obtain ⟨hopened, hreceiver, hcalls⟩ := h.stage.of_before (by rw [hp]; rfl)
    cases o <;> simp only [openStep, hp, Option.some.injEq] at ht <;> subst ht
    · exact h.withStage (by rw [hopened, hreceiver, hcalls]; exact .before rfl) h.notified
    · exact h.withStage (by rw [hreceiver, hcalls]; exact .refused rfl (by simp)) h.notified
    · exact h.withStage (by rw [hreceiver, hcalls]; exact .refused rfl (by simp)) h.notified
  | failing e =>
    obtain ⟨hopened, hreceiver, hcalls⟩ := h.stage.of_failing (.inl ⟨e, hp⟩)
    cases o <;> simp only [openStep, hp, reduceCtorEq, Option.some.injEq] at ht
    subst ht
    refine h.withStage ?_ h.notified
    show Stage s.opened .erring s.receiver (s.calls ++ [.onError e])
    rw [hopened, hreceiver]
    refine .refused rfl fun c hc => ?_
    rcases List.mem_append.1 hc with hc | hc
    · exact hcalls c hc
    · exact ⟨e, List.mem_singleton.1 hc⟩
  | erring =>
    obtain ⟨hopened, hreceiver, hcalls⟩ := h.stage.of_failing (.inr hp)
    have ht : some { s with opener := .done } = some t := by
      cases o <;> simpa only [openStep, hp] using ht
    cases ht
    exact h.withStage (by rw [hopened, hreceiver]; exact .refused rfl hcalls) h.notified
  | locking =>
    obtain ⟨hopened, hreceiver, hcalls⟩ := h.stage.of_before (by rw [hp]; rfl)
    obtain ⟨hclosing, rfl⟩ | ⟨hclosing, rfl⟩ := openStep_locking hp ht
    · exact h.withStage (by rw [hreceiver, hcalls]; exact .refused rfl (by simp)) h.notified
    · have halive : ¬ s.Dead := by
        rintro (hdead | hdead)
        · rw [hclosing] at hdead
          cases hdead
        · rw [h.notified, hreceiver] at hdead
          cases hdead
      refine ⟨?_, h.notified, fun hdead => absurd hdead halive, h.closes, h.closeReturned,
        fun _ _ _ => rfl, h.late⟩
      show Stage (some true) .connected s.receiver s.calls
      rw [hreceiver, hcalls]
      exact .connected
  | connected =>
    obtain ⟨hopened, hreceiver, hcalls⟩ := (hp ▸ h.stage).of_connected
    cases o <;> simp only [openStep, hp, reduceCtorEq, Option.some.injEq] at ht
    subst ht
    refine h.withStage ?_ h.notified
    show Stage s.opened .greeting s.receiver (s.calls ++ [.onConnected])
    rw [hopened, hreceiver, hcalls]
    exact .greeted rfl
  | greeting =>
    obtain ⟨hopened, hreceiver, hcalls⟩ := h.stage.of_greeting (.inl hp)
    cases o <;> simp only [openStep, hp, Option.some.injEq] at ht <;> subst ht <;>
      exact h.withStage (by rw [hopened, hreceiver, hcalls]; exact .greeted rfl) h.notified
  | starting =>
    obtain ⟨hopened, hreceiver, hcalls⟩ := h.stage.of_greeting (.inr hp)
    have hnotified : s.closedNotified = false := by rw [h.notified, hreceiver]; rfl
    cases o <;> simp only [openStep, hp, Option.some.injEq] at ht <;> subst ht
    · exact h.withStage (by rw [hopened, hcalls]; exact .receiving rfl (by simp)) hnotified
    · exact h.withStage (by rw [hopened, hreceiver, hcalls]; exact .greeted rfl) h.notified
    · exact h.withStage (by rw [hopened, hreceiver, hcalls]; exact .greeted rfl) h.notified
  | done => cases o <;> simp [openStep, hp] at ht

theorem exceptClause_cases (e : PyError) :
    exceptClause e = .finishing ∨ exceptClause e = .caught e := by
  unfold exceptClause
  split
  · exact .inl rfl
  · exact .inr rfl

/-- A step inside the receive loop. -/
theorem Inv.goOn (h : Inv s) {receiver : ReceivePc} (ha : s.receiver.active = true)
    (hn : s.receiver.notified = false) (ha' : receiver.active = true)
    (hn' : receiver.notified = false) : Inv { s with receiver := receiver } :=
  h.withStage (h.stage.goOn ha ha') (by rw [h.notified, hn, hn'])

/-- A call of the receive loop. -/
theorem Inv.report (h : Inv s) {receiver : ReceivePc} {c : Callback} (hc : c.isReport = true)
    (ha : s.receiver.active = true) (hn : s.receiver.notified = false)
    (ha' : receiver.active = true) (hn' : receiver.notified = false) :
    Inv { s.call c with receiver := receiver } :=
  h.withStage (h.stage.report ha ha' hc) (by rw [h.notified, hn, hn'])

/-- The section of `_notifyClosed`. -/
theorem Inv.notify (h : Inv s) (hfree : s.lockFree = true) (hp : s.receiver = .finishing) :
    Inv { s with closedNotified := true, connection := false, receiver := .notifying } := by
  have hwriting := lockFree_iff.1 hfree
  refine ⟨h.stage.goOn (by rw [hp]; rfl) rfl, rfl, fun _ => rfl, h.closes, h.closeReturned,
    fun x hx hx' => absurd hx' (hwriting x hx), fun x hx hlate => ?_⟩
  exact ⟨.inr rfl, (h.late x hx hlate).2⟩

theorem receiveStep_inv {depth : Nat} {r : Received} (h : Inv s)
    (ht : receiveStep depth s r = some t) : Inv t := by
  unfold receiveStep at ht
  split at ht
  case h_1 hp =>
    split at ht <;> cases ht
    split <;> exact h.goOn (by rw [hp]; rfl) (by rw [hp]; rfl) rfl rfl
  case h_2 raw hp =>
    split at ht <;> cases ht <;> exact h.goOn (by rw [hp]; rfl) (by rw [hp]; rfl) rfl rfl
  case h_3 e hp | h_11 e hp =>
    cases ht
    rcases exceptClause_cases e with hclause | hclause <;> rw [hclause] <;>
      exact h.goOn (by rw [hp]; rfl) (by rw [hp]; rfl) rfl rfl
  case h_4 hp | h_6 hp | h_7 hp | h_8 hp | h_10 hp | h_12 hp | h_15 hp =>
    cases ht
    exact h.goOn (by rw [hp]; rfl) (by rw [hp]; rfl) rfl rfl
  case h_5 hp | h_9 hp | h_14 hp =>
    cases ht
    exact h.report rfl (by rw [hp]; rfl) (by rw [hp]; rfl) rfl rfl
  case h_13 hp =>
    split at ht <;> cases ht
    split <;> exact h.goOn (by rw [hp]; rfl) (by rw [hp]; rfl) rfl rfl
  case h_16 hp =>
    have hnotified : s.closedNotified = false := by rw [h.notified, hp]; rfl
    split at ht
    · rename_i hfree
      rw [hnotified] at ht
      cases ht
      exact h.notify hfree hp
    · cases ht
  case h_17 hp =>
    cases ht
    refine h.withStage (h.stage.close (by rw [hp]; rfl)) ?_
    rw [h.notified, hp]
    rfl
  case h_18 hp =>
    cases ht
    refine h.withStage (hp ▸ h.stage).end ?_
    rw [h.notified, hp]
    rfl
  case h_19 => cases ht

theorem closeStep_inv {i : Nat} {pc : ClosePc} {o : Outcome} (h : Inv s)
    (hpc : s.closes[i]? = some pc) (ht : closeStep s i pc o = some t) : Inv t := by
  unfold closeStep at ht
  split at ht
  · split at ht <;> cases ht
    rename_i hfree
    have hwriting := lockFree_iff.1 hfree
    exact ⟨h.stage, h.notified, fun _ => rfl, fun _ _ _ => rfl, fun _ => rfl,
      fun x hx hx' => absurd hx' (hwriting x hx),
      fun x hx hlate => ⟨.inl rfl, (h.late x hx hlate).2⟩⟩
  · cases ht
    have hclosing : s.closing = true := h.closes _ (List.mem_of_getElem? hpc) (by simp)
    exact ⟨h.stage, h.notified, h.dead, fun _ _ _ => hclosing, fun _ => hclosing, h.writing, h.late⟩
  · cases ht
    have hclosing : s.closing = true := h.closes _ (List.mem_of_getElem? hpc) (by simp)
    exact ⟨h.stage, h.notified, h.dead, fun _ _ _ => hclosing, h.closeReturned, h.writing, h.late⟩
  · cases ht

/-- A `send` goes on. -/
theorem Inv.setSend (h : Inv s) {i : Nat} {x y : Send} (hx : s.sends[i]? = some x)
    (hlate : y.late = x.late) (hwriting : y.pc = .writing → s.connection = true)
    (hrefused : x.late = true → s.Dead → x.Refused → y.Refused) : Inv (s.setSend i y) := by
  have hxmem := List.mem_of_getElem? hx
  refine ⟨h.stage, h.notified, h.dead, h.closes, h.closeReturned, fun z hz hz' => ?_,
    fun z hz hz' => ?_⟩
  · rcases List.mem_or_eq_of_mem_set hz with hz | rfl
    · exact h.writing z hz hz'
    · exact hwriting hz'
  · rcases List.mem_or_eq_of_mem_set hz with hz | rfl
    · exact h.late z hz hz'
    · rw [hlate] at hz'
      obtain ⟨hdead, hx'⟩ := h.late x hxmem hz'
      exact ⟨hdead, hrefused hz' hdead hx'⟩

theorem sendStep_inv {i : Nat} {x : Send} {o : Outcome} (h : Inv s) (hx : s.sends[i]? = some x)
    (ht : sendStep s i x o = some t) : Inv t := by
  unfold sendStep at ht
  split at ht
  · cases ht
    exact h.setSend hx rfl (by simp) fun _ _ hx' => ⟨hx'.written, by simp, by simp⟩
  · rename_i ho
    cases ht
    exact h.setSend hx rfl (by simp) fun _ _ hx' => ⟨hx'.written, by simp, by simpa using ho⟩
  · split at ht
    · split at ht <;> cases ht
      · exact h.setSend hx rfl (by simp) fun _ _ hx' => ⟨hx'.written, by simp, by simp⟩
      · rename_i hopen
        simp only [Bool.or_eq_true, Bool.not_eq_true', not_or, Bool.not_eq_false] at hopen
        refine h.setSend hx rfl (fun _ => hopen.1) fun _ hdead _ => ?_
        have hclosed := h.dead hdead
        rw [hopen.1] at hclosed
        cases hclosed
    · cases ht
  · rename_i hpc
    cases ht
    exact h.setSend hx rfl (by simp) fun _ _ hx' => absurd hpc hx'.writing
  · cases ht

/-- A `send` is called. -/
theorem Inv.send (h : Inv s) :
    Inv { s with
      sends := s.sends ++
        [⟨.encoding, s.closeReturned || s.calls.any Callback.isClose, false⟩] } := by
  have hdead : (s.closeReturned || s.calls.any Callback.isClose) = true → s.Dead := by
    intro hlate
    rcases Bool.or_eq_true_iff.1 hlate with hreturned | hclose
    · exact .inl (h.closeReturned hreturned)
    · obtain ⟨c, hc, hisClose⟩ := List.any_eq_true.1 hclose
      cases c <;> cases hisClose
      exact h.dead_of_onClose hc
  refine ⟨h.stage, h.notified, h.dead, h.closes, h.closeReturned, fun x hx hx' => ?_,
    fun x hx hlate => ?_⟩
  · rcases List.mem_append.1 hx with hx | hx
    · exact h.writing x hx hx'
    · rw [List.mem_singleton.1 hx] at hx'
      cases hx'
  · rcases List.mem_append.1 hx with hx | hx
    · exact h.late x hx hlate
    · rw [List.mem_singleton.1 hx] at hlate ⊢
      exact ⟨hdead hlate, rfl, by simp, by simp⟩

theorem step_inv {depth : Nat} {l : Label} (h : Inv s) (ht : step depth s l = some t) : Inv t := by
  cases l with
  | opener o => exact openStep_inv h ht
  | receiver r => exact receiveStep_inv h ht
  | close =>
    cases ht
    refine ⟨h.stage, h.notified, h.dead, fun pc hpc hne => ?_, h.closeReturned, h.writing, h.late⟩
    rcases List.mem_append.1 hpc with hpc | hpc
    · exact h.closes pc hpc hne
    · exact absurd (List.mem_singleton.1 hpc) hne
  | closer i o =>
    obtain ⟨pc, hpc, ht⟩ := Option.bind_eq_some_iff.1 ht
    exact closeStep_inv h hpc ht
  | send =>
    cases ht
    exact h.send
  | sender i o =>
    obtain ⟨x, hx, ht⟩ := Option.bind_eq_some_iff.1 ht
    exact sendStep_inv h hx ht

/-- **The callback protocol**, in every state of every run. -/
theorem callbacks_protocol (depth : Nat) (labels : List Label) :
    Always (step depth) Protocol State.init labels :=
  always_of_invariant (fun _ h => h.protocol) (fun _ _ _ h ht => step_inv h ht) inv_init

/-- A message that is no object, and an error handler that raises: the loop ends with
`_on_close`. -/
example : (run (step 8) State.init
    [.opener .returns, .opener .returns, .opener .returns, .opener .returns, .opener .returns,
      .opener .returns, .receiver (.answer .returns), .receiver (.bytes [49]),
      .receiver (.answer .returns), .receiver (.answer (.raises .typeError)),
      .receiver (.answer .returns), .receiver (.answer .returns), .receiver (.answer .exits),
      .receiver (.answer .returns), .receiver (.answer .returns)]).map (fun s => s.calls) =
    some [.onConnected, .onError .valueError, .onError .typeError, .onClose] := rfl

end PipeWorks.Conductor.StreamConnection
