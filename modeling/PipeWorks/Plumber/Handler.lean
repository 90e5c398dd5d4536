import Mathlib.Algebra.Group.Int.Defs
import Mathlib.Algebra.Group.Nat.Defs
import PipeWorks.Lib.Positions
import PipeWorks.Plumber.RecordedReports
import PipeWorks.Plumber.Routes
import PipeWorks.Python.Int
import PipeWorks.Python.JsonBytes
import PipeWorks.Python.JsonWritable

/-!
# The HTTP server (`make_handler` and `main` of `plumber/cli.py`)

`Server` is the manager with the threads that use it: `main`, which starts and stops all pipelines,
and one thread for each request.  A request is answered in stages: the handler works out what it is
asked for, takes the lock of the manager for each section of the call, makes a response out of what
has been returned or raised, and sends it.

`Books` and its sections are those of `RecordedReports`; a run of the server is a run of `Ledger`
(`step_ledger`).
-/

set_option autoImplicit false

namespace PipeWorks.Plumber.Handler

open StepSystem PipeWorks.Python Routes

/-- The machine that the server runs on. -/
structure Host where
  /-- how many nested containers the recursion limit leaves room for -/
  depth : Nat
  deep : 3 ≤ depth
  /-- `process.pid` of the child at a position -/
  pid : Nat → Nat
  pid_lt : ∀ n, pid n < 2 ^ 32
  order : StatusOrder

/-! ## Requests and responses -/

/-- `self.path` of a request in origin form: Latin-1, from a single slash on.  `http.server` makes
one of several slashes at the beginning. -/
structure Target where
  bytes : List UInt8
  slash : bytes.head? = some 0x2F
  single : bytes[1]? ≠ some 0x2F

def Target.path (target : Target) : PyStr := target.bytes.map UInt8.toNat

inductive Method where
  | get
  | post
  deriving DecidableEq, Repr

structure HttpRequest where
  method : Method
  target : Target
  /-- the header `Content-Length` -/
  contentLength : Option String
  /-- what can be read from the connection until it ends -/
  body : List UInt8
  /-- what reading from the connection raises -/
  readRaises : Option PyError

structure Response where
  status : Nat
  contentType : String
  contentLength : String
  body : List UInt8
  deriving DecidableEq, Repr

def PipelineState.text : PipelineState → String
  | .stopped => "stopped"
  | .running => "running"
  | .failed => "failed"

/-- `None`, or a number. -/
def optional : Option Int → Json
  | none => .null
  | some i => .int i

/-- The text that a list of code points stands for. -/
def text (s : PyStr) : String := String.ofList (s.map Char.ofNat)

def errorPayload (message : String) : Json := .dict [(pyStr "error", .str (pyStr message))]

section

variable (host : Host)

/-- The dict that `status` returns. -/
def statusPayload (st : StatusDict) : Json :=
  .dict
    [(pyStr "name", .str (pyStr st.name)),
     (pyStr "state", .str (pyStr (PipelineState.text st.state))),
     (pyStr "pid", optional (st.pid.map fun n => (host.pid n : Int))),
     (pyStr "exit_code", optional st.exitCode), (pyStr "config", .str (pyStr st.config)),
     (pyStr "statistics", st.statistics)]

/-- What a call of the manager returns. -/
def payload : Request → List StatusDict → Json
  | .status _, [st] | .start _, [st] | .stop _, [st] | .recordStatistics _ _, [st] =>
    statusPayload host st
  | _, statuses => .list (statuses.map (statusPayload host))

/-- `_send_json(status, payload)`, up to the first byte. -/
def sendJson (status : Nat) (payload : Json) : Except PyError Response :=
  (dumpBytes host.depth payload).map fun body =>
    ⟨status, "application/json; charset=utf-8", toString body.length, body⟩

def pipelineNotFound : Except PyError Response :=
  sendJson host 404 (errorPayload "pipeline not found")

def invalidStatistics : Except PyError Response :=
  sendJson host 400 (errorPayload "invalid frame statistics")

def notFound : Except PyError Response := sendJson host 404 (errorPayload "not found")

/-- `except KeyError`. -/
def exceptKeyError (e : PyError) : Except PyError Response :=
  if e.caughtBy [.keyError] then pipelineNotFound host else .error e

/-- The clauses of the branch for statistics. -/
def exceptStatistics (e : PyError) : Except PyError Response :=
  if e.caughtBy [.keyError] then pipelineNotFound host
  else if e.caughtBy [.valueError, .jsonDecodeError] then invalidStatistics host
  else .error e

/-- The clauses around a call of the manager. -/
def clauses : Request → PyError → Except PyError Response
  | .status _ | .start _ | .stop _ => exceptKeyError host
  | .recordStatistics _ _ => exceptStatistics host
  | .list | .startAll | .stopAll => .error

/-- What becomes of a call of the manager. -/
def respond (r : Request) (result : Except PyError (List StatusDict)) : Except PyError Response :=
  match result >>= fun statuses => sendJson host 200 (payload host r statuses) with
  | .ok response => .ok response
  | .error e => clauses host r e

/-! ## What a request asks for -/

/-- `int(self.headers.get("Content-Length", "0"))`. -/
def HttpRequest.length (http : HttpRequest) : Except PyError Int :=
  match intOfStr (http.contentLength.getD "0") with
  | some n => .ok n
  | none => .error .valueError

/-- `self.rfile.read(n)`. -/
def HttpRequest.read (http : HttpRequest) (n : Int) : Except PyError (List UInt8) :=
  if n < -2 ^ 63 ∨ 2 ^ 63 ≤ n then .error (.other "OverflowError")
  else if n < -1 then .error .valueError
  else match http.readRaises with
    | some e => .error e
    | none => .ok (if n < 0 then http.body else http.body.take n.toNat)

/-- `json.loads(self.rfile.read(content_length))`. -/
def HttpRequest.statistics (http : HttpRequest) : Except PyError Json :=
  http.length >>= http.read >>= loadsBytes host.depth

inductive Route where
  | get (route : GetRoute)
  | post (route : PostRoute)

def HttpRequest.route (http : HttpRequest) : Route :=
  match http.method with
  | .get => .get (doGet http.target.path)
  | .post => .post (doPost http.target.path)

/-- What the handler does for a request. -/
inductive Handling where
  | call (r : Request)
  /-- `INDEX_PAGE_PATH.read_bytes()` -/
  | indexPage
  | respond (response : Except PyError Response)

/-- `do_GET` and `do_POST`, up to the call of the manager. -/
def HttpRequest.handle (http : HttpRequest) : Handling :=
  match http.route with
  | .get .indexPage => .indexPage
  | .get .list => .call .list
  | .get (.status name) => .call (.status (text name))
  | .post .startAll => .call .startAll
  | .post (.recordStatistics name) =>
    match http.statistics host with
    | .ok v => .call (.recordStatistics (text name) v)
    | .error e => .respond (exceptStatistics host e)
  | .post (.start name) => .call (.start (text name))
  | .post (.stop name) => .call (.stop (text name))
  | .get .notFound | .post .notFound => .respond (notFound host)

end

/-! ## The threads -/

inductive Outcome where
  | answered (response : Response)
  | raised (e : PyError)
  /-- a call of `main` returns -/
  | returned

/-- How far the answer to a request has got. -/
inductive Stage (α : Type) where
  | working (work : α)
  | sending (response : Response)
  | ended (outcome : Outcome)

def Stage.of {α : Type} : Except PyError Response → Stage α
  | .ok response => .sending response
  | .error e => .ended (.raised e)

def Stage.work? {α : Type} : Stage α → Option α
  | .working work => some work
  | _ => none

/-- A call of the manager: the sections that are left, and what those before have returned. -/
structure Work where
  rest : List Section
  returned : List StatusDict

/-- A section that has been run: what the environment answered, and the manager before it. -/
structure Moment where
  locked : Section
  answer : Answer
  books : Books

structure Call where
  /-- `none` if it is `main` that calls -/
  client : Option HttpRequest
  request : Request
  stage : Stage Work
  /-- history: the sections it has run -/
  trace : List Moment

/-- A request that is answered without the manager. -/
structure Other where
  client : HttpRequest
  stage : Stage Unit

structure Server where
  books : Books
  calls : List Call
  others : List Other

def Server.init : Server := ⟨Books.init, [], []⟩

section

variable (host : Host) (defs : Definitions)

/-- A section, with what it returns. -/
def perform (answer : Answer) (b : Books) : Section → Books × Except PyError (List StatusDict)
  | .list => (b, b.list defs)
  | .status name => (b, (b.status defs name).map ([·]))
  | .start name => (b.start defs answer name).map id (·.map ([·]))
  | .stop name => (b.stop defs answer name).map id (·.map ([·]))
  | .recordStatistics name v => (b.recordStatistics defs host.order name v).map id (·.map ([·]))

/-- The end of a call. -/
def Call.finish (call : Call) (result : Except PyError (List StatusDict)) : Call :=
  { call with stage :=
      match call.client, result with
      | some _, result => .of (respond host call.request result)
      | none, .ok _ => .ended .returned
      | none, .error e => .ended (.raised e) }

def Call.goOn (call : Call) (rest : List Section) (returned : List StatusDict) : Call :=
  match rest with
  | [] => call.finish host (.ok returned)
  | _ :: _ => { call with stage := .working ⟨rest, returned⟩ }

/-- A call of the manager begins. -/
def Call.enter (client : Option HttpRequest) (r : Request) : Call :=
  Call.goOn host ⟨client, r, .working ⟨[], []⟩, []⟩ (r.sections defs) []

/-- A call goes on behind a section. -/
def Call.after (call : Call) (rest : List Section) (returned : List StatusDict)
    (moment : Moment) : Except PyError (List StatusDict) → Call
  | .ok statuses =>
    Call.goOn host { call with trace := call.trace ++ [moment] } rest (returned ++ statuses)
  | .error e => Call.finish host { call with trace := call.trace ++ [moment] } (.error e)

/-- A request arrives. -/
def Server.accept (s : Server) (http : HttpRequest) : Server :=
  match http.handle host with
  | .call r => { s with calls := s.calls ++ [.enter host defs (some http) r] }
  | .indexPage => { s with others := s.others ++ [⟨http, .working ()⟩] }
  | .respond response => { s with others := s.others ++ [⟨http, .of response⟩] }

inductive Label where
  /-- `main` calls `start_all` -/
  | startAll
  /-- `main` calls `stop_all` -/
  | stopAll
  | accept (http : HttpRequest)
  /-- a call takes the lock, and releases it -/
  | run (call : Nat) (answer : Answer)
  /-- `INDEX_PAGE_PATH.read_bytes()` returns or raises -/
  | readIndexPage (other : Nat) (result : Except PyError (List UInt8))
  /-- the response to a call is sent, or sending raises -/
  | send (call : Nat) (raises : Option PyError)
  | sendOther (other : Nat) (raises : Option PyError)
  /-- a child exits by itself -/
  | exit (pid : Nat) (code : Int)

/-- An exit code has 32 bits. -/
def Fits (code : Int) : Prop := code.natAbs < 2 ^ 32

instance (code : Int) : Decidable (Fits code) := inferInstanceAs (Decidable (_ < _))

def AnswerFits (answer : Answer) : Prop := ∀ code ∈ answer.reaping.toOption.join, Fits code

instance (answer : Answer) : Decidable (AnswerFits answer) :=
  inferInstanceAs (Decidable (∀ code ∈ answer.reaping.toOption.join, Fits code))

/-- The end of `_send_json`: writing to a connection raises an `OSError`, if anything. -/
def Stage.send {α : Type} (stage : Stage α) (raises : Option PyError) : Option (Stage α) :=
  match stage, raises with
  | .sending response, none => some (.ended (.answered response))
  | .sending _, some e => if e.isInstance .osError then some (.ended (.raised e)) else none
  | _, _ => none

def readPage (result : Except PyError (List UInt8)) : Except PyError Response :=
  result.map fun body => ⟨200, "text/html; charset=utf-8", toString body.length, body⟩

/-- `main` calls the manager. -/
def Server.main (s : Server) (r : Request) : Server :=
  { s with calls := s.calls ++ [.enter host defs none r] }

/-- A call has run a section. -/
def Server.ran (s : Server) (i : Nat) (call : Call) (work : Work) (c : Section) (answer : Answer) :
    Server :=
  { s with
    books := (perform host defs answer s.books c).1
    calls := s.calls.set i (call.after host work.rest.tail work.returned ⟨c, answer, s.books⟩
      (perform host defs answer s.books c).2) }

def step (s : Server) : Label → Option Server
  | .startAll => some (s.main host defs .startAll)
  | .stopAll => some (s.main host defs .stopAll)
  | .accept http => some (s.accept host defs http)
  | .run i answer => do
    let call ← s.calls[i]?
    let work ← call.stage.work?
    let c ← work.rest.head?
    if AnswerFits answer then some (s.ran host defs i call work c answer) else none
  | .readIndexPage i result => do
    let other ← s.others[i]?
    let _ ← other.stage.work?
    some { s with others := s.others.set i { other with stage := .of (readPage result) } }
  | .send i raises => do
    let call ← s.calls[i]?
    let stage ← call.stage.send raises
    some { s with calls := s.calls.set i { call with stage := stage } }
  | .sendOther i raises => do
    let other ← s.others[i]?
    let stage ← other.stage.send raises
    some { s with others := s.others.set i { other with stage := stage } }
  | .exit pid code =>
    if s.books.manager.isAlive pid ∧ Fits code then
      some { s with books := { s.books with manager := s.books.manager.childExit pid code } }
    else none

end

/-! ## The steps of `Ledger` -/

/-- The sections that a call has still to run. -/
def Call.sections (call : Call) : List Section :=
  match call.stage with
  | .working work => work.rest
  | _ => []

def Server.ledger (s : Server) : Ledger := ⟨s.books, s.calls.map Call.sections⟩

/-- What a step of the server does to the manager. -/
def Label.toLedger (host : Host) : Label → Option Plumber.Label
  | .startAll => some (.request .startAll)
  | .stopAll => some (.request .stopAll)
  | .accept http =>
    match http.handle host with
    | .call r => some (.request r)
    | _ => none
  | .run i answer => some (.run i answer)
  | .exit pid code => some (.exit pid code)
  | .readIndexPage _ _ | .send _ _ | .sendOther _ _ => none

variable {host : Host} {defs : Definitions} {s t : Server} {l : Label}

/-- `perform` does what `exec` does. -/
theorem exec_eq (answer : Answer) (b : Books) (c : Section) :
    b.exec defs host.order answer c =
      ((perform host defs answer b c).1, raises (perform host defs answer b c).2) := by
  have hraises : ∀ {α β : Type} (x : Except PyError α) (f : α → β),
      raises (x.map f) = raises x := by
    intro α β x f
    cases x <;> rfl
  cases c with
  | list => rfl
  | status name => exact Prod.ext rfl (hraises _ _).symm
  | start name => exact Prod.ext rfl (hraises _ _).symm
  | stop name => exact Prod.ext rfl (hraises _ _).symm
  | recordStatistics name v => exact Prod.ext rfl (hraises _ _).symm

section

variable (call : Call) (rest : List Section) (returned : List StatusDict)

theorem Stage.of_ne_working {α : Type} (response : Except PyError Response) (work : α) :
    Stage.of response ≠ .working work := by
  cases response <;> exact nofun

theorem sections_finish (result : Except PyError (List StatusDict)) :
    (call.finish host result).sections = [] := by
  unfold Call.finish Call.sections
  cases call.client with
  | none => cases result <;> rfl
  | some http =>
    dsimp only
    split
    · rename_i hstage
      exact absurd hstage (Stage.of_ne_working _ _)
    · rfl

theorem sections_goOn : (call.goOn host rest returned).sections = rest := by
  cases rest with
  | nil => exact sections_finish call _
  | cons c rest => rfl

theorem sections_after (moment : Moment) (result : Except PyError (List StatusDict)) :
    (call.after host rest returned moment result).sections =
      if raises result then [] else rest := by
  cases result with
  | error e => exact sections_finish _ _
  | ok statuses => exact sections_goOn _ _ _

end

theorem Stage.send_spec {α : Type} {stage stage' : Stage α} {raises : Option PyError}
    (h : stage.send raises = some stage') :
    ∃ response, stage = .sending response ∧
      (raises = none ∧ stage' = .ended (.answered response) ∨
        ∃ e, raises = some e ∧ e.isInstance .osError = true ∧ stage' = .ended (.raised e)) := by
  unfold Stage.send at h
  split at h
  · cases h
    exact ⟨_, rfl, .inl ⟨rfl, rfl⟩⟩
  · split at h
    · rename_i hos
      cases h
      exact ⟨_, rfl, .inr ⟨_, rfl, hos, rfl⟩⟩
    · cases h
  · cases h

theorem loadsBytes_eq_ok {depth : Nat} {raw : List UInt8} {v : Json}
    (h : loadsBytes depth raw = .ok v) : ∃ s, loads depth s = .ok v := by
  obtain ⟨s, -, h⟩ := Fails.bind_eq_ok.1 h
  exact ⟨s, h⟩

/-- What a handler passes on has been read by `json.loads`. -/
theorem handle_reports {http : HttpRequest} {r : Request} (h : http.handle host = .call r) :
    ∀ name v, .recordStatistics name v ∈ r.sections defs → ∃ s, loads host.depth s = .ok v := by
  intro name v hmem
  unfold HttpRequest.handle at h
  split at h
  · cases h
  · cases h
    cases List.mem_singleton.1 hmem
  · cases h
    cases List.mem_singleton.1 hmem
  · cases h
    obtain ⟨_, -, heq⟩ := List.mem_map.1 hmem
    cases heq
  · split at h
    · rename_i w hw
      cases h
      cases List.mem_singleton.1 hmem
      obtain ⟨raw, -, hraw⟩ := Fails.bind_eq_ok.1 hw
      exact loadsBytes_eq_ok hraw
    · cases h
  · cases h
    cases List.mem_singleton.1 hmem
  · cases h
    cases List.mem_singleton.1 hmem
  · cases h
  · cases h

theorem handle_posted {http : HttpRequest} {r : Request} (h : http.handle host = .call r) :
    ∀ c ∈ r.sections defs, c.Posted := by
  intro c hc
  cases c with
  | recordStatistics name v =>
    obtain ⟨s, hs⟩ := handle_reports h name v hc
    exact loads_distinct hs
  | _ => trivial

/-! ## Everything a step can do -/

/-- The calls and the threads without one, each with its new stage. -/
def Server.setCall (s : Server) (i : Nat) (call : Call) : Server :=
  { s with calls := s.calls.set i call }

def Server.setOther (s : Server) (i : Nat) (other : Other) : Server :=
  { s with others := s.others.set i other }

theorem step_run {i : Nat} {answer : Answer} (h : step host defs s (.run i answer) = some t) :
    ∃ call work c, s.calls[i]? = some call ∧ call.stage = .working work ∧
      work.rest.head? = some c ∧ AnswerFits answer ∧
      t = s.ran host defs i call work c answer := by
  obtain ⟨call, hcall, h⟩ := Option.bind_eq_some_iff.mp h
  obtain ⟨work, hwork, h⟩ := Option.bind_eq_some_iff.mp h
  obtain ⟨c, hc, h⟩ := Option.bind_eq_some_iff.mp h
  have hstage : call.stage = .working work := by
    cases hstage : call.stage with
    | working w =>
      rw [hstage] at hwork
      exact congrArg Stage.working (Option.some.inj hwork)
    | sending response =>
      rw [hstage] at hwork
      cases hwork
    | ended outcome =>
      rw [hstage] at hwork
      cases hwork
  split at h
  · rename_i hfits
    exact ⟨call, work, c, hcall, hstage, hc, hfits, (Option.some.inj h).symm⟩
  · cases h

theorem step_send {i : Nat} {raises : Option PyError}
    (h : step host defs s (.send i raises) = some t) :
    ∃ call stage, s.calls[i]? = some call ∧ call.stage.send raises = some stage ∧
      t = s.setCall i { call with stage := stage } := by
  obtain ⟨call, hcall, h⟩ := Option.bind_eq_some_iff.mp h
  obtain ⟨stage, hstage, h⟩ := Option.bind_eq_some_iff.mp h
  exact ⟨call, stage, hcall, hstage, (Option.some.inj h).symm⟩

theorem step_sendOther {i : Nat} {raises : Option PyError}
    (h : step host defs s (.sendOther i raises) = some t) :
    ∃ other stage, s.others[i]? = some other ∧ other.stage.send raises = some stage ∧
      t = s.setOther i { other with stage := stage } := by
  obtain ⟨other, hother, h⟩ := Option.bind_eq_some_iff.mp h
  obtain ⟨stage, hstage, h⟩ := Option.bind_eq_some_iff.mp h
  exact ⟨other, stage, hother, hstage, (Option.some.inj h).symm⟩

theorem step_readIndexPage {i : Nat} {result : Except PyError (List UInt8)}
    (h : step host defs s (.readIndexPage i result) = some t) :
    ∃ other, s.others[i]? = some other ∧ other.stage = .working () ∧
      t = s.setOther i { other with stage := .of (readPage result) } := by
  obtain ⟨other, hother, h⟩ := Option.bind_eq_some_iff.mp h
  obtain ⟨work, hwork, h⟩ := Option.bind_eq_some_iff.mp h
  refine ⟨other, hother, ?_, (Option.some.inj h).symm⟩
  cases hstage : other.stage with
  | working w => rfl
  | sending response =>
    rw [hstage] at hwork
    cases hwork
  | ended outcome =>
    rw [hstage] at hwork
    cases hwork

theorem step_exit {pid : Nat} {code : Int} (h : step host defs s (.exit pid code) = some t) :
    s.books.manager.isAlive pid = true ∧ Fits code ∧ t = { s with books :=
      { s.books with manager := s.books.manager.childExit pid code } } := by
  unfold step at h
  dsimp only at h
  split at h
  · rename_i hboth
    exact ⟨hboth.1, hboth.2, (Option.some.inj h).symm⟩
  · cases h

/-- What a step makes of the call at a position. -/
inductive CallStep (host : Host) (defs : Definitions) (s : Server) (l : Label) (k : Nat)
    (call' : Call) : Prop where
  | same (h : s.calls[k]? = some call') : CallStep host defs s l k call'
  | entered (client : Option HttpRequest) (r : Request) (hnew : s.calls.length ≤ k)
      (hclient : ∀ http ∈ client, l = .accept http ∧ http.handle host = .call r)
      (hreports : ∀ name v, .recordStatistics name v ∈ r.sections defs →
        ∃ s, loads host.depth s = .ok v)
      (h : call' = .enter host defs client r) : CallStep host defs s l k call'
  | ran (call : Call) (work : Work) (c : Section) (answer : Answer)
      (hcall : s.calls[k]? = some call) (hl : l = .run k answer)
      (hstage : call.stage = .working work) (hhead : work.rest.head? = some c)
      (hfits : AnswerFits answer)
      (h : call' = call.after host work.rest.tail work.returned ⟨c, answer, s.books⟩
        (perform host defs answer s.books c).2) : CallStep host defs s l k call'
  | sent (call : Call) (stage : Stage Work) (raises : Option PyError)
      (hcall : s.calls[k]? = some call) (hsend : call.stage.send raises = some stage)
      (h : call' = { call with stage := stage }) : CallStep host defs s l k call'

/-- What a step makes of the manager. -/
inductive BooksStep (host : Host) (defs : Definitions) (s : Server) (l : Label) (b : Books) :
    Prop where
  | same (h : b = s.books) : BooksStep host defs s l b
  | ran (i : Nat) (call : Call) (work : Work) (c : Section) (answer : Answer)
      (hcall : s.calls[i]? = some call) (hl : l = .run i answer)
      (hstage : call.stage = .working work) (hhead : work.rest.head? = some c)
      (hfits : AnswerFits answer)
      (h : b = (perform host defs answer s.books c).1) : BooksStep host defs s l b
  | exited (pid : Nat) (code : Int) (hfits : Fits code)
      (h : b = { s.books with manager := s.books.manager.childExit pid code }) :
      BooksStep host defs s l b

theorem calls_of_step (h : step host defs s l = some t) {k : Nat} {call' : Call}
    (hk : t.calls[k]? = some call') : CallStep host defs s l k call' := by
  have hmain : ∀ (names : List String) (make : String → Section) (r : Request),
      r.sections defs = names.map make → (∀ n name v, make n ≠ .recordStatistics name v) →
        (s.main host defs r).calls[k]? = some call' → CallStep host defs s l k call' := by
    intro names make r hsections hmake hk
    rcases Positions.getElem?_concat_cases hk with hk | ⟨hnew, rfl⟩
    · exact .same hk
    · refine .entered none r hnew.ge nofun (fun name v hmem => ?_) rfl
      rw [hsections] at hmem
      obtain ⟨n, -, heq⟩ := List.mem_map.1 hmem
      exact absurd heq (hmake n name v)
  cases l with
  | startAll =>
    cases h
    exact hmain _ _ .startAll rfl (fun _ _ _ => nofun) hk
  | stopAll =>
    cases h
    exact hmain _ _ .stopAll rfl (fun _ _ _ => nofun) hk
  | accept http =>
    cases h
    cases hhandle : http.handle host with
    | call r =>
      simp only [Server.accept, hhandle] at hk
      rcases Positions.getElem?_concat_cases hk with hk | ⟨hnew, rfl⟩
      · exact .same hk
      · refine .entered (some http) r hnew.ge (fun http' hhttp' => ?_) (handle_reports hhandle) rfl
        obtain rfl : http = http' := Option.some.inj hhttp'
        exact ⟨rfl, hhandle⟩
    | indexPage =>
      simp only [Server.accept, hhandle] at hk
      exact .same hk
    | respond response =>
      simp only [Server.accept, hhandle] at hk
      exact .same hk
  | run i answer =>
    obtain ⟨call, work, c, hcall, hstage, hc, hfits, rfl⟩ := step_run h
    rcases Positions.getElem?_set_cases hk with ⟨-, hk⟩ | ⟨rfl, rfl⟩
    · exact .same hk
    · exact .ran call work c answer hcall rfl hstage hc hfits rfl
  | readIndexPage i result =>
    obtain ⟨other, -, -, rfl⟩ := step_readIndexPage h
    exact .same hk
  | send i raises =>
    obtain ⟨call, stage, hcall, hsend, rfl⟩ := step_send h
    rcases Positions.getElem?_set_cases hk with ⟨-, hk⟩ | ⟨rfl, rfl⟩
    · exact .same hk
    · exact .sent call stage raises hcall hsend rfl
  | sendOther i raises =>
    obtain ⟨other, stage, -, -, rfl⟩ := step_sendOther h
    exact .same hk
  | exit pid code =>
    obtain ⟨-, -, rfl⟩ := step_exit h
    exact .same hk

theorem books_of_step (h : step host defs s l = some t) : BooksStep host defs s l t.books := by
  cases l with
  | startAll =>
    cases h
    exact .same rfl
  | stopAll =>
    cases h
    exact .same rfl
  | accept http =>
    cases h
    refine .same ?_
    unfold Server.accept
    split <;> rfl
  | run i answer =>
    obtain ⟨call, work, c, hcall, hstage, hc, hfits, rfl⟩ := step_run h
    exact .ran i call work c answer hcall rfl hstage hc hfits rfl
  | readIndexPage i result =>
    obtain ⟨other, -, -, rfl⟩ := step_readIndexPage h
    exact .same rfl
  | send i raises =>
    obtain ⟨call, stage, -, -, rfl⟩ := step_send h
    exact .same rfl
  | sendOther i raises =>
    obtain ⟨other, stage, -, -, rfl⟩ := step_sendOther h
    exact .same rfl
  | exit pid code =>
    obtain ⟨-, hfits, rfl⟩ := step_exit h
    exact .exited pid code hfits rfl

theorem map_set_of_eq {α β : Type} {xs : List α} {i : Nat} {x y : α} {f : α → β}
    (hx : xs[i]? = some x) (hf : f y = f x) : (xs.set i y).map f = xs.map f := by
  obtain ⟨hlt, rfl⟩ := List.getElem?_eq_some_iff.mp hx
  rw [List.map_set, hf, ← List.getElem_map f (h := by simpa using hlt)]
  exact List.set_getElem_self _

/-- **The manager of the server is that of `Ledger`.** -/
theorem step_ledger (h : step host defs s l = some t) :
    (l.toLedger host = none → t.ledger = s.ledger) ∧
      ∀ b, l.toLedger host = some b → ledgerStep defs host.order s.ledger b = some t.ledger := by
  have henter : ∀ client r, (∀ c ∈ r.sections defs, c.Posted) →
      ledgerStep defs host.order s.ledger (.request r) =
        some ⟨s.books, (s.calls ++ [Call.enter host defs client r]).map Call.sections⟩ := by
    intro client r hposted
    unfold ledgerStep
    dsimp only
    rw [if_pos hposted, List.map_append, List.map_singleton, Call.enter, sections_goOn]
    rfl
  cases l with
  | startAll =>
    cases h
    refine ⟨nofun, fun b hb => ?_⟩
    cases hb
    refine henter none _ fun c hc => ?_
    obtain ⟨name, -, rfl⟩ := List.mem_map.1 hc
    trivial
  | stopAll =>
    cases h
    refine ⟨nofun, fun b hb => ?_⟩
    cases hb
    refine henter none _ fun c hc => ?_
    obtain ⟨name, -, rfl⟩ := List.mem_map.1 hc
    trivial
  | accept http =>
    cases h
    cases hhandle : http.handle host with
    | call r =>
      simp only [Label.toLedger, Server.accept, hhandle]
      refine ⟨nofun, fun b hb => ?_⟩
      cases hb
      exact henter _ r (handle_posted hhandle)
    | indexPage =>
      simp only [Label.toLedger, Server.accept, hhandle]
      exact ⟨fun _ => rfl, nofun⟩
    | respond response =>
      simp only [Label.toLedger, Server.accept, hhandle]
      exact ⟨fun _ => rfl, nofun⟩
  | run i answer =>
    refine ⟨nofun, fun b hb => ?_⟩
    cases hb
    obtain ⟨call, work, c, hcall, hstage, hc, -, rfl⟩ := step_run h
    have hthread : s.ledger.threads[i]? = some (c :: work.rest.tail) := by
      have hsections : call.sections = work.rest := by
        unfold Call.sections
        rw [hstage]
      refine (List.getElem?_map ..).trans ((congrArg (Option.map Call.sections) hcall).trans ?_)
      rw [Option.map_some, hsections, List.cons_head?_tail hc]
    unfold ledgerStep
    dsimp only
    rw [hthread]
    dsimp only
    rw [exec_eq, Server.ran, Server.ledger, Server.ledger, List.map_set, sections_after]
  | readIndexPage i result =>
    obtain ⟨other, -, -, rfl⟩ := step_readIndexPage h
    exact ⟨fun _ => rfl, nofun⟩
  | send i raises =>
    obtain ⟨call, stage, hcall, hsend, rfl⟩ := step_send h
    refine ⟨fun _ => congrArg (Ledger.mk s.books) (map_set_of_eq hcall ?_), nofun⟩
    obtain ⟨response, hstage, ⟨-, rfl⟩ | ⟨e, -, -, rfl⟩⟩ := Stage.send_spec hsend
    · unfold Call.sections
      rw [hstage]
    · unfold Call.sections
      rw [hstage]
  | sendOther i raises =>
    obtain ⟨other, stage, -, -, rfl⟩ := step_sendOther h
    exact ⟨fun _ => rfl, nofun⟩
  | exit pid code =>
    obtain ⟨halive, -, rfl⟩ := step_exit h
    refine ⟨nofun, fun b hb => ?_⟩
    cases hb
    exact if_pos halive

/-- The dicts of the manager are kept well-formed along every run of the server. -/
theorem step_good (hs : s.ledger.Good) (h : step host defs s l = some t) : t.ledger.Good := by
  obtain ⟨hskip, hstep⟩ := step_ledger h
  cases hl : l.toLedger host with
  | none => exact hskip hl ▸ hs
  | some b => exact (Plumber.step_good hs (hstep b hl)).1

end PipeWorks.Plumber.Handler
