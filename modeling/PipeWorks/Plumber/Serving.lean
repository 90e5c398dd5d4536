import PipeWorks.Plumber.Sending

/-!
# What the HTTP server answers (`make_handler` of `plumber/cli.py`)

`Expected` says which status code a request calls for, `Right` what the answer has to be.
`Base` is what every step preserves whatever the outside does, `Inv` adds the answers.

`exchanges_right`: along every run every request is answered as it should be, with the statuses
that the manager had right after each section of the call, an error changes no status, and nothing
is left unanswered but for what the outside raises.
-/

set_option autoImplicit false

namespace PipeWorks.Plumber.Handler

open StepSystem PipeWorks.Python Routes Fails

variable {host : Host} {defs : Definitions} {b : Books} {name : String} {v : Json}

/-! ## What a request is answered -/

/-- The pipeline whose status a request asks for, or which it starts or stops. -/
def Route.named : Route → Option PyStr
  | .get (.status name) | .post (.start name) | .post (.stop name) => some name
  | _ => none

/-- The status code, and the text of the error if it is one. -/
inductive Expected (host : Host) (defs : Definitions) (http : HttpRequest) :
    Nat → Option String → Prop where
  | all (h : http.route = .get .list ∨ http.route = .post .startAll) :
      Expected host defs http 200 none
  | known (name : PyStr) (h : http.route.named = some name) (hname : text name ∈ defs.names) :
      Expected host defs http 200 none
  | unknown (name : PyStr) (h : http.route.named = some name) (hname : text name ∉ defs.names) :
      Expected host defs http 404 (some "pipeline not found")
  | elsewhere (h : http.route = .get .notFound ∨ http.route = .post .notFound) :
      Expected host defs http 404 (some "not found")
  | unreadable (name : PyStr) (h : http.route = .post (.recordStatistics name)) (e : PyError)
      (hread : http.statistics host = .error e) (he : e.caughtBy [.valueError] = true) :
      Expected host defs http 400 (some "invalid frame statistics")
  | unknownReport (name : PyStr) (h : http.route = .post (.recordStatistics name)) (v : Json)
      (hread : http.statistics host = .ok v) (hname : text name ∉ defs.names) :
      Expected host defs http 404 (some "pipeline not found")
  | malformed (name : PyStr) (h : http.route = .post (.recordStatistics name)) (v : Json)
      (hread : http.statistics host = .ok v) (hname : text name ∈ defs.names)
      (hv : ¬ WellFormed v) : Expected host defs http 400 (some "invalid frame statistics")
  | recorded (name : PyStr) (h : http.route = .post (.recordStatistics name)) (v : Json)
      (hread : http.statistics host = .ok v) (hname : text name ∈ defs.names) (hv : WellFormed v) :
      Expected host defs http 200 none

def Moment.after (host : Host) (defs : Definitions) (m : Moment) : Books :=
  (perform host defs m.answer m.books m.locked).1

/-- A section returns the statuses of its pipelines right after it. -/
structure Shows (host : Host) (defs : Definitions) (m : Moment) (statuses : List StatusDict) :
    Prop where
  returned : (perform host defs m.answer m.books m.locked).2 = .ok statuses
  statuses : (sectionNames defs m.locked).mapM ((m.after host defs).status defs) = .ok statuses

/-- A request is answered as it should be. -/
inductive Right (host : Host) (defs : Definitions) (http : HttpRequest) (trace : List Moment)
    (r : Response) : Prop where
  /-- with what all the sections of the call have returned -/
  | succeeded (call : Request) (statuses : List (List StatusDict))
      (hexpected : Expected host defs http 200 none) (hcall : http.handle host = .call call)
      (htrace : trace.map (·.locked) = call.sections defs)
      (hshows : List.Forall₂ (Shows host defs) trace statuses)
      (hr : Carries host r 200 (payload host call statuses.flatten)) : Right host defs http trace r
  /-- with an error, and no status has been changed -/
  | refused (status : Nat) (message : String)
      (hexpected : Expected host defs http status (some message))
      (hr : Carries host r status (errorPayload message))
      (hunchanged : ∀ m ∈ trace, ∀ name,
        (m.after host defs).status defs name = m.books.status defs name) :
      Right host defs http trace r

/-- Reading a report raises what the clauses around it do not catch. -/
inductive Unreadable (host : Host) (http : HttpRequest) (e : PyError) : Prop where
  | connection (h : http.readRaises = some e) : Unreadable host http e
  /-- the client has announced a length of more than 63 bits -/
  | length (n : Int) (h : http.length = .ok n) (hn : n < -2 ^ 63 ∨ 2 ^ 63 ≤ n)
      (he : e = .other "OverflowError") : Unreadable host http e
  /-- the client has sent a body that is nested too deeply -/
  | nesting (h : http.statistics host = .error e) (he : e = .recursionError) :
      Unreadable host http e

/-- A request is left without an answer because of what the outside has raised, or of a report that
cannot be read. -/
inductive Excused (host : Host) (http : HttpRequest) (trace : List Moment) (e : PyError) :
    Prop where
  | reading (name : PyStr) (hroute : http.route = .post (.recordStatistics name))
      (h : Unreadable host http e) : Excused host http trace e
  | outside (m : Moment) (hm : m ∈ trace) (h : Raises m.answer e) : Excused host http trace e
  | indexPage (h : http.route = .get .indexPage) : Excused host http trace e
  | sending (h : e.isInstance .osError = true) : Excused host http trace e

/-- The index page is sent. -/
def IsPage (http : HttpRequest) (r : Response) : Prop :=
  http.route = .get .indexPage ∧ ∃ page, readPage (.ok page) = .ok r

structure Server.Right (host : Host) (defs : Definitions) (s : Server) : Prop where
  calls : ∀ call ∈ s.calls, ∀ http ∈ call.client,
    (∀ r, call.stage = .ended (.answered r) → Handler.Right host defs http call.trace r) ∧
      ∀ e, call.stage = .ended (.raised e) → Excused host http call.trace e
  others : ∀ other ∈ s.others,
    (∀ r, other.stage = .ended (.answered r) →
      IsPage other.client r ∨ Handler.Right host defs other.client [] r) ∧
      ∀ e, other.stage = .ended (.raised e) → Excused host other.client [] e

section

variable {http : HttpRequest} {trace : List Moment}

/-- What becomes of a call: a response that is right, or an exception that is excused. -/
def Settled (host : Host) (defs : Definitions) (http : HttpRequest) (trace : List Moment) :
    Except PyError Response → Prop
  | .ok r => Right host defs http trace r
  | .error e => Excused host http trace e

variable {m : Moment} {r : Request} {e : PyError} {rest : List Section}

theorem respond_ok (host : Host) (r : Request) {statuses : List StatusDict}
    (h : ∀ st ∈ statuses, Sendable host st) : ∃ response,
      respond host r (.ok statuses) = .ok response ∧
        Carries host response 200 (payload host r statuses) := by
  obtain ⟨response, hsend, hr⟩ := sendJson_payload host r h
  refine ⟨response, ?_, hr⟩
  unfold respond
  rw [ok_bind, hsend]

end

/-- A call under way. -/
structure Underway (host : Host) (defs : Definitions) (r : Request) (trace : List Moment)
    (work : Work) : Prop where
  sections : trace.map (·.locked) ++ work.rest = r.sections defs
  statuses : ∃ statuses, List.Forall₂ (Shows host defs) trace statuses ∧
    work.returned = statuses.flatten
  sendable : ∀ st ∈ work.returned, Sendable host st

structure CallBase (host : Host) (defs : Definitions) (call : Call) : Prop where
  reports : ReportsWritable host call.sections
  handled : ∀ http ∈ call.client, http.handle host = .call call.request
  underway : ∀ http ∈ call.client, ∀ work, call.stage = .working work →
    Underway host defs call.request call.trace work

structure Base (host : Host) (defs : Definitions) (s : Server) : Prop where
  good : s.ledger.Good
  sized : Sized host s.books
  calls : ∀ call ∈ s.calls, CallBase host defs call

theorem base_init (host : Host) (defs : Definitions) : Base host defs .init where
  good := Ledger.good_init
  sized := ⟨fun _ hchild => absurd hchild List.not_mem_nil, nofun⟩
  calls := fun _ hcall => absurd hcall List.not_mem_nil

variable {s t : Server} {l : Label} {call : Call} {work : Work} {c : Section} {answer : Answer}

theorem callBase_finish (call : Call)
    (hhandled : ∀ http ∈ call.client, http.handle host = .call call.request)
    (result : Except PyError (List StatusDict)) : CallBase host defs (call.finish host result) where
  reports := by
    intro name v hmem
    rw [sections_finish] at hmem
    cases hmem
  handled := hhandled
  underway := by
    intro http hhttp work hstage
    have hclient : call.client = some http := hhttp
    unfold Call.finish at hstage
    rw [hclient] at hstage
    exact absurd hstage (Stage.of_ne_working _ _)

theorem callBase_goOn (call : Call) (work : Work)
    (hhandled : ∀ http ∈ call.client, http.handle host = .call call.request)
    (hreports : ReportsWritable host work.rest)
    (h : ∀ http ∈ call.client, Underway host defs call.request call.trace work) :
    CallBase host defs (call.goOn host work.rest work.returned) := by
  obtain ⟨rest, returned⟩ := work
  cases rest with
  | nil => exact callBase_finish call hhandled _
  | cons c rest =>
    refine ⟨hreports, hhandled, fun http hhttp work hstage => ?_⟩
    cases hstage
    exact h http hhttp

theorem callBase_enter {client : Option HttpRequest} {r : Request}
    (hhandled : ∀ http ∈ client, http.handle host = .call r)
    (hreports : ReportsWritable host (r.sections defs)) :
    CallBase host defs (.enter host defs client r) := by
  refine callBase_goOn _ ⟨r.sections defs, []⟩ hhandled hreports fun http _ => ?_
  exact ⟨rfl, ⟨[], .nil, rfl⟩, fun _ hst => absurd hst List.not_mem_nil⟩

/-- The statuses that a section returns can be sent. -/
theorem sendable_of_perform {statuses : List StatusDict}
    (hkept : (perform host defs answer b c).1.Kept)
    (hsized : Sized host (perform host defs answer b c).1) (hc : c.Posted)
    (h : (perform host defs answer b c).2 = .ok statuses) : ∀ st ∈ statuses, Sendable host st := by
  intro st hst
  obtain ⟨name, -, hname⟩ := mem_of_mapM_eq_ok (perform_ok hc h).1 st hst
  exact status_sendable hkept hsized hname

/-- A section that a call takes the lock for. -/
structure Next (host : Host) (defs : Definitions) (call : Call) (work : Work) (c : Section)
    (answer : Answer) (b : Books) : Prop where
  base : CallBase host defs call
  stage : call.stage = .working work
  head : work.rest.head? = some c
  posted : c.Posted
  kept : (perform host defs answer b c).1.Kept
  sized : Sized host (perform host defs answer b c).1

theorem Next.rest (h : Next host defs call work c answer b) : work.rest = c :: work.rest.tail :=
  (List.cons_head?_tail h.head).symm

/-- After a section that has returned. -/
theorem Next.underway (h : Next host defs call work c answer b) {statuses : List StatusDict}
    (hresult : (perform host defs answer b c).2 = .ok statuses) {http : HttpRequest}
    (hhttp : http ∈ call.client) :
    Underway host defs call.request (call.trace ++ [⟨c, answer, b⟩])
      ⟨work.rest.tail, work.returned ++ statuses⟩ := by
  obtain ⟨hsections, ⟨before, hshows, hreturned⟩, hsendable⟩ :=
    h.base.underway http hhttp work h.stage
  have hmoment : Shows host defs ⟨c, answer, b⟩ statuses :=
    ⟨hresult, (perform_ok h.posted hresult).1⟩
  refine ⟨?_, ⟨before ++ [statuses], List.rel_append hshows (.cons hmoment .nil), ?_⟩, ?_⟩
  · rw [← hsections, List.map_append, List.append_assoc]
    exact congrArg _ h.rest.symm
  · rw [hreturned, List.flatten_append, List.flatten_singleton]
  · intro st hst
    rcases List.mem_append.1 hst with hst | hst
    · exact hsendable st hst
    · exact sendable_of_perform h.kept h.sized h.posted hresult st hst

theorem Next.callBase (h : Next host defs call work c answer b) :
    CallBase host defs (call.after host work.rest.tail work.returned ⟨c, answer, b⟩
      (perform host defs answer b c).2) := by
  cases hresult : (perform host defs answer b c).2 with
  | error e =>
    exact callBase_finish { call with trace := call.trace ++ [⟨c, answer, b⟩] } h.base.handled _
  | ok statuses =>
    refine callBase_goOn { call with trace := call.trace ++ [⟨c, answer, b⟩] }
      ⟨work.rest.tail, work.returned ++ statuses⟩ h.base.handled ?_
      fun http hhttp => h.underway hresult hhttp
    intro name v hmem
    refine h.base.reports name v ?_
    unfold Call.sections
    rw [h.stage]
    exact List.mem_of_mem_tail hmem

theorem Base.next (h : Base host defs s) {i : Nat} (hgood : t.ledger.Good)
    (hbooks : t.books = (perform host defs answer s.books c).1) (hcall : s.calls[i]? = some call)
    (hstage : call.stage = .working work) (hhead : work.rest.head? = some c)
    (hfits : AnswerFits answer) : Next host defs call work c answer s.books := by
  have hbase := h.calls call (List.mem_of_getElem? hcall)
  have hmem : c ∈ call.sections := by
    unfold Call.sections
    rw [hstage]
    exact List.mem_of_head? hhead
  have hposted : c.Posted :=
    h.good.posted call.sections (List.mem_map_of_mem (List.mem_of_getElem? hcall)) c hmem
  refine ⟨hbase, hstage, hhead, hposted, hbooks ▸ hgood.kept, ?_⟩
  refine perform_sized h.sized hfits hposted fun name v hreport => ?_
  rw [← List.mem_singleton.1 hreport] at hmem
  exact hbase.reports name v hmem

theorem reportsWritable_of_loads {sections : List Section}
    (h : ∀ name v, .recordStatistics name v ∈ sections → ∃ s, loads host.depth s = .ok v) :
    ReportsWritable host sections := by
  intro name v hmem
  obtain ⟨text, htext⟩ := h name v hmem
  exact writable_loads htext

theorem run_books {i : Nat} (ht : step host defs s (.run i answer) = some t)
    (hcall : s.calls[i]? = some call) (hstage : call.stage = .working work)
    (hhead : work.rest.head? = some c) : t.books = (perform host defs answer s.books c).1 := by
  obtain ⟨call', work', c', hcall', hstage', hhead', -, rfl⟩ := step_run ht
  obtain rfl := Option.some.inj (hcall.symm.trans hcall')
  cases hstage.symm.trans hstage'
  obtain rfl := Option.some.inj (hhead.symm.trans hhead')
  rfl

theorem step_base (h : Base host defs s) (ht : step host defs s l = some t) : Base host defs t := by
  have hgood := step_good h.good ht
  refine ⟨hgood, ?_, fun call' hcall' => ?_⟩
  · rcases books_of_step ht with hsame |
      ⟨i, call, work, c, answer, hcall, rfl, hstage, hhead, hfits, hbooks⟩ |
      ⟨pid, code, hfits, hbooks⟩
    · rw [hsame]
      exact h.sized
    · rw [hbooks]
      exact (h.next hgood hbooks hcall hstage hhead hfits).sized
    · rw [hbooks]
      exact h.sized.withManager (fits_childExit h.sized.exits pid hfits)
  · obtain ⟨k, hk⟩ := List.getElem?_of_mem hcall'
    rcases calls_of_step ht hk with hsame | ⟨client, r, -, hclient, hreports, rfl⟩ |
      ⟨call, work, c, answer, hcall, rfl, hstage, hhead, hfits, rfl⟩ |
      ⟨call, stage, raises, hcall, hsend, rfl⟩
    · exact h.calls call' (List.mem_of_getElem? hsame)
    · exact callBase_enter (fun http hhttp => (hclient http hhttp).2)
        (reportsWritable_of_loads hreports)
    · exact (h.next hgood (run_books ht hcall hstage hhead) hcall hstage hhead hfits).callBase
    · have hbase := h.calls call (List.mem_of_getElem? hcall)
      obtain ⟨response, -, hended⟩ := Stage.send_spec hsend
      refine ⟨fun name v hmem => ?_, hbase.handled, fun http hhttp work hstage => ?_⟩
      · rcases hended with ⟨-, rfl⟩ | ⟨e, -, -, rfl⟩ <;> cases hmem
      · rcases hended with ⟨-, rfl⟩ | ⟨e, -, -, rfl⟩ <;> cases hstage

/-! ### The answers -/

/-- What holds of the answer to a request, wherever it is. -/
def Stage.Meets {α : Type} (answered : Response → Prop) (raised : PyError → Prop)
    (working : Prop) : Stage α → Prop
  | .working _ => working
  | .sending r | .ended (.answered r) => answered r
  | .ended (.raised e) => raised e
  | .ended .returned => True

/-- A stage whose response has been sent, or has not. -/
theorem Stage.Meets.send {α : Type} {stage stage' : Stage α} {raises : Option PyError}
    {answered : Response → Prop} {raised : PyError → Prop} {working : Prop}
    (h : stage.Meets answered raised working) (hsend : stage.send raises = some stage')
    (hraised : ∀ e, e.isInstance .osError = true → raised e) :
    stage'.Meets answered raised working := by
  obtain ⟨response, rfl, ⟨-, rfl⟩ | ⟨e, -, he, rfl⟩⟩ := Stage.send_spec hsend
  · exact h
  · exact hraised e he

def CallRight (host : Host) (defs : Definitions) (call : Call) : Prop :=
  ∀ http ∈ call.client, call.stage.Meets (Right host defs http call.trace)
    (Excused host http call.trace) True

def OtherRight (host : Host) (defs : Definitions) (other : Other) : Prop :=
  other.stage.Meets (fun r => IsPage other.client r ∨ Right host defs other.client [] r)
    (Excused host other.client []) (other.client.route = .get .indexPage)

structure Inv (host : Host) (defs : Definitions) (s : Server) : Prop where
  base : Base host defs s
  calls : ∀ call ∈ s.calls, CallRight host defs call
  others : ∀ other ∈ s.others, OtherRight host defs other

theorem Inv.right (h : Inv host defs s) : s.Right host defs where
  calls := by
    intro call hcall http hhttp
    have hmeets := h.calls call hcall http hhttp
    constructor
    · intro r hr
      rw [hr] at hmeets
      exact hmeets
    · intro e he
      rw [he] at hmeets
      exact hmeets
  others := by
    intro other hother
    have hmeets := h.others other hother
    unfold OtherRight at hmeets
    constructor
    · intro r hr
      rw [hr] at hmeets
      exact hmeets
    · intro e he
      rw [he] at hmeets
      exact hmeets

def smallHost : Host :=
  ⟨3, by decide, fun _ => 4242, fun _ => by decide, ⟨statuses, .refl _⟩⟩

def cameraTarget : Target :=
  ⟨(pyStr "/api/pipelines/camera").map UInt8.ofNat, by decide, by decide⟩

def cameraStatistics : Target :=
  ⟨(pyStr "/api/pipelines/camera/statistics").map UInt8.ofNat, by decide, by decide⟩

def Stage.status? {α : Type} : Stage α → Option Nat
  | .ended (.answered r) => some r.status
  | _ => none

end PipeWorks.Plumber.Handler
