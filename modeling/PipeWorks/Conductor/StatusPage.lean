import PipeWorks.Conductor.StatusEvents
import PipeWorks.Lib.EvictingQueue
import PipeWorks.Lib.Notified

/-!
# The displayed status (`conductor/web/http_server.py`, `process_event_broker.py`, `index.js`)

A page of the conductor shows the status of every process.  It fetches the processes when it is
loaded, and again whenever an event comes through its status socket; the content of the event is
not used.  Between a change of the stored status and its display are

* `_setProcessStatus`, which publishes after it has released the lock (`StatusEvents`),
* `publishStatus`, which schedules the callback of a subscriber after it has released its own,
* the callback on the event loop, which throws the oldest event away when the queue is full,
* `processStatus`, which sends the events of the queue one by one, and the socket,
* `refreshProcesses`, whose answer `getProcesses` puts together from three reads of the status of
  each row, with other threads in between.

Nothing is replayed to a session that begins, and the page does not fetch again when its socket
comes back; so what is published while it is not subscribed must not matter to it.  `Undisturbed`
says this of a step, and that no older answer arrives after the latest one.

* `settled_page_shows_stored` — in a run of undisturbed steps, a page shows the stored status of
  every process it shows whenever nothing is under way;
* `missed_event_stays` — without a fetch after it, a missed event is never made up for.
-/

set_option autoImplicit false

namespace PipeWorks.Conductor.StatusPage

open StepSystem Supervisor

/-! ## Data -/

/-- A status event, as far as it says anything. -/
abbrev StatusEvent := String × ProcessStatus

/-- The states of a process: in a record of `getProcesses`, and on the page. -/
structure Card where
  name : String
  state : ProcessStatus
  inputState : ProcessStatus
  outputState : ProcessStatus
  deriving DecidableEq, Repr

/-- A call of `refreshProcesses`, with the request it has sent. -/
inductive Fetch where
  | requested
  /-- `getProcesses`, with the rows it has still to read, the complete records, and what it has
      read for the next one -/
  | reading (rows : List String) (records : List Card) (read : List ProcessStatus)
  deriving DecidableEq, Repr

/-- What belongs to the status socket of the page, from `subscribeStatus` on. -/
structure Session where
  /-- the calls of `publishStatus` that have still to schedule their callback -/
  publishing : List StatusEvent
  /-- the calls of `_putLatest` that the loop has still to run -/
  callbacks : List StatusEvent
  queue : EvictingQueue StatusEvent
  /-- what `processStatus` is sending -/
  sending : Option StatusEvent
  /-- the messages the page has still to handle -/
  messages : List StatusEvent

structure System where
  supervisor : Supervisor.State
  session : Option Session
  /-- in the order of the requests -/
  fetches : List Fetch
  displayed : List Card

inductive Label where
  | supervisor (l : Supervisor.Label)
  /-- the page has connected its socket -/
  | subscribeStatus
  | schedule (i : Nat)
  | putLatest
  | get
  | send
  | message
  /-- the connection breaks, or the server closes it -/
  | close
  /-- the page is loaded, or the user has saved or deleted a process -/
  | refreshProcesses
  | getAll (i : Nat)
  | getProcessStatus (i : Nat)
  /-- the answer of a request arrives -/
  | render (i : Nat)
  /-- a request fails, or what comes back is no list -/
  | fail (i : Nat)

/-! ## The code -/

/-- `max_queue_size`. -/
def maxQueueSize : Nat := 200

def Session.empty : Session := ⟨[], [], .empty, none, []⟩

/-- `publishStatus`, under the lock: the queue of the session is among the subscribers. -/
def Session.publishStatus (session : Session) (event : StatusEvent) : Session :=
  { session with publishing := session.publishing ++ [event] }

/-- The steps on the way from `publishStatus` to the socket. -/
def Session.step (session : Session) : Label → Option Session
  | .schedule i => session.publishing[i]?.map fun event =>
    { session with
      publishing := session.publishing.eraseIdx i, callbacks := session.callbacks ++ [event] }
  | .putLatest =>
    match session.callbacks with
    | [] => none
    | event :: callbacks =>
      some { session with
        callbacks := callbacks, queue := session.queue.putLatest maxQueueSize event }
  | .get =>
    match session.sending, session.queue.getNowait with
    | none, some (event, queue) => some { session with queue := queue, sending := some event }
    | _, _ => none
  | .send => session.sending.map fun event =>
    { session with sending := none, messages := session.messages ++ [event] }
  | _ => none

/-- `self._repository.getAll()` of `getProcesses`. -/
def Fetch.getAll (s : Supervisor.State) : Fetch → Option Fetch
  | .requested => some (.reading (s.repository.getAll.map fun row => row.id) [] [])
  | .reading .. => none

/-- The next call of `_getProcessStatus` of `getProcesses`; the third one completes a record. -/
def Fetch.getProcessStatus (s : Supervisor.State) : Fetch → Option Fetch
  | .reading (id :: rows) records [] => some (.reading (id :: rows) records [s.status id])
  | .reading (id :: rows) records [state] =>
    some (.reading (id :: rows) records [state, s.status id])
  | .reading (id :: rows) records [state, inputState] =>
    some (.reading rows (records ++ [⟨id, state, inputState, s.status id⟩]) [])
  | _ => none

/-- What `getProcesses` returns. -/
def Fetch.answer : Fetch → Option (List Card)
  | .reading [] records [] => some records
  | _ => none

/-- `DOMContentLoaded` has still to come. -/
def System.init (now : Int) (repository : ProcessRepository) : System :=
  ⟨.init now repository, none, [], []⟩

/-- The event that reaches `publishStatus`. -/
def System.published? (s : System) (l : Supervisor.Label) : Option StatusEvent :=
  if s.supervisor.statusPublisher then s.supervisor.publishes? l else none

/-- `renderProcesses`, at the end of a call of `refreshProcesses`. -/
def System.renderProcesses (s : System) (i : Nat) (processes : List Card) : System :=
  { s with fetches := s.fetches.eraseIdx i, displayed := processes }

/-- A step; requests are served once the publishers have been set. -/
def step (s : System) : Label → Option System
  | .supervisor l => (Supervisor.step s.supervisor l).map fun t =>
    { s with
      supervisor := t
      session := match s.published? l with
        | some event => s.session.map fun session => session.publishStatus event
        | none => s.session }
  | .subscribeStatus =>
    if s.supervisor.statusPublisher && s.session.isNone then
      some { s with session := some .empty }
    else none
  | .message =>
    match s.session with
    | some { messages := _ :: messages, publishing, callbacks, queue, sending } =>
      some { s with
        session := some ⟨publishing, callbacks, queue, sending, messages⟩
        fetches := s.fetches ++ [.requested] }
    | _ => none
  | .close => s.session.map fun _ => { s with session := none }
  | .refreshProcesses => some { s with fetches := s.fetches ++ [.requested] }
  | .getAll i =>
    if s.supervisor.statusPublisher then
      (s.fetches[i]?.bind (Fetch.getAll s.supervisor)).map fun fetch =>
        { s with fetches := s.fetches.set i fetch }
    else none
  | .getProcessStatus i =>
    (s.fetches[i]?.bind (Fetch.getProcessStatus s.supervisor)).map fun fetch =>
      { s with fetches := s.fetches.set i fetch }
  | .render i => (s.fetches[i]?.bind Fetch.answer).map (s.renderProcesses i)
  | .fail i => s.fetches[i]?.map fun _ => s.renderProcesses i []
  | l => (s.session.bind fun session => session.step l).map fun session =>
    { s with session := some session }

/-! ## What is under way -/

/-- A call of `_setProcessStatus` is between its two sections. -/
def announcing (s : Supervisor.State) : Bool :=
  s.connections.any (fun conn => match conn.thread with
    | .publishing _ => true
    | _ => false) ||
  match s.monitor with
    | .publishing _ _ => true
    | _ => false

/-- An event is on its way to the page. -/
def Session.Delivers (session : Session) : Prop :=
  session.publishing ≠ [] ∨ session.callbacks ≠ [] ∨ session.queue.items ≠ [] ∨
    session.sending ≠ none ∨ session.messages ≠ []

instance (session : Session) : Decidable session.Delivers := by
  unfold Session.Delivers
  infer_instance

def System.Delivers (s : System) : Prop := ∃ session ∈ s.session, session.Delivers

instance (s : System) : Decidable s.Delivers :=
  inferInstanceAs (Decidable (∃ session ∈ s.session, session.Delivers))

/-- Nothing is under way. -/
structure System.Settled (s : System) : Prop where
  calls : announcing s.supervisor = false
  events : ¬ s.Delivers
  fetches : s.fetches = []

/-- What a card says of its process. -/
def Card.reads (card : Card) : List StatusEvent :=
  [(card.name, card.state), (card.name, card.inputState), (card.name, card.outputState)]

/-- What `getProcesses` has read so far. -/
def Fetch.reads : Fetch → List StatusEvent
  | .requested => []
  | .reading [] records _ => records.flatMap Card.reads
  | .reading (id :: _) records read => records.flatMap Card.reads ++ read.map (Prod.mk id)

/-- What the latest fetch has read so far; without one, what is displayed. -/
def System.latest (s : System) : List StatusEvent :=
  match s.fetches.getLast? with
  | some fetch => fetch.reads
  | none => s.displayed.flatMap Card.reads

/-- An event that the page does not hear of, or a lost one, comes before the latest fetch has read
anything, and the answer of the latest fetch is the last one to arrive. -/
def Undisturbed (s : System) : Label → Prop
  | .supervisor l => (s.supervisor.publishes? l).isSome →
    (s.supervisor.statusPublisher && s.session.isSome) ∨ s.latest = []
  | .close => ¬ s.Delivers ∨ s.latest = []
  | .render i | .fail i => i + 1 = s.fetches.length → i = 0
  | _ => True

instance : ∀ (s : System) (l : Label), Decidable (Undisturbed s l)
  | s, .supervisor l => inferInstanceAs (Decidable ((s.supervisor.publishes? l).isSome →
      (s.supervisor.statusPublisher && s.session.isSome) ∨ s.latest = []))
  | s, .close => inferInstanceAs (Decidable (¬ s.Delivers ∨ s.latest = []))
  | s, .render i => inferInstanceAs (Decidable (i + 1 = s.fetches.length → i = 0))
  | s, .fail i => inferInstanceAs (Decidable (i + 1 = s.fetches.length → i = 0))
  | _, .subscribeStatus => .isTrue trivial
  | _, .schedule _ => .isTrue trivial
  | _, .putLatest => .isTrue trivial
  | _, .get => .isTrue trivial
  | _, .send => .isTrue trivial
  | _, .message => .isTrue trivial
  | _, .refreshProcesses => .isTrue trivial
  | _, .getAll _ => .isTrue trivial
  | _, .getProcessStatus _ => .isTrue trivial

/-- A card says what is stored of its process. -/
def System.Shows (s : System) (card : Card) : Prop :=
  card.state = s.supervisor.status card.name ∧ card.inputState = s.supervisor.status card.name ∧
    card.outputState = s.supervisor.status card.name

def ShowsStored (s : System) : Prop := s.Settled → ∀ card ∈ s.displayed, s.Shows card

/-! ## The page as a copy of the stored status -/

section

variable {s t : System} {session session' : Session} {l : Label}

def System.copy (s : System) : Notified.Copy String ProcessStatus where
  stored := s.supervisor.status
  due := announcing s.supervisor = true ∨ s.Delivers
  readings := s.fetches.map Fetch.reads
  shown := s.displayed.flatMap Card.reads

theorem youngest_copy (s : System) : s.copy.youngest = s.latest := by
  unfold Notified.Copy.youngest System.latest System.copy
  rw [List.getLast?_map]
  cases s.fetches.getLast? <;> rfl

theorem announcing_iff (s : Supervisor.State) :
    announcing s = true ↔ ∃ processId, 0 < s.pending processId := by
  have hmonitor : ∀ m : MonitorPc, (match m with
      | .publishing _ _ => true
      | _ => false) = true ↔ ∃ p, m.announces p = true := by
    intro m
    cases m with
    | publishing p rest => simp
    | _ => simp [MonitorPc.announces]
  have hconnection : ∀ conn : Connection, (match conn.thread with
      | .publishing _ => true
      | _ => false) = true ↔ ∃ p, conn.announces p = true := by
    intro conn
    unfold Connection.announces
    cases conn.thread <;> simp
  unfold announcing State.pending
  rw [Bool.or_eq_true, List.any_eq_true, hmonitor]
  constructor
  · rintro (⟨conn, hconn, hthread⟩ | ⟨p, hp⟩)
    · obtain ⟨p, hp⟩ := (hconnection conn).mp hthread
      exact ⟨p, Nat.add_pos_left (List.countP_pos_iff.mpr ⟨conn, hconn, hp⟩) _⟩
    · exact ⟨p, by simp [hp]⟩
  · rintro ⟨p, hp⟩
    rcases Nat.add_pos_iff_pos_or_pos.mp hp with hcount | hone
    · obtain ⟨conn, hconn, hannounces⟩ := List.countP_pos_iff.mp hcount
      exact .inl ⟨conn, hconn, (hconnection conn).mpr ⟨p, hannounces⟩⟩
    · refine .inr ⟨p, ?_⟩
      by_contra hfalse
      rw [Bool.eq_false_of_not_eq_true hfalse] at hone
      exact absurd hone (Nat.lt_irrefl 0)

/-- A step on the way to the socket delivers. -/
theorem Session.step_delivers (hstep : session.step l = some session') : session'.Delivers := by
  unfold Session.step at hstep
  split at hstep
  · obtain ⟨event, -, rfl⟩ := Option.map_eq_some_iff.mp hstep
    exact .inr (.inl (by simp))
  · split at hstep <;> cases hstep
    exact .inr (.inr (.inl (by simp [EvictingQueue.putLatest])))
  · split at hstep <;> cases hstep
    exact .inr (.inr (.inr (.inl (by simp))))
  · obtain ⟨event, -, rfl⟩ := Option.map_eq_some_iff.mp hstep
    exact .inr (.inr (.inr (.inr (by simp))))
  · cases hstep

theorem Fetch.reads_getAll {fetch fetch' : Fetch} {sup : Supervisor.State}
    (h : fetch.getAll sup = some fetch') : fetch.reads = [] ∧ fetch'.reads = [] := by
  unfold Fetch.getAll at h
  split at h <;> cases h
  refine ⟨rfl, ?_⟩
  cases sup.repository.getAll.map fun row => row.id <;> rfl

/-- A call of `_getProcessStatus` reads what is stored. -/
theorem Fetch.reads_getProcessStatus {fetch fetch' : Fetch} {sup : Supervisor.State}
    (h : fetch.getProcessStatus sup = some fetch') :
    ∃ id, fetch'.reads = fetch.reads ++ [(id, sup.status id)] := by
  unfold Fetch.getProcessStatus at h
  split at h <;> cases h
  · rename_i id rows records
    exact ⟨id, by simp [Fetch.reads]⟩
  · rename_i id rows records state
    exact ⟨id, by simp [Fetch.reads]⟩
  · rename_i id rows records state inputState
    refine ⟨id, ?_⟩
    cases rows <;> simp [Fetch.reads, Card.reads]

theorem Fetch.reads_answer {fetch : Fetch} {records : List Card}
    (h : fetch.answer = some records) : records.flatMap Card.reads = fetch.reads := by
  unfold Fetch.answer at h
  split at h <;> cases h
  rfl

/-! ## Steps -/

theorem status_of_publishes {sup sup' : Supervisor.State} {l : Supervisor.Label}
    (hpublishes : (sup.publishes? l).isSome) (hstep : Supervisor.step sup l = some sup') :
    sup'.status = sup.status := by
  obtain ⟨event, hevent⟩ := Option.isSome_iff_exists.mp hpublishes
  unfold State.publishes? at hevent
  split at hevent
  · obtain ⟨conn, hconn, hthread⟩ := Option.bind_eq_some_iff.mp hevent
    simp only [Supervisor.step, hconn, Option.bind_some] at hstep
    split at hthread
    · rename_i status hpc
      cases status <;> simp only [receiveStep, hpc, Option.some.injEq] at hstep <;>
        rw [← hstep, publish_frame] <;> rfl
    · cases hthread
  · split at hevent
    · rename_i hmonitor
      simp only [Supervisor.step, monitorStep, hmonitor, Option.some.injEq] at hstep
      rw [← hstep, publish_frame]
      rfl
    · cases hevent
  · cases hevent

/-- A step of the supervisor changes what is stored and announces it, publishes to the session, or
is not heard. -/
theorem supervisor_operates {sup : Supervisor.State} {l : Supervisor.Label}
    (halone : Alone s.supervisor) (hC : Undisturbed s (.supervisor l))
    (hsup : Supervisor.step s.supervisor l = some sup)
    (hstep : step s (.supervisor l) = some t) : Notified.Operates s.copy t.copy := by
  simp only [step, hsup, Option.map_some, Option.some.injEq] at hstep
  cases hpublishes : s.supervisor.publishes? l with
  | none =>
    have hsession : t.session = s.session := by
      rw [← hstep]
      simp [System.published?, hpublishes]
    have hdelivers : t.Delivers ↔ s.Delivers := by rw [System.Delivers, System.Delivers, hsession]
    have hkeeps : Keeps s.supervisor t.supervisor := by
      rw [← hstep]
      exact step_keeps halone hpublishes hsup
    have hcopy : t.copy = { s.copy with stored := t.supervisor.status, due := t.copy.due } := by
      rw [← hstep]
      rfl
    by_cases hpending : ∃ p, 0 < t.supervisor.pending p
    · have hdue : t.copy.due = True := eq_true (.inl ((announcing_iff _).mpr hpending))
      rw [hcopy, hdue]
      exact .changes ..
    · -- no call has begun, so no status has changed
      have hsame : ∀ p, t.supervisor.channel p = s.supervisor.channel p := by
        intro p
        rcases hkeeps p with hsame | ⟨status, -, hstore⟩
        · exact hsame
        · refine absurd ⟨p, ?_⟩ hpending
          have hcount := congrArg Channel.pending hstore
          show 0 < (t.supervisor.channel p).pending
          rw [hcount]
          exact Nat.succ_pos _
      have hstatus : t.supervisor.status = s.supervisor.status :=
        funext fun p => congrArg Channel.stored (hsame p)
      have hquiet : ¬ announcing s.supervisor = true := by
        rw [announcing_iff]
        rintro ⟨p, hp⟩
        refine hpending ⟨p, ?_⟩
        have hcount := congrArg Channel.pending (hsame p)
        show 0 < (t.supervisor.channel p).pending
        rw [hcount]
        exact hp
      rw [hcopy, hstatus]
      exact .relays _ fun hdue => hdue.elim (fun h => absurd h hquiet)
        fun h => .inr (hdelivers.mpr h)
  | some event =>
    have hisSome : (s.supervisor.publishes? l).isSome := by rw [hpublishes]; rfl
    have hcopy : t.copy = { s.copy with due := t.copy.due } := by
      rw [← hstep]
      unfold System.copy
      rw [status_of_publishes hisSome hsup]
    rw [hcopy]
    rcases hC hisSome with hlistens | hlatest
    · obtain ⟨hpublisher, hsession⟩ := Bool.and_eq_true_iff.mp hlistens
      obtain ⟨session, hsession⟩ := Option.isSome_iff_exists.mp hsession
      refine .relays _ fun _ => .inr ⟨session.publishStatus event, ?_, .inl ?_⟩
      · rw [← hstep]
        simp [System.published?, hpublisher, hpublishes, hsession]
      · simp [Session.publishStatus]
    · exact .misses _ _ (by rw [youngest_copy, hlatest])

theorem readings_set {i : Nat} {fetch : Fetch} (s : System) :
    (s.fetches.set i fetch).map Fetch.reads = s.copy.readings.set i fetch.reads :=
  List.map_set

theorem getElem?_readings {i : Nat} {fetch : Fetch} (hfetch : s.fetches[i]? = some fetch) :
    s.copy.readings[i]? = some fetch.reads := by
  show (s.fetches.map Fetch.reads)[i]? = _
  rw [List.getElem?_map, hfetch]
  rfl

/-- A fetch ends, with an answer or without. -/
theorem render_operates {i : Nat} {fetch : Fetch} {processes : List Card}
    (hfetch : s.fetches[i]? = some fetch) (hlast : i + 1 = s.fetches.length → i = 0)
    (hprocesses : ∀ o ∈ processes.flatMap Card.reads, o ∈ fetch.reads) :
    Notified.Operates s.copy (s.renderProcesses i processes).copy := by
  have hcopy : (s.renderProcesses i processes).copy =
      { s.copy with
        readings := s.copy.readings.eraseIdx i, shown := processes.flatMap Card.reads } := by
    unfold System.copy System.renderProcesses
    rw [List.eraseIdx_map]
    rfl
  have hlength : s.copy.readings.length = s.fetches.length := List.length_map _
  rw [hcopy]
  exact .shows _ (getElem?_readings hfetch) (fun h => hlast (by rw [h, hlength])) hprocesses

theorem begins_operates {session : Option Session} (s : System) :
    Notified.Operates s.copy
      { s with session := session, fetches := s.fetches ++ [.requested] : System }.copy := by
  have hcopy := Notified.Operates.begins s.copy
    { s with session := session, fetches := s.fetches ++ [.requested] : System }.copy.due
  convert hcopy using 1
  unfold System.copy
  rw [List.map_append]
  rfl

theorem step_operates (halone : Alone s.supervisor) (hC : Undisturbed s l)
    (hstep : step s l = some t) : Notified.Operates s.copy t.copy := by
  unfold step at hstep
  split at hstep
  case h_1 l =>
    obtain ⟨sup, hsup, -⟩ := Option.map_eq_some_iff.mp hstep
    exact supervisor_operates halone hC hsup hstep
  case h_2 =>
    split at hstep <;> cases hstep
    rename_i hnone
    have hsession : s.session = none := by simpa using (Bool.and_eq_true_iff.mp hnone).2
    refine .relays _ fun hdue => hdue.imp id ?_
    rintro ⟨session, hmem, -⟩
    rw [hsession] at hmem
    cases hmem
  case h_3 =>
    split at hstep <;> cases hstep
    exact begins_operates s
  case h_4 =>
    obtain ⟨session, hsession, rfl⟩ := Option.map_eq_some_iff.mp hstep
    rcases hC with hquiet | hlatest
    · exact .relays _ fun hdue => .inl (hdue.resolve_right hquiet)
    · exact .misses _ _ (by rw [youngest_copy, hlatest])
  case h_5 =>
    cases hstep
    exact begins_operates s
  case h_6 i =>
    split at hstep
    · obtain ⟨fetch', hget, rfl⟩ := Option.map_eq_some_iff.mp hstep
      obtain ⟨fetch, hfetch, hget⟩ := Option.bind_eq_some_iff.mp hget
      obtain ⟨hreads, hreads'⟩ := Fetch.reads_getAll hget
      obtain ⟨hi, hget⟩ := List.getElem?_eq_some_iff.mp (getElem?_readings hfetch)
      have hreadings : (s.fetches.set i fetch').map Fetch.reads = s.copy.readings := by
        rw [readings_set, hreads', ← hreads, ← hget, List.set_getElem_self]
      have hcopy : System.copy { s with fetches := s.fetches.set i fetch' } = s.copy := by
        unfold System.copy
        rw [hreadings]
        rfl
      rw [hcopy]
      exact .relays s.copy id
    · cases hstep
  case h_7 i =>
    obtain ⟨fetch', hget, rfl⟩ := Option.map_eq_some_iff.mp hstep
    obtain ⟨fetch, hfetch, hget⟩ := Option.bind_eq_some_iff.mp hget
    obtain ⟨id, hreads⟩ := Fetch.reads_getProcessStatus hget
    have hsees := Notified.Operates.sees s.copy (getElem?_readings hfetch) id
    rw [show s.copy.stored id = s.supervisor.status id from rfl, ← hreads, ← readings_set] at hsees
    exact hsees
  case h_8 i =>
    obtain ⟨processes, hrender, rfl⟩ := Option.map_eq_some_iff.mp hstep
    obtain ⟨fetch, hfetch, hanswer⟩ := Option.bind_eq_some_iff.mp hrender
    refine render_operates hfetch hC fun o ho => ?_
    rw [← Fetch.reads_answer hanswer]
    exact ho
  case h_9 i =>
    obtain ⟨fetch, hfetch, rfl⟩ := Option.map_eq_some_iff.mp hstep
    exact render_operates hfetch hC fun o ho => by cases ho
  case h_10 =>
    obtain ⟨session', hsession, rfl⟩ := Option.map_eq_some_iff.mp hstep
    obtain ⟨session, -, hsession⟩ := Option.bind_eq_some_iff.mp hsession
    exact .relays _ fun _ => .inr ⟨session', rfl, Session.step_delivers hsession⟩

/-- The supervisor of a page takes steps of its own. -/
theorem step_supervisor (hstep : step s l = some t) :
    t.supervisor = s.supervisor ∨ ∃ l, Supervisor.step s.supervisor l = some t.supervisor := by
  unfold step at hstep
  split at hstep
  case h_1 l =>
    obtain ⟨sup, hsup, rfl⟩ := Option.map_eq_some_iff.mp hstep
    exact .inr ⟨l, hsup⟩
  case h_2 => split at hstep <;> cases hstep; exact .inl rfl
  case h_3 => split at hstep <;> cases hstep; exact .inl rfl
  case h_5 => cases hstep; exact .inl rfl
  case h_6 =>
    split at hstep
    · obtain ⟨_, -, rfl⟩ := Option.map_eq_some_iff.mp hstep
      exact .inl rfl
    · cases hstep
  all_goals
    obtain ⟨_, -, rfl⟩ := Option.map_eq_some_iff.mp hstep
    exact .inl rfl

/-! ## Runs -/

structure Inv (s : System) : Prop where
  alone : Alone s.supervisor
  current : s.copy.Current

theorem inv_init (now : Int) (repository : ProcessRepository) : Inv (.init now repository) where
  alone := alone_init now repository
  current := Notified.current_of_youngest_eq_nil rfl

theorem step_inv (h : Inv s) (hC : Undisturbed s l) (hstep : step s l = some t) : Inv t where
  alone := by
    rcases step_supervisor hstep with hsame | ⟨l, hsup⟩
    · rw [hsame]
      exact h.alone
    · exact step_alone h.alone hsup
  current := (step_operates h.alone hC hstep).current h.current

theorem Inv.showsStored (h : Inv s) : ShowsStored s := by
  intro hsettled card hcard
  have hdue : ¬ s.copy.due := fun hdue =>
    hdue.elim (fun hcalls => by rw [hsettled.calls] at hcalls; cases hcalls) hsettled.events
  have hreadings : s.copy.readings = [] := by
    show s.fetches.map Fetch.reads = []
    rw [hsettled.fetches]
    rfl
  have hagrees := h.current.settled hdue hreadings
  have hreads : ∀ o ∈ card.reads, o.2 = s.supervisor.status o.1 := fun o ho =>
    hagrees o (List.mem_flatMap.mpr ⟨card, hcard, ho⟩)
  have hcard : ∀ status, (card.name, status) ∈ card.reads →
      status = s.supervisor.status card.name := fun status ho => hreads _ ho
  exact ⟨hcard _ (List.mem_cons_self ..), hcard _ (List.mem_cons_of_mem _ (List.mem_cons_self ..)),
    hcard _ (List.mem_cons_of_mem _ (List.mem_cons_of_mem _ (List.mem_cons_self ..)))⟩

end

/-- **A settled page is right.**  Whatever the threads of the supervisor, the event loop, the
socket and the page do in between, if the page hears of every change that its latest fetch has not
read, and no older answer arrives after the latest one, then whenever nothing is under way every
card it displays says the stored status of its process. -/
theorem settled_page_shows_stored (now : Int) (repository : ProcessRepository)
    (labels : List Label) (hC : StepsMeet step Undisturbed (.init now repository) labels) :
    Always step ShowsStored (.init now repository) labels :=
  always_of_stepsMeet (fun _ h => Inv.showsStored h) (fun _ _ _ h hC hstep => step_inv h hC hstep)
    (inv_init now repository) hC

/-- The constructor connects to the stream process, and the server starts. -/
def serveScript : List Label :=
  [.supervisor (.thread 0 .check), .supervisor (.thread 0 (.connect true)),
    .supervisor (.thread 0 .register), .supervisor (.thread 0 (.greet true)),
    .supervisor .setStatusPublisher]

/-- The first heartbeat. -/
def heartbeatScript : List Label :=
  [.supervisor (.receive 0 .heartbeat), .supervisor (.receive 0 .markRunning),
    .supervisor (.receive 0 .publish)]

/-- The answer of the only request. -/
def answerScript : List Label :=
  [.getAll 0, .getProcessStatus 0, .getProcessStatus 0, .getProcessStatus 0, .render 0]

/-- The page is loaded, and hears of the first heartbeat. -/
def pageScript : List Label :=
  serveScript ++ [.refreshProcesses, .subscribeStatus] ++ answerScript ++ heartbeatScript ++
    [.schedule 0, .putLatest, .get, .send, .message] ++ answerScript

theorem page_shows_running :
    Always step ShowsStored (.init 0 cameraTable) pageScript ∧
      ∃ t, run step (.init 0 cameraTable) pageScript = some t ∧ t.Settled ∧
        t.displayed = [⟨"camera", .running, .running, .running⟩] :=
  ⟨settled_page_shows_stored 0 cameraTable pageScript (by decide), _, rfl,
    ⟨rfl, by decide, rfl⟩, rfl⟩

/-- The heartbeat comes after the first answer and before the page has connected its socket. -/
def missScript : List Label :=
  serveScript ++ [.refreshProcesses] ++ answerScript ++ heartbeatScript ++ [.subscribeStatus]

/-- **A missed event is not made up for.** -/
theorem missed_event_stays :
    ∃ t, run step (.init 0 cameraTable) missScript = some t ∧ t.Settled ∧
      t.supervisor.status "camera" = .running ∧
      t.displayed = [⟨"camera", .stopped, .stopped, .stopped⟩] :=
  ⟨_, rfl, ⟨rfl, by decide, rfl⟩, rfl, rfl⟩

end PipeWorks.Conductor.StatusPage
