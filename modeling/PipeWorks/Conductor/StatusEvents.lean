import Mathlib.Data.List.Chain
import PipeWorks.Conductor.Supervisor

/-!
# Published and stored status

`_setProcessStatus` replaces the stored status under the lock and calls the publisher after it has
released it, so that the calls of the receive threads and of the monitor may publish in another
order than they have stored.  Of one process, a subscriber sees a `Channel`: the stored status, the
number of calls that have yet to publish, and the events.

`eventsAgree_iff` says which orders of publication keep the events alternating and in agreement
with the stored status; `overtaken_disagrees` is a heartbeat that comes while the monitor is about
to publish that the process has stopped.
-/

set_option autoImplicit false

namespace PipeWorks.Conductor.Supervisor

open StepSystem

/-! ## One process -/

/-- The status of a process as it is stored and as it is published. -/
structure Channel where
  stored : ProcessStatus
  /-- the calls of `_setProcessStatus` between their two sections -/
  pending : Nat
  events : List ProcessStatus
  deriving DecidableEq, Repr

/-- The state of the last event; a process of which there is none counts as stopped. -/
def Channel.last (ch : Channel) : ProcessStatus := ch.events.getLast?.getD .stopped

/-- No event repeats the state before it. -/
def Channel.Alternates (ch : Channel) : Prop := List.IsChain (· ≠ ·) (.stopped :: ch.events)

/-- What a subscriber relies on. -/
structure Channel.Agrees (ch : Channel) : Prop where
  alternates : ch.Alternates
  last : ch.pending = 0 → ch.last = ch.stored

/-- The next event says what is stored, after an even number of changes that are still to be
published; after an odd number it says the opposite. -/
def Channel.InOrder (ch : Channel) (status : ProcessStatus) : Prop :=
  status = ch.stored ↔ ch.pending % 2 = 1

/-- The last event is what is stored if the changes since cancel out. -/
structure Channel.Even (ch : Channel) : Prop where
  alternates : ch.Alternates
  last : ch.last = ch.stored ↔ ch.pending % 2 = 0

/-- The section of a call that changes the status. -/
def Channel.store (ch : Channel) (status : ProcessStatus) : Channel :=
  { ch with stored := status, pending := ch.pending + 1 }

/-- The publication at the end of a call. -/
def Channel.publish (ch : Channel) (status : ProcessStatus) : Channel :=
  { ch with pending := ch.pending - 1, events := ch.events ++ [status] }

section

variable {ch : Channel} {status : ProcessStatus}

theorem eq_iff_of_ne {a b c : ProcessStatus} (h : a ≠ b) : c = a ↔ ¬ c = b := by
  cases a <;> cases b <;> cases c <;> simp_all

@[simp]
theorem Channel.last_publish : (ch.publish status).last = status := by
  simp [Channel.last, Channel.publish]

theorem Channel.alternates_publish :
    (ch.publish status).Alternates ↔ ch.Alternates ∧ ch.last ≠ status := by
  unfold Channel.Alternates Channel.publish
  rw [← List.cons_append, List.isChain_append]
  simp [Channel.last, List.getLast?_cons]

theorem Channel.Even.agrees (h : ch.Even) : ch.Agrees where
  alternates := h.alternates
  last := fun hpending => h.last.2 (by rw [hpending])

theorem Channel.Even.store (h : ch.Even) (hne : status ≠ ch.stored) : (ch.store status).Even where
  alternates := h.alternates
  last := by
    show ch.last = status ↔ (ch.pending + 1) % 2 = 0
    rw [eq_iff_of_ne hne, h.last]
    omega

theorem Channel.Even.publish (h : ch.Even) (hpending : 0 < ch.pending)
    (horder : ch.InOrder status) : (ch.publish status).Even where
  alternates := by
    refine Channel.alternates_publish.2 ⟨h.alternates, fun hlast => ?_⟩
    have hstored : status = ch.stored ↔ ch.pending % 2 = 0 := hlast ▸ h.last
    have := hstored.symm.trans horder
    omega
  last := by
    rw [Channel.last_publish]
    refine horder.trans ?_
    show ch.pending % 2 = 1 ↔ (ch.pending - 1) % 2 = 0
    omega

/-- An event out of order repeats the one before it. -/
theorem Channel.Even.not_agrees (h : ch.Even) (horder : ¬ ch.InOrder status) :
    ¬ (ch.publish status).Agrees := by
  intro hagrees
  have hne := (Channel.alternates_publish.1 hagrees.alternates).2
  have hstored : ch.stored = status ↔ ¬ ch.stored = ch.last := eq_iff_of_ne hne.symm
  apply horder
  show status = ch.stored ↔ ch.pending % 2 = 1
  rw [eq_comm, hstored, eq_comm, h.last]
  omega

end

/-! ## The channel of a process -/

/-- The receive thread is about to publish a change of this process. -/
def Connection.announces (conn : Connection) (processId : String) : Bool :=
  conn.process == processId && match conn.thread with
    | .publishing _ => true
    | _ => false

def MonitorPc.announces (m : MonitorPc) (processId : String) : Bool :=
  match m with
  | .publishing p _ => p == processId
  | _ => false

/-- The calls of `_setProcessStatus` for the process that are between their two sections. -/
def State.pending (s : State) (processId : String) : Nat :=
  s.connections.countP (·.announces processId) + (s.monitor.announces processId).toNat

def State.events (s : State) (processId : String) : List ProcessStatus :=
  s.published.filterMap fun event => if event.1 = processId then some event.2 else none

def State.channel (s : State) (processId : String) : Channel :=
  ⟨s.status processId, s.pending processId, s.events processId⟩

/-- What subscribers see of every process is alternating, and what is stored when no call is in
progress. -/
def EventsAgree (s : State) : Prop := ∀ processId, (s.channel processId).Agrees

/-- The event that the step publishes, if the publisher has been set. -/
def State.publishes? (s : State) : Label → Option (String × ProcessStatus)
  | .receive c .publish => s.connections[c]?.bind fun conn =>
    match conn.thread with
    | .publishing status => some (conn.process, status)
    | _ => none
  | .monitor .publish =>
    match s.monitor with
    | .publishing processId _ => some (processId, .stopped)
    | _ => none
  | _ => none

/-- An event is not dropped. -/
def Heard (s : State) (l : Label) : Prop :=
  (s.publishes? l).isSome = true → s.statusPublisher = true

def PublishesInOrder (s : State) (l : Label) : Prop :=
  ∀ processId status, s.publishes? l = some (processId, status) →
    (s.channel processId).InOrder status

/-! ## Steps of the channel -/

section

variable {s t : State} {c i : Nat} {conn conn' : Connection} {p q : String}
  {status : ProcessStatus} {thread next : Thread} {l : Label}

/-- A step other than a publication. -/
def Keeps (s t : State) : Prop :=
  ∀ q, t.channel q = s.channel q ∨
    ∃ status, status ≠ (s.channel q).stored ∧ t.channel q = (s.channel q).store status

theorem keeps_of_eq (hstatus : t.processStatuses = s.processStatuses)
    (hpending : ∀ q, t.pending q = s.pending q) (hpublished : t.published = s.published) :
    Keeps s t := by
  intro q
  left
  simp only [State.channel, State.status, State.events, hstatus, hpending, hpublished]

theorem status_setProcessStatus :
    (s.setProcessStatus p status).status q = if q = p then status else s.status q := by
  unfold State.setProcessStatus State.status
  by_cases h : q = p <;> simp [h]

theorem pending_setConnection (hconn : s.connections[c]? = some conn) (conn' : Connection)
    (q : String) :
    (s.setConnection c conn').pending q + (conn.announces q).toNat =
      s.pending q + (conn'.announces q).toNat := by
  obtain ⟨hc, hget⟩ := List.getElem?_eq_some_iff.1 hconn
  have hle : (conn.announces q).toNat ≤ s.connections.countP (·.announces q) := by
    cases hannounces : conn.announces q with
    | false => exact Nat.zero_le _
    | true => exact List.countP_pos_iff.2 ⟨conn, hget ▸ List.getElem_mem hc, hannounces⟩
  have hset := List.countP_set (p := (·.announces q)) (a := conn') hc
  rw [hget] at hset
  simp only [State.pending, State.setConnection, hset]
  cases hannounces : conn.announces q <;> cases hannounces' : conn'.announces q <;>
    simp only [hannounces, Bool.toNat_false, Bool.toNat_true, if_true, Bool.false_eq_true,
      if_false] at hle ⊢ <;>
    omega

theorem announces_publishing (hthread : conn.thread = .publishing status) :
    conn.announces q = (conn.process == q) := by
  simp [Connection.announces, hthread]

theorem announces_eq_false (hthread : ∀ v, conn.thread ≠ .publishing v) (q : String) :
    conn.announces q = false := by
  unfold Connection.announces
  cases hpc : conn.thread with
  | publishing v => exact absurd hpc (hthread v)
  | _ => simp

/-- A step of a receive thread that neither stores nor publishes. -/
theorem keeps_setConnection (hconn : s.connections[c]? = some conn)
    (hstatus : t.processStatuses = s.processStatuses) (hpublished : t.published = s.published)
    (hmonitor : t.monitor = s.monitor) (hconnections : t.connections = s.connections.set c conn')
    (hfrom : ∀ v, conn.thread ≠ .publishing v) (hto : ∀ v, conn'.thread ≠ .publishing v) :
    Keeps s t := by
  refine keeps_of_eq hstatus (fun q => ?_) hpublished
  have hset := pending_setConnection hconn conn' q
  rw [announces_eq_false hfrom, announces_eq_false hto] at hset
  have hpending : t.pending q = (s.setConnection c conn').pending q := by
    simp only [State.pending, State.setConnection, hconnections, hmonitor]
  rw [hpending]
  exact Nat.add_right_cancel hset

/-- The section of `_setProcessStatus`: the call goes on to publish if it has changed the
status. -/
theorem keeps_of_mark (hstatus : t.processStatuses = (s.setProcessStatus p status).processStatuses)
    (hpublished : t.published = s.published)
    (hpending : ∀ q, t.pending q =
      s.pending q + if s.status p ≠ status ∧ p = q then 1 else 0) : Keeps s t := by
  intro q
  have hread : t.status q = if q = p then status else s.status q := by
    rw [← status_setProcessStatus, State.status, State.status, hstatus]
  have hevents : t.events q = s.events q := by
    rw [State.events, State.events, hpublished]
  unfold State.channel
  rw [hread, hevents, hpending]
  by_cases hq : q = p
  · subst hq
    by_cases hsaved : s.status q = status
    · left
      simp [hsaved]
    · right
      exact ⟨status, Ne.symm hsaved, by simp [hsaved, Channel.store]⟩
  · left
    simp [hq, Ne.symm hq]

theorem keeps_mark (hconn : s.connections[c]? = some conn)
    (hfrom : ∀ v, conn.thread ≠ .publishing v) (hprocess : conn'.process = conn.process)
    (hsame : s.status conn.process = status → ∀ v, conn'.thread ≠ .publishing v)
    (hchange : s.status conn.process ≠ status → conn'.thread = .publishing status) :
    Keeps s ((s.setProcessStatus conn.process status).setConnection c conn') := by
  refine keeps_of_mark rfl rfl fun q => ?_
  have hset := pending_setConnection (s := s.setProcessStatus conn.process status) hconn conn' q
  rw [announces_eq_false hfrom, Bool.toNat_false, Nat.add_zero] at hset
  rw [hset]
  show s.pending q + _ = _
  by_cases hsaved : s.status conn.process = status
  · simp [announces_eq_false (hsame hsaved), hsaved]
  · rw [announces_publishing (hchange hsaved), hprocess]
    by_cases hq : conn.process = q
    · subst hq
      simp [hsaved]
    · simp [hq]

theorem keeps_receiveStep {e : ReceiveStep} (hconn : s.connections[c]? = some conn)
    (hquiet : s.publishes? (.receive c e) = none) (hstep : receiveStep s c conn e = some t) :
    Keeps s t := by
  unfold receiveStep at hstep
  split at hstep
  case h_1 hthread =>
    cases hstep
    exact keeps_setConnection hconn rfl rfl rfl rfl (by simp [hthread]) (by simp)
  case h_2 time hthread =>
    cases hstep
    refine keeps_mark hconn (by simp [hthread]) rfl (fun hstatus => ?_) fun hstatus => ?_
    · simp [hstatus]
    · simp [hstatus]
  case h_3 hthread =>
    cases hstep
    exact keeps_setConnection hconn rfl rfl rfl rfl (by simp [hthread]) (by simp)
  case h_4 hthread =>
    cases hstep
    split <;> exact keeps_setConnection hconn rfl rfl rfl rfl (by simp [hthread]) (by simp)
  case h_5 hthread =>
    cases hstep
    refine keeps_mark hconn (by simp [hthread]) rfl (fun hstatus => ?_) fun hstatus => ?_
    · simp [hstatus]
    · simp [hstatus]
  case h_6 hthread => simp [State.publishes?, hconn, hthread] at hquiet
  case h_7 hthread => simp [State.publishes?, hconn, hthread] at hquiet
  case h_8 => cases hstep

theorem monitor_announces_eq_false {m : MonitorPc} (hm : ∀ p rest, m ≠ .publishing p rest)
    (q : String) : m.announces q = false := by
  cases m with
  | publishing p rest => exact absurd rfl (hm p rest)
  | _ => rfl

@[simp]
theorem monitor_announces_publishing (p : String) (rest : List String) (q : String) :
    (MonitorPc.publishing p rest).announces q = (p == q) := rfl

theorem markNext_ne_publishing (rest : List String) (p : String) (rest' : List String) :
    markNext rest ≠ .publishing p rest' := by
  cases rest <;> simp [markNext]

/-- The monitor neither stores nor publishes. -/
theorem keeps_setMonitor {m : MonitorPc} (hfrom : ∀ p rest, s.monitor ≠ .publishing p rest)
    (hto : ∀ p rest, m ≠ .publishing p rest) : Keeps s { s with monitor := m } := by
  refine keeps_of_eq rfl (fun q => ?_) rfl
  simp [State.pending, monitor_announces_eq_false hfrom, monitor_announces_eq_false hto]

theorem keeps_monitorStep {e : MonitorStep} (hquiet : s.publishes? (.monitor e) = none)
    (hstep : monitorStep s e = some t) : Keeps s t := by
  unfold monitorStep at hstep
  split at hstep
  case h_1 hmonitor =>
    cases hstep
    exact keeps_setMonitor (by simp [hmonitor]) (by simp)
  case h_2 now hmonitor =>
    cases hstep
    exact keeps_setMonitor (by simp [hmonitor]) (markNext_ne_publishing _)
  case h_3 p rest hmonitor =>
    cases hstep
    refine keeps_of_mark rfl rfl fun q => ?_
    have hfrom : s.monitor.announces q = false :=
      monitor_announces_eq_false (by simp [hmonitor]) q
    by_cases hsaved : s.status p = .stopped
    · simp [State.pending, State.setProcessStatus, hfrom, hsaved,
        monitor_announces_eq_false (markNext_ne_publishing rest)]
    · by_cases hq : p = q
      · subst hq
        simp [State.pending, State.setProcessStatus, hfrom, hsaved]
      · simp [State.pending, State.setProcessStatus, hfrom, hsaved, hq]
  case h_4 p rest hmonitor => simp [State.publishes?, hmonitor] at hquiet
  case h_5 => cases hstep

theorem receiveStep_monitor {e : ReceiveStep} (hstep : receiveStep s c conn e = some t) :
    t.monitor = s.monitor := by
  unfold receiveStep at hstep
  split at hstep <;> cases hstep <;> first | rfl | split <;> rfl | rw [publish_frame]; rfl

/-! ## The constructor -/

def Thread.constructs : Thread → Bool
  | .openChild (.init _) _ _ => true
  | _ => false

/-- The constructor runs alone, and before the monitor. -/
def Alone (s : State) : Prop :=
  ∀ thread ∈ s.threads, thread.constructs = true → s.monitor = .absent ∧ s.threads = [thread]

/-- What a step of a thread does with the monitor. -/
structure Continues (s : State) (i : Nat) (thread : Thread) (t : State) (next : Thread) : Prop where
  threads : t.threads = s.threads.set i next
  request : thread.constructs = false → next.constructs = false ∧ t.monitor = s.monitor
  constructor : thread.constructs = true →
    t.monitor = s.monitor ∨ t.monitor = .absent ∨ (t.monitor = .sleeping ∧ next.constructs = false)

theorem openReturns_continues (s : State) (i : Nat) (caller : Caller) (processId : String)
    (pc : OpenPc) (opened : Bool) :
    ∃ next,
      Continues s i (.openChild caller processId pc) (s.openReturns i caller opened) next := by
  cases caller with
  | init rest =>
    cases rest with
    | nil => exact ⟨_, rfl, nofun, fun _ => .inr (.inr ⟨rfl, rfl⟩)⟩
    | cons p rest => exact ⟨_, rfl, nofun, fun _ => .inr (.inl rfl)⟩
  | startProcess => exact ⟨_, rfl, fun _ => ⟨rfl, rfl⟩, fun _ => .inl rfl⟩

theorem openStep_continues {caller : Caller} {pc : OpenPc} {e : ThreadStep}
    (hstep : openStep s i caller p pc e = some t) :
    ∃ next, Continues s i (.openChild caller p pc) t next := by
  have hsame : ∀ {s' : State} {pc' : OpenPc}, s'.monitor = s.monitor → s'.threads = s.threads →
      ∃ next, Continues s i (.openChild caller p pc)
        (s'.setThread i (.openChild caller p pc')) next := by
    intro s' pc' hmonitor hthreads
    refine ⟨.openChild caller p pc', by rw [State.setThread, hthreads],
      fun h => ⟨?_, hmonitor⟩, fun _ => .inl hmonitor⟩
    cases caller with
    | init rest => cases h
    | startProcess => rfl
  unfold openStep at hstep
  split at hstep
  · split at hstep <;> cases hstep
    · exact openReturns_continues ..
    · exact hsame rfl rfl
  · cases hstep
    exact hsame rfl rfl
  · cases hstep
    exact openReturns_continues ..
  · cases hstep
    exact hsame rfl rfl
  · cases hstep
    exact hsame rfl rfl
  · split at hstep <;> cases hstep
    exact openReturns_continues ..
  · cases hstep
    exact ⟨_, rfl, fun _ => ⟨rfl, rfl⟩, fun _ => .inl rfl⟩
  · cases hstep

theorem threadStep_continues {e : ThreadStep} (hstep : threadStep s i thread e = some t) :
    ∃ next, Continues s i thread t next := by
  have hsame : ∀ {next : Thread}, next.constructs = false →
      ∃ next', Continues s i thread (s.setThread i next) next' :=
    fun hnext => ⟨_, rfl, fun _ => ⟨hnext, rfl⟩, fun _ => .inl rfl⟩
  unfold threadStep at hstep
  split at hstep
  · exact openStep_continues hstep
  · cases hstep
    exact hsame rfl
  · cases hstep
    exact hsame rfl
  · cases hstep
    exact hsame rfl
  · cases hstep
    exact hsame rfl
  · cases hstep
    exact hsame rfl
  · cases hstep
    refine hsame ?_
    split <;> rfl
  · cases hstep
    refine hsame ?_
    split <;> rfl
  · split at hstep <;> cases hstep
    exact hsame rfl
  · cases hstep
    exact hsame rfl
  · cases hstep
    exact hsame rfl
  · cases hstep
    exact hsame rfl
  · cases hstep
    exact hsame rfl
  · cases hstep

theorem alone_init (now : Int) (repository : ProcessRepository) :
    Alone (State.init now repository) := by
  intro thread hthread hconstructs
  obtain rfl := List.mem_singleton.1 hthread
  refine ⟨?_, rfl⟩
  show (openNext _).1 = .absent
  cases hids : repository.getAll.map (·.id) with
  | nil =>
    simp only [hids, openNext] at hconstructs
    cases hconstructs
  | cons p rest => rfl

theorem Continues.alone (h : Alone s) (hthread : s.threads[i]? = some thread)
    (hc : Continues s i thread t next) : Alone t := by
  intro th hth hconstructs
  obtain ⟨hi, hget⟩ := List.getElem?_eq_some_iff.1 hthread
  have hmem : thread ∈ s.threads := hget ▸ List.getElem_mem hi
  cases hown : thread.constructs with
  | true =>
    obtain ⟨habsent, hone⟩ := h thread hmem hown
    have hi0 : i = 0 := by
      rw [hone] at hi
      exact Nat.lt_one_iff.1 hi
    have hthreads : t.threads = [next] := by rw [hc.threads, hone, hi0, List.set_cons_zero]
    rw [hthreads] at hth ⊢
    obtain rfl := List.mem_singleton.1 hth
    refine ⟨?_, rfl⟩
    rcases hc.constructor hown with hm | hm | ⟨-, hnext⟩
    · rw [hm, habsent]
    · exact hm
    · rw [hnext] at hconstructs
      cases hconstructs
  | false =>
    obtain ⟨hnext, hmonitor⟩ := hc.request hown
    rw [hc.threads] at hth
    rcases List.mem_or_eq_of_mem_set hth with hold | rfl
    · -- another thread constructs, so it is the only one
      have hone := (h th hold hconstructs).2
      rw [hone] at hmem
      rw [List.mem_singleton.1 hmem, hconstructs] at hown
      cases hown
    · rw [hnext] at hconstructs
      cases hconstructs

theorem step_alone (h : Alone s) (hstep : step s l = some t) : Alone t := by
  -- the other steps leave the threads alone, or are not taken before the monitor is there
  have hrequest : s.monitor ≠ .absent → ∀ thread ∈ s.threads, thread.constructs = false := by
    intro hmonitor thread hthread
    cases hc : thread.constructs with
    | false => rfl
    | true => exact absurd (h thread hthread hc).1 hmonitor
  cases step_stepped hstep with
  | received c e conn conn' t _ hstep hreceived =>
    unfold Alone
    rw [hreceived.threads, receiveStep_monitor hstep]
    exact h
  | monitored e t hstep =>
    have hpresent : s.monitor ≠ .absent := by
      intro habsent
      simp [monitorStep, habsent] at hstep
    have hthreads : t.threads = s.threads := by
      obtain ⟨m, ⟨-, published, rfl⟩ | ⟨p, rest, -, -, rfl⟩⟩ := monitorStep_cases hstep <;> rfl
    intro thread hthread hconstructs
    rw [hrequest hpresent thread (hthreads ▸ hthread)] at hconstructs
    cases hconstructs
  | threaded i e thread t hthread hstep =>
    obtain ⟨next, hc⟩ := threadStep_continues hstep
    exact hc.alone h hthread
  | served r hpresent =>
    obtain ⟨repository, thread, hbegins, heq⟩ := serve_begins s r
    rw [heq]
    intro th hth hconstructs
    have hnone : th.constructs = false := by
      rcases List.mem_append.1 hth with hold | hnew
      · exact hrequest hpresent th hold
      · rw [List.mem_singleton.1 hnew]
        cases thread <;> first | rfl | cases hbegins
    rw [hnone] at hconstructs
    cases hconstructs
  | published _ => exact h
  | advanced d => exact h

/-! ## Steps -/

/-- The constructor and the requests neither store nor publish a status. -/
theorem keeps_threadStep {e : ThreadStep} (h : Alone s) (hthread : s.threads[i]? = some thread)
    (hstep : threadStep s i thread e = some t) : Keeps s t := by
  have hmonitor : ∀ q, t.monitor.announces q = s.monitor.announces q := by
    intro q
    obtain ⟨next, hc⟩ := threadStep_continues hstep
    cases hown : thread.constructs with
    | false => rw [(hc.request hown).2]
    | true =>
      have habsent := (h thread (List.mem_of_getElem? hthread) hown).1
      rcases hc.constructor hown with hm | hm | ⟨hm, -⟩ <;> rw [hm]
      · rw [habsent]
      · rw [habsent]
        rfl
  have hstored := threadStep_threaded hstep
  cases hstored with
  | goOn e m next _ =>
    exact keeps_of_eq rfl (fun q => congrArg (_ + ·.toNat) (hmonitor q)) rfl
  | connected caller p =>
    refine keeps_of_eq rfl (fun q => ?_) rfl
    simp [State.pending, State.setThread, Connection.announces]
  | registered caller p c _ => exact keeps_of_eq rfl (fun _ => rfl) rfl

theorem step_keeps (h : Alone s) (hquiet : s.publishes? l = none) (hstep : step s l = some t) :
    Keeps s t := by
  cases step_stepped hstep with
  | received c e conn conn' t hconn hstep _ => exact keeps_receiveStep hconn hquiet hstep
  | monitored e t hstep => exact keeps_monitorStep hquiet hstep
  | threaded i e thread t hthread hstep => exact keeps_threadStep h hthread hstep
  | served r _ =>
    obtain ⟨repository, thread, -, heq⟩ := serve_begins s r
    rw [heq]
    exact keeps_of_eq rfl (fun _ => rfl) rfl
  | published _ => exact keeps_of_eq rfl (fun _ => rfl) rfl
  | advanced d => exact keeps_of_eq rfl (fun _ => rfl) rfl

/-- What a publication does to every channel. -/
structure Published (s t : State) (p : String) (status : ProcessStatus) : Prop where
  pending : 0 < s.pending p
  own : t.channel p = (s.channel p).publish status
  others : ∀ q, q ≠ p → t.channel q = s.channel q

theorem published_of_pending (hpublisher : s.statusPublisher = true)
    (hstatus : t.processStatuses = s.processStatuses)
    (hpublished : t.published = (s.publish p status).published)
    (hpending : ∀ q, t.pending q + (p == q).toNat = s.pending q) :
    Published s t p status := by
  have hevents : ∀ q, t.events q = if p = q then s.events q ++ [status] else s.events q := by
    intro q
    simp only [State.events, hpublished, State.publish, hpublisher, if_true,
      List.filterMap_append]
    by_cases hq : p = q <;> simp [hq]
  have hread : ∀ q, t.status q = s.status q := by
    intro q
    rw [State.status, State.status, hstatus]
  constructor
  · have := hpending p
    simp at this
    omega
  · have := hpending p
    simp only [beq_self_eq_true, Bool.toNat_true] at this
    simp only [State.channel, Channel.publish, hread, hevents, if_true]
    congr 1
    omega
  · intro q hq
    have hne : (p == q) = false := beq_eq_false_iff_ne.2 (Ne.symm hq)
    have := hpending q
    rw [hne] at this
    simp only [State.channel, hread, hevents, if_neg (Ne.symm hq)]
    congr 1

theorem publish_pending (s : State) (p : String) (status : ProcessStatus) (q : String) :
    (s.publish p status).pending q = s.pending q := by
  rw [publish_frame]
  rfl

theorem published_setConnection (hpublisher : s.statusPublisher = true)
    (hconn : s.connections[c]? = some conn) (hthread : conn.thread = .publishing status)
    (hto : ∀ v, conn'.thread ≠ .publishing v) :
    Published s ((s.publish conn.process status).setConnection c conn') conn.process status := by
  have hframe := publish_frame s conn.process status
  refine published_of_pending hpublisher ?_ rfl fun q => ?_
  · rw [hframe]
    rfl
  · have hconn' : (s.publish conn.process status).connections[c]? = some conn := by
      rw [hframe]
      exact hconn
    have hset := pending_setConnection hconn' conn' q
    rw [announces_publishing hthread, announces_eq_false hto, publish_pending] at hset
    exact hset

theorem published_setMonitor {rest : List String} {m : MonitorPc}
    (hpublisher : s.statusPublisher = true) (hmonitor : s.monitor = .publishing p rest)
    (hto : ∀ p rest, m ≠ .publishing p rest) :
    Published s { s.publish p .stopped with monitor := m } p .stopped := by
  refine published_of_pending hpublisher ?_ rfl fun q => ?_
  · rw [publish_frame]
  · rw [publish_frame]
    simp [State.pending, hmonitor, monitor_announces_eq_false hto]

theorem step_published (hheard : Heard s l) (hpublishes : s.publishes? l = some (p, status))
    (hstep : step s l = some t) : Published s t p status := by
  have hpublisher : s.statusPublisher = true := hheard (by rw [hpublishes]; rfl)
  unfold State.publishes? at hpublishes
  split at hpublishes
  · rename_i c
    obtain ⟨conn, hconn, hpublishes⟩ := Option.bind_eq_some_iff.1 hpublishes
    simp only [step, hconn, Option.bind_some] at hstep
    split at hpublishes <;> cases hpublishes
    rename_i hthread
    cases status <;> simp only [receiveStep, hthread, Option.some.injEq] at hstep <;>
      rw [← hstep] <;> exact published_setConnection hpublisher hconn hthread (by simp)
  · split at hpublishes <;> cases hpublishes
    rename_i rest hmonitor
    simp only [step, monitorStep, hmonitor, Option.some.injEq] at hstep
    rw [← hstep]
    exact published_setMonitor hpublisher hmonitor (markNext_ne_publishing rest)
  · cases hpublishes

/-! ## Runs -/

/-- The last event of every process is what is stored, if the changes since cancel out. -/
def Even (s : State) : Prop := ∀ p, (s.channel p).Even

theorem Even.eventsAgree (h : Even s) : EventsAgree s := fun p => (h p).agrees

theorem even_init (now : Int) (repository : ProcessRepository) :
    Even (State.init now repository) := by
  intro p
  have hmonitor : ∀ ids, (openNext ids).1.announces p = false := fun ids => by cases ids <;> rfl
  refine ⟨List.isChain_singleton _, ?_⟩
  simp [State.channel, State.init, State.pending, State.status, State.events, Channel.last,
    hmonitor]

theorem Even.keeps (h : Even s) (hkeeps : Keeps s t) : Even t := by
  intro p
  rcases hkeeps p with heq | ⟨status, hne, heq⟩
  · rw [heq]
    exact h p
  · rw [heq]
    exact (h p).store hne

theorem Even.published (h : Even s) (hpublished : Published s t p status)
    (horder : (s.channel p).InOrder status) : Even t := by
  intro q
  by_cases hq : q = p
  · rw [hq, hpublished.own]
    exact (h p).publish hpublished.pending horder
  · rw [hpublished.others q hq]
    exact h q

theorem step_even (halone : Alone s) (h : Even s) (hheard : Heard s l)
    (horder : PublishesInOrder s l) (hstep : step s l = some t) : Even t := by
  cases hpublishes : s.publishes? l with
  | none => exact h.keeps (step_keeps halone hpublishes hstep)
  | some event =>
    exact h.published (step_published hheard hpublishes hstep) (horder _ _ hpublishes)

/-- A subscriber sees an event that comes out of order. -/
theorem step_not_agree (h : Even s) (hheard : Heard s l) (horder : ¬ PublishesInOrder s l)
    (hstep : step s l = some t) : ¬ EventsAgree t := by
  simp only [PublishesInOrder, not_forall] at horder
  obtain ⟨p, status, hpublishes, hout⟩ := horder
  intro hagree
  have hown := hagree p
  rw [(step_published hheard hpublishes hstep).own] at hown
  exact (h p).not_agrees hout hown

end

/-- **When the events agree with the stored status** in a run that drops none: exactly when every
call publishes in order. -/
theorem eventsAgree_iff (now : Int) (repository : ProcessRepository) (labels : List Label) :
    (StepsMeet step Heard (State.init now repository) labels ∧
        Always step EventsAgree (State.init now repository) labels) ↔
      StepsMeet step (fun s l => Heard s l ∧ PublishesInOrder s l)
        (State.init now repository) labels :=
  always_iff_stepsMeet_within (I := fun s => Alone s ∧ Even s) (fun _ h => h.2.eventsAgree)
    (fun _ _ _ h hheard horder hstep =>
      ⟨step_alone h.1 hstep, step_even h.1 h.2 hheard horder hstep⟩)
    (fun _ _ _ h hheard horder hstep => step_not_agree h.2 hheard horder hstep)
    ⟨alone_init now repository, even_init now repository⟩

/-- The first heartbeat after a pause comes between the two sections in which the monitor marks
the process stopped and publishes it. -/
def overtakenScript : List Label :=
  [.thread 0 .check, .thread 0 (.connect true), .thread 0 .register, .thread 0 (.greet true),
    .setStatusPublisher, .receive 0 .heartbeat, .receive 0 .markRunning, .receive 0 .publish,
    .advance 4000000000, .monitor .wake, .monitor .scan, .monitor .mark,
    .receive 0 .heartbeat, .receive 0 .markRunning, .receive 0 .publish, .monitor .publish]

theorem overtaken_disagrees :
    ∃ t, run step (State.init 0 cameraTable) overtakenScript = some t ∧
      t.pending "camera" = 0 ∧ t.status "camera" = .running ∧
      t.events "camera" = [.running, .running, .stopped] ∧ ¬ EventsAgree t := by
  refine ⟨_, rfl, rfl, rfl, rfl, fun h => ?_⟩
  have hlast := (h "camera").last rfl
  exact absurd hlast (by decide)

end PipeWorks.Conductor.Supervisor
