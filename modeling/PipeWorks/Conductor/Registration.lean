import PipeWorks.Conductor.Supervisor

/-!
# Registered connections (`conductor/process/supervisor.py`, `stream_connection.py`)

`open` starts the receive thread of a connection before `_openChild` has entered the connection
in `_children`, and sends `hello` through it after that.  The receive thread may see the end of
the stream in between.  If `_onClose` has then looked for the connection in `_children` already,
the connection is entered behind it and nothing takes it out any more; and `send` raises on a
closed connection, through `_openChild`.  `registration_iff` says that nothing else goes wrong.
-/

set_option autoImplicit false

namespace PipeWorks.Conductor.Supervisor

open StepSystem

variable {s t : State} {c i : Nat} {conn : Connection} {p : String}

/-! ## The property -/

/-- No connection whose `_onClose` has returned is a value of `_children`. -/
def Consistent (s : State) : Prop :=
  ∀ p c conn, s.children p = some c → s.connections[c]? = some conn → conn.thread ≠ .ended

/-- A step of one of the receive threads. -/
def receives (s : State) (r : Nat × ReceiveStep) : Option State := step s (.receive r.1 r.2)

/-- The table is consistent, however the receive threads go on. -/
def StaysConsistent (s : State) : Prop := ∀ t, Reaches receives s t → Consistent t

/-- A bound for the steps `_openChild` takes before it returns. -/
def OpenPc.left (caller : Caller) : OpenPc → Nat
  | .checking => caller.attempts + 4
  | .connecting attempts => attempts + 3
  | .registering _ => 2
  | .greeting _ => 1

/-- A step of `_openChild` returns `True` or `False`, or leaves fewer steps to take. -/
def OpenReturns (s : State) (l : Label) : Prop :=
  ∀ i e caller p pc t, l = .thread i e → s.threads[i]? = some (.openChild caller p pc) →
    step s l = some t →
    (∃ opened, t = s.openReturns i caller opened) ∨
      ∃ pc', t.threads[i]? = some (.openChild caller p pc') ∧ pc'.left caller < pc.left caller

/-! ## The condition -/

/-- `_onClose` is behind the section that removes the child. -/
def ReceivePc.hasRemoved : ReceivePc → Bool
  | .closed | .publishing .stopped | .ended => true
  | _ => false

/-- A connection is registered before its `_onClose` looks for it. -/
def RegistersInTime (s : State) : Label → Prop
  | .thread i .register =>
    ∀ caller p c conn, s.threads[i]? = some (.openChild caller p (.registering c)) →
      s.connections[c]? = some conn → conn.thread.hasRemoved = false
  | _ => True

/-- `hello` is sent through an open connection, and `send_bytes` raises nothing. -/
def GreetsInTime (s : State) : Label → Prop
  | .thread i (.greet sent) =>
    ∀ caller p c, s.threads[i]? = some (.openChild caller p (.greeting c)) →
      s.isOpen c = true ∧ sent = true
  | _ => True

def InTime (s : State) (l : Label) : Prop := GreetsInTime s l ∧ RegistersInTime s l

/-! ## The table -/

/-- Every registered connection is still to be looked for by its `_onClose`. -/
def Current (s : State) : Prop :=
  ∀ p c conn, s.children p = some c → s.connections[c]? = some conn →
    conn.thread.hasRemoved = false

theorem Current.consistent (h : Current s) : Consistent s := by
  intro p c conn hchild hconn hended
  have hcurrent := h p c conn hchild hconn
  rw [hended] at hcurrent
  cases hcurrent

/-- Behind the section that removes the child is only a thread that was there, or that removes. -/
theorem receiveStep_hasRemoved {e : ReceiveStep} (hstep : receiveStep s c conn e = some t) :
    ∃ conn', t.connections = s.connections.set c conn' ∧
      (conn'.thread.hasRemoved = true → conn.thread.hasRemoved = true ∨
        t.children conn.process ≠ some c) := by
  unfold receiveStep at hstep
  split at hstep
  · cases hstep
    exact ⟨_, rfl, nofun⟩
  · cases hstep
    refine ⟨_, rfl, ?_⟩
    dsimp only
    split <;> exact nofun
  · cases hstep
    exact ⟨_, rfl, nofun⟩
  · cases hstep
    split
    · exact ⟨_, rfl, fun _ => .inr (by simp [State.setConnection])⟩
    · rename_i hother
      exact ⟨_, rfl, fun _ => .inr hother⟩
  · rename_i hthread
    cases hstep
    exact ⟨_, rfl, fun _ => .inl (by rw [hthread]; rfl)⟩
  · cases hstep
    rw [publish_frame]
    exact ⟨_, rfl, nofun⟩
  · rename_i hthread
    cases hstep
    rw [publish_frame]
    exact ⟨_, rfl, fun _ => .inl (by rw [hthread]; rfl)⟩
  · cases hstep

theorem receiveStep_current {e : ReceiveStep} (hwired : Wired s) (h : Current s)
    (hconn : s.connections[c]? = some conn) (hstep : receiveStep s c conn e = some t) :
    Current t := by
  obtain ⟨_, hreceived⟩ := receiveStep_received hstep
  obtain ⟨conn', hconns, hremoved⟩ := receiveStep_hasRemoved hstep
  intro p c' conn'' hchild hconn''
  have hbefore := hreceived.children_of hchild
  rw [hconns, List.getElem?_set] at hconn''
  split at hconn''
  · rename_i heq
    subst heq
    rw [if_pos (List.getElem?_eq_some_iff.mp hconn).1] at hconn''
    cases hconn''
    -- the connection that has moved: it is registered for its own process only
    have hprocess : conn.process = p := by
      have hp := hwired.registered p c hbefore
      rw [State.processOf, hconn] at hp
      exact Option.some.inj hp
    by_contra hnot
    rcases hremoved (by simpa using hnot) with hold | hgone
    · rw [h p c conn hbefore hconn] at hold
      cases hold
    · exact hgone (hprocess ▸ hchild)
  · exact h p c' conn'' hbefore hconn''

theorem Threaded.current {thread : Thread} {e : ThreadStep} (hwired : Wired s) (h : Current s)
    (hthread : s.threads[i]? = some thread) (hintime : RegistersInTime s (.thread i e))
    (hstep : Threaded s i thread e t) : Current t := by
  cases hstep with
  | goOn e m next _ => exact h
  | connected caller q =>
    intro p c conn hchild hconn
    obtain ⟨conn', hconn', -⟩ := Option.map_eq_some_iff.mp (hwired.registered p c hchild)
    simp only [State.setThread,
      List.getElem?_append_left (List.getElem?_eq_some_iff.mp hconn').1] at hconn
    exact h p c conn hchild hconn
  | registered caller q c hregistering =>
    intro p c' conn hchild hconn
    simp only [State.setThread, Function.update_apply] at hchild
    split at hchild
    · cases hchild
      exact hintime caller q c conn (hregistering ▸ hthread) hconn
    · exact h p c' conn hchild hconn

theorem step_current {l : Label} (hwired : Wired s) (h : Current s) (hintime : RegistersInTime s l)
    (hstep : step s l = some t) : Current t := by
  cases step_stepped hstep with
  | received c e conn conn' t hconn hstep _ => exact receiveStep_current hwired h hconn hstep
  | monitored e t hstep =>
    obtain ⟨m, ⟨-, published, rfl⟩ | ⟨q, rest, -, -, rfl⟩⟩ := monitorStep_cases hstep <;> exact h
  | threaded i e thread t hthread hstep =>
    exact (threadStep_threaded hstep).current hwired h hthread hintime
  | served r _ =>
    obtain ⟨repository, thread, -, heq⟩ := serve_cases s r
    rw [heq]
    exact h
  | published _ => exact h
  | advanced d => exact h

/-- The receive threads alone keep the table current. -/
theorem Current.staysConsistent (hwired : Wired s) (h : Current s) : StaysConsistent s := by
  rintro t ⟨steps, hrun⟩
  have hkept : ∀ s r t, Wired s ∧ Current s → receives s r = some t → Wired t ∧ Current t :=
    fun s r t hs hstep =>
      ⟨step_wired hs.1 hstep, step_current (l := .receive r.1 r.2) hs.1 hs.2 trivial hstep⟩
  exact (run_invariant hkept ⟨hwired, h⟩ hrun).2.consistent

/-! ## A late registration -/

theorem receives_eq {e : ReceiveStep} (hconn : s.connections[c]? = some conn) :
    receives s (c, e) = receiveStep s c conn e := by
  simp [receives, step, hconn]

theorem getElem?_set_of_some {α : Type} {xs : List α} {x y : α} (h : xs[i]? = some x) :
    (xs.set i y)[i]? = some y :=
  List.getElem?_set_self (List.getElem?_eq_some_iff.mp h).1

theorem reaches_ended_of_publishing (hconn : s.connections[c]? = some conn)
    (hthread : conn.thread = .publishing .stopped) :
    ∃ t conn', Reaches receives s t ∧ t.children = s.children ∧
      t.connections[c]? = some conn' ∧ conn'.thread = .ended := by
  have hstep : receives s (c, .publish) = some
      ((s.publish conn.process .stopped).setConnection c { conn with thread := .ended }) := by
    rw [receives_eq hconn]
    simp only [receiveStep, hthread]
  rw [publish_frame] at hstep
  exact ⟨_, _, ⟨[_], run_cons_eq_some.mpr ⟨_, hstep, rfl⟩⟩, rfl,
    getElem?_set_of_some hconn, rfl⟩

/-- A receive thread behind that section ends without another look at the children. -/
theorem reaches_ended (hconn : s.connections[c]? = some conn)
    (hremoved : conn.thread.hasRemoved = true) :
    ∃ t conn', Reaches receives s t ∧ t.children = s.children ∧
      t.connections[c]? = some conn' ∧ conn'.thread = .ended := by
  cases hthread : conn.thread with
  | closed =>
    have hstep : receives s (c, .markStopped) = some
        ((s.setProcessStatus conn.process .stopped).setConnection c
          { conn with
            thread := if s.status conn.process = .stopped then .ended
              else .publishing .stopped }) := by
      rw [receives_eq hconn]
      simp only [receiveStep, hthread]
    by_cases hstatus : s.status conn.process = .stopped
    · rw [if_pos hstatus] at hstep
      exact ⟨_, _, ⟨[_], run_cons_eq_some.mpr ⟨_, hstep, rfl⟩⟩, rfl,
        getElem?_set_of_some hconn, rfl⟩
    · rw [if_neg hstatus] at hstep
      have hpublishing := getElem?_set_of_some hconn
        (y := { conn with thread := .publishing .stopped })
      obtain ⟨t, conn', ⟨steps, hrun⟩, hchildren, hconn', hended⟩ :=
        reaches_ended_of_publishing (s := (s.setProcessStatus conn.process .stopped).setConnection
          c { conn with thread := .publishing .stopped }) hpublishing rfl
      exact ⟨t, conn', ⟨_ :: steps, run_cons_eq_some.mpr ⟨_, hstep, hrun⟩⟩, hchildren, hconn',
        hended⟩
  | publishing status =>
    cases status with
    | running =>
      rw [hthread] at hremoved
      cases hremoved
    | stopped => exact reaches_ended_of_publishing hconn hthread
  | ended => exact ⟨s, conn, ⟨[], rfl⟩, rfl, hconn, hthread⟩
  | _ =>
    rw [hthread] at hremoved
    cases hremoved

/-- A connection that is registered too late stays registered when its thread has ended. -/
theorem step_not_staysConsistent {l : Label} (hlate : ¬ RegistersInTime s l)
    (hstep : step s l = some t) : ¬ StaysConsistent t := by
  cases l with
  | thread i e =>
    cases e with
    | register =>
      simp only [RegistersInTime, not_forall] at hlate
      obtain ⟨caller, p, c, conn, hthread, hconn, hremoved⟩ := hlate
      obtain ⟨thread, hthread', hstep⟩ := Option.bind_eq_some_iff.mp hstep
      rw [hthread] at hthread'
      cases hthread'
      cases hstep
      intro h
      obtain ⟨t, conn', hreaches, hchildren, hconn', hended⟩ :=
        reaches_ended (s := State.setThread
          { s with children := Function.update s.children p (some c) } i
          (.openChild caller p (.greeting c))) hconn (by simpa using hremoved)
      have hchild : t.children p = some c := by
        rw [hchildren]
        exact Function.update_self ..
      exact h t hreaches p c conn' hchild hconn' hended
    | _ => exact absurd trivial hlate
  | _ => exact absurd trivial hlate

/-! ## `_openChild` returns -/

theorem step_openChild {caller : Caller} {pc : OpenPc} {e : ThreadStep}
    (hthread : s.threads[i]? = some (.openChild caller p pc)) :
    step s (.thread i e) = openStep s i caller p pc e := by
  simp only [step, hthread, Option.bind_some, threadStep]

/-- `_openChild` raises where `send` does, and nowhere else. -/
theorem openStep_cases {thread : Thread} {caller : Caller} {pc : OpenPc} {e : ThreadStep}
    (hthread : s.threads[i]? = some thread) (hstep : openStep s i caller p pc e = some t) :
    ((∃ opened, t = s.openReturns i caller opened) ∨
      ∃ pc', t.threads[i]? = some (.openChild caller p pc') ∧ pc'.left caller < pc.left caller) ∨
    ∃ c, pc = .greeting c ∧ e = .greet false ∧ t = s.setThread i (.ended .raised) := by
  unfold openStep at hstep
  split at hstep
  · split at hstep <;> cases hstep
    · exact .inl (.inl ⟨true, rfl⟩)
    · exact .inl (.inr ⟨_, getElem?_set_of_some hthread, by simp [OpenPc.left]⟩)
  · cases hstep
    exact .inl (.inr ⟨_, getElem?_set_of_some hthread, by simp [OpenPc.left]⟩)
  · cases hstep
    exact .inl (.inl ⟨false, rfl⟩)
  · cases hstep
    exact .inl (.inr ⟨_, getElem?_set_of_some hthread, by simp [OpenPc.left]⟩)
  · cases hstep
    exact .inl (.inr ⟨_, getElem?_set_of_some hthread, by simp [OpenPc.left]⟩)
  · split at hstep <;> cases hstep
    exact .inl (.inl ⟨true, rfl⟩)
  · cases hstep
    exact .inr ⟨_, rfl, rfl, rfl⟩
  · cases hstep

theorem openReturns_ne_raised {thread : Thread} {caller : Caller} {opened : Bool}
    (hthread : s.threads[i]? = some thread) :
    (s.openReturns i caller opened).threads[i]? ≠ some (.ended .raised) := by
  cases caller with
  | init rest =>
    have hnext : (s.openReturns i (.init rest) opened).threads[i]? = some (openNext rest).2 :=
      getElem?_set_of_some hthread
    rw [hnext]
    cases rest <;> simp [openNext]
  | startProcess =>
    have hnext : (s.openReturns i .startProcess opened).threads[i]? =
        some (.ended (if opened then .returned else .timedOut)) := getElem?_set_of_some hthread
    rw [hnext]
    cases opened <;> simp

theorem openReturns_of_greetsInTime {l : Label} (hintime : GreetsInTime s l) : OpenReturns s l := by
  rintro i e caller p pc t rfl hthread hstep
  rw [step_openChild hthread] at hstep
  rcases openStep_cases hthread hstep with hreturns | ⟨c, rfl, rfl, -⟩
  · exact hreturns
  · cases (hintime caller p c hthread).2

/-- A greeting that fails raises. -/
theorem greetsInTime_of_openReturns {l : Label} (hstep : step s l = some t)
    (hreturns : OpenReturns s l) : GreetsInTime s l := by
  cases l with
  | thread i e =>
    cases e with
    | greet sent =>
      intro caller p c hthread
      have hgreet := hstep
      rw [step_openChild hthread] at hgreet
      cases sent with
      | true =>
        simp only [openStep] at hgreet
        split at hgreet
        · exact ⟨‹_›, rfl⟩
        · cases hgreet
      | false =>
        have hraised : t.threads[i]? = some (.ended .raised) := by
          cases hgreet
          exact getElem?_set_of_some hthread
        rcases hreturns i _ caller p _ t rfl hthread hstep with ⟨opened, rfl⟩ | ⟨pc', hnext, -⟩
        · exact absurd hraised (openReturns_ne_raised hthread)
        · rw [hraised] at hnext
          cases hnext
    | _ => trivial
  | _ => trivial

/-! ## Runs -/

theorem current_init (now : Int) (repository : ProcessRepository) :
    Current (State.init now repository) := by
  intro p c conn hchild
  cases hchild

/-- **Connection registration.**  Whatever the threads do, `_openChild` returns `True` or `False`,
    and no connection whose `_onClose` has returned is in `_children` or can come to be there by
    the steps of the receive threads, exactly when every connection is registered before its
    `_onClose` has looked for it and is greeted while it is open. -/
theorem registration_iff (now : Int) (repository : ProcessRepository) (labels : List Label) :
    (StepsMeet step OpenReturns (State.init now repository) labels ∧
        Always step StaysConsistent (State.init now repository) labels) ↔
      StepsMeet step InTime (State.init now repository) labels := by
  have hwithin : (StepsMeet step OpenReturns (State.init now repository) labels ∧
        Always step StaysConsistent (State.init now repository) labels) ↔
      StepsMeet step (fun s l => OpenReturns s l ∧ RegistersInTime s l)
        (State.init now repository) labels :=
    always_iff_stepsMeet_within (I := fun s => Wired s ∧ Current s)
      (fun s h => h.2.staysConsistent h.1)
      (fun s l t h _ hintime hstep =>
        ⟨step_wired h.1 hstep, step_current h.1 h.2 hintime hstep⟩)
      (fun s l t _ _ hlate hstep => step_not_staysConsistent hlate hstep)
      ⟨wired_init now repository, current_init now repository⟩
  rw [hwithin]
  apply stepsMeet_congr (I := fun _ => True) (fun _ _ _ _ _ => trivial) _ trivial
  intro s l t _ hstep
  exact and_congr_left fun _ => ⟨greetsInTime_of_openReturns hstep, openReturns_of_greetsInTime⟩

/-- The stream process hangs up as soon as the constructor has connected to it: `_onClose` comes
    before the registration. -/
def hangUpScript : List Label :=
  [.thread 0 .check, .thread 0 (.connect true), .receive 0 .hangUp, .receive 0 .remove,
    .receive 0 .markStopped, .thread 0 .register, .thread 0 (.greet false)]

/-- The connection stays in `_children`, and `hello` raises through the constructor. -/
theorem closed_connection_registered :
    ¬ StepsMeet step OpenReturns (State.init 0 cameraTable) hangUpScript ∧
      ¬ Always step Consistent (State.init 0 cameraTable) hangUpScript := by
  constructor
  · intro hreturns
    obtain ⟨-, hreturns⟩ := hreturns _ rfl
    obtain ⟨-, hreturns⟩ := hreturns _ rfl
    obtain ⟨-, hreturns⟩ := hreturns _ rfl
    obtain ⟨-, hreturns⟩ := hreturns _ rfl
    obtain ⟨-, hreturns⟩ := hreturns _ rfl
    obtain ⟨-, hreturns⟩ := hreturns _ rfl
    have hgreets := greetsInTime_of_openReturns rfl (hreturns _ rfl).1
    cases (hgreets _ "camera" 0 rfl).2
  · intro hconsistent
    have hend := always_iff_runs.mp hconsistent hangUpScript _ (List.prefix_refl _) rfl
    exact hend "camera" 0 _ rfl rfl rfl

end PipeWorks.Conductor.Supervisor
