import PipeWorks.Stream.Process

/-!
# The pipeline thread and the heartbeats (`receive.py`, `pipeline.py`, `_sendHeartbeats`)

The machine puts the main thread of `Process` beside two other threads: the pipeline thread, which
runs the generator `receive` and opens the source again and again, and the heartbeat thread, which
looks every second whether there is a connection and sends over it.  Neither of the two reads
anything of the other.

`heartbeats_iff`: whatever the threads do, a heartbeat says that the pipeline thread is alive
exactly in the runs in which the source fails in no way that ends `receive`.
`no_video_ends_pipeline` is a run in which a stream without video does.
-/

set_option autoImplicit false

namespace PipeWorks.Stream.Heartbeats

open StepSystem PipeWorks.Python

/-! ## The pipeline thread -/

/-- What comes after the `finally` clause of an attempt. -/
inductive After where
  | retries
  | returns
  | raises (e : PyError)
  deriving DecidableEq, Repr

inductive PipelinePc where
  /-- about to enter the loop of `receive` -/
  | starting
  /-- in `av.open` -/
  | opening
  /-- in the loop over `container.demux` -/
  | demuxing
  /-- in `container.close()` -/
  | closing (after : After)
  /-- in `stop_event.wait(3.0)` -/
  | waiting
  | terminated (raised : Option PyError)
  deriving DecidableEq, Repr

/-- What the source answers, and the thread going on by itself. -/
inductive PipelineEvent where
  | start
  | openRaises (e : PyError)
  | opens
  | packet
  | endOfStream
  | demuxRaises (e : PyError)
  | closes
  | closeRaises (e : PyError)
  | wake
  deriving DecidableEq, Repr

/-- `except (av.FFmpegError, OSError)`. -/
def caught (e : PyError) : Bool := e.caughtBy [.ffmpegError, .osError]

/-- The head of the `while` loop. -/
def loopHead (stopped : Bool) : PipelinePc := if stopped then .terminated none else .opening

/-- Behind the `try` statement. -/
def afterAttempt (stopped : Bool) : PipelinePc := if stopped then loopHead stopped else .waiting

/-- `Pipeline.run` over `receive`; `stopped` says whether the stop event of the pipeline is set.
When it is, the loop of one or the other ends at the next packet, and the generator with it. -/
def PipelinePc.next (stopped : Bool) : PipelinePc → PipelineEvent → Option PipelinePc
  | .starting, .start => some (loopHead stopped)
  | .opening, .openRaises e =>
    some (if caught e then afterAttempt stopped else .terminated (some e))
  | .opening, .opens => some .demuxing
  | .demuxing, .packet => some (if stopped then .closing .returns else .demuxing)
  | .demuxing, .endOfStream => some (.closing .retries)
  | .demuxing, .demuxRaises e => some (.closing (if caught e then .retries else .raises e))
  | .closing .retries, .closes => some (afterAttempt stopped)
  | .closing .returns, .closes => some (.terminated none)
  | .closing (.raises e), .closes => some (.terminated (some e))
  -- a generator that `break` has dropped is closed by the interpreter, which ignores `e`
  | .closing _, .closeRaises e => some (.terminated (some e))
  | .waiting, .wake => some (loopHead stopped)
  | _, _ => none

/-! ## The heartbeat thread -/

inductive HeartbeatPc where
  /-- in `_stop_event.wait(HEARTBEAT_INTERVAL_SECONDS)` -/
  | waiting
  /-- about to call `_getConnection` -/
  | looking
  /-- in `_sendMessage` -/
  | sending (connection : Nat)
  /-- about to call `_clearConnection` -/
  | clearing (connection : Nat)
  | ended (raised : Option PyError)
  deriving DecidableEq, Repr

inductive HeartbeatEvent where
  | wake
  | look
  | sendReturns
  | sendRaises (e : PyError)
  | clear
  deriving DecidableEq, Repr

/-! ## The process -/

structure State where
  main : Stream.State
  /-- `_connection` -/
  connection : Option Nat
  /-- how many connections there have been -/
  connections : Nat
  heartbeat : HeartbeatPc
  pipeline : PipelinePc

/-- The threads have been started, and the main thread waits for a connection. -/
def State.init : State := ⟨Stream.State.init, none, 0, .waiting, .starting⟩

inductive Label where
  | main (e : Stream.Event)
  | pipeline (e : PipelineEvent)
  | heartbeat (e : HeartbeatEvent)
  /-- `_clearConnection`, in the thread that sends logs -/
  | clear (connection : Nat)

/-- `_clearConnection`. -/
def State.clearConnection (s : State) (connection : Nat) : State :=
  if s.connection = some connection then { s with connection := none } else s

/-- `_setConnection` behind `accept`, and `_clearConnection` when the receive loop is left.  What is
cleared then is the connection of the main thread, or there is none. -/
def State.afterMain (s : State) (e : Stream.Event) (main : Stream.State) : State :=
  match main.pc, e with
  | .receiving, .accepted =>
    { s with main := main, connection := some s.connections, connections := s.connections + 1 }
  | .receiving, _ => { s with main := main }
  | _, .accepted =>
    { s with main := main, connection := none, connections := s.connections + 1 }
  | _, _ => { s with main := main, connection := none }

/-- A round of `_sendHeartbeats`. -/
def State.onHeartbeat (s : State) (e : HeartbeatEvent) : Option State :=
  match s.heartbeat, e with
  | .waiting, .wake =>
    some { s with heartbeat := if s.main.stopEvent then .ended none else .looking }
  | .looking, .look =>
    some { s with
      heartbeat := match s.connection with
        | none => .waiting
        | some connection => .sending connection }
  | .sending _, .sendReturns => some { s with heartbeat := .waiting }
  | .sending connection, .sendRaises e =>
    some { s with
      heartbeat := if e.caughtBy [.brokenPipeError, .eofError, .osError]
        then .clearing connection else .ended (some e) }
  | .clearing connection, .clear =>
    some { s.clearConnection connection with heartbeat := .waiting }
  | _, _ => none

def step (depth : Nat) (s : State) : Label → Option State
  | .main e => (Stream.step depth s.main e).map (s.afterMain e)
  | .pipeline e =>
    (s.pipeline.next s.main.pipelineStopped e).map fun pc => { s with pipeline := pc }
  | .heartbeat e => s.onHeartbeat e
  | .clear connection => some (s.clearConnection connection)

/-! ## What a heartbeat says -/

def PipelinePc.isTerminated : PipelinePc → Bool
  | .terminated _ => true
  | _ => false

/-- A heartbeat that is sent before a stop has been requested finds the pipeline thread alive. -/
def Truthful (s : State) : Label → Prop
  | .heartbeat .sendReturns => s.main.stopEvent = false → s.pipeline.isTerminated = false
  | _ => True

/-- The source raises. -/
def Label.fails : Label → Bool
  | .pipeline (.openRaises _) | .pipeline (.demuxRaises _) | .pipeline (.closeRaises _) => true
  | _ => false

/-- However the threads go on, if the source does not fail again, heartbeats stay truthful. -/
def StaysTruthful (depth : Nat) (s : State) : Prop :=
  ∀ more : List Label, (∀ a ∈ more, a.fails = false) → StepsMeet (step depth) Truthful s more

def HeartbeatPc.isEnded : HeartbeatPc → Bool
  | .ended _ => true
  | _ => false

/-- The source fails in no way that `receive` does not survive: opening and demuxing raise nothing
but what it catches, and closing nothing. -/
def PipelineEvent.survived : PipelineEvent → Prop
  | .openRaises e | .demuxRaises e => caught e = true
  | .closeRaises _ => False
  | _ => True

/-- After a stop has been requested, or without a heartbeat thread, the source may fail anyhow. -/
def Survived (s : State) (a : Label) : Prop :=
  s.main.stopEvent = true ∨ s.heartbeat.isEnded = true ∨ ∀ e, a = .pipeline e → e.survived

variable {depth : Nat} {s t : State} {a : Label}

/-! ## What a step leaves alone -/

@[simp] theorem clearConnection_main (s : State) (c : Nat) :
    (s.clearConnection c).main = s.main := by
  unfold State.clearConnection
  split <;> rfl

@[simp] theorem clearConnection_pipeline (s : State) (c : Nat) :
    (s.clearConnection c).pipeline = s.pipeline := by
  unfold State.clearConnection
  split <;> rfl

@[simp] theorem clearConnection_heartbeat (s : State) (c : Nat) :
    (s.clearConnection c).heartbeat = s.heartbeat := by
  unfold State.clearConnection
  split <;> rfl

theorem afterMain_frame (s : State) (e : Stream.Event) (main : Stream.State) :
    (s.afterMain e main).main = main ∧ (s.afterMain e main).pipeline = s.pipeline ∧
      (s.afterMain e main).heartbeat = s.heartbeat := by
  unfold State.afterMain
  split <;> exact ⟨rfl, rfl, rfl⟩

theorem onHeartbeat_frame {e : HeartbeatEvent} (h : s.onHeartbeat e = some t) :
    t.main = s.main ∧ t.pipeline = s.pipeline ∧
      (t.heartbeat.isEnded = false → s.heartbeat.isEnded = false) := by
  unfold State.onHeartbeat at h
  split at h <;> cases h <;> rename_i hpc <;>
    simp [hpc, HeartbeatPc.isEnded]

/-- **What a step can do**: each thread takes its own steps, and the stop event stays set. -/
theorem step_cases (hmain : Stream.Before s.main s.main) (h : step depth s a = some t) :
    Stream.Before s.main t.main ∧
      (t.heartbeat.isEnded = false → s.heartbeat.isEnded = false) ∧
      (t.pipeline = s.pipeline ∧ (∀ e, a ≠ .pipeline e) ∨
        ∃ e, a = .pipeline e ∧
          s.pipeline.next s.main.pipelineStopped e = some t.pipeline ∧ t.main = s.main) := by
  cases a with
  | main e =>
    obtain ⟨main, hstep, rfl⟩ := Option.map_eq_some_iff.1 h
    obtain ⟨heq, hpipeline, hheartbeat⟩ := afterMain_frame s e main
    rw [heq, hpipeline, hheartbeat, Stream.step_eq hstep]
    exact ⟨Stream.before_next hmain e, id, .inl ⟨rfl, fun _ => by simp⟩⟩
  | pipeline e =>
    obtain ⟨pc, hnext, rfl⟩ := Option.map_eq_some_iff.1 h
    exact ⟨hmain, id, .inr ⟨e, rfl, hnext, rfl⟩⟩
  | heartbeat e =>
    obtain ⟨hm, hpipeline, hended⟩ := onHeartbeat_frame h
    rw [hm, hpipeline]
    exact ⟨hmain, hended, .inl ⟨rfl, fun _ => by simp⟩⟩
  | clear c =>
    cases h
    rw [clearConnection_main, clearConnection_pipeline, clearConnection_heartbeat]
    exact ⟨hmain, id, .inl ⟨rfl, fun _ => by simp⟩⟩

/-! ## The pipeline thread survives -/

/-- The thread has not ended, and is not about to. -/
def PipelinePc.GoesOn : PipelinePc → Prop
  | .terminated _ | .closing .returns | .closing (.raises _) => False
  | _ => True

theorem isTerminated_of_goesOn {pc : PipelinePc} (h : pc.GoesOn) : pc.isTerminated = false := by
  cases pc <;> first | rfl | exact h.elim

theorem next_goesOn {pc pc' : PipelinePc} {e : PipelineEvent} (h : pc.GoesOn)
    (he : e.survived) (hnext : pc.next false e = some pc') : pc'.GoesOn := by
  unfold PipelinePc.next at hnext
  split at hnext <;> cases hnext
  case h_2 err =>
    have hcaught : caught err = true := he
    rw [if_pos hcaught]
    trivial
  case h_6 err =>
    have hcaught : caught err = true := he
    rw [if_pos hcaught]
    trivial
  all_goals first
    | exact trivial
    | exact h.elim
    | exact he.elim

/-- A failure that is not survived ends the thread, at the latest when the container is closed. -/
theorem next_not_survived {pc pc' : PipelinePc} {e : PipelineEvent} (he : ¬ e.survived)
    (hnext : pc.next false e = some pc') :
    pc'.isTerminated = true ∨ ∃ err, pc' = .closing (.raises err) := by
  unfold PipelinePc.next at hnext
  split at hnext <;> cases hnext
  case h_2 err =>
    have hcaught : ¬ caught err = true := he
    left
    rw [if_neg hcaught]
    rfl
  case h_6 err =>
    have hcaught : ¬ caught err = true := he
    right
    exact ⟨err, by rw [if_neg hcaught]⟩
  all_goals first
    | exact .inl rfl
    | exact absurd trivial he

/-- Before a stop `run` is in one of its loops, and as long as there is a heartbeat thread the
pipeline thread goes on. -/
structure Inv (s : State) : Prop where
  main : Stream.Before s.main s.main
  pipeline : s.main.stopEvent = false → s.heartbeat.isEnded = false → s.pipeline.GoesOn

theorem init_inv : Inv State.init := ⟨fun h => ⟨h, .inl rfl, rfl, rfl⟩, fun _ _ => trivial⟩

theorem Inv.preserved (h : Inv s) (hsurvived : Survived s a) (hstep : step depth s a = some t) :
    Inv t := by
  obtain ⟨hmain, hended, hpipeline⟩ := step_cases h.main hstep
  refine ⟨fun hstop => ⟨hstop, (hmain hstop).2⟩, fun hstop hheartbeat => ?_⟩
  have hbefore := (hmain hstop).1
  have hgoes := h.pipeline hbefore (hended hheartbeat)
  rcases hpipeline with ⟨heq, -⟩ | ⟨e, rfl, hnext, -⟩
  · rw [heq]
    exact hgoes
  · rw [(h.main hbefore).2.pipeline] at hnext
    have he : e.survived := by
      rcases hsurvived with hstopped | hnone | he
      · rw [hbefore] at hstopped
        cases hstopped
      · rw [hended hheartbeat] at hnone
        cases hnone
      · exact he e rfl
    exact next_goesOn hgoes he hnext

theorem Inv.truthful (h : Inv s) (hstep : step depth s a = some t) : Truthful s a := by
  unfold Truthful
  split
  · intro hstop
    refine isTerminated_of_goesOn (h.pipeline hstop ?_)
    cases hpc : s.heartbeat with
    | ended raised => simp [step, State.onHeartbeat, hpc] at hstep
    | _ => rfl
  · trivial

theorem survived_of_not_fails (h : a.fails = false) : Survived s a := by
  refine .inr (.inr fun e he => ?_)
  subst he
  cases e <;> first | exact trivial | cases h

theorem Inv.staysTruthful (h : Inv s) : StaysTruthful depth s := by
  intro more hmore
  refine StepsMeet.of_invariant (C := Survived) (fun s a t hs ha ht => hs.preserved ha ht)
    (fun s a t hs _ ht => hs.truthful ht) h ?_
  exact stepsMeet_of_forall_mem fun _ a ha => survived_of_not_fails (hmore a ha)

/-! ## The pipeline thread has ended -/

/-- The threads can go on, without a failure of the source, to a heartbeat that is not truthful. -/
def Misleads (depth : Nat) (s : State) : Prop := ¬ StaysTruthful depth s

theorem Misleads.of_step (hstep : step depth s a = some t) (ha : a.fails = false)
    (h : Misleads depth t) : Misleads depth s := by
  intro hs
  refine h fun more hmore => ?_
  have hall := hs (a :: more) fun b hb => by
    rcases List.mem_cons.1 hb with rfl | hb
    · exact ha
    · exact hmore b hb
  exact (hall t hstep).2

/-- The pipeline thread has ended before a stop, and `run` is in one of its loops. -/
structure Dead (s : State) : Prop where
  stopEvent : s.main.stopEvent = false
  loop : s.main.pc = .accepting ∨ s.main.pc = .receiving
  terminated : s.pipeline.isTerminated = true

theorem Dead.sending (h : Dead s) {c : Nat} (hpc : s.heartbeat = .sending c) :
    Misleads depth s := by
  intro hs
  have hstep : step depth s (.heartbeat .sendReturns) = some { s with heartbeat := .waiting } := by
    simp [step, State.onHeartbeat, hpc]
  have htruthful := (hs [.heartbeat .sendReturns] (by simp [Label.fails]) _ hstep).1
  have halive := htruthful h.stopEvent
  rw [h.terminated] at halive
  cases halive

theorem Dead.looking (h : Dead s) (hpc : s.heartbeat = .looking) {c : Nat}
    (hconnection : s.connection = some c) : Misleads depth s := by
  have hstep : step depth s (.heartbeat .look) = some { s with heartbeat := .sending c } := by
    simp [step, State.onHeartbeat, hpc, hconnection]
  refine Misleads.of_step hstep rfl (Dead.sending ?_ rfl)
  exact ⟨h.stopEvent, h.loop, h.terminated⟩

theorem Dead.waiting_connected (h : Dead s) (hpc : s.heartbeat = .waiting) {c : Nat}
    (hconnection : s.connection = some c) : Misleads depth s := by
  have hstep : step depth s (.heartbeat .wake) = some { s with heartbeat := .looking } := by
    simp [step, State.onHeartbeat, hpc, h.stopEvent]
  refine Misleads.of_step hstep rfl (Dead.looking ?_ rfl hconnection)
  exact ⟨h.stopEvent, h.loop, h.terminated⟩

/-- The supervisor connects. -/
theorem Dead.waiting_accepting (h : Dead s) (hpc : s.heartbeat = .waiting)
    (hloop : s.main.pc = .accepting) : Misleads depth s := by
  have hstep : step depth s (.main .accepted) =
      some { s with
        main := { s.main with pc := .receiving }
        connection := some s.connections
        connections := s.connections + 1 } := by
    simp [step, Stream.step, Stream.Event.pc, hloop, Stream.State.next, Stream.State.receiveLoop,
      h.stopEvent, State.afterMain]
  refine Misleads.of_step hstep rfl (Dead.waiting_connected ?_ hpc rfl)
  exact ⟨h.stopEvent, .inr rfl, h.terminated⟩

/-- A connection that a failed send has cleared ends, and the next one is accepted. -/
theorem Dead.waiting (h : Dead s) (hpc : s.heartbeat = .waiting) : Misleads depth s := by
  cases hconnection : s.connection with
  | some c => exact h.waiting_connected hpc hconnection
  | none =>
    rcases h.loop with hloop | hloop
    · exact h.waiting_accepting hpc hloop
    · have hstep : step depth s (.main (.recvRaises .eofError)) =
          some { s with main := { s.main with pc := .accepting }, connection := none } := by
        have hcaught : PyError.caughtBy .eofError [.eofError] = true := by decide
        simp [step, Stream.step, Stream.Event.pc, hloop, Stream.State.next,
          Stream.State.receiveRaised, hcaught, Stream.State.acceptLoop, h.stopEvent,
          State.afterMain]
      refine Misleads.of_step hstep rfl (Dead.waiting_accepting ?_ hpc rfl)
      exact ⟨h.stopEvent, .inl rfl, h.terminated⟩

/-- As long as there is a heartbeat thread, it misleads. -/
theorem Dead.misleads (h : Dead s) (hended : s.heartbeat.isEnded = false) : Misleads depth s := by
  cases hpc : s.heartbeat with
  | waiting => exact h.waiting hpc
  | sending c => exact h.sending hpc
  | looking =>
    cases hconnection : s.connection with
    | some c => exact h.looking hpc hconnection
    | none =>
      have hstep : step depth s (.heartbeat .look) = some { s with heartbeat := .waiting } := by
        simp [step, State.onHeartbeat, hpc, hconnection]
      refine Misleads.of_step hstep rfl (Dead.waiting ?_ rfl)
      exact ⟨h.stopEvent, h.loop, h.terminated⟩
  | clearing c =>
    have hstep : step depth s (.heartbeat .clear) =
        some { s.clearConnection c with heartbeat := .waiting } := by
      simp [step, State.onHeartbeat, hpc]
    refine Misleads.of_step hstep rfl (Dead.waiting ?_ rfl)
    exact ⟨by simpa using h.stopEvent, by simpa using h.loop, by simpa using h.terminated⟩
  | ended raised =>
    rw [hpc] at hended
    cases hended

/-- A failure that is not survived leaves a state that misleads. -/
theorem Inv.misleads (h : Inv s) (hfailed : ¬ Survived s a)
    (hstep : step depth s a = some t) :
    Misleads depth t := by
  obtain ⟨hstop, hrest⟩ := not_or.1 hfailed
  obtain ⟨hended, hevent⟩ := not_or.1 hrest
  rw [Bool.not_eq_true] at hstop hended
  obtain ⟨e, he⟩ := not_forall.1 hevent
  obtain ⟨rfl, hfails⟩ := Classical.not_imp.1 he
  obtain ⟨pc, hnext, rfl⟩ := Option.map_eq_some_iff.1 hstep
  have hrun := (h.main hstop).2
  rw [hrun.pipeline] at hnext
  rcases next_not_survived hfails hnext with hdead | ⟨err, rfl⟩
  · have hdead : Dead { s with pipeline := pc } := ⟨hstop, hrun.loop, hdead⟩
    exact hdead.misleads hended
  · have hcloses : step depth { s with pipeline := .closing (.raises err) } (.pipeline .closes) =
        some { s with pipeline := .terminated (some err) } := rfl
    have hdead : Dead { s with pipeline := .terminated (some err) } := ⟨hstop, hrun.loop, rfl⟩
    exact Misleads.of_step hcloses rfl (Dead.misleads hdead hended)

/-! ## Runs -/

/-- **A heartbeat says that the pipeline thread is alive**, and goes on to say so unless the source
fails again, in the runs in which the source fails in no way that ends `receive`, and in no
others. -/
theorem heartbeats_iff (depth : Nat) (script : List Label) :
    (StepsMeet (step depth) Truthful State.init script ∧
      Always (step depth) (StaysTruthful depth) State.init script) ↔
      StepsMeet (step depth) Survived State.init script := by
  have hrule : Always (step depth) (StaysTruthful depth) State.init script ↔
      StepsMeet (step depth) Survived State.init script :=
    always_iff_stepsMeet (fun _ h => h.staysTruthful) (fun _ _ _ h ha hstep => h.preserved ha hstep)
      (fun _ _ _ h ha hstep => h.misleads ha hstep) init_inv
  constructor
  · exact fun h => hrule.1 h.2
  · intro h
    refine ⟨?_, hrule.2 h⟩
    exact StepsMeet.of_invariant (fun s a t hs ha ht => hs.preserved ha ht)
      (fun s a t hs _ ht => hs.truthful ht) init_inv h

/-- A stream without video: `demux` raises `IndexError`. -/
def noVideo : List Label :=
  [.main .accepted, .pipeline .start, .pipeline .opens, .pipeline (.demuxRaises .indexError),
    .pipeline .closes, .heartbeat .wake, .heartbeat .look, .heartbeat .sendReturns]

/-- It ends the pipeline thread, and a heartbeat is sent. -/
theorem no_video_ends_pipeline : ¬ ∀ depth script,
    StepsMeet (step depth) Truthful State.init script := by
  intro h
  have htruthful := (((((((h 0 noVideo _ rfl).2 _ rfl).2 _ rfl).2 _ rfl).2 _ rfl).2 _ rfl).2 _
    rfl).2 _ rfl
  exact absurd (htruthful.1 rfl) (by decide)

end PipeWorks.Stream.Heartbeats
