import PipeWorks.Lib.LatestPut
import PipeWorks.Lib.StepSystem

/-!
# Inference results on their way to the CPU (`nvidia_pipe/infer_queue.py`)

`InferenceResultQueue.submit` schedules a copy of a CUDA tensor on the copy stream of its device,
records the event `ready` behind it and hands both to the worker `_publish_ready`, which polls the
events of the results it has received and puts the results whose event has completed on
`cpu_queue`; `_consume_results` takes them from there.  `step` interleaves the thread that submits,
the copy stream, the worker and the consumer.

There is one device: its events complete in the order in which they have been recorded, at any
time.  Results are numbered as they are submitted, which one thread does.  Both queues are atomic
FIFOs.  Fields marked *history* are never read by the code.
-/

set_option autoImplicit false

namespace PipeWorks.NvidiaPipe.InferQueue

/-! ## Data -/

/-- The thread that calls `submit`. -/
inductive SubmitPc where
  | idle
  /-- about to schedule the copy and to record `ready` -/
  | scheduling
  /-- about to put the result into `_incoming` -/
  | handing (n : Nat)
  deriving DecidableEq, Repr

/-- In `_publish_ready`, with what is left of `self._pending` and with `still_pending`. -/
inductive WorkerPc where
  /-- not started yet -/
  | absent
  /-- at `while not self._stop.is_set()` -/
  | looping
  /-- in `self._wake.wait` -/
  | waiting
  /-- about to call `self._incoming.get_nowait` -/
  | draining
  /-- about to call `ready.query()` of the first one that is left -/
  | polling (todo still : List Nat)
  /-- in `_put_latest`, about to call `put_nowait` -/
  | putting (n : Nat) (todo still : List Nat)
  /-- about to call `get_nowait` -/
  | evicting (n : Nat) (todo still : List Nat)
  /-- about to call `put_nowait` again -/
  | replacing (n : Nat) (todo still : List Nat)
  | ended
  deriving DecidableEq, Repr

/-- In `_consume_results`. -/
inductive ConsumerPc where
  | looping
  /-- in `self.cpu_queue.get` -/
  | getting
  /-- in the consumer callback -/
  | consuming (n : Nat)
  | ended
  deriving DecidableEq, Repr

structure State where
  submitter : SubmitPc
  /-- how many `ready` events have been recorded, and how many of them have completed -/
  recorded : Nat
  completed : Nat
  /-- `_incoming` -/
  incoming : List Nat
  /-- `_pending` -/
  pending : List Nat
  worker : WorkerPc
  /-- `cpu_queue` -/
  cpuQueue : List Nat
  consumer : ConsumerPc
  /-- `_stop` -/
  stop : Bool
  /-- history: the results `_put_latest` has been called with -/
  offered : List Nat
  /-- history: the results that have been put on `cpu_queue` -/
  inserted : List Nat
  /-- history: the results the consumer has taken -/
  taken : List Nat
  /-- history: the results that `_put_latest` has thrown out -/
  evicted : List Nat
  /-- history: the results `_put_latest` has given up -/
  refused : List Nat
  /-- history: how many results had been thrown out when `_put_latest` was last called -/
  evictedBefore : Nat
  deriving DecidableEq, Repr

inductive SubmitStep where
  /-- `submit` is called with a CUDA tensor of the device -/
  | call
  | schedule
  /-- the copy cannot be scheduled -/
  | raises
  | hand
  deriving DecidableEq, Repr

inductive WorkerStep where
  | check
  /-- `wait` returns, and the flag is cleared -/
  | wake
  | drain
  | query
  /-- `query` raises, which ends the thread -/
  | queryRaises
  | put
  | evict
  | replace
  /-- `self._pending = still_pending` -/
  | endRound
  deriving DecidableEq, Repr

inductive ConsumerStep where
  | check
  | take
  /-- `get` times out -/
  | empty
  /-- the callback returns, or its exception is logged -/
  | consumed
  deriving DecidableEq, Repr

inductive Label where
  | submit (e : SubmitStep)
  /-- the copy stream completes the next event -/
  | complete
  | worker (e : WorkerStep)
  | consumer (e : ConsumerStep)
  /-- `close` sets `_stop` -/
  | close
  deriving DecidableEq, Repr

/-! ## The code -/

/-- There is room beside `n` results; `maxsize=0` means that the queue is unbounded. -/
def hasRoom (queueSize n : Nat) : Bool := queueSize == 0 || decide (n < queueSize)

/-- As many of `n` results as the queue has room for. -/
def fitting (queueSize n : Nat) : Nat := if queueSize = 0 then n else min n queueSize

/-- The threads at their start, with the first results still on `cpu_queue`. -/
def State.init (queueSize content : Nat) : State :=
  { submitter := .idle
    recorded := fitting queueSize content
    completed := fitting queueSize content
    incoming := []
    pending := []
    worker := .absent
    cpuQueue := List.range (fitting queueSize content)
    consumer := .looping
    stop := false
    offered := List.range (fitting queueSize content)
    inserted := List.range (fitting queueSize content)
    taken := []
    evicted := []
    refused := []
    evictedBefore := 0 }

/-- `submit`. -/
def submitStep (s : State) (e : SubmitStep) : Option State :=
  match s.submitter, e with
  | .idle, .call =>
    some { s with
      submitter := .scheduling
      worker := if s.worker = .absent then .looping else s.worker }
  | .scheduling, .schedule =>
    some { s with submitter := .handing s.recorded, recorded := s.recorded + 1 }
  | .scheduling, .raises => some { s with submitter := .idle }
  | .handing n, .hand => some { s with submitter := .idle, incoming := s.incoming ++ [n] }
  | _, _ => none

/-- `put_nowait` succeeds. -/
def State.insert (s : State) (n : Nat) (todo still : List Nat) : State :=
  { s with
    cpuQueue := s.cpuQueue ++ [n]
    inserted := s.inserted ++ [n]
    worker := .polling todo still }

/-- `except (queue.Empty, queue.Full): pass`. -/
def State.refuse (s : State) (n : Nat) (todo still : List Nat) : State :=
  { s with refused := s.refused ++ [n], worker := .polling todo still }

/-- `_publish_ready`, with `_put_latest`. -/
def workerStep (queueSize : Nat) (s : State) (e : WorkerStep) : Option State :=
  match s.worker, e with
  | .looping, .check => some { s with worker := if s.stop then .ended else .waiting }
  | .waiting, .wake => some { s with worker := .draining }
  | .draining, .drain =>
    match s.incoming with
    | [] => some { s with worker := .polling s.pending [] }
    | n :: rest => some { s with incoming := rest, pending := s.pending ++ [n] }
  | .polling (n :: todo) still, .query =>
    if n < s.completed then
      some { s with
        worker := .putting n todo still
        offered := s.offered ++ [n]
        evictedBefore := s.evicted.length }
    else some { s with worker := .polling todo (still ++ [n]) }
  | .polling (_ :: _) _, .queryRaises => some { s with worker := .ended }
  | .polling [] still, .endRound => some { s with pending := still, worker := .looping }
  | .putting n todo still, .put =>
    if hasRoom queueSize s.cpuQueue.length then some (s.insert n todo still)
    else some { s with worker := .evicting n todo still }
  | .evicting n todo still, .evict =>
    match s.cpuQueue with
    | [] => some (s.refuse n todo still)
    | oldest :: rest =>
      some { s with
        cpuQueue := rest
        evicted := s.evicted ++ [oldest]
        worker := .replacing n todo still }
  | .replacing n todo still, .replace =>
    if hasRoom queueSize s.cpuQueue.length then some (s.insert n todo still)
    else some (s.refuse n todo still)
  | _, _ => none

/-- `_consume_results`. -/
def consumerStep (s : State) (e : ConsumerStep) : Option State :=
  match s.consumer, e with
  | .looping, .check => some { s with consumer := if s.stop then .ended else .getting }
  | .getting, .take =>
    match s.cpuQueue with
    | [] => none
    | oldest :: rest =>
      some { s with cpuQueue := rest, taken := s.taken ++ [oldest], consumer := .consuming oldest }
  | .getting, .empty =>
    match s.cpuQueue with
    | [] => some { s with consumer := .looping }
    | _ :: _ => none
  | .consuming _, .consumed => some { s with consumer := .looping }
  | _, _ => none

def step (queueSize : Nat) (s : State) : Label → Option State
  | .submit e => submitStep s e
  | .complete =>
    if s.completed < s.recorded then some { s with completed := s.completed + 1 } else none
  | .worker e => workerStep queueSize s e
  | .consumer e => consumerStep s e
  | .close => some { s with stop := true }

/-! ## Results on their way -/

/-- The result that `submit` has still to hand over. -/
def State.handing (s : State) : List Nat :=
  match s.submitter with
  | .handing n => [n]
  | _ => []

/-- The results the worker holds and has still to publish, oldest first. -/
def State.carried (s : State) : List Nat :=
  match s.worker with
  | .polling todo still | .putting _ todo still | .evicting _ todo still
  | .replacing _ todo still => still ++ todo
  | .absent | .looping | .waiting | .draining => s.pending
  | .ended => []

/-- The result in `_put_latest`. -/
def State.putting (s : State) : List Nat :=
  match s.worker with
  | .putting n _ _ | .evicting n _ _ | .replacing n _ _ => [n]
  | _ => []

/-- The results that have been submitted, as far as they have not been lost with the worker. -/
def State.underway (s : State) : List Nat :=
  s.offered ++ s.carried ++ s.incoming ++ s.handing

/-! ## What a step of the worker does -/

variable {queueSize : Nat} {s t : State} {l : Label}

inductive Works (queueSize : Nat) (s : State) : WorkerStep → State → Prop where
  | check (hpc : s.worker = .looping) :
    Works queueSize s .check { s with worker := if s.stop then .ended else .waiting }
  | wake (hpc : s.worker = .waiting) : Works queueSize s .wake { s with worker := .draining }
  | drained (hpc : s.worker = .draining) (hincoming : s.incoming = []) :
    Works queueSize s .drain { s with worker := .polling s.pending [] }
  | drain (n : Nat) (rest : List Nat) (hpc : s.worker = .draining)
      (hincoming : s.incoming = n :: rest) :
    Works queueSize s .drain { s with incoming := rest, pending := s.pending ++ [n] }
  | publish (n : Nat) (todo still : List Nat) (hpc : s.worker = .polling (n :: todo) still)
      (hcomplete : n < s.completed) :
    Works queueSize s .query
      { s with
        worker := .putting n todo still
        offered := s.offered ++ [n]
        evictedBefore := s.evicted.length }
  | postpone (n : Nat) (todo still : List Nat) (hpc : s.worker = .polling (n :: todo) still) :
    Works queueSize s .query { s with worker := .polling todo (still ++ [n]) }
  | queryRaises (n : Nat) (todo still : List Nat) (hpc : s.worker = .polling (n :: todo) still) :
    Works queueSize s .queryRaises { s with worker := .ended }
  | endRound (still : List Nat) (hpc : s.worker = .polling [] still) :
    Works queueSize s .endRound { s with pending := still, worker := .looping }
  | put (n : Nat) (todo still : List Nat) (hpc : s.worker = .putting n todo still)
      (hroom : hasRoom queueSize s.cpuQueue.length = true) :
    Works queueSize s .put (s.insert n todo still)
  | full (n : Nat) (todo still : List Nat) (hpc : s.worker = .putting n todo still)
      (hfull : ¬ hasRoom queueSize s.cpuQueue.length = true) :
    Works queueSize s .put { s with worker := .evicting n todo still }
  | evictEmpty (n : Nat) (todo still : List Nat) (hpc : s.worker = .evicting n todo still)
      (hqueue : s.cpuQueue = []) : Works queueSize s .evict (s.refuse n todo still)
  | evict (n oldest : Nat) (todo still rest : List Nat) (hpc : s.worker = .evicting n todo still)
      (hqueue : s.cpuQueue = oldest :: rest) :
    Works queueSize s .evict
      { s with
        cpuQueue := rest
        evicted := s.evicted ++ [oldest]
        worker := .replacing n todo still }
  | replace (n : Nat) (todo still : List Nat) (hpc : s.worker = .replacing n todo still)
      (hroom : hasRoom queueSize s.cpuQueue.length = true) :
    Works queueSize s .replace (s.insert n todo still)
  | replaceFull (n : Nat) (todo still : List Nat) (hpc : s.worker = .replacing n todo still)
      (hfull : ¬ hasRoom queueSize s.cpuQueue.length = true) :
    Works queueSize s .replace (s.refuse n todo still)

theorem workerStep_works {e : WorkerStep} (hst : workerStep queueSize s e = some t) :
    Works queueSize s e t := by
  unfold workerStep at hst
  split at hst
  · cases hst
    exact .check ‹_›
  · cases hst
    exact .wake ‹_›
  · split at hst <;> cases hst
    · exact .drained ‹_› ‹_›
    · exact .drain _ _ ‹_› ‹_›
  · split at hst <;> cases hst
    · exact .publish _ _ _ ‹_› ‹_›
    · exact .postpone _ _ _ ‹_›
  · cases hst
    exact .queryRaises _ _ _ ‹_›
  · cases hst
    exact .endRound _ ‹_›
  · split at hst <;> cases hst
    · exact .put _ _ _ ‹_› ‹_›
    · exact .full _ _ _ ‹_› ‹_›
  · split at hst <;> cases hst
    · exact .evictEmpty _ _ _ ‹_› ‹_›
    · exact .evict _ _ _ _ _ ‹_› ‹_›
  · split at hst <;> cases hst
    · exact .replace _ _ _ ‹_› ‹_›
    · exact .replaceFull _ _ _ ‹_› ‹_›
  · cases hst

/-! ## What a step does to the results on their way -/

/-- A step that moves results along, or loses some. -/
theorem underway_sublist (hoffered : t.offered = s.offered)
    (hrest : (t.carried ++ t.incoming ++ t.handing).Sublist
      (s.carried ++ s.incoming ++ s.handing)) :
    t.underway.Sublist s.underway := by
  simp only [State.underway, hoffered, List.append_assoc] at hrest ⊢
  exact hrest.append_left s.offered

/-- The result of a query that has been answered yes moves to the offered ones. -/
structure Publishes (s : State) (n : Nat) (todo still : List Nat) (t : State) : Prop where
  worker : s.worker = .polling (n :: todo) still
  complete : n < s.completed
  eq : t = { s with
    worker := .putting n todo still
    offered := s.offered ++ [n]
    evictedBefore := s.evicted.length }

/-- **A step, for the results on their way**: a result is submitted, or published, or the others
    move along. -/
theorem step_flow (hst : step queueSize s l = some t) :
    (t.recorded = s.recorded + 1 ∧ t.underway = s.underway ++ [s.recorded]) ∨
    (t.recorded = s.recorded ∧ t.underway.Sublist s.underway) ∨
    l = .worker .query ∧ ∃ n todo still, Publishes s n todo still t := by
  cases l with
  | submit e =>
    simp only [step, submitStep] at hst
    split at hst <;> cases hst
    · refine Or.inr (Or.inl ⟨rfl, underway_sublist rfl ?_⟩)
      by_cases habsent : s.worker = .absent <;> simp [State.carried, State.handing, *]
    · rename_i hpc
      exact Or.inl ⟨rfl, by simp [State.underway, State.carried, State.handing, hpc]⟩
    · rename_i hpc
      exact Or.inr (Or.inl ⟨rfl, underway_sublist rfl
        (by simp [State.carried, State.handing, hpc])⟩)
    · rename_i n hpc
      exact Or.inr (Or.inl ⟨rfl, underway_sublist rfl
        (by simp [State.carried, State.handing, hpc])⟩)
  | complete =>
    simp only [step] at hst
    split at hst <;> cases hst
    exact Or.inr (Or.inl ⟨rfl, List.Sublist.refl _⟩)
  | consumer e =>
    simp only [step, consumerStep] at hst
    split at hst
    · cases hst
      exact Or.inr (Or.inl ⟨rfl, List.Sublist.refl _⟩)
    · split at hst <;> cases hst
      exact Or.inr (Or.inl ⟨rfl, List.Sublist.refl _⟩)
    · split at hst <;> cases hst
      exact Or.inr (Or.inl ⟨rfl, List.Sublist.refl _⟩)
    · cases hst
      exact Or.inr (Or.inl ⟨rfl, List.Sublist.refl _⟩)
    · cases hst
  | close =>
    cases hst
    exact Or.inr (Or.inl ⟨rfl, List.Sublist.refl _⟩)
  | worker e =>
    have hmoves : ∀ u : State, u.recorded = s.recorded → u.offered = s.offered →
        (u.carried ++ u.incoming ++ u.handing).Sublist (s.carried ++ s.incoming ++ s.handing) →
        (u.recorded = s.recorded + 1 ∧ u.underway = s.underway ++ [s.recorded]) ∨
          (u.recorded = s.recorded ∧ u.underway.Sublist s.underway) ∨
          Label.worker e = .worker .query ∧ ∃ n todo still, Publishes s n todo still u :=
      fun u hrecorded hoffered hrest => Or.inr (Or.inl ⟨hrecorded, underway_sublist hoffered hrest⟩)
    cases workerStep_works hst with
    | publish n todo still hpc hcomplete =>
      exact Or.inr (Or.inr ⟨rfl, n, todo, still, hpc, hcomplete, rfl⟩)
    | check hpc =>
      refine hmoves _ rfl rfl ?_
      cases hstop : s.stop <;> simp [State.carried, State.handing, hpc]
    | wake hpc => exact hmoves _ rfl rfl (by simp [State.carried, State.handing, hpc])
    | drained hpc hincoming =>
      exact hmoves _ rfl rfl (by simp [State.carried, State.handing, hpc])
    | drain n rest hpc hincoming =>
      exact hmoves _ rfl rfl (by simp [State.carried, State.handing, hpc, hincoming])
    | postpone n todo still hpc =>
      exact hmoves _ rfl rfl (by simp [State.carried, State.handing, hpc])
    | queryRaises n todo still hpc =>
      exact hmoves _ rfl rfl (by simp [State.carried, State.handing])
    | endRound still hpc => exact hmoves _ rfl rfl (by simp [State.carried, State.handing, hpc])
    | put n todo still hpc _ | replace n todo still hpc _ =>
      exact hmoves _ rfl rfl (by simp [State.carried, State.handing, State.insert, hpc])
    | full n todo still hpc _ | evict n oldest todo still rest hpc _ =>
      exact hmoves _ rfl rfl (by simp [State.carried, State.handing, hpc])
    | evictEmpty n todo still hpc _ | replaceFull n todo still hpc _ =>
      exact hmoves _ rfl rfl (by simp [State.carried, State.handing, State.refuse, hpc])

/-- The results on their way are distinct. -/
structure Distinct (s : State) : Prop where
  nodup : s.underway.Nodup
  recorded : ∀ n ∈ s.underway, n < s.recorded

theorem init_distinct (queueSize content : Nat) : Distinct (State.init queueSize content) := by
  have hunderway : (State.init queueSize content).underway =
      List.range (fitting queueSize content) := by
    simp [State.underway, State.carried, State.handing, State.init]
  refine ⟨?_, fun n hn => ?_⟩
  · rw [hunderway]
    exact List.nodup_range
  · rw [hunderway] at hn
    exact List.mem_range.mp hn

/-- A result that is published is none of those that have been. -/
theorem Publishes.new {n : Nat} {todo still : List Nat} (h : Distinct s)
    (hpublishes : Publishes s n todo still t) : n ∉ s.offered := by
  have hnodup := h.nodup
  simp only [State.underway, List.append_assoc] at hnodup
  have hdisjoint := List.disjoint_of_nodup_append hnodup
  refine fun hn => hdisjoint hn ?_
  simp [State.carried, hpublishes.worker]

theorem Publishes.perm {n : Nat} {todo still : List Nat}
    (hpublishes : Publishes s n todo still t) : t.underway.Perm s.underway := by
  rw [hpublishes.eq]
  simp only [State.underway, State.carried, State.handing, hpublishes.worker, List.append_assoc]
  refine List.Perm.append_left _ ?_
  have hmiddle : (still ++ n :: (todo ++ (s.incoming ++ s.handing))).Perm
      (n :: (still ++ (todo ++ (s.incoming ++ s.handing)))) := List.perm_middle
  simpa [State.handing] using hmiddle.symm

theorem step_distinct (h : Distinct s) (hst : step queueSize s l = some t) : Distinct t := by
  rcases step_flow hst with ⟨hrecorded, hflow⟩ | ⟨hrecorded, hflow⟩ |
    ⟨rfl, n, todo, still, hpublishes⟩
  · refine ⟨?_, fun n hn => ?_⟩
    · rw [hflow]
      refine List.Nodup.append h.nodup (List.nodup_singleton _) ?_
      simpa [List.disjoint_singleton] using fun hmem => Nat.lt_irrefl _ (h.recorded _ hmem)
    · rw [hflow] at hn
      rw [hrecorded]
      rcases List.mem_append.mp hn with hn | hn
      · exact Nat.lt_succ_of_lt (h.recorded n hn)
      · rw [List.mem_singleton.mp hn]
        exact Nat.lt_succ_self _
  · exact ⟨h.nodup.sublist hflow, fun n hn => hrecorded ▸ h.recorded n (hflow.subset hn)⟩
  · have hperm := hpublishes.perm
    have hrecorded : t.recorded = s.recorded := by rw [hpublishes.eq]
    exact ⟨hperm.nodup_iff.mpr h.nodup,
      fun n hn => hrecorded ▸ h.recorded n (hperm.mem_iff.mp hn)⟩

/-! ## The shared queue -/

open LatestPut

def WorkerPc.putter : WorkerPc → Putter Nat
  | .putting n _ _ => .putting n
  | .evicting n _ _ => .evicting n
  | .replacing n _ _ => .replacing n
  | .absent | .looping | .waiting | .draining | .polling _ _ | .ended => .idle

def State.shared (s : State) : SharedQueue Nat :=
  { items := s.cpuQueue
    putter := s.worker.putter
    offered := s.offered
    accepted := s.inserted
    taken := s.taken
    evicted := s.evicted
    refused := s.refused
    evictedBefore := s.evictedBefore }

/-- There is room beside `n` results. -/
def Room (queueSize n : Nat) : Prop := hasRoom queueSize n = true

theorem room_mono (queueSize n : Nat) (h : Room queueSize (n + 1)) : Room queueSize n := by
  simp only [Room, hasRoom, Bool.or_eq_true, beq_iff_eq, decide_eq_true_eq] at h ⊢
  omega

theorem putter_eq_idle : s.worker.putter = .idle ↔ s.putting = [] := by
  cases h : s.worker <;> simp [WorkerPc.putter, State.putting, h]

theorem inTurn_shared :
    s.shared.InTurn ↔ (s.inserted ++ s.putting).Sublist s.offered := by
  have hpending : s.worker.putter.pending.toList = s.putting := by
    cases hpc : s.worker <;> simp [WorkerPc.putter, Putter.pending, State.putting, hpc]
  show (s.inserted ++ s.worker.putter.pending.toList).Sublist s.offered ↔ _
  rw [hpending]

/-- **A step of `_put_latest` or of the consumer's `get` is an operation on the shared queue**, and
    the other steps leave it alone. -/
theorem step_shared (h : Distinct s) (hst : step queueSize s l = some t) :
    t.shared = s.shared ∧ l ≠ .worker .evict ∨
      ∃ op, Operates (Room queueSize) s.shared op t.shared ∧
        (op = .evictEmpty ↔ l = .worker .evict ∧ s.cpuQueue = []) := by
  cases l with
  | submit e =>
    simp only [step, submitStep] at hst
    split at hst <;> cases hst
    · refine Or.inl ⟨?_, by simp⟩
      by_cases habsent : s.worker = .absent <;> simp [State.shared, WorkerPc.putter, habsent]
    · exact Or.inl ⟨rfl, by simp⟩
    · exact Or.inl ⟨rfl, by simp⟩
    · exact Or.inl ⟨rfl, by simp⟩
  | complete =>
    simp only [step] at hst
    split at hst <;> cases hst
    exact Or.inl ⟨rfl, by simp⟩
  | close =>
    cases hst
    exact Or.inl ⟨rfl, by simp⟩
  | consumer e =>
    simp only [step, consumerStep] at hst
    split at hst
    · cases hst
      exact Or.inl ⟨rfl, by simp⟩
    · split at hst <;> cases hst
      rename_i oldest rest hqueue
      exact Or.inr ⟨.take, .take oldest rest hqueue, by simp⟩
    · split at hst <;> cases hst
      exact Or.inl ⟨rfl, by simp⟩
    · cases hst
      exact Or.inl ⟨rfl, by simp⟩
    · cases hst
  | worker e =>
    cases workerStep_works hst with
    | check hpc =>
      refine Or.inl ⟨?_, by simp⟩
      cases hstop : s.stop <;> simp [State.shared, WorkerPc.putter, hpc]
    | wake hpc | drained hpc hincoming | postpone n todo still hpc | queryRaises n todo still hpc
    | endRound still hpc =>
      exact Or.inl ⟨by simp [State.shared, WorkerPc.putter, hpc], by simp⟩
    | drain n rest hpc hincoming => exact Or.inl ⟨rfl, by simp⟩
    | publish n todo still hpc hcomplete =>
      have hnew : n ∉ s.offered := (⟨hpc, hcomplete, rfl⟩ : Publishes s n todo still _).new h
      exact Or.inr ⟨.offer, .offer n (congrArg WorkerPc.putter hpc) hnew, by simp⟩
    | put n todo still hpc hroom =>
      exact Or.inr ⟨.put, .put n (congrArg WorkerPc.putter hpc) hroom, by simp⟩
    | full n todo still hpc hfull =>
      exact Or.inr ⟨.full, .full n (congrArg WorkerPc.putter hpc) hfull, by simp⟩
    | evictEmpty n todo still hpc hqueue =>
      exact Or.inr ⟨.evictEmpty, .evictEmpty n (congrArg WorkerPc.putter hpc) hqueue,
        by simp [hqueue]⟩
    | evict n oldest todo still rest hpc hqueue =>
      exact Or.inr ⟨.evict, .evict n oldest rest (congrArg WorkerPc.putter hpc) hqueue,
        by simp [hqueue]⟩
    | replace n todo still hpc hroom =>
      exact Or.inr ⟨.replace, .replace n (congrArg WorkerPc.putter hpc) hroom, by simp⟩
    | replaceFull n todo still hpc hfull =>
      exact Or.inr ⟨.replaceFull, .replaceFull n (congrArg WorkerPc.putter hpc) hfull, by simp⟩

end PipeWorks.NvidiaPipe.InferQueue
