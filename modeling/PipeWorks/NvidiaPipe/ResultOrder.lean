import Mathlib.Data.List.Range
import PipeWorks.NvidiaPipe.InferQueue

/-!
# The order of the inference results

The copy stream completes the results in the order in which they were submitted, but the worker
asks for one event after the other, and the stream goes on in between: an event that has not
completed when it is queried may have when the next one is, and then the later result is published
first (`overtaken_not_inOrder`).

`results_in_order`: results are put on `cpu_queue` in the order in which they were submitted, each
once at most, in every run in which no query finds a result complete behind one that the same round
has found incomplete.
-/

set_option autoImplicit false

namespace PipeWorks.NvidiaPipe.InferQueue

open StepSystem

/-- The results are put on `cpu_queue` in the order in which they were submitted, each at most
    once. -/
def InOrder (s : State) : Prop := s.inserted.Pairwise (· < ·)

/-- The next result of the round has completed, and an earlier one had not when it was queried. -/
def State.overtakes (s : State) : Bool :=
  match s.worker with
  | .polling (n :: _) (_ :: _) => decide (n < s.completed)
  | _ => false

/-- No query finds a result complete behind one that the round has found incomplete. -/
def QueriesInTurn (s : State) (l : Label) : Prop := l = .worker .query → s.overtakes = false

instance (s : State) (l : Label) : Decidable (QueriesInTurn s l) :=
  inferInstanceAs (Decidable (_ → _))

variable {queueSize : Nat} {s t : State} {l : Label}

/-! ## Order -/

/-- **The order invariant.**  The results on their way are in the order in which they were
    submitted, and so are those that have been put on the queue. -/
structure Ordered (s : State) : Prop where
  underway : s.underway.Sublist (List.range s.recorded)
  inserted : (s.inserted ++ s.putting).Sublist s.offered

theorem init_ordered (queueSize content : Nat) : Ordered (State.init queueSize content) where
  underway := by simp [State.underway, State.carried, State.handing, State.init]
  inserted := by simp [State.putting, State.init]

theorem Ordered.distinct (h : Ordered s) : Distinct s where
  nodup := List.nodup_range.sublist h.underway
  recorded := fun _ hn => List.mem_range.mp (h.underway.subset hn)

/-- Results are put on the queue in the order in which `_put_latest` is called with them. -/
theorem step_inserted (h : Ordered s) (hst : step queueSize s l = some t) :
    (t.inserted ++ t.putting).Sublist t.offered := by
  have hinturn : s.shared.InTurn := inTurn_shared.mpr h.inserted
  apply inTurn_shared.mp
  rcases step_shared h.distinct hst with ⟨hshared, -⟩ | ⟨op, hoperates, -⟩
  · rw [hshared]
    exact hinturn
  · exact hoperates.inTurn hinturn

/-- **Step lemma.** -/
theorem step_ordered (h : Ordered s) (hturn : QueriesInTurn s l)
    (hst : step queueSize s l = some t) : Ordered t := by
  refine ⟨?_, step_inserted h hst⟩
  rcases step_flow hst with ⟨hrecorded, hflow⟩ | ⟨hrecorded, hflow⟩ |
    ⟨rfl, n, todo, still, hpublishes⟩
  · rw [hrecorded, hflow, List.range_succ]
    exact h.underway.append_right [s.recorded]
  · rw [hrecorded]
    exact hflow.trans h.underway
  · -- nothing has been found incomplete before it, so the result leaves the head of the line
    have hstill : still = [] := by
      have hturn := hturn rfl
      cases still with
      | nil => rfl
      | cons m still =>
        rw [State.overtakes, hpublishes.worker] at hturn
        exact absurd hpublishes.complete (of_decide_eq_false hturn)
    have heq := hpublishes.eq
    subst hstill heq
    have hunderway := h.underway
    simpa [State.underway, State.carried, State.handing, hpublishes.worker] using hunderway

theorem Ordered.inOrder (h : Ordered s) : InOrder s := by
  have hoffered : s.offered.Sublist s.underway := by
    simp only [State.underway, List.append_assoc]
    exact List.sublist_append_left _ _
  have hinserted : s.inserted.Sublist s.offered :=
    (List.sublist_append_left s.inserted s.putting).trans h.inserted
  exact List.pairwise_lt_range.sublist ((hinserted.trans hoffered).trans h.underway)

/-- **Results are published in submission order**, whatever the interleaving of the threads and of
    the copy stream, in every state of a run in which no query finds a result complete behind one
    that the same round has found incomplete. -/
theorem results_in_order (queueSize content : Nat) (labels : List Label)
    (h : StepsMeet (step queueSize) QueriesInTurn (State.init queueSize content) labels) :
    Always (step queueSize) InOrder (State.init queueSize content) labels :=
  always_of_stepsMeet (fun _ h => h.inOrder) (fun _ _ _ h hturn hst => step_ordered h hturn hst)
    (init_ordered queueSize content) h

/-- Two results are submitted and received by the worker. -/
def twoPending : List Label :=
  [.submit .call, .submit .schedule, .submit .hand, .submit .call, .submit .schedule,
    .submit .hand, .worker .check, .worker .wake, .worker .drain, .worker .drain, .worker .drain]

/-- Both have completed when the round begins. -/
theorem completed_inOrder :
    Always (step 30) InOrder (State.init 30 0)
      (twoPending ++ [.complete, .complete, .worker .query, .worker .put, .worker .query,
        .worker .put]) :=
  results_in_order 30 0 _ (by decide)

/-- The first one is queried before it has completed, then both complete: the second one is
    published in this round, and the first one in the next. -/
def overtakenScript : List Label :=
  twoPending ++ [.worker .query, .complete, .complete, .worker .query, .worker .put,
    .worker .endRound, .worker .check, .worker .wake, .worker .drain, .worker .query, .worker .put]

theorem overtaken_not_inOrder :
    (∃ s, run (step 30) (State.init 30 0) overtakenScript = some s ∧ s.cpuQueue = [1, 0]) ∧
      ¬ Always (step 30) InOrder (State.init 30 0) overtakenScript := by
  refine ⟨⟨_, rfl, rfl⟩, fun h => ?_⟩
  have hend := always_iff_runs.mp h overtakenScript _ (List.prefix_refl _) rfl
  exact absurd (List.pairwise_cons.mp hend).1 (by decide)

end PipeWorks.NvidiaPipe.InferQueue
