import PipeWorks.NvidiaPipe.InferQueue

/-!
# The newest inference result

`_put_latest` is to make the newest result available to the consumer: when `cpu_queue` is full it
throws the oldest result out.  The three operations do not block, and the consumer may take results
between them.  When it empties the queue right after the first `put_nowait` has found it full,
`get_nowait` raises `Empty`, and the new result is passed over although there is room for it.

`always_newestResult_iff` says that this is the only way in which the newest result is lost.
-/

set_option autoImplicit false

namespace PipeWorks.NvidiaPipe.InferQueue

open StepSystem LatestPut

/-- The newest result is kept, seen in one state. -/
structure KeepsNewest (s : State) : Prop where
  /-- when `_put_latest` has returned, the result is in the queue or has been taken -/
  kept : s.putting = [] → ∀ n, s.offered.getLast? = some n → n ∈ s.cpuQueue ∨ n ∈ s.taken
  /-- the call has thrown one result out at most -/
  evicted : (s.evicted.drop s.evictedBefore).length ≤ 1
  /-- and an older one -/
  older : ∀ n ∈ s.evicted.drop s.evictedBefore, n ∈ s.offered.dropLast

/-- When `get_nowait` is called to make room, the queue is not empty. -/
def FindsOldest (s : State) (l : Label) : Prop := l = .worker .evict → s.cpuQueue ≠ []

variable {queueSize : Nat} {s t : State} {l : Label}

/-! ## Whole runs -/

/-- What holds as long as no result has been lost. -/
structure Newest (queueSize : Nat) (s : State) : Prop where
  distinct : Distinct s
  sound : Sound (Room queueSize) s.shared
  kept : Kept s.shared

theorem init_newest (queueSize content : Nat) :
    Newest queueSize (State.init queueSize content) := by
  refine ⟨init_distinct queueSize content, ⟨fun n hn => ?_, fun _ h => (by cases h),
    List.nodup_range, fun n hn => ?_, fun _ h => (by cases h),
    ⟨Nat.le_refl _, Nat.zero_le _⟩, fun n hn => (by cases hn)⟩, fun _ n hn => ?_⟩
  · have hlen : fitting queueSize content = n + 1 := by
      rw [← hn]
      exact List.length_range.symm
    unfold fitting at hlen
    simp only [Room, hasRoom, Bool.or_eq_true, beq_iff_eq, decide_eq_true_eq]
    split at hlen <;> omega
  · rcases hn with hn | hn
    · exact hn
    · cases hn
  · exact Or.inl (List.mem_of_getLast? hn)

theorem step_newest (h : Newest queueSize s) (hfinds : FindsOldest s l)
    (hst : step queueSize s l = some t) : Newest queueSize t := by
  have hdistinct := step_distinct h.distinct hst
  rcases step_shared h.distinct hst with ⟨hshared, -⟩ | ⟨op, hoperates, hempty⟩
  · exact ⟨hdistinct, hshared ▸ h.sound, hshared ▸ h.kept⟩
  · have hne : op ≠ .evictEmpty := fun heq => by
      obtain ⟨hl, hqueue⟩ := hempty.mp heq
      exact hfinds hl hqueue
    exact ⟨hdistinct, hoperates.sound (room_mono queueSize) h.sound,
      (hoperates.kept h.sound h.kept hne).1⟩

theorem Newest.keepsNewest (h : Newest queueSize s) : KeepsNewest s where
  kept := fun hidle => h.kept (putter_eq_idle.mpr hidle)
  evicted := h.sound.evicted_one
  older := h.sound.older

/-- An eviction from an empty queue loses the result of its own call. -/
theorem step_not_keepsNewest (h : Newest queueSize s) (hfinds : ¬ FindsOldest s l)
    (hst : step queueSize s l = some t) : ¬ KeepsNewest t := by
  simp only [FindsOldest, not_forall, not_not] at hfinds
  obtain ⟨hl, hqueue⟩ := hfinds
  rcases step_shared h.distinct hst with ⟨-, hne⟩ | ⟨op, hoperates, hempty⟩
  · exact absurd hl hne
  · cases hempty.mpr ⟨hl, hqueue⟩
    intro hkeeps
    exact hoperates.not_kept h.sound fun hidle => hkeeps.kept (putter_eq_idle.mp hidle)

/-- **When the newest result is kept**, in every state of a run, for every queue size and every
    content of the queue at the start: exactly when `get_nowait` is never called to make room in a
    queue that the consumer has emptied. -/
theorem always_newestResult_iff (queueSize content : Nat) (labels : List Label) :
    Always (step queueSize) KeepsNewest (State.init queueSize content) labels ↔
      StepsMeet (step queueSize) FindsOldest (State.init queueSize content) labels :=
  always_iff_stepsMeet (fun _ h => h.keepsNewest) (fun _ _ _ h hf hst => step_newest h hf hst)
    (fun _ _ _ h hf hst => step_not_keepsNewest h hf hst) (init_newest queueSize content)

/-- The queue holds one result and is full; the consumer takes it right after `put_nowait` has found
    it so. -/
def drainedScript : List Label :=
  [.submit .call, .submit .schedule, .submit .hand, .complete, .worker .check, .worker .wake,
    .worker .drain, .worker .drain, .worker .query, .worker .put, .consumer .check,
    .consumer .take, .worker .evict]

theorem drained_result_lost :
    (∃ s, run (step 1) (State.init 1 1) drainedScript = some s ∧ s.cpuQueue = [] ∧
      s.taken = [0] ∧ s.refused = [1]) ∧
      ¬ Always (step 1) KeepsNewest (State.init 1 1) drainedScript := by
  refine ⟨⟨_, rfl, rfl, rfl, rfl⟩, fun h => ?_⟩
  have hend := always_iff_runs.mp h drainedScript _ (List.prefix_refl _) rfl
  exact absurd (hend.kept rfl 1 rfl) (by decide)

end PipeWorks.NvidiaPipe.InferQueue
