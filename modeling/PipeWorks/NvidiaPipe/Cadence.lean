import PipeWorks.Lib.Pacing
import PipeWorks.NvidiaPipe.ProcessedFrames

/-!
# The frames that are inferred (`frame_index` of `processed_frames`)

`interval_frames` asks for an inference on every `k`-th frame.  The loop decides with
`frame_index % interval_frames`, and `frame_index` counts the frames for which `on_frame` has
returned, not the frames.

`cadence_iff` says which histories keep the interval all the same; `failed_first_frame_off_beat`
is the shortest one that does not: an exception on the first frame is followed by an inference on
the second.
-/

set_option autoImplicit false

namespace PipeWorks.NvidiaPipe.ProcessedFrames

open Pacing

variable {φ ρ : Type}

section

variable (frameType : String) (intervalFrames : Nat) (ts : List (Turn φ ρ))

/-- `on_frame` is called with the frame at position `i` and with `infer=True`. -/
def InferredAt (i : Nat) : Prop :=
  ∃ t, ts[i]? = some t ∧
    (run frameType intervalFrames (ts.take (i + 1))).calls =
      (run frameType intervalFrames (ts.take i)).calls ++ [(t.frame, true)]

/-- The inferences fall on the multiples of the interval. -/
structure Cadence : Prop where
  onBeat : ∀ i < ts.length, InferredAt frameType intervalFrames ts i ↔ i % intervalFrames = 0
  oneInEach : ∀ start, start + intervalFrames ≤ ts.length →
    ∃! i, (start ≤ i ∧ i < start + intervalFrames) ∧ InferredAt frameType intervalFrames ts i

/-- `on_frame` is called at position `i`. -/
def CalledAt (i : Nat) : Prop :=
  ∃ t, ts[i]? = some t ∧ t.called frameType intervalFrames = true

/-- `on_frame` is called at position `i` and returns. -/
def CompletedAt (i : Nat) : Prop :=
  ∃ t, ts[i]? = some t ∧ t.completes frameType intervalFrames = true

instance : DecidablePred (CompletedAt frameType intervalFrames ts) := fun i =>
  decidable_of_iff (ts[i]?.any (Turn.completes frameType intervalFrames) = true) <| by
    cases ht : ts[i]? <;> simp [CompletedAt, ht]

/-- What the model has to do for the inferences to keep the interval.  Of the frames from one
multiple to the next the first is handed to the model; if the model returns it, it returns the
others as well, unless the stream ends before the next multiple; if it does not, none of the others
is handed to it. -/
def KeepsStep : Prop :=
  InStep (CalledAt frameType intervalFrames ts) (CompletedAt frameType intervalFrames ts)
    intervalFrames ts.length

end

section

variable {frameType : String} {intervalFrames : Nat} {ts : List (Turn φ ρ)}

theorem calledAt_of_completedAt {i : Nat} (h : CompletedAt frameType intervalFrames ts i) :
    CalledAt frameType intervalFrames ts i := by
  obtain ⟨t, ht, hc⟩ := h
  exact ⟨t, ht, called_of_completes hc⟩

/-- `frame_index` at position `i` is the number of frames completed before. -/
theorem countP_take (i : Nat) :
    (ts.take i).countP (Turn.completes frameType intervalFrames) =
      Nat.count (CompletedAt frameType intervalFrames ts) i := by
  induction i with
  | zero => simp
  | succ i ih =>
    rw [Nat.count_succ, ← ih, List.take_add_one, List.countP_append]
    cases ht : ts[i]? with
    | none => simp [CompletedAt, ht]
    | some t => simp [CompletedAt, ht, List.countP_singleton]

theorem inferredAt_iff {i : Nat} : InferredAt frameType intervalFrames ts i ↔
    Due (CalledAt frameType intervalFrames ts) (CompletedAt frameType intervalFrames ts)
      intervalFrames i := by
  unfold InferredAt Due CalledAt
  rw [← countP_take, ← run_frameIndex, List.take_add_one]
  cases ts[i]? with
  | none => simp
  | some t =>
    simp only [Option.toList_some, run_append, onFrame_calls, Option.some.injEq, exists_eq_left']
    cases hc : t.called frameType intervalFrames with
    | false => simp
    | true =>
      have h0 : intervalFrames ≠ 0 := by
        rintro rfl
        simp [Turn.called] at hc
      simp [State.due, h0, Nat.dvd_iff_mod_eq_zero]

theorem onBeat_iff (hk : 0 < intervalFrames) :
    (∀ i < ts.length, InferredAt frameType intervalFrames ts i ↔ i % intervalFrames = 0) ↔
      KeepsStep frameType intervalFrames ts := by
  rw [KeepsStep, ← due_iff_inStep hk fun _ => calledAt_of_completedAt]
  simp only [inferredAt_iff, Nat.dvd_iff_mod_eq_zero]

theorem oneInEach_of_onBeat (hk : 0 < intervalFrames)
    (h : ∀ i < ts.length, InferredAt frameType intervalFrames ts i ↔ i % intervalFrames = 0)
    {start : Nat} (hstart : start + intervalFrames ≤ ts.length) :
    ∃! i, (start ≤ i ∧ i < start + intervalFrames) ∧
      InferredAt frameType intervalFrames ts i := by
  obtain ⟨i, ⟨hi, hdvd⟩, huniq⟩ := existsUnique_dvd hk start
  refine ⟨i, ⟨hi, (h i (by omega)).2 (Nat.mod_eq_zero_of_dvd hdvd)⟩, ?_⟩
  rintro j ⟨hj, hinf⟩
  exact huniq j ⟨hj, Nat.dvd_of_mod_eq_zero ((h j (by omega)).1 hinf)⟩

/-- The inferences keep the interval exactly if the model keeps `frame_index` in step with the
frames. -/
theorem cadence_iff (hk : 0 < intervalFrames) :
    Cadence frameType intervalFrames ts ↔ KeepsStep frameType intervalFrames ts := by
  rw [← onBeat_iff hk]
  exact ⟨Cadence.onBeat, fun h => ⟨h, fun _ => oneInEach_of_onBeat hk h⟩⟩

end

/-- The second frame of an interval of three may fail: nothing is due before the stream ends. -/
theorem cadence_of_failed_second :
    Cadence "pytorch" 3
      [(⟨"first", .returns none, false⟩ : Turn String Unit), ⟨"second", .raises, false⟩] := by
  refine (cadence_iff (by decide)).2 ⟨fun i hi hdvd => ?_, fun i hi => ?_, fun i hdvd hc j hj => ?_⟩
  · obtain rfl : i = 0 := Nat.eq_zero_of_dvd_of_lt hdvd (by simp at hi; omega)
    exact ⟨_, rfl, by decide⟩
  · exact absurd (show i + 3 < 2 from hi) (by omega)
  · intro hij _
    obtain rfl : i = 0 := by
      simp at hj
      omega
    exact absurd ⟨_, rfl, by decide⟩ hc

/-- An interval of two, and a model that raises for the first frame: the second is inferred. -/
theorem failed_first_frame_off_beat :
    ¬ Cadence "pytorch" 2
      [(⟨"first", .raises, false⟩ : Turn String Unit),
        ⟨"second", .returns (some ⟨"second", none⟩), false⟩] := by
  intro h
  have hsecond := (h.onBeat 1 (by decide)).1 ⟨_, rfl, by decide⟩
  exact absurd hsecond (by decide)

end PipeWorks.NvidiaPipe.ProcessedFrames
