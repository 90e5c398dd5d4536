import Mathlib.Data.List.Induction
import Mathlib.Data.List.ReduceOption
import Mathlib.Data.List.Forall2

/-!
# The frames on their way to the encoder (`processed_frames` of `nvidia_pipe/cli.py`)

`processed_frames` hands every decoded frame to the model, its result to `InferenceResultQueue`
and what the model has returned to the encoder, in one `try` block.  What the model and `submit`
do with a frame is given, per frame, by a `Turn`; `run` is the generator, exhausted.

`isolated_iff` compares a run with the one in which no `submit` raises: a `submit` that raises
leaves no trace exactly if the frame was not due for inference and the model had returned the
frame it was given.  `foreignResult_not_isolated` is a model whose result is refused.
-/

set_option autoImplicit false

namespace PipeWorks.NvidiaPipe.ProcessedFrames

variable {φ ρ : Type}

/-! ## The code -/

/-- An object `on_frame` has returned, and its `inference_result`. -/
structure Processed (φ ρ : Type) where
  frame : φ
  inferenceResult : Option ρ
  deriving DecidableEq, Repr

/-- What comes of the model, for one frame. -/
inductive ModelCall (φ ρ : Type) where
  /-- a refresh of the model or of its parameters raises: `on_frame` is not called -/
  | refreshRaises
  | raises
  | returns (processed : Option (Processed φ ρ))
  deriving DecidableEq, Repr

structure Turn (φ ρ : Type) where
  frame : φ
  call : ModelCall φ ρ
  /-- `submit` raises, if it is called -/
  submitRaises : Bool
  deriving DecidableEq, Repr

structure State (φ ρ : Type) where
  receivedFrameCount : Nat
  inferenceSuccessFrameCount : Nat
  inferenceFailureFrameCount : Nat
  frameIndex : Nat
  yielded : List φ
  /-- history: the number of frames with `should_infer` -/
  requested : Nat
  /-- history: the calls of `on_frame`, with their `infer` -/
  calls : List (φ × Bool)
  /-- history: the results that `submit` has taken -/
  submitted : List ρ
  deriving DecidableEq, Repr

/-- After `reset_frame_counters`. -/
def State.init : State φ ρ := ⟨0, 0, 0, 0, [], 0, [], []⟩

/-- `int(should_infer)`. -/
def one (shouldInfer : Bool) : Nat := if shouldInfer then 1 else 0

def State.yield (s : State φ ρ) (frame : φ) : State φ ρ :=
  { s with yielded := s.yielded ++ [frame] }

/-- `on_frame` is called. -/
def State.called (s : State φ ρ) (frame : φ) (shouldInfer : Bool) : State φ ρ :=
  { s with calls := s.calls ++ [(frame, shouldInfer)] }

/-- `on_frame` has returned. -/
def State.succeeded (s : State φ ρ) (shouldInfer : Bool) : State φ ρ :=
  { s with
    frameIndex := s.frameIndex + 1
    inferenceSuccessFrameCount := s.inferenceSuccessFrameCount + one shouldInfer }

/-- The `except` branch. -/
def State.failed (s : State φ ρ) (shouldInfer : Bool) (frame : φ) : State φ ρ :=
  { s with
    inferenceFailureFrameCount := s.inferenceFailureFrameCount + one shouldInfer
    yielded := s.yielded ++ [frame] }

/-- The `try` block, and whether it is left by an exception. -/
def attempt (frameType : String) (shouldInfer : Bool) (s : State φ ρ) (t : Turn φ ρ) :
    State φ ρ × Bool :=
  if frameType = "pytorch" then
    match t.call with
    | .refreshRaises => (s, true)
    | .raises => (s.called t.frame shouldInfer, true)
    | .returns processed =>
      let s := (s.called t.frame shouldInfer).succeeded shouldInfer
      match processed with
      | none => (s, false)
      | some ⟨frame, none⟩ => (s.yield frame, false)
      | some ⟨frame, some result⟩ =>
        if t.submitRaises then (s, true)
        else ({ s with submitted := s.submitted ++ [result] }.yield frame, false)
  -- raise ValueError
  else (s, true)

/-- The body of the loop. -/
def onFrame (frameType : String) (intervalFrames : Nat) (s : State φ ρ) (t : Turn φ ρ) :
    State φ ρ :=
  let s := { s with receivedFrameCount := s.receivedFrameCount + 1 }
  if intervalFrames = 0 then s.yield t.frame
  else
    let shouldInfer := s.frameIndex % intervalFrames == 0
    let s := { s with requested := s.requested + one shouldInfer }
    match attempt frameType shouldInfer s t with
    | (s, false) => s
    | (s, true) => s.failed shouldInfer t.frame

/-- `processed_frames`, until `frames` is exhausted. -/
def run (frameType : String) (intervalFrames : Nat) (ts : List (Turn φ ρ)) : State φ ρ :=
  ts.foldl (onFrame frameType intervalFrames) State.init

/-! ## One frame -/

/-- The `infer` of the next frame. -/
def State.due (s : State φ ρ) (intervalFrames : Nat) : Bool :=
  intervalFrames != 0 && s.frameIndex % intervalFrames == 0

/-- `on_frame` is called and returns. -/
def Turn.completes (frameType : String) (intervalFrames : Nat) (t : Turn φ ρ) : Bool :=
  intervalFrames != 0 && frameType == "pytorch" &&
    match t.call with
    | .returns _ => true
    | _ => false

/-- The object the model has returned, if its result is submitted and `submit` raises. -/
def Turn.refused? (frameType : String) (intervalFrames : Nat) (t : Turn φ ρ) : Option φ :=
  match t.call with
  | .returns (some ⟨frame, some _⟩) =>
    if t.completes frameType intervalFrames && t.submitRaises then some frame else none
  | _ => none

/-- What the encoder gets. -/
def Turn.output? (frameType : String) (intervalFrames : Nat) (t : Turn φ ρ) : Option φ :=
  match t.call with
  | .returns processed =>
    if t.completes frameType intervalFrames && (t.refused? frameType intervalFrames).isNone then
      processed.map (·.frame)
    else some t.frame
  | _ => some t.frame

section

variable {frameType : String} {intervalFrames : Nat}

/-- What becomes of the counters and of the output. -/
theorem onFrame_eq (s : State φ ρ) (t : Turn φ ρ) :
    (onFrame frameType intervalFrames s t).receivedFrameCount = s.receivedFrameCount + 1 ∧
    (onFrame frameType intervalFrames s t).frameIndex =
      s.frameIndex + one (t.completes frameType intervalFrames) ∧
    (onFrame frameType intervalFrames s t).requested =
      s.requested + one (s.due intervalFrames) ∧
    (onFrame frameType intervalFrames s t).inferenceSuccessFrameCount =
      s.inferenceSuccessFrameCount +
        one (s.due intervalFrames && t.completes frameType intervalFrames) ∧
    (onFrame frameType intervalFrames s t).inferenceFailureFrameCount =
      s.inferenceFailureFrameCount +
        one (s.due intervalFrames && (!t.completes frameType intervalFrames ||
          (t.refused? frameType intervalFrames).isSome)) ∧
    (onFrame frameType intervalFrames s t).yielded =
      s.yielded ++ (t.output? frameType intervalFrames).toList := by
  by_cases h0 : intervalFrames = 0
  · subst h0
    rcases t with ⟨frame, (_ | _ | processed), submitRaises⟩ <;>
      simp [onFrame, State.yield, State.due, Turn.completes, Turn.refused?, Turn.output?, one]
  · by_cases hp : frameType = "pytorch"
    · rcases t with ⟨frame, (_ | _ | (_ | ⟨processed, (_ | result)⟩)), (_ | _)⟩ <;>
        simp [onFrame, attempt, State.yield, State.called, State.succeeded, State.failed,
          State.due, Turn.completes, Turn.refused?, Turn.output?, one, h0, hp]
    · rcases t with ⟨frame, (_ | _ | (_ | ⟨processed, (_ | result)⟩)), submitRaises⟩ <;>
        simp [onFrame, attempt, State.failed, State.due, Turn.completes, Turn.refused?,
          Turn.output?, one, h0, hp]

@[simp]
theorem onFrame_received (s : State φ ρ) (t : Turn φ ρ) :
    (onFrame frameType intervalFrames s t).receivedFrameCount = s.receivedFrameCount + 1 :=
  (onFrame_eq s t).1

@[simp]
theorem onFrame_frameIndex (s : State φ ρ) (t : Turn φ ρ) :
    (onFrame frameType intervalFrames s t).frameIndex =
      s.frameIndex + one (t.completes frameType intervalFrames) :=
  (onFrame_eq s t).2.1

@[simp]
theorem onFrame_requested (s : State φ ρ) (t : Turn φ ρ) :
    (onFrame frameType intervalFrames s t).requested =
      s.requested + one (s.due intervalFrames) :=
  (onFrame_eq s t).2.2.1

@[simp]
theorem onFrame_success (s : State φ ρ) (t : Turn φ ρ) :
    (onFrame frameType intervalFrames s t).inferenceSuccessFrameCount =
      s.inferenceSuccessFrameCount +
        one (s.due intervalFrames && t.completes frameType intervalFrames) :=
  (onFrame_eq s t).2.2.2.1

@[simp]
theorem onFrame_failure (s : State φ ρ) (t : Turn φ ρ) :
    (onFrame frameType intervalFrames s t).inferenceFailureFrameCount =
      s.inferenceFailureFrameCount +
        one (s.due intervalFrames && (!t.completes frameType intervalFrames ||
          (t.refused? frameType intervalFrames).isSome)) :=
  (onFrame_eq s t).2.2.2.2.1

@[simp]
theorem onFrame_yielded (s : State φ ρ) (t : Turn φ ρ) :
    (onFrame frameType intervalFrames s t).yielded =
      s.yielded ++ (t.output? frameType intervalFrames).toList :=
  (onFrame_eq s t).2.2.2.2.2

end

/-! ## The two runs -/

/-- The same frame with a `submit` that does not raise. -/
def Turn.quiet (t : Turn φ ρ) : Turn φ ρ := { t with submitRaises := false }

/-- A run is isolated from its `submit`s: the encoder gets the frames, and the counters the
values, of the run in which none raises, and every requested inference is counted once. -/
structure Isolated (frameType : String) (intervalFrames : Nat) (ts : List (Turn φ ρ)) : Prop where
  yielded : (run frameType intervalFrames ts).yielded =
    (run frameType intervalFrames (ts.map Turn.quiet)).yielded
  received : (run frameType intervalFrames ts).receivedFrameCount =
    (run frameType intervalFrames (ts.map Turn.quiet)).receivedFrameCount
  success : (run frameType intervalFrames ts).inferenceSuccessFrameCount =
    (run frameType intervalFrames (ts.map Turn.quiet)).inferenceSuccessFrameCount
  failure : (run frameType intervalFrames ts).inferenceFailureFrameCount =
    (run frameType intervalFrames (ts.map Turn.quiet)).inferenceFailureFrameCount
  counted : (run frameType intervalFrames ts).inferenceSuccessFrameCount +
    (run frameType intervalFrames ts).inferenceFailureFrameCount =
      (run frameType intervalFrames ts).requested

/-- Every `submit` that raises belongs to a frame between two inferences, which the model has
returned as it was: the calls of `on_frame` that have returned before are not a multiple of the
interval. -/
def Harmless (frameType : String) (intervalFrames : Nat) (ts : List (Turn φ ρ)) : Prop :=
  ∀ (pre : List (Turn φ ρ)) (t : Turn φ ρ) (post : List (Turn φ ρ)) (processed : φ),
    ts = pre ++ t :: post → t.refused? frameType intervalFrames = some processed →
    pre.countP (Turn.completes frameType intervalFrames) % intervalFrames ≠ 0 ∧
      processed = t.frame

/-! ## A frame of the quiet run -/

section

variable {frameType : String} {intervalFrames : Nat} {s q : State φ ρ} {t : Turn φ ρ}
  {processed : φ}

@[simp]
theorem quiet_completes (t : Turn φ ρ) :
    t.quiet.completes frameType intervalFrames = t.completes frameType intervalFrames := rfl

@[simp]
theorem quiet_refused (t : Turn φ ρ) : t.quiet.refused? frameType intervalFrames = none := by
  rcases t with ⟨frame, (_ | _ | (_ | ⟨processed, (_ | result)⟩)), submitRaises⟩ <;>
    simp [Turn.quiet, Turn.refused?]

theorem refused_iff : t.refused? frameType intervalFrames = some processed ↔
    t.completes frameType intervalFrames = true ∧ t.submitRaises = true ∧
      ∃ result, t.call = .returns (some ⟨processed, some result⟩) := by
  rcases t with ⟨frame, (_ | _ | (_ | ⟨processed', (_ | result)⟩)), submitRaises⟩ <;>
    simp [Turn.refused?, and_assoc]

theorem due_of_completes (h : t.completes frameType intervalFrames = true) (s : State φ ρ) :
    s.due intervalFrames = (s.frameIndex % intervalFrames == 0) := by
  have h0 : intervalFrames ≠ 0 := by
    intro h0
    simp [Turn.completes, h0] at h
  simp [State.due, h0]

/-- A `submit` that does not raise changes nothing. -/
theorem output_of_not_refused (h : t.refused? frameType intervalFrames = none) :
    t.quiet.output? frameType intervalFrames = t.output? frameType intervalFrames := by
  simp only [Turn.output?, quiet_refused, quiet_completes, h]
  rfl

theorem output_of_refused (h : t.refused? frameType intervalFrames = some processed) :
    t.output? frameType intervalFrames = some t.frame ∧
      t.quiet.output? frameType intervalFrames = some processed := by
  obtain ⟨hc, _, result, hcall⟩ := refused_iff.1 h
  have hquiet : t.quiet.call = .returns (some ⟨processed, some result⟩) := hcall
  constructor
  · simp [Turn.output?, hcall, h]
  · simp [Turn.output?, hquiet, hc]

/-- The quiet run yields as many frames. -/
theorem output_length (t : Turn φ ρ) :
    (t.quiet.output? frameType intervalFrames).toList.length =
      (t.output? frameType intervalFrames).toList.length := by
  cases h : t.refused? frameType intervalFrames with
  | none => rw [output_of_not_refused h]
  | some processed => simp [output_of_refused h]

/-! ## The two runs, frame by frame -/

/-- What a run and its quiet run always share. -/
structure Alike (s q : State φ ρ) : Prop where
  frameIndex : s.frameIndex = q.frameIndex
  received : s.receivedFrameCount = q.receivedFrameCount
  success : s.inferenceSuccessFrameCount = q.inferenceSuccessFrameCount
  requested : s.requested = q.requested
  length : s.yielded.length = q.yielded.length
  failure : q.inferenceFailureFrameCount ≤ s.inferenceFailureFrameCount
  counted : q.inferenceSuccessFrameCount + q.inferenceFailureFrameCount = q.requested

theorem Alike.due (h : Alike s q) (intervalFrames : Nat) :
    q.due intervalFrames = s.due intervalFrames := by
  simp [State.due, h.frameIndex]

theorem Alike.onFrame (h : Alike s q) (t : Turn φ ρ) :
    Alike (onFrame frameType intervalFrames s t) (onFrame frameType intervalFrames q t.quiet) := by
  have hdue := h.due intervalFrames
  have hcount := h.counted
  have hfail := h.failure
  constructor
  · simp [h.frameIndex]
  · simp [h.received]
  · simp [h.success, hdue]
  · simp [h.requested, hdue]
  · simp [h.length, output_length]
  · cases hd : s.due intervalFrames <;> cases hc : t.completes frameType intervalFrames <;>
      simp [hdue, hd, hc, one] <;> omega
  · cases hd : s.due intervalFrames <;> cases hc : t.completes frameType intervalFrames <;>
      simp [hdue, hd, hc, one] <;> omega

/-- The run does not show which `submit`s have raised. -/
def Agree (s q : State φ ρ) : Prop :=
  s.yielded = q.yielded ∧ s.inferenceFailureFrameCount = q.inferenceFailureFrameCount

/-- A refused result shows in the failures of a frame that was due, and in the output if the model
has returned another frame. -/
theorem Alike.agree_onFrame (h : Alike s q) (t : Turn φ ρ) :
    Agree (ProcessedFrames.onFrame frameType intervalFrames s t)
        (ProcessedFrames.onFrame frameType intervalFrames q t.quiet) ↔
      Agree s q ∧ ∀ processed, t.refused? frameType intervalFrames = some processed →
        s.frameIndex % intervalFrames ≠ 0 ∧ processed = t.frame := by
  have hdue := h.due intervalFrames
  have hfail := h.failure
  cases hr : t.refused? frameType intervalFrames with
  | none => simp [Agree, output_of_not_refused hr, hdue, hr]
  | some processed =>
    obtain ⟨hc, -, -⟩ := refused_iff.1 hr
    obtain ⟨hout, hquiet⟩ := output_of_refused hr
    simp only [Agree, onFrame_yielded, onFrame_failure, hout, hquiet, hdue, quiet_completes,
      quiet_refused, hr, hc, due_of_completes hc, Option.toList_some, List.append_singleton_inj]
    by_cases h0 : s.frameIndex % intervalFrames = 0
    · -- the same frame counts as a success and as a failure
      simp [h0, one]
      omega
    · simp [h0, one]
      tauto

/-! ## The two runs -/

variable (frameType intervalFrames)

theorem run_append (ts : List (Turn φ ρ)) (t : Turn φ ρ) :
    run frameType intervalFrames (ts ++ [t]) =
      onFrame frameType intervalFrames (run frameType intervalFrames ts) t := by
  simp [run]

theorem run_alike (ts : List (Turn φ ρ)) :
    Alike (run frameType intervalFrames ts) (run frameType intervalFrames (ts.map Turn.quiet)) := by
  induction ts using List.reverseRecOn with
  | nil => constructor <;> simp [run, State.init]
  | append_singleton ts t ih =>
    rw [List.map_append, List.map_singleton, run_append, run_append]
    exact ih.onFrame t

theorem run_frameIndex (ts : List (Turn φ ρ)) :
    (run frameType intervalFrames ts).frameIndex =
      ts.countP (Turn.completes frameType intervalFrames) := by
  induction ts using List.reverseRecOn with
  | nil => rfl
  | append_singleton ts t ih =>
    rw [run_append, onFrame_frameIndex, ih, List.countP_append, List.countP_singleton, one]

theorem isolated_iff_agree (ts : List (Turn φ ρ)) :
    Isolated frameType intervalFrames ts ↔
      Agree (run frameType intervalFrames ts)
        (run frameType intervalFrames (ts.map Turn.quiet)) := by
  have h := run_alike frameType intervalFrames ts
  constructor
  · intro hi
    exact ⟨hi.yielded, hi.failure⟩
  · rintro ⟨hyielded, hfailure⟩
    refine ⟨hyielded, h.received, h.success, hfailure, ?_⟩
    rw [h.success, hfailure, h.counted, h.requested]

theorem harmless_append (ts : List (Turn φ ρ)) (t : Turn φ ρ) :
    Harmless frameType intervalFrames (ts ++ [t]) ↔
      Harmless frameType intervalFrames ts ∧
        ∀ processed, t.refused? frameType intervalFrames = some processed →
          ts.countP (Turn.completes frameType intervalFrames) % intervalFrames ≠ 0 ∧
            processed = t.frame := by
  constructor
  · intro h
    refine ⟨fun pre t' post processed hts => ?_, fun processed => ?_⟩
    · exact h pre t' (post ++ [t]) processed (by simp [hts])
    · exact h ts t [] processed rfl
  · rintro ⟨hts, ht⟩ pre t' post processed hsplit
    rcases List.eq_nil_or_concat post with rfl | ⟨post', t'', rfl⟩
    · obtain ⟨rfl, rfl⟩ := List.append_singleton_inj.1 hsplit
      exact ht processed
    · rw [List.concat_eq_append, ← List.cons_append, ← List.append_assoc,
        List.append_singleton_inj] at hsplit
      exact hts pre t' post' processed hsplit.1

/-- A `submit` that raises leaves no trace exactly if its frame was not due for inference and the
model had returned the frame itself. -/
theorem isolated_iff (ts : List (Turn φ ρ)) :
    Isolated frameType intervalFrames ts ↔ Harmless frameType intervalFrames ts := by
  rw [isolated_iff_agree]
  induction ts using List.reverseRecOn with
  | nil =>
    constructor
    · rintro - pre t post processed hsplit
      simp at hsplit
    · intro _
      exact ⟨rfl, rfl⟩
  | append_singleton ts t ih =>
    have h := run_alike frameType intervalFrames ts
    rw [List.map_append, List.map_singleton, run_append, run_append, h.agree_onFrame,
      run_frameIndex, ih, harmless_append]

end

/-- A model that draws on a copy of the frame and gives a result `submit` refuses: the frame counts
as a success and as a failure, and the encoder gets it as the camera has sent it. -/
theorem foreignResult_not_isolated :
    ¬ Isolated "pytorch" 1 [(⟨"frame", .returns (some ⟨"drawn", some ()⟩), true⟩ :
      Turn String Unit)] := by
  intro h
  exact absurd h.failure (by decide)

/-! ## What is yielded for a frame -/

/-- `on_frame` is called. -/
def Turn.called (frameType : String) (intervalFrames : Nat) (t : Turn φ ρ) : Bool :=
  intervalFrames != 0 && frameType == "pytorch" &&
    match t.call with
    | .refreshRaises => false
    | _ => true

/-- What a frame may become: nothing if `on_frame` has returned `None`, otherwise one output, which
is the decoded frame if the model has not been called or has raised. -/
structure Answers (frameType : String) (intervalFrames : Nat) (t : Turn φ ρ)
    (output : Option φ) : Prop where
  none_iff : output = none ↔
    t.called frameType intervalFrames = true ∧ t.call = .returns none
  itself : t.called frameType intervalFrames = false ∨ t.call = .raises → output = some t.frame
  returned : ∀ processed, t.called frameType intervalFrames = true →
    t.call = .returns (some processed) → output = some processed.frame ∨
      (output = some t.frame ∧ t.submitRaises = true ∧ processed.inferenceResult.isSome)

section

variable {frameType : String} {intervalFrames : Nat}

theorem onFrame_calls (s : State φ ρ) (t : Turn φ ρ) :
    (onFrame frameType intervalFrames s t).calls =
      if t.called frameType intervalFrames then s.calls ++ [(t.frame, s.due intervalFrames)]
      else s.calls := by
  by_cases h0 : intervalFrames = 0
  · simp [onFrame, State.yield, Turn.called, h0]
  · by_cases hp : frameType = "pytorch"
    · rcases t with ⟨frame, (_ | _ | (_ | ⟨processed, (_ | result)⟩)), (_ | _)⟩ <;>
        simp [onFrame, attempt, State.yield, State.called, State.succeeded, State.failed,
          State.due, Turn.called, h0, hp]
    · simp [onFrame, attempt, State.failed, Turn.called, h0, hp]

theorem called_of_completes {t : Turn φ ρ} (h : t.completes frameType intervalFrames = true) :
    t.called frameType intervalFrames = true := by
  simp only [Turn.completes, Bool.and_eq_true] at h
  rcases t with ⟨frame, (_ | _ | processed), submitRaises⟩ <;> simp_all [Turn.called]

theorem output_answers (t : Turn φ ρ) :
    Answers frameType intervalFrames t (t.output? frameType intervalFrames) := by
  cases hmodel : intervalFrames != 0 && frameType == "pytorch" <;>
    rcases t with ⟨frame, (_ | _ | (_ | ⟨processed, (_ | result)⟩)), (_ | _)⟩ <;>
    constructor <;>
    simp [Turn.output?, Turn.called, Turn.completes, Turn.refused?, hmodel]

end

section

variable (frameType : String) (intervalFrames : Nat)

theorem run_yielded (ts : List (Turn φ ρ)) :
    (run frameType intervalFrames ts).yielded =
      (ts.map (Turn.output? frameType intervalFrames)).reduceOption := by
  induction ts using List.reverseRecOn with
  | nil => rfl
  | append_singleton ts t ih =>
    rw [run_append, onFrame_yielded, ih, List.map_append, List.reduceOption_append,
      List.map_singleton, List.reduceOption_singleton]

theorem run_received (ts : List (Turn φ ρ)) :
    (run frameType intervalFrames ts).receivedFrameCount = ts.length := by
  induction ts using List.reverseRecOn with
  | nil => rfl
  | append_singleton ts t ih => rw [run_append, onFrame_received, ih, List.length_append]; rfl

theorem run_calls (ts : List (Turn φ ρ)) :
    (run frameType intervalFrames ts).calls.map Prod.fst =
      (ts.filter (Turn.called frameType intervalFrames)).map (·.frame) := by
  induction ts using List.reverseRecOn with
  | nil => rfl
  | append_singleton ts t ih =>
    rw [run_append, onFrame_calls, List.filter_append, List.map_append, ← ih]
    cases hc : t.called frameType intervalFrames <;> simp [hc]

/-- Every frame taken from the decoder has its answer, and the answers leave in the order of the
frames. -/
theorem yielded_in_order (ts : List (Turn φ ρ)) :
    ∃ outputs : List (Option φ),
      (run frameType intervalFrames ts).yielded = outputs.reduceOption ∧
      List.Forall₂ (Answers frameType intervalFrames) ts outputs ∧
      (run frameType intervalFrames ts).calls.map Prod.fst =
        (ts.filter (Turn.called frameType intervalFrames)).map (·.frame) ∧
      (run frameType intervalFrames ts).receivedFrameCount = ts.length := by
  refine ⟨ts.map (Turn.output? frameType intervalFrames), run_yielded frameType intervalFrames ts,
    ?_, run_calls frameType intervalFrames ts, run_received frameType intervalFrames ts⟩
  rw [List.forall₂_map_right_iff]
  exact List.forall₂_same.2 fun t _ => output_answers t

end

end PipeWorks.NvidiaPipe.ProcessedFrames
