import Mathlib.Data.List.Basic
import PipeWorks.Python.Json
import PipeWorks.RtspStatus

/-!
# Frame statistics reports

The snapshot a pipeline process sends (`frame_statistics` of `nvidia_pipe/cli.py`), the snapshot
the manager starts from (`_empty_statistics`), and the check `record_statistics` makes of a
report.  `validStatistics_toJson`: what a pipeline sends is accepted and read back unchanged.
-/

set_option autoImplicit false

namespace PipeWorks.Plumber

open PipeWorks.Python

structure FrameStatistics where
  receivedFrameCount : Nat
  sentFrameCount : Nat
  inferenceSuccessFrameCount : Nat
  inferenceFailureFrameCount : Nat
  outOfOrderFrameCount : Nat
  inputRtspStatus : RtspStatus
  outputRtspStatus : RtspStatus
  deriving DecidableEq, Repr

/-- `_empty_statistics`. -/
def emptyStatistics : FrameStatistics := ⟨0, 0, 0, 0, 0, .disconnected, .disconnected⟩

def counters : List PyStr :=
  [pyStr "received_frame_count", pyStr "sent_frame_count", pyStr "inference_success_frame_count",
   pyStr "inference_failure_frame_count", pyStr "out_of_order_frame_count"]

def statuses : List PyStr := [pyStr "input_rtsp_status", pyStr "output_rtsp_status"]

def required : List PyStr := counters ++ statuses

def statusJson : RtspStatus → Json
  | .disconnected => .str (pyStr "disconnected")
  | .connected => .str (pyStr "connected")

/-- The dict that `frame_statistics` returns. -/
def FrameStatistics.toJson (s : FrameStatistics) : Json :=
  .dict (required.zip
    [.int s.receivedFrameCount, .int s.sentFrameCount, .int s.inferenceSuccessFrameCount,
     .int s.inferenceFailureFrameCount, .int s.outOfOrderFrameCount,
     statusJson s.inputRtspStatus, statusJson s.outputRtspStatus])

/-- A non-negative `int` that is not a `bool`. -/
def asCounter : Json → Option Nat
  | .int i => if i < 0 then none else some i.toNat
  | _ => none

/-- One of the two status texts. -/
def asStatus : Json → Option RtspStatus
  | .str s =>
    if s = pyStr "disconnected" then some .disconnected
    else if s = pyStr "connected" then some .connected
    else none
  | _ => none

/-- `set(statistics) == required`. -/
def hasRequiredKeys (members : List (PyStr × Json)) : Bool :=
  members.all (fun m => required.contains m.1) &&
    required.all fun key => members.any fun m => m.1 == key

def getCounter (members : List (PyStr × Json)) (key : String) : Option Nat :=
  (members.lookup (pyStr key)).bind asCounter

def getStatus (members : List (PyStr × Json)) (key : String) : Option RtspStatus :=
  (members.lookup (pyStr key)).bind asStatus

/-- The check of `record_statistics`, with what it lets through; `none` stands for its
    `ValueError`. -/
def validStatistics : Json → Option FrameStatistics
  | .dict members =>
    if hasRequiredKeys members then do
      let received ← getCounter members "received_frame_count"
      let sent ← getCounter members "sent_frame_count"
      let success ← getCounter members "inference_success_frame_count"
      let failure ← getCounter members "inference_failure_frame_count"
      let outOfOrder ← getCounter members "out_of_order_frame_count"
      let input ← getStatus members "input_rtsp_status"
      let output ← getStatus members "output_rtsp_status"
      some ⟨received, sent, success, failure, outOfOrder, input, output⟩
    else none
  | _ => none

@[simp] theorem asCounter_natCast (n : Nat) : asCounter (.int n) = some n := by
  have h : ¬ (n : Int) < 0 := by omega
  simp [asCounter]

@[simp] theorem asStatus_statusJson (r : RtspStatus) : asStatus (statusJson r) = some r := by
  cases r <;> decide

/-- **Round trip.**  What a pipeline process sends is accepted and read back unchanged. -/
theorem validStatistics_toJson (s : FrameStatistics) : validStatistics s.toJson = some s := by
  have hkeys : ∀ a b c d e f g : Json,
      hasRequiredKeys (required.zip [a, b, c, d, e, f, g]) = true := by
    intro a b c d e f g
    rfl
  have hread : ∀ a b c d e f g : Json, ∀ members,
      members = required.zip [a, b, c, d, e, f, g] →
      getCounter members "received_frame_count" = asCounter a ∧
      getCounter members "sent_frame_count" = asCounter b ∧
      getCounter members "inference_success_frame_count" = asCounter c ∧
      getCounter members "inference_failure_frame_count" = asCounter d ∧
      getCounter members "out_of_order_frame_count" = asCounter e ∧
      getStatus members "input_rtsp_status" = asStatus f ∧
      getStatus members "output_rtsp_status" = asStatus g := by
    rintro a b c d e f g members rfl
    exact ⟨rfl, rfl, rfl, rfl, rfl, rfl, rfl⟩
  obtain ⟨h1, h2, h3, h4, h5, h6, h7⟩ := hread (.int s.receivedFrameCount)
    (.int s.sentFrameCount) (.int s.inferenceSuccessFrameCount)
    (.int s.inferenceFailureFrameCount) (.int s.outOfOrderFrameCount)
    (statusJson s.inputRtspStatus) (statusJson s.outputRtspStatus) _ rfl
  unfold FrameStatistics.toJson validStatistics
  dsimp only
  rw [if_pos (hkeys ..), h1, h2, h3, h4, h5, h6, h7]
  simp

end PipeWorks.Plumber
