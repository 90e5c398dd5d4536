import PipeWorks.Lib.StepSystem
import PipeWorks.Plumber.Statistics

/-!
# The snapshot of a pipeline process (`frame_statistics` of `nvidia_pipe/cli.py`)

The counters and the input status are globals of `cli.py` and `receive.py`.  Other threads assign
to them while `frame_statistics` reads one after the other, so each value of a snapshot may belong
to another moment.  `frameStatistics_eq`: a snapshot is a `Plumber.FrameStatistics` all the same.
-/

set_option autoImplicit false

namespace PipeWorks.NvidiaPipe.FrameStatistics

open StepSystem PipeWorks.Python
open Plumber (statusJson)

/-- The globals that `frame_statistics` reads; the counters by their names. -/
structure Globals where
  count : PyStr → Int
  inputRtspStatus : PyStr

def Globals.init : Globals := ⟨fun _ => 0, pyStr "disconnected"⟩

/-- What the functions of `cli.py` and `receive.py` assign. -/
inductive Assignment where
  /-- `counter = 0` -/
  | reset (counter : PyStr)
  /-- `counter += 1` -/
  | increment (counter : PyStr)
  | connected
  | disconnected

def assign (g : Globals) : Assignment → Option Globals
  | .reset counter => some { g with count := Function.update g.count counter 0 }
  | .increment counter =>
    some { g with count := Function.update g.count counter (g.count counter + 1) }
  | .connected => some { g with inputRtspStatus := pyStr "connected" }
  | .disconnected => some { g with inputRtspStatus := pyStr "disconnected" }

/-- `frame_statistics`: `reads key` are the globals when the value of `key` is read, `sender` is
what `connection_status` of the sender returns, if there is a sender. -/
def frameStatistics (reads : PyStr → Globals) (sender : Option RtspStatus) : Json :=
  let counter (key : String) : PyStr × Json :=
    (pyStr key, .int ((reads (pyStr key)).count (pyStr key)))
  .dict
    [counter "received_frame_count", counter "sent_frame_count",
     counter "inference_success_frame_count", counter "inference_failure_frame_count",
     counter "out_of_order_frame_count",
     (pyStr "input_rtsp_status", .str (reads (pyStr "input_rtsp_status")).inputRtspStatus),
     (pyStr "output_rtsp_status", statusJson (sender.getD .disconnected))]

/-- The globals count, and hold one of the two texts. -/
structure Counting (g : Globals) : Prop where
  count : ∀ counter, 0 ≤ g.count counter
  status : ∃ r, .str g.inputRtspStatus = statusJson r

theorem counting_init : Counting Globals.init :=
  ⟨fun _ => Int.le_refl 0, ⟨.disconnected, rfl⟩⟩

theorem assign_counting {g g' : Globals} {a : Assignment} (h : Counting g)
    (ha : assign g a = some g') : Counting g' := by
  cases a with
  | reset counter =>
    cases ha
    refine ⟨fun counter' => ?_, h.status⟩
    by_cases hc : counter' = counter
    · simp [hc]
    · simpa [hc] using h.count counter'
  | increment counter =>
    cases ha
    refine ⟨fun counter' => ?_, h.status⟩
    have hcount := h.count counter
    by_cases hc : counter' = counter
    · simp only [hc, Function.update_self]
      omega
    · simpa [hc] using h.count counter'
  | connected =>
    cases ha
    exact ⟨h.count, ⟨.connected, rfl⟩⟩
  | disconnected =>
    cases ha
    exact ⟨h.count, ⟨.disconnected, rfl⟩⟩

theorem counting_of_reaches {g : Globals} (h : Reaches assign Globals.init g) : Counting g := by
  obtain ⟨as, has⟩ := h
  exact run_invariant (fun _ _ _ => assign_counting) counting_init has

/-- The counters and the status of a snapshot. -/
theorem frameStatistics_eq {reads : PyStr → Globals}
    (h : ∀ key, Reaches assign Globals.init (reads key)) (sender : Option RtspStatus) :
    ∃ s : Plumber.FrameStatistics, frameStatistics reads sender = s.toJson := by
  have hcount : ∀ key, ((((reads key).count key).toNat : Nat) : Int) = (reads key).count key :=
    fun key => Int.toNat_of_nonneg ((counting_of_reaches (h key)).count key)
  have hstatus := (counting_of_reaches (h (pyStr "input_rtsp_status"))).status
  obtain ⟨r, hr⟩ := hstatus
  let number (key : String) : Nat := ((reads (pyStr key)).count (pyStr key)).toNat
  refine ⟨⟨number "received_frame_count", number "sent_frame_count",
    number "inference_success_frame_count", number "inference_failure_frame_count",
    number "out_of_order_frame_count", r, sender.getD .disconnected⟩, ?_⟩
  unfold frameStatistics Plumber.FrameStatistics.toJson
  simp only [number, hcount, hr]
  rfl

end PipeWorks.NvidiaPipe.FrameStatistics
