import PipeWorks.NvidiaPipe.JitterBuffer

/-!
# The reported status of the RTSP input

`input_rtsp_status` is set where the demux loop is entered and cleared only in the `except`
clause.  `always_statusAccurate_iff` says what that is worth: the status is right in every state
of a run exactly when every connection of the run ends by an exception the clause catches.
After a clean end of the stream the status stays `connected` through the wait and the next
attempt.
-/

set_option autoImplicit false

namespace PipeWorks.NvidiaPipe.Receive

open StepSystem PipeWorks.Python

/-- The status tells the truth in `s`. -/
structure StatusAccurate (s : State) : Prop where
  /-- `connected` only while a container with a supported codec is open -/
  connected_only : s.inputRtspStatus = .connected →
    ∃ c, s.phase = .demuxing c ∧ c.inputStream.codec = some c.codec
  /-- `disconnected` before the first successful connection -/
  before_first : s.connections = [] → s.inputRtspStatus = .disconnected
  /-- `disconnected` during every wait -/
  while_waiting : s.phase = .waiting → s.inputRtspStatus = .disconnected
  /-- `disconnected` during every attempt, up to the selection of the codec -/
  while_connecting : s.phase = .connecting ∨ (∃ video, s.phase = .inspecting video) →
    s.inputRtspStatus = .disconnected

/-- The step does not leave a connection with the status still set. -/
def EndsHandled (_ : State) (e : Event) : Prop :=
  e ≠ .endOfStream ∧ ∀ x, e = .demuxRaises x → handled x = true

/-- The status is set exactly while a connection is being demuxed. -/
structure StatusInv (s : State) : Prop where
  demuxing : ∀ c, s.phase = .demuxing c →
    s.inputRtspStatus = .connected ∧ c.inputStream.codec = some c.codec
  elsewhere : (∀ c, s.phase ≠ .demuxing c) → s.inputRtspStatus = .disconnected

theorem StatusInv.of_disconnected {s : State} (hphase : ∀ c, s.phase ≠ .demuxing c)
    (h : s.inputRtspStatus = .disconnected) : StatusInv s :=
  ⟨fun c hc => absurd hc (hphase c), fun _ => h⟩

theorem StatusInv.accurate {s : State} (h : StatusInv s) : StatusAccurate s := by
  have hconn : s.inputRtspStatus = .connected →
      ∃ c, s.phase = .demuxing c ∧ c.inputStream.codec = some c.codec := by
    intro hs
    by_contra hno
    have hphase : ∀ c, s.phase ≠ .demuxing c := fun c hc => hno ⟨c, hc, (h.demuxing c hc).2⟩
    rw [h.elsewhere hphase] at hs
    cases hs
  refine ⟨hconn, fun hnone => ?_, fun hp => ?_, fun hp => ?_⟩
  · apply h.elsewhere
    intro c hc
    simp [State.connections, hc] at hnone
  · exact h.elsewhere fun c hc => by simp [hp] at hc
  · apply h.elsewhere
    intro c hc
    rcases hp with hp | ⟨video, hp⟩ <;> simp [hp] at hc

theorem leave_phase_ne (s : State) (e : PyError) (c : Connection) :
    (s.leave e).phase ≠ .demuxing c := by
  by_cases h : handled e = true
  · simp [leave_of_handled h]
  · simp [leave_of_not_handled h]

theorem leave_status {s : State} (e : PyError) (h : s.inputRtspStatus = .disconnected) :
    (s.leave e).inputRtspStatus = .disconnected := by
  unfold State.leave
  split
  · rfl
  · exact h

/-- An attempt that fails leaves the status cleared. -/
theorem inspect_inv {s : State} {video : List VideoStream}
    (h : s.inputRtspStatus = .disconnected) : StatusInv (inspect s video) := by
  unfold inspect
  split
  · exact .of_disconnected (leave_phase_ne s _) (leave_status _ h)
  · rename_i v _
    split
    · exact .of_disconnected (leave_phase_ne s _) (leave_status _ h)
    · rename_i codec hcodec
      refine ⟨fun c hc => ?_, fun hne => absurd rfl (hne _)⟩
      cases hc
      exact ⟨rfl, hcodec⟩

theorem onPacket_statusInv {n : Nat} {s : State} {c : Connection} {now : Int}
    (hphase : s.phase = .demuxing c) (h : StatusInv s) (p : Option DemuxPacket) :
    StatusInv (onPacket n s c now p) := by
  cases p with
  | none => exact h
  | some p =>
    obtain ⟨hs, hcodec⟩ := h.demuxing c hphase
    refine ⟨fun c' hc' => ?_, fun hne => absurd rfl (hne _)⟩
    obtain ⟨hv, hc, _⟩ := onPacket_frame n c p
    cases hc'
    refine ⟨?_, by rw [hv, hc]; exact hcodec⟩
    exact (state_onPacket_frame s c.previousPts now p).2.trans hs

/-- A step that ends no connection, or ends it by a caught exception, keeps the invariant. -/
theorem step_statusInv {n : Nat} {s t : State} {e : Event} (h : StatusInv s)
    (he : EndsHandled s e) (hst : step n s e = some t) : StatusInv t := by
  unfold step at hst
  split at hst <;> cases hst
  · rename_i hphase
    have hs := h.elsewhere fun c hc => by simp [hphase] at hc
    exact .of_disconnected (leave_phase_ne s _) (leave_status _ hs)
  · rename_i hphase
    exact .of_disconnected (fun c hc => by cases hc)
      (h.elsewhere fun c hc => by simp [hphase] at hc)
  · rename_i hphase
    exact inspect_inv (h.elsewhere fun c hc => by simp [hphase] at hc)
  · rename_i hphase
    exact onPacket_statusInv hphase h _
  · exact absurd rfl he.1
  · rename_i c x hphase
    refine .of_disconnected (fun c' hc' => ?_) ?_
    · rw [finish_phase] at hc'
      exact leave_phase_ne s x c' hc'
    · rw [finish_status, leave_of_handled (he.2 x rfl)]
  · rename_i hphase
    exact .of_disconnected (fun c hc => by cases hc)
      (h.elsewhere fun c hc => by simp [hphase] at hc)

/-- Any other end of a connection leaves the status set with the container closed. -/
theorem step_not_accurate {n : Nat} {s t : State} {e : Event} (h : StatusInv s)
    (he : ¬ EndsHandled s e) (hst : step n s e = some t) : ¬ StatusAccurate t := by
  intro hacc
  unfold step at hst
  split at hst <;> cases hst
  case _ => exact he ⟨by simp, by simp⟩
  case _ => exact he ⟨by simp, by simp⟩
  case _ => exact he ⟨by simp, by simp⟩
  case _ => exact he ⟨by simp, by simp⟩
  · -- clean end of the stream: the loop goes to sleep with the status set
    rename_i c hphase
    have hclear := hacc.while_waiting rfl
    have hset := (h.demuxing c hphase).1
    simp only [State.finish] at hclear
    rw [hset] at hclear
    cases hclear
  · -- an exception that no clause catches ends the generator with the status set
    rename_i c x hphase
    have hx : ¬ handled x = true := fun hx => he ⟨by simp, fun y hy => by cases hy; exact hx⟩
    have hset := (h.demuxing c hphase).1
    obtain ⟨c', hc', _⟩ := hacc.connected_only (by
      rw [finish_status, leave_of_not_handled hx]
      exact hset)
    rw [finish_phase, leave_of_not_handled hx] at hc'
    cases hc'
  case _ => exact he ⟨by simp, by simp⟩

theorem init_statusInv (now : Int) : StatusInv (State.init now) :=
  .of_disconnected (fun c hc => by cases hc) rfl

/-- **When the input status is right**: in every state of a run exactly when every connection
    the run ends is ended by an exception that the `except` clause catches. -/
theorem always_statusAccurate_iff (n : Nat) (now : Int) (script : List Event) :
    Always (step n) StatusAccurate (State.init now) script ↔
      StepsMeet (step n) EndsHandled (State.init now) script :=
  always_iff_stepsMeet (fun _ h => h.accurate) (fun _ _ _ h he hst => step_statusInv h he hst)
    (fun _ _ _ h he hst => step_not_accurate h he hst) (init_statusInv now)

/-- A connection whose stream ends without an error. -/
def cleanEndScript : List Event :=
  [.opens [⟨"h264", 640, 360, some 30, 1⟩], .inspect, .endOfStream]

theorem cleanEnd_not_accurate : ¬ Always (step 0) StatusAccurate (State.init 0) cleanEndScript := by
  intro h
  have hacc := always_iff_runs.mp h cleanEndScript _ (List.prefix_refl _) rfl
  have hclear := hacc.while_waiting rfl
  cases hclear

end PipeWorks.NvidiaPipe.Receive
