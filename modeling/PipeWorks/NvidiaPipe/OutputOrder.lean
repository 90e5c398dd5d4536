import Mathlib.Data.List.Nodup
import PipeWorks.NvidiaPipe.SenderWorkers
import PipeWorks.NvidiaPipe.Submission

/-!
# The order of the output over a whole run

Whatever the pipeline thread submits and whatever becomes of the workers, the packets that are
muxed, followed by those still in line (in the hands of the worker, in the queue, in `submit`),
are a subsequence of the submitted packets: `InLine.line`.  Nothing is put in front of the line
and nothing comes back to it, which is why neither an eviction nor the end of a worker can
disturb the order.

`output_order` adds where the others are: each has been evicted, refused, discarded or abandoned,
and no worker abandons two of them.
-/

set_option autoImplicit false

namespace PipeWorks.NvidiaPipe.Sender

open StepSystem

/-- The packet of a `submit` that has not returned, until it is in the queue. -/
def SubmitPc.pending : SubmitPc → List Submission
  | .idle => []
  | .putting e | .evicting e | .replacing e => [e]

/-- The packets that may still be muxed, oldest first. -/
def Delivery.line (x : Delivery) : List Submission :=
  x.held.toList ++ x.queue ++ x.submit.pending

/-- What has become of a packet that will not be muxed. -/
def Delivery.Lost (x : Delivery) (e : Submission) : Prop :=
  e ∈ x.evicted ∨ e ∈ x.refused ∨ e ∈ x.discarded ∨ ∃ pid, (pid, e) ∈ x.abandoned

/-- The worker takes nothing from the queue any more. -/
def Worker.Spent (w : Worker) (getting : Bool) : Prop :=
  w.alive = false ∨ w.send.pc.item? = none ∧ getting = false ∧
    (w.send.shutdown = true ∨ w.send.pc ≠ .fetch)

structure InLine (x : Delivery) : Prop where
  numbered : x.submitted.map (·.number) = List.range x.submitted.length
  line : (x.muxed ++ x.line).Sublist x.submitted
  accounted : ∀ e ∈ x.submitted, e ∈ x.muxed ∨ e ∈ x.line ∨ x.Lost e
  /-- the packet in the hands of the worker is the one `send` works on -/
  hands : x.held.map (·.packet) = x.sender.item?.map (·.packet)
  keyframes : ∀ e ∈ x.discarded, e.packet.isKeyframe = false
  single : (x.abandoned.map Prod.fst).Nodup
  empty : x.getting = true → x.held = none
  started : ∀ a ∈ x.abandoned, a.1 < x.sender.spawned
  registered : ∀ w, x.sender.process = some w → w.pid < x.sender.spawned
  spent : ∀ w, x.sender.process = some w → w.pid ∈ x.abandoned.map Prod.fst → w.Spent x.getting

variable {timeout : Int} {capacity : Nat} {x y : Delivery} {s t : State} {e : Submission}

theorem inLine_init (now : Int) : InLine (Delivery.init now) where
  numbered := rfl
  line := List.nil_sublist _
  accounted := fun _ he => by cases he
  hands := rfl
  keyframes := fun _ he => by cases he
  single := List.nodup_nil
  empty := nofun
  started := fun _ ha => by cases ha
  registered := fun _ hw => by cases hw
  spent := fun _ hw => by cases hw

/-! ## `submit` -/

/-- A step of `submit` that submits nothing new and leaves the worker alone. -/
theorem InLine.submit_frame (h : InLine x) {queue : List Submission} {submit : SubmitPc}
    {evicted refused : List Submission}
    (hline : (x.held.toList ++ queue ++ submit.pending).Sublist x.line)
    (hlost : ∀ e ∈ x.line, e ∈ x.held.toList ++ queue ++ submit.pending ∨ e ∈ evicted ∨ e ∈ refused)
    (hevicted : ∀ e ∈ x.evicted, e ∈ evicted) (hrefused : ∀ e ∈ x.refused, e ∈ refused) :
    InLine { x with queue := queue, submit := submit, evicted := evicted, refused := refused } where
  numbered := h.numbered
  line := (hline.append_left x.muxed).trans h.line
  accounted := by
    intro e he
    rcases h.accounted e he with hmuxed | hin | hevict | hrefuse | hrest
    · exact .inl hmuxed
    · rcases hlost e hin with hin | hevict | hrefuse
      · exact .inr (.inl hin)
      · exact .inr (.inr (.inl hevict))
      · exact .inr (.inr (.inr (.inl hrefuse)))
    · exact .inr (.inr (.inl (hevicted e hevict)))
    · exact .inr (.inr (.inr (.inl (hrefused e hrefuse))))
    · exact .inr (.inr (.inr (.inr hrest)))
  hands := h.hands
  keyframes := h.keyframes
  single := h.single
  empty := h.empty
  started := h.started
  registered := h.registered
  spent := h.spent

/-- The packet of `submit` moves up, and the line stays as it is. -/
theorem InLine.submit_keep (h : InLine x) {queue : List Submission} {submit : SubmitPc}
    (hline : x.held.toList ++ queue ++ submit.pending = x.line) :
    InLine { x with queue := queue, submit := submit } :=
  h.submit_frame (hline ▸ List.Sublist.refl _) (fun _ he => .inl (hline ▸ he)) (fun _ => id)
    fun _ => id

theorem InLine.call (h : InLine x) (hidle : x.submit = .idle) (p : Send.EncodedPacket) :
    InLine (x.call p) where
  numbered := by
    simp only [Delivery.call, List.map_append, h.numbered, List.map_cons, List.map_nil,
      List.length_append, List.length_cons, List.length_nil, List.range_succ]
  line := by
    have hline := h.line
    simp only [Delivery.line, hidle, SubmitPc.pending, List.append_nil] at hline
    simp only [Delivery.line, Delivery.call, SubmitPc.pending, ← List.append_assoc]
    rw [← List.append_assoc] at hline
    exact hline.append (List.Sublist.refl _)
  accounted := by
    intro e he
    rcases List.mem_append.mp he with he | he
    · rcases h.accounted e he with hmuxed | hin | hlost
      · exact .inl hmuxed
      · right; left
        simp only [Delivery.line, hidle, SubmitPc.pending, List.append_nil] at hin
        exact List.mem_append_left _ hin
      · exact .inr (.inr hlost)
    · exact .inr (.inl (List.mem_append_right _ he))
  hands := h.hands
  keyframes := h.keyframes
  single := h.single
  empty := h.empty
  started := h.started
  registered := h.registered
  spent := h.spent

theorem submitStep_inLine {l : DeliveryLabel} (h : InLine x)
    (hstep : submitStep capacity x l = some y) : InLine y := by
  cases submitStep_submits hstep with
  | call p hidle => exact h.call hidle p
  | put e hputting _ =>
    exact h.submit_keep (by simp [Delivery.line, hputting, SubmitPc.pending])
  | putFull e hputting _ =>
    exact h.submit_keep (by simp [Delivery.line, hputting, SubmitPc.pending])
  | evict e oldest rest hevicting hqueue =>
    apply h.submit_frame
    · simp [Delivery.line, hevicting, hqueue, SubmitPc.pending]
    · simp [Delivery.line, hevicting, hqueue, SubmitPc.pending]
      grind
    · exact fun e he => List.mem_append_left _ he
    · exact fun _ => id
  | evictEmpty e hevicting hqueue =>
    apply h.submit_frame
    · simp [Delivery.line, hevicting, hqueue, SubmitPc.pending]
    · simp [Delivery.line, hevicting, hqueue, SubmitPc.pending]
      grind
    · exact fun _ => id
    · exact fun e he => List.mem_append_left _ he
  | replace e hreplacing _ =>
    exact h.submit_keep (by simp [Delivery.line, hreplacing, SubmitPc.pending])
  | replaceFull e hreplacing _ =>
    apply h.submit_frame
    · simp [Delivery.line, hreplacing, SubmitPc.pending]
    · simp [Delivery.line, hreplacing, SubmitPc.pending]
      grind
    · exact fun _ => id
    · exact fun e he => List.mem_append_left _ he

/-! ## The worker -/

/-- Only a success, a look at the packet and an error while closing take a packet away from
    `send`. -/
theorem send_item_cases {a b : Send.State} {e : Send.Event} (hstep : Send.step a e = some b)
    (hnext : ∀ p, e ≠ .next p) :
    b.pc.item? = a.pc.item? ∨ ∃ it, a.pc.item? = some it ∧ b.pc.item? = none ∧
      ((∃ now, e = .muxed now) ∨
        e = .check ∧ (a.shutdown = true ∨ it.packet.isKeyframe = false) ∨
        e = .close false ∧ b.pc ≠ .fetch) := by
  cases Send.step_transition hstep with
  | shutdown => exact .inl rfl
  | next p hpc => exact absurd rfl (hnext p)
  | exhausted hpc =>
    left
    unfold Send.State.toFinally
    split <;> simp [hpc, Send.Pc.item?]
  | check it hpc =>
    have hit : a.pc.item? = some it := Send.item?_pc hpc
    unfold Send.State.check
    split
    · exact .inr ⟨it, hit, rfl, .inr (.inl ⟨rfl, .inl ‹_›⟩)⟩
    · split
      · rename_i hpass
        rw [Bool.and_eq_true, Bool.not_eq_true'] at hpass
        exact .inr ⟨it, hit, rfl, .inr (.inl ⟨rfl, .inr hpass.2⟩)⟩
      · left
        split <;> exact hit.symm
  | avOpenRaises it hpc | addStreamRaises it hpc | muxRaises it hpc =>
    left
    unfold Send.State.fail
    split <;> exact (Send.item?_pc hpc).symm
  | avOpen it hpc | addStream it hpc | close it hpc | wait it hpc | finish pending ok hpc =>
    exact .inl (Send.item?_pc hpc).symm
  | muxed it now k out hpc => exact .inr ⟨it, Send.item?_pc hpc, rfl, .inl ⟨now, rfl⟩⟩
  | closeRaises it hpc => exact .inr ⟨it, Send.item?_pc hpc, rfl, .inr (.inr ⟨rfl, nofun⟩)⟩

/-- The ways in which a packet leaves the hands of `send`. -/
theorem send_released {a b : Send.State} {e : Send.Event} {it : Send.Item}
    (hstep : Send.step a e = some b) (hnext : ∀ p, e ≠ .next p)
    (hitem : a.pc.item? = some it) (hnone : b.pc.item? = none) :
    (∃ now, e = .muxed now) ∨
      e = .check ∧ (a.shutdown = true ∨ it.packet.isKeyframe = false) ∨
      e = .close false ∧ b.pc ≠ .fetch := by
  rcases send_item_cases hstep hnext with heq | ⟨it', hit', -, hwhy⟩
  · rw [heq, hitem] at hnone
    cases hnone
  · rw [hitem] at hit'
    cases hit'
    exact hwhy

theorem send_next {a b : Send.State} {p : Send.EncodedPacket}
    (hstep : Send.step a (.next p) = some b) : b.pc.item? = some ⟨a.fetched.length, p⟩ := by
  cases Send.step_transition hstep
  rfl

theorem shutdown_check (a : Send.State) (it : Send.Item) : (a.check it).shutdown = a.shutdown := by
  unfold Send.State.check
  split
  · rfl
  · split
    · rfl
    · split <;> rfl

theorem shutdown_fail (a : Send.State) (it : Send.Item) : (a.fail it).shutdown = a.shutdown := by
  unfold Send.State.fail
  split <;> rfl

theorem shutdown_toFinally (a : Send.State) (pending : Bool) :
    (a.toFinally pending).shutdown = a.shutdown := by
  unfold Send.State.toFinally
  split <;> rfl

/-- A stop event that is set stays set. -/
theorem send_shutdown {a b : Send.State} {e : Send.Event} (hstep : Send.step a e = some b)
    (h : a.shutdown = true) : b.shutdown = true := by
  cases Send.step_transition hstep with
  | shutdown => rfl
  | exhausted => exact (shutdown_toFinally a false).trans h
  | check it => exact (shutdown_check a it).trans h
  | avOpenRaises it | addStreamRaises it | muxRaises it => exact (shutdown_fail a it).trans h
  | next | avOpen | addStream | muxed | close | closeRaises | wait | finish => exact h

/-- A `send` that is ending does not come back. -/
theorem send_ending {a b : Send.State} {e : Send.Event} (hstep : Send.step a e = some b)
    (hitem : a.pc.item? = none) (hpc : a.pc ≠ .fetch) : b.pc ≠ .fetch := by
  cases Send.step_transition hstep with
  | shutdown => exact hpc
  | next p hfetch => exact absurd hfetch hpc
  | exhausted hfetch => exact absurd hfetch hpc
  | finish => nofun
  | check it h | avOpen it h | avOpenRaises it h | addStream it h | addStreamRaises it h
  | muxed it now k out h | muxRaises it h | close it h | closeRaises it h | wait it h =>
    rw [h] at hitem
    cases hitem

/-! ## Steps of the `Sender` -/

/-- What a step makes of a registered worker. -/
inductive Continues (l : Label) (w w' : Worker) : Prop where
  | same : w'.send = w.send → w'.alive = w.alive → Continues l w w'
  | stopping : w'.send = { w.send with shutdown := true } → w'.alive = w.alive → Continues l w w'
  | dead : w'.send = w.send → w'.alive = false → Continues l w w'
  | worked (e : Send.Event) : l = .worker e → Send.step w.send e = some w'.send →
      w'.alive = w.alive → Continues l w w'

/-- The registered worker after a step is a new one, or goes on from the one before. -/
theorem step_process {l : Label} (hstep : step timeout s l = some t) :
    s.spawned ≤ t.spawned ∧ ∀ w', t.process = some w' →
      (w'.pid = s.spawned ∧ t.spawned = s.spawned + 1 ∧ w'.send = Send.State.init) ∨
        ∃ w, s.process = some w ∧ w'.pid = w.pid ∧ Continues l w w' := by
  have hsame : ∀ w', s.process = some w' →
      (w'.pid = s.spawned ∧ s.spawned = s.spawned + 1 ∧ w'.send = Send.State.init) ∨
        ∃ w, s.process = some w ∧ w'.pid = w.pid ∧ Continues l w w' :=
    fun w' hw' => .inr ⟨w', hw', rfl, .same rfl rfl⟩
  have hrequest : ∀ w', s.requestStop.process = some w' →
      (w'.pid = s.spawned ∧ s.spawned = s.spawned + 1 ∧ w'.send = Send.State.init) ∨
        ∃ w, s.process = some w ∧ w'.pid = w.pid ∧ Continues l w w' := by
    intro w' hw'
    obtain ⟨w, hw, rfl⟩ := Option.map_eq_some_iff.mp hw'
    exact .inr ⟨w, hw, rfl, .stopping rfl rfl⟩
  cases step_moves hstep with
  | start | monitorRestarts =>
    refine ⟨Nat.le_succ _, fun w' hw' => ?_⟩
    cases hw'
    exact .inl ⟨rfl, rfl, rfl⟩
  | stopRequested | stopJoined | monitorWake | monitorIdle | monitorGivesUp | advance =>
    exact ⟨Nat.le_refl _, hsame⟩
  | stopLocked | monitorEnds => exact ⟨Nat.le_refl _, hrequest⟩
  | stopReaped | monitorReaped => exact ⟨Nat.le_refl _, fun _ hw' => by cases hw'⟩
  | worker e hworker =>
    obtain ⟨w, send, hw, -, -, hsend, rfl⟩ := workerStep_cases hworker
    refine ⟨Nat.le_refl _, fun w' hw' => .inr ⟨w, hw, ?_⟩⟩
    cases hw'
    cases e <;> exact ⟨rfl, .worked _ rfl hsend rfl⟩
  | workerExit =>
    refine ⟨Nat.le_refl _, fun w' hw' => ?_⟩
    obtain ⟨w, hw, rfl⟩ := Option.map_eq_some_iff.mp hw'
    exact .inr ⟨w, hw, rfl, .dead rfl rfl⟩

/-- A worker that takes nothing any more goes on taking nothing. -/
theorem Worker.Spent.continues {l : Label} {w w' : Worker} {getting getting' : Bool}
    (h : w.Spent getting) (hcontinues : Continues l w w')
    (hgetting : getting = false → getting' = false) (hnext : ∀ p, l ≠ .worker (.next p)) :
    w'.Spent getting' := by
  rcases h with hdead | ⟨hitem, hget, hends⟩
  · left
    cases hcontinues with
    | same _ halive | stopping _ halive | worked _ _ _ halive => exact halive.trans hdead
    | dead _ halive => exact halive
  · cases hcontinues with
    | same hsend _ =>
      rw [Spent, hsend]
      exact .inr ⟨hitem, hgetting hget, hends⟩
    | stopping hsend _ =>
      rw [Spent, hsend]
      exact .inr ⟨hitem, hgetting hget, .inl rfl⟩
    | dead _ halive => exact .inl halive
    | worked e hl hsend _ =>
      refine .inr ⟨?_, hgetting hget, ?_⟩
      · rcases send_item_cases hsend (fun p he => hnext p (he ▸ hl)) with heq | ⟨it, hit, -⟩
        · exact heq.trans hitem
        · rw [hitem] at hit
          cases hit
      · exact hends.imp (send_shutdown hsend) (send_ending hsend hitem)

theorem item?_eq_some {it : Send.Item} : s.item? = some it ↔
    ∃ w, s.process = some w ∧ w.alive = true ∧ w.send.pc.item? = some it := by
  unfold State.item?
  cases s.process with
  | none => simp
  | some w => cases hw : w.alive <;> simp [hw]

theorem item?_of_process {w : Worker} (hw : s.process = some w) (halive : w.alive = true) :
    s.item? = w.send.pc.item? := by
  unfold State.item?
  rw [hw]
  simp [halive]

/-- Unless a packet is delivered, the worker keeps the packet in its hands or has none. -/
theorem step_item {l : Label} (hstep : step timeout s l = some t)
    (hnext : ∀ p, l ≠ .worker (.next p)) : t.item? = s.item? ∨ t.item? = none := by
  rw [or_iff_not_imp_right]
  intro hne
  obtain ⟨it, hit⟩ := Option.ne_none_iff_exists'.mp hne
  obtain ⟨w', hw', halive, hitem⟩ := item?_eq_some.mp hit
  rcases (step_process hstep).2 w' hw' with ⟨-, -, hinit⟩ | ⟨w, hw, -, hcontinues⟩
  · rw [hinit] at hitem
    cases hitem
  · rw [item?_of_process hw' halive]
    cases hcontinues with
    | same hsend heq => rw [hsend, item?_of_process hw (heq ▸ halive)]
    | stopping hsend heq => rw [hsend, item?_of_process hw (heq ▸ halive)]
    | dead _ hdead =>
      rw [hdead] at halive
      cases halive
    | worked e hl hsend heq =>
      rw [item?_of_process hw (heq ▸ halive)]
      rcases send_item_cases hsend fun p he => hnext p (he ▸ hl) with heq | ⟨-, -, hnone, -⟩
      · exact heq
      · rw [hnone] at hitem
        cases hitem

/-- The workers after a step, as far as `InLine` speaks of them. -/
theorem InLine.workers {l : Label} (h : InLine x) (hstep : step timeout x.sender l = some t)
    (hnext : ∀ p, l ≠ .worker (.next p)) :
    (∀ a ∈ x.abandoned, a.1 < t.spawned) ∧ (∀ w, t.process = some w → w.pid < t.spawned) ∧
      ∀ w, t.process = some w → w.pid ∈ x.abandoned.map Prod.fst →
        w.Spent (x.getting && t.process.isSome) := by
  obtain ⟨hspawned, hprocess⟩ := step_process hstep
  refine ⟨fun a ha => Nat.lt_of_lt_of_le (h.started a ha) hspawned, fun w hw => ?_,
    fun w hw hmem => ?_⟩
  · rcases hprocess w hw with ⟨hpid, hnew, -⟩ | ⟨w₀, hw₀, hpid, -⟩
    · omega
    · have := h.registered w₀ hw₀
      omega
  · rcases hprocess w hw with ⟨hpid, -, -⟩ | ⟨w₀, hw₀, hpid, hcontinues⟩
    · obtain ⟨a, ha, hfst⟩ := List.mem_map.mp hmem
      have := h.started a ha
      omega
    · refine (h.spent w₀ hw₀ (hpid ▸ hmem)).continues hcontinues (fun hget => ?_) hnext
      rw [hget, Bool.false_and]

/-- A step after which the worker has the packet it had, or has none and had none. -/
theorem InLine.keep {l : Label} (h : InLine x) (hstep : step timeout x.sender l = some t)
    (hnext : ∀ p, l ≠ .worker (.next p))
    (hands : x.held.map (·.packet) = t.item?.map (·.packet)) :
    InLine { x with sender := t, getting := x.getting && t.process.isSome } where
  numbered := h.numbered
  line := h.line
  accounted := h.accounted
  hands := hands
  keyframes := h.keyframes
  single := h.single
  empty := fun hget => h.empty (Bool.and_eq_true_iff.mp hget).1
  started := (h.workers hstep hnext).1
  registered := (h.workers hstep hnext).2.1
  spent := (h.workers hstep hnext).2.2

/-- The packet in the hands of the worker is at the head of the line. -/
theorem line_of_held (hheld : x.held = some e) : x.line = e :: (x.queue ++ x.submit.pending) := by
  simp [Delivery.line, hheld]

theorem InLine.muxed {l : Label} (h : InLine x) (hheld : x.held = some e)
    (hstep : step timeout x.sender l = some t) (hnext : ∀ p, l ≠ .worker (.next p))
    (hnone : t.item? = none) :
    InLine { x with
      held := none
      muxed := x.muxed ++ [e]
      sender := t
      getting := x.getting && t.process.isSome } where
  numbered := h.numbered
  line := by
    have hline := h.line
    rw [line_of_held hheld] at hline
    simpa [Delivery.line] using hline
  accounted := by
    intro e' he'
    rcases h.accounted e' he' with hmuxed | hin | hlost
    · exact .inl (List.mem_append_left _ hmuxed)
    · rw [line_of_held hheld] at hin
      rcases List.mem_cons.mp hin with rfl | hin
      · exact .inl (List.mem_append_right _ (List.mem_singleton_self _))
      · exact .inr (.inl (by simpa [Delivery.line] using hin))
    · exact .inr (.inr hlost)
  hands := by rw [hnone]; rfl
  keyframes := h.keyframes
  single := h.single
  empty := fun _ => rfl
  started := (h.workers hstep hnext).1
  registered := (h.workers hstep hnext).2.1
  spent := (h.workers hstep hnext).2.2

/-- The packet in the hands of the worker leaves the line. -/
theorem InLine.drop (h : InLine x) (hheld : x.held = some e) (discarded : List Submission)
    (abandoned : List (Nat × Submission)) (hdiscarded : ∀ e ∈ x.discarded, e ∈ discarded)
    (habandoned : ∀ a ∈ x.abandoned, a ∈ abandoned)
    (hlost : e ∈ discarded ∨ ∃ pid, (pid, e) ∈ abandoned) :
    (x.muxed ++ (x.queue ++ x.submit.pending)).Sublist x.submitted ∧
      ∀ e' ∈ x.submitted, e' ∈ x.muxed ∨ e' ∈ x.queue ++ x.submit.pending ∨ e' ∈ x.evicted ∨
        e' ∈ x.refused ∨ e' ∈ discarded ∨ ∃ pid, (pid, e') ∈ abandoned := by
  have hline := line_of_held hheld
  constructor
  · have hsub := h.line
    rw [hline] at hsub
    exact ((List.sublist_cons_self e _).append_left _).trans hsub
  · intro e' he'
    rcases h.accounted e' he' with hmuxed | hin | hevict | hrefuse | hdiscard | ⟨pid, habandon⟩
    · exact .inl hmuxed
    · rw [hline] at hin
      rcases List.mem_cons.mp hin with rfl | hin
      · exact .inr (.inr (.inr (.inr hlost)))
      · exact .inr (.inl hin)
    · exact .inr (.inr (.inl hevict))
    · exact .inr (.inr (.inr (.inl hrefuse)))
    · exact .inr (.inr (.inr (.inr (.inl (hdiscarded e' hdiscard)))))
    · exact .inr (.inr (.inr (.inr (.inr ⟨pid, habandoned _ habandon⟩))))

theorem InLine.discard {l : Label} (h : InLine x) (hheld : x.held = some e)
    (hstep : step timeout x.sender l = some t) (hnext : ∀ p, l ≠ .worker (.next p))
    (hnone : t.item? = none) (hkey : e.packet.isKeyframe = false) :
    InLine { x with
      held := none
      discarded := x.discarded ++ [e]
      sender := t
      getting := x.getting && t.process.isSome } := by
  obtain ⟨hsub, haccounted⟩ := h.drop hheld (x.discarded ++ [e]) x.abandoned
    (fun _ he => List.mem_append_left _ he) (fun _ => id)
    (.inl (List.mem_append_right _ (List.mem_singleton_self _)))
  refine ⟨h.numbered, by simpa [Delivery.line] using hsub, ?_, by rw [hnone]; rfl, ?_, h.single,
    fun _ => rfl, (h.workers hstep hnext).1, (h.workers hstep hnext).2.1,
    (h.workers hstep hnext).2.2⟩
  · simpa [Delivery.line, Delivery.Lost] using haccounted
  · intro e' he'
    rcases List.mem_append.mp he' with he' | he'
    · exact h.keyframes e' he'
    · rw [List.mem_singleton.mp he']
      exact hkey

/-- The worker whose packet is in its hands. -/
theorem InLine.holder (h : InLine x) (hheld : x.held = some e) :
    x.getting = false ∧ ∃ w it, x.sender.process = some w ∧ w.alive = true ∧
      w.send.pc.item? = some it ∧ it.packet = e.packet ∧ w.pid ∉ x.abandoned.map Prod.fst := by
  have hget : x.getting = false := by
    by_contra hget
    rw [h.empty (Bool.not_eq_false _ ▸ hget)] at hheld
    cases hheld
  have hands := h.hands
  rw [hheld] at hands
  obtain ⟨it, hit, hpacket⟩ := Option.map_eq_some_iff.mp hands.symm
  obtain ⟨w, hw, halive, hitem⟩ := item?_eq_some.mp hit
  refine ⟨hget, w, it, hw, halive, hitem, hpacket, fun hmem => ?_⟩
  rcases h.spent w hw hmem with hdead | ⟨hnone, -⟩
  · rw [hdead] at halive
    cases halive
  · rw [hnone] at hitem
    cases hitem

theorem InLine.abandon {l : Label} {w : Worker} (h : InLine x) (hheld : x.held = some e)
    (hstep : step timeout x.sender l = some t) (hnext : ∀ p, l ≠ .worker (.next p))
    (hnone : t.item? = none) (hw : x.sender.process = some w)
    (hspent : ∀ w', t.process = some w' → Continues l w w' → w'.Spent false) :
    InLine { x with
      held := none
      abandoned := x.abandoned ++ [(w.pid, e)]
      sender := t
      getting := x.getting && t.process.isSome } := by
  obtain ⟨hget, w₀, it, hw₀, -, -, -, hfresh⟩ := h.holder hheld
  rw [hw] at hw₀
  cases hw₀
  obtain ⟨hstarted, hregistered, hold⟩ := h.workers hstep hnext
  obtain ⟨hsub, haccounted⟩ := h.drop hheld x.discarded (x.abandoned ++ [(w.pid, e)])
    (fun _ => id) (fun _ ha => List.mem_append_left _ ha)
    (.inr ⟨w.pid, List.mem_append_right _ (List.mem_singleton_self _)⟩)
  refine ⟨h.numbered, by simpa [Delivery.line] using hsub, ?_, by rw [hnone]; rfl, h.keyframes, ?_,
    fun _ => rfl, ?_, hregistered, ?_⟩
  · simpa [Delivery.line, Delivery.Lost] using haccounted
  · rw [List.map_append]
    exact List.Nodup.append h.single (List.nodup_singleton _)
      (by simpa [List.disjoint_singleton] using hfresh)
  · intro a ha
    rcases List.mem_append.mp ha with ha | ha
    · exact hstarted a ha
    · rw [List.mem_singleton.mp ha]
      exact Nat.lt_of_lt_of_le (h.registered w hw) (step_process hstep).1
  · intro w' hw' hmem
    rw [List.map_append] at hmem
    rcases List.mem_append.mp hmem with hmem | hmem
    · exact hold w' hw' hmem
    · have hpid : w'.pid = w.pid := List.mem_singleton.mp hmem
      rcases (step_process hstep).2 w' hw' with ⟨hnew, -, -⟩ | ⟨w₀, hw₀, -, hcontinues⟩
      · have := h.registered w hw
        omega
      · rw [hw] at hw₀
        cases hw₀
        simp only [hget, Bool.false_and]
        exact hspent w' hw' hcontinues

/-- What a worker has done to be without the packet it had. -/
theorem Continues.released {l : Label} {w w' : Worker} {it : Send.Item}
    (hcontinues : Continues l w w') (halive : w.alive = true)
    (hitem : w.send.pc.item? = some it)
    (hnone : w'.alive = true → w'.send.pc.item? = none) :
    w'.alive = false ∨ ∃ e, l = .worker e ∧ Send.step w.send e = some w'.send ∧
      w'.send.pc.item? = none := by
  cases hcontinues with
  | same hsend heq | stopping hsend heq =>
    have hgone := hnone (heq.trans halive)
    rw [hsend, hitem] at hgone
    cases hgone
  | dead _ hdead => exact .inl hdead
  | worked e hl hsend heq => exact .inr ⟨e, hl, hsend, hnone (heq.trans halive)⟩

/-- A packet that `check` passes over, without a stop event, is no keyframe. -/
theorem keyframe_of_checked {w : Worker} {it : Send.Item}
    (hstep : step timeout s (.worker .check) = some t) (hw : s.process = some w)
    (hitem : w.send.pc.item? = some it) (hnone : t.item? = none)
    (hrunning : ¬ w.send.shutdown = true) : it.packet.isKeyframe = false := by
  obtain ⟨w', send, hw', halive, -, hsend, rfl⟩ := workerStep_cases hstep
  rw [hw] at hw'
  cases hw'
  have halive' : (w.onEvent send .check).alive = true := halive
  have hgone : send.pc.item? = none := (item?_of_process rfl halive').symm.trans hnone
  rcases send_released hsend nofun hitem hgone with ⟨now, hmuxed⟩ | ⟨-, hstop | hkey⟩ | ⟨hclose, -⟩
  · cases hmuxed
  · exact absurd hstop hrunning
  · exact hkey
  · cases hclose

/-- Where the packet of the worker goes. -/
theorem InLine.release {l : Label} (h : InLine x) (hheld : x.held = some e)
    (hstep : step timeout x.sender l = some t) (hnext : ∀ p, l ≠ .worker (.next p))
    (hnone : t.item? = none) : InLine (x.after l t) := by
  obtain ⟨hget, w, it, hw, halive, hitem, hpacket, -⟩ := h.holder hheld
  have hreleased : ∀ w', t.process = some w' → Continues l w w' →
      w'.alive = false ∨ ∃ e, l = .worker e ∧ Send.step w.send e = some w'.send ∧
        w'.send.pc.item? = none := fun w' hw' hcontinues =>
    hcontinues.released halive hitem fun ha => item?_of_process hw' ha ▸ hnone
  unfold Delivery.after Delivery.release
  simp only [hheld, hnone, Option.isSome_none, Bool.false_eq_true, if_false]
  split
  · exact h.muxed hheld hstep hnext hnone
  · rw [hw]
    simp only [Option.any_some, Option.map_some, Option.toList_some]
    split
    · rename_i hshutdown
      refine h.abandon hheld hstep hnext hnone hw fun w' hw' hcontinues => ?_
      rcases hreleased w' hw' hcontinues with hdead | ⟨e', -, hsend, hnone'⟩
      · exact .inl hdead
      · exact .inr ⟨hnone', rfl, .inl (send_shutdown hsend hshutdown)⟩
    · rename_i hrunning
      refine h.discard hheld hstep hnext hnone ?_
      rw [← hpacket]
      exact keyframe_of_checked hstep hw hitem hnone hrunning
  · rename_i hmuxed hcheck
    rw [hw]
    simp only [Option.map_some, Option.toList_some]
    refine h.abandon hheld hstep hnext hnone hw fun w' hw' hcontinues => ?_
    rcases hreleased w' hw' hcontinues with hdead | ⟨e', hl, hsend, hnone'⟩
    · exact .inl hdead
    · refine .inr ⟨hnone', rfl, .inr ?_⟩
      rcases send_released hsend (fun p he => hnext p (he ▸ hl)) hitem hnone' with
        ⟨now, rfl⟩ | ⟨rfl, -⟩ | ⟨-, hpc⟩
      · exact absurd hl (hmuxed now)
      · exact absurd hl hcheck
      · exact hpc

theorem InLine.after {l : Label} (h : InLine x) (hstep : step timeout x.sender l = some t)
    (hnext : ∀ p, l ≠ .worker (.next p)) : InLine (x.after l t) := by
  have hands := h.hands
  rcases hheld : x.held with _ | e
  · -- nothing in the hands of the worker, and nothing is delivered
    have hkeep : x.after l t =
        { x with sender := t, getting := x.getting && t.process.isSome } := by
      simp only [Delivery.after, hheld]
    rw [hkeep]
    apply h.keep hstep hnext
    rw [hheld] at hands ⊢
    rcases step_item hstep hnext with heq | hnone
    · rw [heq]
      exact hands
    · rw [hnone]
      rfl
  · cases hitem : t.item? with
    | none => exact h.release hheld hstep hnext hitem
    | some it =>
      have hkeep : x.after l t =
          { x with sender := t, getting := x.getting && t.process.isSome } := by
        simp only [Delivery.after, hheld, hitem, Option.isSome_some, if_true]
      rw [hkeep]
      apply h.keep hstep hnext
      rcases step_item hstep hnext with heq | hnone
      · rw [heq]
        exact hands
      · rw [hnone] at hitem
        cases hitem

/-! ## Steps of the queue -/

theorem worker?_eq_some {w : Worker} :
    s.worker? = some w ↔ s.process = some w ∧ w.alive = true := by
  simp [State.worker?, Option.filter_eq_some_iff]

/-- The worker asks for a packet, having none. -/
theorem InLine.get (h : InLine x) {w : Worker} (hw : x.sender.process = some w)
    (halive : w.alive = true) (hmay : mayGet w = true) : InLine { x with getting := true } := by
  simp only [mayGet, Bool.and_eq_true, beq_iff_eq, Bool.not_eq_true'] at hmay
  have hitem : x.sender.item? = none := by
    rw [item?_of_process hw halive, hmay.1]
    rfl
  refine ⟨h.numbered, h.line, h.accounted, h.hands, h.keyframes, h.single, fun _ => ?_, h.started,
    h.registered, fun w' hw' hmem => ?_⟩
  · have hands := h.hands
    rw [hitem] at hands
    exact Option.map_eq_none_iff.mp hands
  · rw [hw] at hw'
    cases hw'
    rcases h.spent w hw hmem with hdead | ⟨-, -, hstop | hpc⟩
    · exact .inl hdead
    · rw [hmay.2] at hstop
      cases hstop
    · exact absurd hmay.1 hpc

/-- The packet at the head of the queue goes into the hands of the worker. -/
theorem InLine.take (h : InLine x) {rest : List Submission} (hget : x.getting = true)
    (hqueue : x.queue = e :: rest)
    (hstep : step timeout x.sender (.worker (.next e.packet)) = some t) :
    InLine { x with sender := t, queue := rest, getting := false, held := some e } := by
  obtain ⟨w, send, hw, halive, -, hsend, rfl⟩ := workerStep_cases hstep
  have hheld := h.empty hget
  have hline : (some e).toList ++ rest ++ x.submit.pending = x.line := by
    simp [Delivery.line, hheld, hqueue]
  refine ⟨h.numbered, ?_, fun e' he' => ?_, ?_, h.keyframes, h.single, nofun, h.started,
    fun w' hw' => ?_, fun w' hw' hmem => ?_⟩
  · show (x.muxed ++ ((some e).toList ++ rest ++ x.submit.pending)).Sublist x.submitted
    rw [hline]
    exact h.line
  · show e' ∈ x.muxed ∨ e' ∈ (some e).toList ++ rest ++ x.submit.pending ∨ x.Lost e'
    rw [hline]
    exact h.accounted e' he'
  · have halive' : (w.onEvent send (.next e.packet)).alive = true := halive
    rw [item?_of_process rfl halive']
    show some e.packet = send.pc.item?.map (·.packet)
    rw [send_next hsend]
    rfl
  · cases hw'
    exact h.registered w hw
  · cases hw'
    rcases h.spent w hw hmem with hdead | ⟨-, hnot, -⟩
    · rw [hdead] at halive
      cases halive
    · rw [hget] at hnot
      cases hnot

theorem deliveryStep_inLine {l : DeliveryLabel} (h : InLine x)
    (hstep : deliveryStep timeout capacity x l = some y) : InLine y := by
  cases l with
  | submit p | put | putFull | evict | evictEmpty | replace | replaceFull =>
    exact submitStep_inLine h hstep
  | get =>
    simp only [deliveryStep] at hstep
    split at hstep
    · cases hstep
    · obtain ⟨w, hw, rfl⟩ := Option.map_eq_some_iff.mp hstep
      obtain ⟨hw, hmay⟩ := Option.filter_eq_some_iff.mp hw
      obtain ⟨hw, halive⟩ := worker?_eq_some.mp hw
      exact h.get hw halive hmay
  | getEmpty =>
    simp only [deliveryStep] at hstep
    split at hstep <;> cases hstep
    refine ⟨h.numbered, h.line, h.accounted, h.hands, h.keyframes, h.single, nofun, h.started,
      h.registered, fun w hw hmem => ?_⟩
    exact (h.spent w hw hmem).imp id fun hspent => ⟨hspent.1, rfl, hspent.2.2⟩
  | take =>
    simp only [deliveryStep] at hstep
    split at hstep
    · rename_i e rest hget hqueue
      obtain ⟨t, ht, rfl⟩ := Option.map_eq_some_iff.mp hstep
      exact h.take hget hqueue ht
    · cases hstep
  | sender l =>
    simp only [deliveryStep] at hstep
    split at hstep
    · rename_i hallows
      obtain ⟨t, ht, rfl⟩ := Option.map_eq_some_iff.mp hstep
      apply h.after ht
      rintro p rfl
      cases hallows
    · cases hstep

/-! ## Whole runs -/

/-- What an observer of a whole run sees. -/
structure OutputOrder (x : Delivery) : Prop where
  /-- the submitted packets are told apart by their number -/
  numbered : x.submitted.map (·.number) = List.range x.submitted.length
  /-- the muxed packets are a subsequence of them, without duplicates -/
  order : x.muxed.Sublist x.submitted
  /-- what is neither muxed nor queued is lost, or still in the hands of the worker or of
      `submit` -/
  accounted : ∀ e ∈ x.submitted, e ∉ x.muxed → e ∉ x.queue →
    x.Lost e ∨ x.held = some e ∨ e ∈ x.submit.pending
  /-- only the worker that is alive has a packet in its hands -/
  held : ∀ e, x.held = some e → ∃ w it, x.sender.process = some w ∧ w.alive = true ∧
    w.send.pc.item? = some it ∧ it.packet = e.packet
  /-- when `stop` and `submit` have returned, what is neither muxed nor queued is lost -/
  final : x.sender.main = .stopped → x.submit = .idle →
    ∀ e ∈ x.submitted, e ∉ x.muxed → e ∉ x.queue → x.Lost e
  /-- what a worker passes over is no keyframe -/
  discarded : ∀ e ∈ x.discarded, e.packet.isKeyframe = false
  /-- no worker abandons two packets -/
  single : (x.abandoned.map Prod.fst).Nodup

/-- The queue does not touch the `Sender`. -/
theorem deliveryStep_sender {l : DeliveryLabel}
    (hstep : deliveryStep timeout capacity x l = some y) :
    y.sender = x.sender ∨ ∃ l', step timeout x.sender l' = some y.sender := by
  cases l with
  | submit p | put | putFull | evict | evictEmpty | replace | replaceFull =>
    left
    cases submitStep_submits hstep
    rfl
  | get =>
    simp only [deliveryStep] at hstep
    split at hstep
    · cases hstep
    · obtain ⟨w, -, rfl⟩ := Option.map_eq_some_iff.mp hstep
      exact .inl rfl
  | getEmpty =>
    simp only [deliveryStep] at hstep
    split at hstep <;> cases hstep
    exact .inl rfl
  | take =>
    simp only [deliveryStep] at hstep
    split at hstep
    · obtain ⟨t, ht, rfl⟩ := Option.map_eq_some_iff.mp hstep
      exact .inr ⟨_, ht⟩
    · cases hstep
  | sender l =>
    simp only [deliveryStep] at hstep
    split at hstep
    · obtain ⟨t, ht, rfl⟩ := Option.map_eq_some_iff.mp hstep
      exact .inr ⟨l, ht⟩
    · cases hstep

/-- The `Sender` of a delivery is one of `Supervised`. -/
theorem deliveryStep_sole {l : DeliveryLabel} (h : ∃ unreaped, Sole ⟨x.sender, unreaped⟩)
    (hstep : deliveryStep timeout capacity x l = some y) :
    ∃ unreaped, Sole ⟨y.sender, unreaped⟩ := by
  obtain ⟨unreaped, h⟩ := h
  rcases deliveryStep_sender hstep with hsender | ⟨l', hsender⟩
  · rw [hsender]
    exact ⟨unreaped, h⟩
  · have hnext : supervisedStep timeout ⟨x.sender, unreaped⟩ l' =
        some ⟨y.sender, Supervised.unreapedAfter ⟨x.sender, unreaped⟩ l'⟩ := by
      unfold supervisedStep
      rw [hsender]
      rfl
    exact ⟨_, step_sole h hnext⟩

theorem InLine.outputOrder (h : InLine x) (hsole : ∃ unreaped, Sole ⟨x.sender, unreaped⟩) :
    OutputOrder x where
  numbered := h.numbered
  order := (List.sublist_append_left _ _).trans h.line
  accounted := by
    intro e he hmuxed hqueue
    rcases h.accounted e he with hin | hin | hlost
    · exact absurd hin hmuxed
    · simp only [Delivery.line, List.mem_append, Option.mem_toList] at hin
      rcases hin with (hheld | hin) | hpending
      · exact .inr (.inl hheld)
      · exact absurd hin hqueue
      · exact .inr (.inr hpending)
    · exact .inl hlost
  held := fun e hheld =>
    have ⟨_, w, it, hw, halive, hitem, hpacket, _⟩ := h.holder hheld
    ⟨w, it, hw, halive, hitem, hpacket⟩
  final := by
    intro hstopped hidle e he hmuxed hqueue
    rcases h.accounted e he with hin | hin | hlost
    · exact absurd hin hmuxed
    · simp only [Delivery.line, hidle, SubmitPc.pending, List.append_nil, List.mem_append,
        Option.mem_toList] at hin
      rcases hin with hheld | hin
      · obtain ⟨_, w, it, hw, -⟩ := h.holder hheld
        obtain ⟨unreaped, hsole⟩ := hsole
        rw [hsole.stopped hstopped] at hw
        cases hw
      · exact absurd hin hqueue
    · exact hlost
  discarded := h.keyframes
  single := h.single

/-- **The order of the output**, in every state of every run of the pipeline thread, the monitor,
    the main thread and the workers. -/
theorem output_order (timeout now : Int) (capacity : Nat) (labels : List DeliveryLabel) :
    Always (deliveryStep timeout capacity) OutputOrder (Delivery.init now) labels :=
  always_of_invariant (I := fun x => InLine x ∧ ∃ unreaped, Sole ⟨x.sender, unreaped⟩)
    (fun _ h => h.1.outputOrder h.2)
    (fun _ _ _ h hstep => ⟨deliveryStep_inLine h.1 hstep, deliveryStep_sole h.2 hstep⟩)
    ⟨inLine_init now, [], sole_init now⟩

end PipeWorks.NvidiaPipe.Sender
