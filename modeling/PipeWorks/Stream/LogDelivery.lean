import PipeWorks.Lib.StepSystem

/-!
# Log messages on their way to the supervisor (`LatestLogQueue`, `PipeLogHandler`, `_sendLogs`)

A logging thread puts its message into a bounded queue; the thread of `_sendLogs` takes the oldest
one out, looks whether there is a connection, sends it, and puts it back when there is none or
the sending fails.  The calls of the underlying queue are atomic; `LatestLogQueue.put` makes up to
three of them under its lock, and `get` does not take that lock.  A logging handler is locked while
it emits, so that messages are numbered in the order of their `emit` calls.

`logs_in_order`: as long as every message that is put back finds the queue empty, the messages are
sent in order, and what is in the queue is newer than everything that has been evicted.
`putBack_out_of_order` is a run in which a newer message has arrived meanwhile.
-/

set_option autoImplicit false

namespace PipeWorks.Stream.Logs

open StepSystem

/-! ## `LatestLogQueue` -/

structure LatestLogQueue (α : Type) where
  items : List α
  /-- history: what `put` has thrown away -/
  evicted : List α
  deriving DecidableEq, Repr

/-- Where a thread is in `put`. -/
inductive PutPc where
  /-- about to take the lock -/
  | locking
  /-- about to call `full` -/
  | checking
  /-- about to call `get_nowait` -/
  | evicting
  /-- about to call `put_nowait` -/
  | inserting
  deriving DecidableEq, Repr

inductive PutResult where
  | goesOn (pc : PutPc)
  | returned
  /-- `queue.Full` -/
  | raises
  deriving DecidableEq, Repr

/-- `Queue.full`; a size of zero means that there is no bound. -/
def LatestLogQueue.full {α : Type} (maxsize : Nat) (q : LatestLogQueue α) : Bool :=
  decide (0 < maxsize) && decide (maxsize ≤ q.items.length)

/-- One call of `put`, for the thread that may make it. -/
def LatestLogQueue.putStep {α : Type} (maxsize : Nat) (q : LatestLogQueue α) (item : α) :
    PutPc → LatestLogQueue α × PutResult
  | .locking => (q, .goesOn .checking)
  | .checking => (q, .goesOn (if q.full maxsize then .evicting else .inserting))
  | .evicting =>
    match q.items with
    | [] => (q, .goesOn .inserting)
    | oldest :: items =>
      ({ items := items, evicted := q.evicted ++ [oldest] }, .goesOn .inserting)
  | .inserting =>
    if q.full maxsize then (q, .raises) else ({ q with items := q.items ++ [item] }, .returned)

/-! ## The threads -/

/-- A message, by its number in the order of the `emit` calls. -/
abbrev Message := Nat

/-- The thread of `_sendLogs`. -/
inductive SenderPc where
  /-- at the head of the loop, or in `_connection_ready.wait(timeout=0.2)` -/
  | waiting
  /-- in `_log_queue.get(timeout=0.2)` -/
  | getting
  /-- about to call `_getConnection` -/
  | looking (m : Message)
  /-- in `_sendMessage` -/
  | sending (m : Message) (connection : Nat)
  /-- in `_log_queue.put`, with the connection to clear afterwards -/
  | puttingBack (m : Message) (broken : Option Nat) (pc : PutPc)
  /-- about to call `_clearConnection` -/
  | clearing (connection : Nat)
  | ended
  deriving DecidableEq, Repr

structure State where
  queue : LatestLogQueue Message
  /-- the message of the thread that is in `emit`, and where it is in `put` -/
  emitting : Option (Message × PutPc)
  /-- how many messages have been emitted -/
  emitted : Nat
  sender : SenderPc
  /-- `_connection`; `_connection_ready` is set exactly while there is one -/
  connection : Option Nat
  /-- how many connections there have been -/
  connections : Nat
  stopEvent : Bool
  /-- history: what has been sent, over any connection -/
  sent : List Message
  deriving DecidableEq, Repr

inductive Label where
  /-- a thread enters `emit` -/
  | emit
  /-- the next call of its `put` -/
  | emitterPut
  | wait
  | get
  | getEmpty
  | look
  | sendReturns
  /-- with an exception that `_sendLogs` catches, or with another one -/
  | sendRaises (caught : Bool)
  /-- the next call of the `put` of `_sendLogs` -/
  | senderPut
  /-- `_clearConnection`, in `_sendLogs` -/
  | senderClear
  /-- `_setConnection`, in the main thread -/
  | connect
  /-- `_clearConnection`, in the main thread or the heartbeat thread -/
  | clear (connection : Nat)
  | stop
  deriving DecidableEq, Repr

def State.init : State :=
  { queue := ⟨[], []⟩
    emitting := none
    emitted := 0
    sender := .waiting
    connection := none
    connections := 0
    stopEvent := false
    sent := [] }

/-- The thread in `emit` holds the lock of the queue. -/
def State.emitterInside (s : State) : Bool := s.emitting.any fun e => e.2 != .locking

/-- The thread of `_sendLogs` holds it. -/
def SenderPc.inside : SenderPc → Bool
  | .puttingBack _ _ pc => pc != .locking
  | _ => false

/-- `_clearConnection`. -/
def State.clearConnection (s : State) (connection : Nat) : State :=
  if s.connection = some connection then { s with connection := none } else s

/-- Behind the `_getConnection` of `_sendLogs`. -/
def afterLook (m : Message) : Option Nat → SenderPc
  | none => .puttingBack m none .locking
  | some connection => .sending m connection

/-- Behind the `put` of `_sendLogs`. -/
def afterPut : Option Nat → SenderPc
  | none => .waiting
  | some connection => .clearing connection

/-- A call of the `put` in `emit`; the handler catches what it raises. -/
def State.emitterPut (maxsize : Nat) (s : State) (m : Message) (pc : PutPc) : State :=
  match s.queue.putStep maxsize m pc with
  | (q, .goesOn pc') => { s with queue := q, emitting := some (m, pc') }
  | (q, .returned) | (q, .raises) => { s with queue := q, emitting := none }

/-- A call of the `put` in `_sendLogs`; nothing catches what it raises. -/
def State.senderPut (maxsize : Nat) (s : State) (m : Message) (broken : Option Nat) (pc : PutPc) :
    State :=
  match s.queue.putStep maxsize m pc with
  | (q, .goesOn pc') => { s with queue := q, sender := .puttingBack m broken pc' }
  | (q, .returned) => { s with queue := q, sender := afterPut broken }
  | (q, .raises) => { s with queue := q, sender := .ended }

def step (maxsize : Nat) (s : State) : Label → Option State
  | .emit =>
    if s.emitting = none then
      some { s with emitting := some (s.emitted, .locking), emitted := s.emitted + 1 }
    else none
  | .emitterPut =>
    match s.emitting with
    | some (m, pc) =>
      if pc = .locking ∧ s.sender.inside = true then none else some (s.emitterPut maxsize m pc)
    | none => none
  | .wait =>
    if s.sender = .waiting then
      some { s with sender :=
        if s.stopEvent then .ended else if s.connection.isSome then .getting else .waiting }
    else none
  | .get =>
    match s.sender, s.queue.items with
    | .getting, m :: items =>
      some { s with queue := { s.queue with items := items }, sender := .looking m }
    | _, _ => none
  | .getEmpty =>
    if s.sender = .getting ∧ s.queue.items = [] then some { s with sender := .waiting } else none
  | .look =>
    match s.sender with
    | .looking m => some { s with sender := afterLook m s.connection }
    | _ => none
  | .sendReturns =>
    match s.sender with
    | .sending m _ => some { s with sender := .waiting, sent := s.sent ++ [m] }
    | _ => none
  | .sendRaises caught =>
    match s.sender with
    | .sending m connection =>
      some { s with sender := if caught then .puttingBack m (some connection) .locking else .ended }
    | _ => none
  | .senderPut =>
    match s.sender with
    | .puttingBack m broken pc =>
      if pc = .locking ∧ s.emitterInside = true then none
      else some (s.senderPut maxsize m broken pc)
    | _ => none
  | .senderClear =>
    match s.sender with
    | .clearing connection => some { s.clearConnection connection with sender := .waiting }
    | _ => none
  | .connect => some { s with connection := some s.connections, connections := s.connections + 1 }
  | .clear connection => some (s.clearConnection connection)
  | .stop => some { s with stopEvent := true }

/-- What is required of the delivery. -/
structure InOrder (s : State) : Prop where
  /-- messages are sent in the order in which they were emitted -/
  sent : s.sent.Pairwise (· < ·)
  /-- what is in the queue is newer than what has been evicted -/
  retained : ∀ m ∈ s.queue.items, ∀ e ∈ s.queue.evicted, e < m

/-- The thread of `_sendLogs` is about to take the lock of the queue. -/
def SenderPc.returning : SenderPc → Bool
  | .puttingBack _ _ .locking => true
  | _ => false

/-- A message that is put back finds the queue empty when its `put` has the lock. -/
def PutsBackFirst (s : State) : Label → Prop
  | .senderPut => s.sender.returning = true → s.queue.items = []
  | _ => True

instance (s : State) : ∀ l, Decidable (PutsBackFirst s l)
  | .senderPut => inferInstanceAs (Decidable (_ → _))
  | .emit | .emitterPut | .wait | .get | .getEmpty | .look | .sendReturns | .sendRaises _
  | .senderClear | .connect | .clear _ | .stop => .isTrue trivial

/-! ## The line of messages -/

/-- The message the thread of `_sendLogs` has taken out of the queue. -/
def SenderPc.held : SenderPc → List Message
  | .looking m | .sending m _ | .puttingBack m _ _ => [m]
  | .waiting | .getting | .clearing _ | .ended => []

/-- The message that is being emitted. -/
def State.pending (s : State) : List Message := (s.emitting.map Prod.fst).toList

/-- What may still be put into the queue or come behind it, the number of the next message last. -/
def State.coming (s : State) : List Message := s.pending ++ [s.emitted]

/-- All messages that have been sent or may still be sent. -/
def State.line (s : State) : List Message :=
  s.sent ++ (s.sender.held ++ (s.queue.items ++ s.coming))

structure Lined (s : State) : Prop where
  line : s.line.Pairwise (· < ·)
  newer : ∀ e ∈ s.queue.evicted, ∀ m ∈ s.queue.items ++ s.coming, e < m
  /-- nothing has been evicted since the message in hand was taken, if the queue is empty -/
  fresh : s.queue.items = [] → s.emitterInside = false →
    ∀ e ∈ s.queue.evicted, ∀ m ∈ s.sender.held, e < m
  /-- the lock is free for the thread that puts a message back into an empty queue -/
  inside : s.sender.inside = true → s.emitterInside = false ∧ s.queue.items = []

theorem lined_init : Lined State.init where
  line := by simp [State.line, State.init, SenderPc.held, State.coming, State.pending]
  newer := nofun
  fresh := fun _ _ => nofun
  inside := nofun

variable {maxsize : Nat} {s t : State}

theorem Lined.inOrder (h : Lined s) : InOrder s where
  sent := h.line.sublist (List.sublist_append_left _ _)
  retained := fun m hm e he => h.newer e he m (List.mem_append_left _ hm)

/-! ## Steps -/

/-- The thread of `_sendLogs` moves on outside of the lock, with its message or without. -/
theorem Lined.sender (h : Lined s) {sender : SenderPc} {sent : List Message}
    (hline : (sent ++ sender.held).Sublist (s.sent ++ s.sender.held))
    (hheld : ∀ m ∈ sender.held, m ∈ s.sender.held) (hinside : sender.inside = false) :
    Lined { s with sender := sender, sent := sent } where
  line := by
    have hline := h.line.sublist
      (by simpa [State.line] using hline.append_right (s.queue.items ++ s.coming) :
        (sent ++ (sender.held ++ (s.queue.items ++ s.coming))).Sublist s.line)
    exact hline
  newer := h.newer
  fresh := fun hempty hout e he m hm => h.fresh hempty hout e he m (hheld m hm)
  inside := fun hin => by rw [hinside] at hin; cases hin

/-- It keeps its message. -/
theorem Lined.keeps (h : Lined s) {sender : SenderPc} (hheld : sender.held = s.sender.held)
    (hinside : sender.inside = false) : Lined { s with sender := sender } :=
  h.sender (by rw [hheld]) (by simp [hheld]) hinside

/-- It has none, or loses it. -/
theorem Lined.drops (h : Lined s) {sender : SenderPc} (hheld : sender.held = [])
    (hinside : sender.inside = false) : Lined { s with sender := sender } :=
  h.sender (by simp [hheld]) (by simp [hheld]) hinside

theorem Lined.emit (h : Lined s) (hnone : s.emitting = none) :
    Lined { s with emitting := some (s.emitted, .locking), emitted := s.emitted + 1 } where
  line := by
    have hline := h.line
    simp only [State.line, State.coming, State.pending, hnone, Option.map_none, Option.toList_none,
      List.nil_append, ← List.append_assoc] at hline
    simp only [State.line, State.coming, State.pending, Option.map_some, Option.toList_some,
      ← List.append_assoc]
    rw [List.pairwise_append]
    refine ⟨hline, List.pairwise_singleton _ _, fun a ha b hb => ?_⟩
    rw [List.mem_singleton.mp hb]
    rcases List.mem_append.mp ha with ha | ha
    · have hlt := (List.pairwise_append.mp hline).2.2 a ha s.emitted (List.mem_singleton_self _)
      exact Nat.lt_succ_of_lt hlt
    · rw [List.mem_singleton.mp ha]
      exact Nat.lt_succ_self _
  newer := by
    intro e he m hm
    simp only [State.coming, State.pending, Option.map_some, Option.toList_some, List.mem_append,
      List.mem_singleton] at hm
    have hnew := h.newer e he s.emitted (by simp [State.coming])
    rcases hm with hm | rfl | rfl
    · exact h.newer e he m (List.mem_append_left _ hm)
    · exact hnew
    · exact Nat.lt_succ_of_lt hnew
  fresh := fun hempty _ => h.fresh hempty (by simp [State.emitterInside, hnone])
  inside := fun hin => ⟨rfl, (h.inside hin).2⟩

theorem Lined.get (h : Lined s) {m : Message} {items : List Message}
    (hgetting : s.sender = .getting) (hitems : s.queue.items = m :: items) :
    Lined { s with queue := { s.queue with items := items }, sender := .looking m } where
  line := by
    have hline := h.line
    simp only [State.line, hgetting, SenderPc.held, hitems, List.nil_append] at hline
    exact hline
  newer := fun e he m' hm' => h.newer e he m' (by
    rw [hitems]
    rcases List.mem_append.mp hm' with hm' | hm'
    · exact List.mem_append_left _ (List.mem_cons_of_mem m hm')
    · exact List.mem_append_right _ hm')
  fresh := fun _ _ e he m' hm' => h.newer e he m' (by
    rw [hitems, List.mem_singleton.mp hm']
    exact List.mem_append_left _ List.mem_cons_self)
  inside := nofun

/-- The emitting thread moves on inside of the lock. -/
theorem Lined.emitterInside (h : Lined s) {m : Message} {pc pc' : PutPc}
    (hemitting : s.emitting = some (m, pc)) (hsender : s.sender.inside = false)
    (hpc : pc' ≠ .locking) : Lined { s with emitting := some (m, pc') } where
  line := by
    have hline := h.line
    simp only [State.line, State.coming, State.pending, hemitting] at hline
    exact hline
  newer := by
    have hnewer := h.newer
    simp only [State.coming, State.pending, hemitting] at hnewer
    exact hnewer
  fresh := by
    intro _ hout
    simp [State.emitterInside, hpc] at hout
  inside := fun hin => by rw [hsender] at hin; cases hin

theorem Lined.evict (h : Lined s) {m oldest : Message} {pc : PutPc} {items : List Message}
    (hemitting : s.emitting = some (m, pc)) (hsender : s.sender.inside = false)
    (hitems : s.queue.items = oldest :: items) :
    Lined { s with
      queue := { items := items, evicted := s.queue.evicted ++ [oldest] }
      emitting := some (m, .inserting) } := by
  have hline := h.line
  have hnewer := h.newer
  simp only [State.line, State.coming, State.pending, hemitting, hitems] at hline
  simp only [State.coming, State.pending, hemitting, hitems] at hnewer
  refine ⟨hline.sublist ?_, fun e he m' hm' => ?_, fun _ hout => ?_, fun hin => ?_⟩
  · simp only [State.line, State.coming, State.pending, List.cons_append]
    exact ((List.sublist_cons_self _ _).append_left _).append_left _
  · rcases List.mem_append.mp he with he | he
    · exact hnewer e he m' (by
        rw [List.cons_append]
        exact List.mem_cons_of_mem _ hm')
    · rw [List.mem_singleton.mp he]
      have htail := (List.pairwise_append.mp (List.pairwise_append.mp hline).2.1).2.1
      exact (List.pairwise_cons.mp htail).1 m' hm'
  · simp [State.emitterInside] at hout
  · rw [hsender] at hin
    cases hin

theorem Lined.insert (h : Lined s) {m : Message} {pc : PutPc}
    (hemitting : s.emitting = some (m, pc)) (hsender : s.sender.inside = false) :
    Lined { s with queue := { s.queue with items := s.queue.items ++ [m] }, emitting := none } := by
  have hline := h.line
  have hnewer := h.newer
  simp only [State.line, State.coming, State.pending, hemitting, Option.map_some,
    Option.toList_some] at hline
  simp only [State.coming, State.pending, hemitting, Option.map_some, Option.toList_some] at hnewer
  refine ⟨?_, ?_, fun hempty => ?_, fun hin => ?_⟩
  · simpa [State.line, State.coming, State.pending] using hline
  · simpa [State.coming, State.pending] using hnewer
  · simp at hempty
  · rw [hsender] at hin
    cases hin

/-- `put_nowait` has raised; nothing but a full queue makes it raise. -/
theorem Lined.giveUp (h : Lined s) (hfull : s.queue.full maxsize = true) :
    Lined { s with emitting := none } := by
  have hne : s.queue.items ≠ [] := by
    intro hempty
    simp only [LatestLogQueue.full, hempty, Bool.and_eq_true, decide_eq_true_eq] at hfull
    exact absurd hfull.2 (Nat.not_le_of_lt hfull.1)
  have hcoming : [s.emitted].Sublist s.coming := List.sublist_append_right _ _
  refine ⟨h.line.sublist ?_, fun e he m hm => ?_, fun hempty => absurd hempty hne, fun hin => ?_⟩
  · exact ((hcoming.append_left _).append_left _).append_left _
  · exact h.newer e he m ((hcoming.append_left _).subset hm)
  · exact ⟨rfl, (h.inside hin).2⟩

theorem emitterPut_lined (h : Lined s) {m : Message} {pc : PutPc}
    (hemitting : s.emitting = some (m, pc))
    (hfree : ¬ (pc = .locking ∧ s.sender.inside = true)) :
    Lined (s.emitterPut maxsize m pc) := by
  -- the other thread is not inside: it is excluded, or the lock was free
  have hsender : s.sender.inside = false := by
    by_contra hin
    rw [Bool.not_eq_false] at hin
    have hout := (h.inside hin).1
    have hpc : pc = .locking := by simpa [State.emitterInside, hemitting] using hout
    exact hfree ⟨hpc, hin⟩
  unfold State.emitterPut
  cases pc with
  | locking => exact h.emitterInside hemitting hsender (by decide)
  | checking =>
    simp only [LatestLogQueue.putStep]
    split
    · exact h.emitterInside hemitting hsender (by decide)
    · exact h.emitterInside hemitting hsender (by decide)
  | evicting =>
    cases hitems : s.queue.items with
    | nil =>
      simp only [LatestLogQueue.putStep, hitems]
      exact h.emitterInside hemitting hsender (by decide)
    | cons oldest items =>
      simp only [LatestLogQueue.putStep, hitems]
      exact h.evict hemitting hsender hitems
  | inserting =>
    cases hfull : s.queue.full maxsize with
    | true =>
      simp only [LatestLogQueue.putStep, hfull, if_true]
      exact h.giveUp hfull
    | false =>
      simp only [LatestLogQueue.putStep, hfull]
      exact h.insert hemitting hsender

/-- The message that is put back goes on inside of the lock, the queue being empty. -/
theorem Lined.senderInside (h : Lined s) {m : Message} {broken : Option Nat} {pc pc' : PutPc}
    (hsender : s.sender = .puttingBack m broken pc) (hout : s.emitterInside = false)
    (hempty : s.queue.items = []) : Lined { s with sender := .puttingBack m broken pc' } where
  line := by
    have hline := h.line
    simp only [State.line, hsender] at hline
    exact hline
  newer := h.newer
  fresh := by
    have hfresh := h.fresh
    simp only [hsender] at hfresh
    exact hfresh
  inside := fun _ => ⟨hout, hempty⟩

theorem Lined.putBack (h : Lined s) {m : Message} {broken : Option Nat} {pc : PutPc}
    (hsender : s.sender = .puttingBack m broken pc) (hout : s.emitterInside = false)
    (hempty : s.queue.items = []) :
    Lined { s with
      queue := { s.queue with items := s.queue.items ++ [m] }
      sender := afterPut broken } := by
  have hheld : (afterPut broken).held = [] := by cases broken <;> rfl
  have hinside : (afterPut broken).inside = false := by cases broken <;> rfl
  have hline := h.line
  simp only [State.line, hsender, SenderPc.held, hempty, List.nil_append] at hline
  refine ⟨?_, fun e he m' hm' => ?_, fun hnil => ?_, fun hin => ?_⟩
  · simp only [State.line, hheld, hempty, List.nil_append]
    exact hline
  · simp only [hempty, List.nil_append] at hm'
    rcases List.mem_append.mp hm' with hm' | hm'
    · exact h.fresh hempty hout e he m' (by rw [hsender]; exact hm')
    · exact h.newer e he m' (List.mem_append_right _ hm')
  · simp at hnil
  · rw [hinside] at hin
    cases hin

theorem senderPut_lined (h : Lined s) {m : Message} {broken : Option Nat} {pc : PutPc}
    (hsender : s.sender = .puttingBack m broken pc)
    (hfree : ¬ (pc = .locking ∧ s.emitterInside = true))
    (hfirst : PutsBackFirst s .senderPut) : Lined (s.senderPut maxsize m broken pc) := by
  obtain ⟨hout, hempty⟩ : s.emitterInside = false ∧ s.queue.items = [] := by
    by_cases hpc : pc = .locking
    · refine ⟨?_, hfirst (by rw [hsender, hpc]; rfl)⟩
      by_contra hin
      exact hfree ⟨hpc, by simpa using hin⟩
    · exact h.inside (by simp [hsender, SenderPc.inside, hpc])
  have hroom : s.queue.full maxsize = false := by
    simp only [LatestLogQueue.full, hempty, List.length_nil, Bool.and_eq_false_iff,
      decide_eq_false_iff_not]
    omega
  unfold State.senderPut
  cases pc with
  | locking => exact h.senderInside hsender hout hempty
  | checking => exact h.senderInside hsender hout hempty
  | evicting =>
    simp only [LatestLogQueue.putStep, hempty]
    exact h.senderInside hsender hout hempty
  | inserting =>
    simp only [LatestLogQueue.putStep, hroom]
    exact h.putBack hsender hout hempty

/-- A step that changes the connection or the stop event only. -/
theorem Lined.frame (h : Lined s) (hqueue : t.queue = s.queue) (hemitting : t.emitting = s.emitting)
    (hemitted : t.emitted = s.emitted) (hsender : t.sender = s.sender) (hsent : t.sent = s.sent) :
    Lined t := by
  have hcoming : t.coming = s.coming := by
    simp only [State.coming, State.pending, hemitting, hemitted]
  have hinside : t.emitterInside = s.emitterInside := by
    simp only [State.emitterInside, hemitting]
  refine ⟨?_, ?_, ?_, ?_⟩
  · simp only [State.line, hcoming, hqueue, hsender, hsent]
    exact h.line
  · rw [hcoming, hqueue]
    exact h.newer
  · rw [hqueue, hsender, hinside]
    exact h.fresh
  · rw [hqueue, hsender, hinside]
    exact h.inside

theorem Lined.clearConnection (h : Lined s) (connection : Nat) :
    Lined (s.clearConnection connection) := by
  unfold State.clearConnection
  split
  · exact h.frame rfl rfl rfl rfl rfl
  · exact h

theorem step_lined {l : Label} (h : Lined s) (hfirst : PutsBackFirst s l)
    (hstep : step maxsize s l = some t) : Lined t := by
  cases l with
  | emit =>
    simp only [step] at hstep
    split at hstep <;> cases hstep
    exact h.emit ‹_›
  | emitterPut =>
    simp only [step] at hstep
    split at hstep
    · rename_i m pc hemitting
      split at hstep <;> cases hstep
      exact emitterPut_lined h hemitting ‹_›
    · cases hstep
  | wait =>
    simp only [step] at hstep
    split at hstep <;> cases hstep
    rename_i hwaiting
    apply h.drops
    · split
      · rfl
      · split <;> rfl
    · split
      · rfl
      · split <;> rfl
  | get =>
    simp only [step] at hstep
    split at hstep
    · cases hstep
      exact h.get ‹_› ‹_›
    · cases hstep
  | getEmpty =>
    simp only [step] at hstep
    split at hstep <;> cases hstep
    exact h.drops rfl rfl
  | look =>
    simp only [step] at hstep
    split at hstep
    · rename_i m hlooking
      cases hstep
      apply h.keeps
      · rw [hlooking]
        cases s.connection <;> rfl
      · cases s.connection <;> rfl
    · cases hstep
  | sendReturns =>
    simp only [step] at hstep
    split at hstep
    · rename_i m c hsending
      cases hstep
      exact h.sender (by simp [hsending, SenderPc.held]) nofun rfl
    · cases hstep
  | sendRaises caught =>
    simp only [step] at hstep
    split at hstep
    · rename_i m c hsending
      cases hstep
      cases caught with
      | true => exact h.keeps (by rw [hsending]; rfl) rfl
      | false => exact h.drops rfl rfl
    · cases hstep
  | senderPut =>
    simp only [step] at hstep
    split at hstep
    · rename_i m broken pc hsender
      split at hstep <;> cases hstep
      exact senderPut_lined h hsender ‹_› hfirst
    · cases hstep
  | senderClear =>
    simp only [step] at hstep
    split at hstep
    · rename_i c hclearing
      cases hstep
      exact (h.clearConnection c).drops rfl rfl
    · cases hstep
  | connect | stop =>
    cases hstep
    exact h.frame rfl rfl rfl rfl rfl
  | clear c =>
    cases hstep
    exact h.clearConnection c

/-! ## Runs -/

/-- **The order of the log messages**: in every state of a run in which every message that is put
    back finds the queue empty, messages have been sent in the order of their emission, and what is
    in the queue is newer than everything that has been evicted. -/
theorem logs_in_order (maxsize : Nat) (labels : List Label)
    (h : StepsMeet (step maxsize) PutsBackFirst State.init labels) :
    Always (step maxsize) InOrder State.init labels :=
  always_of_stepsMeet (fun _ h => h.inOrder) (fun _ _ _ h hfirst hstep => step_lined h hfirst hstep)
    lined_init h

/-- A message is emitted, fails to be sent, is put back and sent over the next connection. -/
def resendScript : List Label :=
  [.emit, .emitterPut, .emitterPut, .emitterPut, .connect, .wait, .get, .look, .sendRaises true,
    .senderPut, .senderPut, .senderPut, .senderClear, .connect, .wait, .get, .look, .sendReturns]

theorem resend_in_order : Always (step 1000) InOrder State.init resendScript :=
  logs_in_order 1000 resendScript (by decide)

/-- The same with a second message that arrives before the first one is put back. -/
def overtakenScript : List Label :=
  [.emit, .emitterPut, .emitterPut, .emitterPut, .connect, .wait, .get, .look, .emit, .emitterPut,
    .emitterPut, .emitterPut, .sendRaises true, .senderPut, .senderPut, .senderPut, .senderClear,
    .connect, .wait, .get, .look, .sendReturns, .wait, .get, .look, .sendReturns]

theorem putBack_out_of_order : ¬ Always (step 1000) InOrder State.init overtakenScript := by
  intro h
  have horder := always_iff_runs.mp h overtakenScript _ (List.prefix_refl _) rfl
  exact absurd horder.sent (by decide)

end PipeWorks.Stream.Logs
