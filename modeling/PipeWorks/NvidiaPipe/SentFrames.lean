import PipeWorks.Lib.LatestPut
import PipeWorks.NvidiaPipe.Submission

/-!
# The newest packet, and the count of sent frames

`Sender.submit` prefers the newest packet: when the queue stays full for a second, it throws the
oldest one out and puts the new one in its place.  The main loop of `run_pipeline` counts every
packet whose `submit` has returned as sent.

`sentStep` adds the statement that counts to the machine of `Submission`.  `always_newestPacket_iff`
says when both are right: when the worker does not empty the queue between the timed put that has
found it full and the `get_nowait` that is to make room.  Otherwise `get_nowait` raises `Empty`,
which is passed over together with the packet, although there is room for it.
-/

set_option autoImplicit false

namespace PipeWorks.NvidiaPipe.Sender

open StepSystem LatestPut

/-! ## The property -/

structure Sent where
  delivery : Delivery
  sentFrameCount : Nat
  /-- `submit` has returned; about to execute `sent_frame_count += 1` -/
  counting : Bool
  /-- history: the packets that have been put into the queue since the start -/
  accepted : List Submission
  /-- history: the packets the worker has taken from the queue -/
  taken : List Submission
  /-- history: how many packets had been evicted when the latest `submit` was called -/
  evictedBefore : Nat

inductive SentLabel where
  | delivery (l : DeliveryLabel)
  | count
  deriving DecidableEq, Repr

/-- The packets, numbered as they were submitted. -/
def numbered (packets : List Send.EncodedPacket) : List Submission :=
  packets.zipIdx.map fun p => ⟨p.2, p.1⟩

/-- A pipeline whose queue holds these packets, as far as they fit. -/
def Sent.init (now : Int) (capacity : Nat) (content : List Send.EncodedPacket) : Sent :=
  { delivery :=
      { Delivery.init now with
        queue := numbered (content.take capacity)
        submitted := numbered (content.take capacity) }
    sentFrameCount := 0
    counting := false
    accepted := []
    taken := []
    evictedBefore := 0 }

/-- The step puts the packet of the current `submit` into the queue. -/
def Delivery.puts (x : Delivery) : DeliveryLabel → List Submission
  | .put | .replace =>
    match x.submit with
    | .putting e | .replacing e => [e]
    | _ => []
  | _ => []

/-- The step ends a call of `submit`. -/
def returns : DeliveryLabel → Bool
  | .put | .evictEmpty | .replace | .replaceFull => true
  | _ => false

def Sent.after (x : Sent) (l : DeliveryLabel) (d : Delivery) : Sent :=
  { x with
    delivery := d
    counting := x.counting || returns l
    accepted := x.accepted ++ x.delivery.puts l
    taken := if l = .take then x.taken ++ x.delivery.queue.head?.toList else x.taken
    evictedBefore := match l with
      | .submit _ => x.delivery.evicted.length
      | _ => x.evictedBefore }

/-- The main loop counts the packet before it submits the next one. -/
def Sent.allows (x : Sent) : DeliveryLabel → Bool
  | .submit _ => !x.counting
  | _ => true

def sentStep (timeout : Int) (capacity : Nat) (x : Sent) : SentLabel → Option Sent
  | .count =>
    if x.counting then some { x with sentFrameCount := x.sentFrameCount + 1, counting := false }
    else none
  | .delivery l =>
    if x.allows l then (deliveryStep timeout capacity x.delivery l).map (x.after l) else none

/-- The newest packet is kept and counted, seen in one state. -/
structure KeepsNewest (x : Sent) : Prop where
  /-- when `submit` has returned, the packet is in the queue or has been taken by the worker -/
  kept : x.delivery.submit = .idle → ∀ e, x.delivery.submitted.getLast? = some e →
    e ∈ x.delivery.queue ∨ e ∈ x.taken
  /-- the call has evicted one packet at most -/
  evicted : (x.delivery.evicted.drop x.evictedBefore).length ≤ 1
  /-- and an older one -/
  older : ∀ e ∈ x.delivery.evicted.drop x.evictedBefore, e ∈ x.delivery.submitted.dropLast
  /-- every packet that has been accepted has been counted, and no other -/
  counted : x.delivery.submit = .idle → x.counting = false →
    x.sentFrameCount = x.accepted.length

/-- When `get_nowait` is called to make room, the queue is not empty. -/
def FindsOldest (x : Sent) (l : SentLabel) : Prop :=
  l = .delivery .evict ∨ l = .delivery .evictEmpty → x.delivery.queue ≠ []

/-! ## The shared queue -/

def SubmitPc.putter : SubmitPc → Putter Submission
  | .idle => .idle
  | .putting e => .putting e
  | .evicting e => .evicting e
  | .replacing e => .replacing e

def Sent.shared (x : Sent) : SharedQueue Submission :=
  { items := x.delivery.queue
    putter := x.delivery.submit.putter
    offered := x.delivery.submitted
    accepted := x.accepted
    taken := x.taken
    evicted := x.delivery.evicted
    refused := x.delivery.refused
    evictedBefore := x.evictedBefore }

/-- The operation on the shared queue that a step is. -/
def op? : DeliveryLabel → Option Op
  | .submit _ => some .offer
  | .put => some .put
  | .putFull => some .full
  | .evict => some .evict
  | .evictEmpty => some .evictEmpty
  | .replace => some .replace
  | .replaceFull => some .replaceFull
  | .take => some .take
  | .get | .getEmpty | .sender _ => none

/-- There is room beside `n` packets. -/
def Room (capacity n : Nat) : Prop := n < capacity

/-- Packets are numbered as they are submitted. -/
def Delivery.Numbered (x : Delivery) : Prop := ∀ e ∈ x.submitted, e.number < x.submitted.length

variable {timeout : Int} {capacity : Nat} {x y : Sent} {l : SentLabel}

/-- The end of a worker, or what it does with its packet, is nothing to the queue. -/
theorem after_queue (x : Delivery) (l : Label) (t : State) :
    (x.after l t).queue = x.queue ∧ (x.after l t).submit = x.submit ∧
      (x.after l t).submitted = x.submitted ∧ (x.after l t).evicted = x.evicted ∧
      (x.after l t).refused = x.refused := by
  unfold Delivery.after
  cases x.held with
  | none => exact ⟨rfl, rfl, rfl, rfl, rfl⟩
  | some e =>
    dsimp only
    split
    · exact ⟨rfl, rfl, rfl, rfl, rfl⟩
    · unfold Delivery.release
      split
      · exact ⟨rfl, rfl, rfl, rfl, rfl⟩
      · split <;> exact ⟨rfl, rfl, rfl, rfl, rfl⟩
      · exact ⟨rfl, rfl, rfl, rfl, rfl⟩

/-- A step of `submit` is an operation on the shared queue. -/
theorem Submits.operates {l : DeliveryLabel} {op : Op} {d : Delivery}
    (h : Submits capacity x.delivery l d) (hnum : x.delivery.Numbered) (hop : op? l = some op) :
    Operates (Room capacity) x.shared op (x.after l d).shared := by
  cases h with
  | call p hidle =>
    cases hop
    have heq : (x.after (.submit p) (x.delivery.call p)).shared =
        { x.shared with
          putter := .putting ⟨x.delivery.submitted.length, p⟩
          offered := x.delivery.submitted ++ [⟨x.delivery.submitted.length, p⟩]
          evictedBefore := x.delivery.evicted.length } := by
      simp [Sent.after, Sent.shared, Delivery.puts, Delivery.call, SubmitPc.putter]
    rw [heq]
    exact .offer _ (congrArg SubmitPc.putter hidle) fun hmem => Nat.lt_irrefl _ (hnum _ hmem)
  | put e hputting hroom =>
    cases hop
    have heq : (x.after .put
        { x.delivery with queue := x.delivery.queue ++ [e], submit := .idle }).shared =
        { x.shared with
          items := x.delivery.queue ++ [e]
          putter := .idle
          accepted := x.accepted ++ [e] } := by
      simp [Sent.after, Sent.shared, Delivery.puts, SubmitPc.putter, hputting]
    rw [heq]
    exact .put e (congrArg SubmitPc.putter hputting) hroom
  | putFull e hputting hfull =>
    cases hop
    have heq : (x.after .putFull { x.delivery with submit := .evicting e }).shared =
        { x.shared with putter := .evicting e } := by
      simp [Sent.after, Sent.shared, Delivery.puts, SubmitPc.putter]
    rw [heq]
    exact .full e (congrArg SubmitPc.putter hputting) hfull
  | evict e oldest rest hevicting hqueue =>
    cases hop
    have heq : (x.after .evict
        { x.delivery with
          queue := rest
          submit := .replacing e
          evicted := x.delivery.evicted ++ [oldest] }).shared =
        { x.shared with
          items := rest
          putter := .replacing e
          evicted := x.delivery.evicted ++ [oldest] } := by
      simp [Sent.after, Sent.shared, Delivery.puts, SubmitPc.putter]
    rw [heq]
    exact .evict e oldest rest (congrArg SubmitPc.putter hevicting) hqueue
  | evictEmpty e hevicting hqueue =>
    cases hop
    have heq : (x.after .evictEmpty
        { x.delivery with submit := .idle, refused := x.delivery.refused ++ [e] }).shared =
        { x.shared with putter := .idle, refused := x.delivery.refused ++ [e] } := by
      simp [Sent.after, Sent.shared, Delivery.puts, SubmitPc.putter]
    rw [heq]
    exact .evictEmpty e (congrArg SubmitPc.putter hevicting) hqueue
  | replace e hreplacing hroom =>
    cases hop
    have heq : (x.after .replace
        { x.delivery with queue := x.delivery.queue ++ [e], submit := .idle }).shared =
        { x.shared with
          items := x.delivery.queue ++ [e]
          putter := .idle
          accepted := x.accepted ++ [e] } := by
      simp [Sent.after, Sent.shared, Delivery.puts, SubmitPc.putter, hreplacing]
    rw [heq]
    exact .replace e (congrArg SubmitPc.putter hreplacing) hroom
  | replaceFull e hreplacing hfull =>
    cases hop
    have heq : (x.after .replaceFull
        { x.delivery with submit := .idle, refused := x.delivery.refused ++ [e] }).shared =
        { x.shared with putter := .idle, refused := x.delivery.refused ++ [e] } := by
      simp [Sent.after, Sent.shared, Delivery.puts, SubmitPc.putter]
    rw [heq]
    exact .replaceFull e (congrArg SubmitPc.putter hreplacing) hfull

/-- **A step of `submit` or of the worker's `get` is an operation on the shared queue.** -/
theorem deliveryStep_operates {l : DeliveryLabel} {op : Op} {d : Delivery}
    (hnum : x.delivery.Numbered) (hop : op? l = some op)
    (hst : deliveryStep timeout capacity x.delivery l = some d) :
    Operates (Room capacity) x.shared op (x.after l d).shared := by
  cases l with
  | get | getEmpty | sender _ => cases hop
  | take =>
    cases hop
    simp only [deliveryStep] at hst
    split at hst
    · rename_i e rest _ hqueue
      obtain ⟨t, -, rfl⟩ := Option.map_eq_some_iff.mp hst
      have heq : (x.after .take
          { x.delivery with sender := t, queue := rest, getting := false, held := some e }).shared =
          { x.shared with items := rest, taken := x.taken ++ [e] } := by
        simp [Sent.after, Sent.shared, Delivery.puts, hqueue]
      rw [heq]
      exact .take e rest hqueue
    · cases hst
  | submit _ | put | putFull | evict | evictEmpty | replace | replaceFull =>
    exact (submitStep_submits hst).operates hnum hop

/-- The other steps leave the shared queue alone. -/
theorem deliveryStep_idle {l : DeliveryLabel} {d : Delivery} (hop : op? l = none)
    (hst : deliveryStep timeout capacity x.delivery l = some d) :
    (x.after l d).shared = x.shared ∧ d.submitted = x.delivery.submitted := by
  have hframe : ∀ d : Delivery, d.queue = x.delivery.queue → d.submit = x.delivery.submit →
      d.submitted = x.delivery.submitted → d.evicted = x.delivery.evicted →
      d.refused = x.delivery.refused → x.delivery.puts l = [] → l ≠ .take →
      (∀ p, l ≠ .submit p) → (x.after l d).shared = x.shared ∧
        d.submitted = x.delivery.submitted := by
    intro d hqueue hsubmit hsubmitted hevicted hrefused hputs htake hcall
    refine ⟨?_, hsubmitted⟩
    simp only [Sent.after, Sent.shared, hqueue, hsubmit, hsubmitted, hevicted, hrefused, hputs,
      if_neg htake, List.append_nil]
  cases l with
  | get =>
    simp only [deliveryStep] at hst
    split at hst
    · cases hst
    · obtain ⟨w, -, rfl⟩ := Option.map_eq_some_iff.mp hst
      exact hframe _ rfl rfl rfl rfl rfl rfl nofun nofun
  | getEmpty =>
    simp only [deliveryStep] at hst
    split at hst <;> cases hst
    exact hframe _ rfl rfl rfl rfl rfl rfl nofun nofun
  | sender l =>
    simp only [deliveryStep] at hst
    split at hst
    · obtain ⟨t, -, rfl⟩ := Option.map_eq_some_iff.mp hst
      obtain ⟨hqueue, hsubmit, hsubmitted, hevicted, hrefused⟩ := after_queue x.delivery l t
      exact hframe _ hqueue hsubmit hsubmitted hevicted hrefused rfl nofun nofun
    · cases hst
  | _ => cases hop

/-! ## What every step keeps -/

/-- What holds in every state. -/
structure Orderly (capacity : Nat) (x : Sent) : Prop where
  numbered : x.delivery.Numbered
  sound : Sound (Room capacity) x.shared
  /-- a call that has not ended has not been counted, and one that has is counted next -/
  calls : x.sentFrameCount + x.counting.toNat = x.accepted.length + x.delivery.refused.length
  waits : x.delivery.submit ≠ .idle → x.counting = false

/-- What holds as long as no packet has been lost. -/
structure Newest (capacity : Nat) (x : Sent) : Prop where
  orderly : Orderly capacity x
  kept : Kept x.shared
  refused : x.delivery.refused = []

theorem numbered_length (packets : List Send.EncodedPacket) :
    (numbered packets).length = packets.length := by
  simp [numbered]

theorem numbered_lt (packets : List Send.EncodedPacket) :
    ∀ e ∈ numbered packets, e.number < packets.length := by
  intro e he
  obtain ⟨⟨p, i⟩, hp, rfl⟩ := List.mem_map.mp he
  have := List.snd_lt_of_mem_zipIdx hp
  omega

theorem numbered_nodup (packets : List Send.EncodedPacket) : (numbered packets).Nodup := by
  have hnumbers : ((numbered packets).map (·.number)).Nodup := by
    have hmap : (numbered packets).map (·.number) = packets.zipIdx.map Prod.snd := by
      simp only [numbered, List.map_map]
      rfl
    rw [hmap, List.zipIdx_map_snd]
    exact List.nodup_range'
  exact hnumbers.of_map _

theorem init_newest (now : Int) (capacity : Nat) (content : List Send.EncodedPacket) :
    Newest capacity (Sent.init now capacity content) := by
  have hlen : (numbered (content.take capacity)).length ≤ capacity := by
    rw [numbered_length, List.length_take]
    omega
  refine ⟨⟨fun e he => ?_, ?_, rfl, fun h => absurd rfl h⟩, fun _ e he => ?_, rfl⟩
  · rw [show (Sent.init now capacity content).delivery.submitted =
      numbered (content.take capacity) from rfl, numbered_length]
    exact numbered_lt _ e he
  · refine ⟨fun n hn => ?_, fun _ h => (by cases h), numbered_nodup _, fun e he => ?_,
      fun _ h => (by cases h), ⟨Nat.le_refl _, Nat.zero_le _⟩, fun e he => (by cases he)⟩
    · have hn' : (numbered (content.take capacity)).length = n + 1 := hn
      exact (show n < capacity by omega)
    · rcases he with he | he
      · exact he
      · cases he
  · exact Or.inl (List.mem_of_getLast? he)

theorem room_mono (capacity n : Nat) (h : Room capacity (n + 1)) : Room capacity n :=
  Nat.lt_of_succ_lt h

theorem op?_ends {l : DeliveryLabel} {op : Op} (h : op? l = some op) : returns l = op.ends := by
  cases l <;> cases h <;> rfl

theorem putter_eq_idle {s : SubmitPc} : s.putter = .idle ↔ s = .idle := by
  cases s <;> simp [SubmitPc.putter]

theorem op?_eq_offer {l : DeliveryLabel} (h : op? l = some .offer) : ∃ p, l = .submit p := by
  cases l <;> first | exact ⟨_, rfl⟩ | cases h

theorem call_numbered {x : Delivery} (h : x.Numbered) (p : Send.EncodedPacket) :
    (x.call p).Numbered := by
  intro e he
  simp only [Delivery.call, List.length_append, List.length_cons, List.length_nil]
  rcases List.mem_append.mp he with he | he
  · have := h e he
    omega
  · rw [List.mem_singleton.mp he]
    exact Nat.lt_succ_self _

theorem deliveryStep_numbered {l : DeliveryLabel} {op : Op} {d : Delivery}
    (h : x.delivery.Numbered) (hop : op? l = some op)
    (hst : deliveryStep timeout capacity x.delivery l = some d) : d.Numbered := by
  by_cases hoffer : op = .offer
  · subst hoffer
    obtain ⟨p, rfl⟩ := op?_eq_offer hop
    cases submitStep_submits hst with
    | call p _ => exact call_numbered h p
  · have hoffered : d.submitted = x.delivery.submitted :=
      (deliveryStep_operates h hop hst).offered hoffer
    intro e he
    rw [hoffered] at he ⊢
    exact h e he

/-- A call of `submit` that ends is counted next, and no other begins before. -/
theorem after_waits {l : DeliveryLabel} {op : Op} {d : Delivery}
    (h : x.delivery.submit ≠ .idle → x.counting = false) (hop : op? l = some op)
    (hallows : x.allows l = true)
    (hoperates : Operates (Room capacity) x.shared op (x.after l d).shared) :
    (x.counting = false ∨ op.ends = false) ∧
      (d.submit ≠ .idle → x.counting = false ∧ op.ends = false) := by
  by_cases hoffer : op = .offer
  · subst hoffer
    obtain ⟨p, rfl⟩ := op?_eq_offer hop
    have hcounting : x.counting = false := by simpa [Sent.allows] using hallows
    exact ⟨Or.inl hcounting, fun _ => ⟨hcounting, rfl⟩⟩
  by_cases htake : op = .take
  · subst htake
    have hputter : d.submit.putter = x.delivery.submit.putter := hoperates.putter_take
    refine ⟨Or.inr rfl, fun hbusy => ⟨h fun hidle => hbusy ?_, rfl⟩⟩
    rw [← putter_eq_idle, hputter, putter_eq_idle]
    exact hidle
  · have hcounting := h fun hidle => hoperates.busy hoffer htake (putter_eq_idle.mpr hidle)
    refine ⟨Or.inl hcounting, fun hbusy => ⟨hcounting, ?_⟩⟩
    by_contra hends
    exact hbusy (putter_eq_idle.mp (hoperates.idle_of_ends (by simpa using hends)))

/-- **Step lemma.** -/
theorem step_orderly (h : Orderly capacity x) (hst : sentStep timeout capacity x l = some y) :
    Orderly capacity y := by
  cases l with
  | count =>
    simp only [sentStep] at hst
    split at hst
    · rename_i hcounting
      cases hst
      have hcalls := h.calls
      rw [hcounting] at hcalls
      exact ⟨h.numbered, h.sound, by simpa using hcalls, fun _ => rfl⟩
    · cases hst
  | delivery l =>
    simp only [sentStep] at hst
    split at hst
    · rename_i hallows
      obtain ⟨d, hd, rfl⟩ := Option.map_eq_some_iff.mp hst
      cases hop : op? l with
      | none =>
        obtain ⟨hshared, hsubmitted⟩ := deliveryStep_idle hop hd
        have hreturns : returns l = false := by
          cases l <;> first | rfl | cases hop
        have haccepted : (x.after l d).accepted = x.accepted :=
          congrArg SharedQueue.accepted hshared
        have hrefused : d.refused = x.delivery.refused := congrArg SharedQueue.refused hshared
        have hputter : d.submit.putter = x.delivery.submit.putter :=
          congrArg SharedQueue.putter hshared
        have hcounting : (x.after l d).counting = x.counting := by
          simp [Sent.after, hreturns]
        refine ⟨fun e he => ?_, hshared ▸ h.sound, ?_, fun hbusy => ?_⟩
        · have he' : e ∈ x.delivery.submitted := hsubmitted ▸ he
          have hlt := h.numbered e he'
          exact hsubmitted ▸ hlt
        · rw [hcounting, haccepted]
          exact (h.calls).trans (by rw [← hrefused]; rfl)
        · rw [hcounting]
          refine h.waits fun hidle => hbusy ?_
          rw [← putter_eq_idle, show (x.after l d).delivery.submit = d.submit from rfl, hputter,
            putter_eq_idle]
          exact hidle
      | some op =>
        have hoperates := deliveryStep_operates h.numbered hop hd
        obtain ⟨hends, hbusy⟩ := after_waits h.waits hop hallows hoperates
        have hcounting : (x.after l d).counting = (x.counting || op.ends) := by
          simp [Sent.after, op?_ends hop]
        have hcount : (x.after l d).accepted.length + d.refused.length =
            x.accepted.length + x.delivery.refused.length + op.ends.toNat := hoperates.ends
        have hcalls := h.calls
        refine ⟨deliveryStep_numbered h.numbered hop hd,
          hoperates.sound (room_mono capacity) h.sound, ?_, fun hb => ?_⟩
        · show x.sentFrameCount + (x.after l d).counting.toNat = _ + d.refused.length
          rw [hcount, ← hcalls, hcounting]
          rcases hends with hends | hends
          · simp [hends]
          · simp [hends]
        · rw [hcounting, (hbusy hb).1, (hbusy hb).2]
          rfl
    · cases hst

/-- An eviction that finds the queue empty is one that has been called on an empty queue. -/
theorem not_evictEmpty {l : DeliveryLabel} {op : Op} {d : Delivery}
    (hfinds : FindsOldest x (.delivery l)) (hop : op? l = some op)
    (hoperates : Operates (Room capacity) x.shared op (x.after l d).shared) : op ≠ .evictEmpty := by
  rintro rfl
  have hl : l = .evictEmpty := by
    cases l <;> first | rfl | cases hop
  subst hl
  refine hfinds (Or.inr rfl) ?_
  generalize (x.after .evictEmpty d).shared = q at hoperates
  cases hoperates with
  | evictEmpty e hputter hitems => exact hitems

theorem step_newest (h : Newest capacity x) (hfinds : FindsOldest x l)
    (hst : sentStep timeout capacity x l = some y) : Newest capacity y := by
  have horderly := step_orderly h.orderly hst
  cases l with
  | count =>
    simp only [sentStep] at hst
    split at hst <;> cases hst
    exact ⟨horderly, h.kept, h.refused⟩
  | delivery l =>
    simp only [sentStep] at hst
    split at hst
    · obtain ⟨d, hd, rfl⟩ := Option.map_eq_some_iff.mp hst
      cases hop : op? l with
      | none =>
        obtain ⟨hshared, -⟩ := deliveryStep_idle hop hd
        exact ⟨horderly, hshared ▸ h.kept, (congrArg SharedQueue.refused hshared).trans h.refused⟩
      | some op =>
        have hoperates := deliveryStep_operates h.orderly.numbered hop hd
        obtain ⟨hkept, hrefused⟩ :=
          hoperates.kept h.orderly.sound h.kept (not_evictEmpty hfinds hop hoperates)
        exact ⟨horderly, hkept, hrefused.trans h.refused⟩
    · cases hst

theorem Newest.keepsNewest (h : Newest capacity x) : KeepsNewest x where
  kept := fun hidle => h.kept (putter_eq_idle.mpr hidle)
  evicted := h.orderly.sound.evicted_one
  older := h.orderly.sound.older
  counted := fun _ hcounting => by
    have hcalls := h.orderly.calls
    rw [hcounting, h.refused] at hcalls
    simpa using hcalls

/-- An eviction from an empty queue loses the packet of its own call. -/
theorem step_not_keepsNewest (h : Newest capacity x) (hfinds : ¬ FindsOldest x l)
    (hst : sentStep timeout capacity x l = some y) : ¬ KeepsNewest y := by
  simp only [FindsOldest, not_forall, not_not] at hfinds
  obtain ⟨hl, hqueue⟩ := hfinds
  have hempty : l = .delivery .evictEmpty := by
    rcases hl with rfl | rfl
    · -- `get_nowait` has nothing to return
      exfalso
      simp only [sentStep, Sent.allows, if_true] at hst
      obtain ⟨d, hd, -⟩ := Option.map_eq_some_iff.mp hst
      cases submitStep_submits hd with
      | evict e oldest rest _ hitems =>
        rw [hqueue] at hitems
        cases hitems
    · rfl
  subst hempty
  simp only [sentStep, Sent.allows, if_true] at hst
  obtain ⟨d, hd, rfl⟩ := Option.map_eq_some_iff.mp hst
  have hop : op? .evictEmpty = some Op.evictEmpty := rfl
  have hoperates := deliveryStep_operates h.orderly.numbered hop hd
  intro hkeeps
  exact hoperates.not_kept h.orderly.sound fun hidle => hkeeps.kept (putter_eq_idle.mp hidle)

/-! ## Whole runs -/

/-- **When the newest packet is kept and counted**, in every state of a run, for every capacity and
    every content of the queue at the start: exactly when `get_nowait` is never called to make room
    in a queue that the worker has emptied. -/
theorem always_newestPacket_iff (timeout now : Int) (capacity : Nat)
    (content : List Send.EncodedPacket) (labels : List SentLabel) :
    Always (sentStep timeout capacity) KeepsNewest (Sent.init now capacity content) labels ↔
      StepsMeet (sentStep timeout capacity) FindsOldest (Sent.init now capacity content) labels :=
  always_iff_stepsMeet (fun _ h => h.keepsNewest) (fun _ _ _ h hf hst => step_newest h hf hst)
    (fun _ _ _ h hf hst => step_not_keepsNewest h hf hst) (init_newest now capacity content)

/-- The queue, of one packet, stays full until `put` times out; then the worker takes the packet. -/
def drainedScript : List SentLabel :=
  [.delivery (.sender .start), .delivery (.submit ⟨"h264", 640, 360, 1, some 1, [1], true⟩),
    .delivery .putFull, .delivery .get, .delivery .take, .delivery .evictEmpty, .count]

/-- The new packet is in no queue and has been taken by nobody, and it counts as sent. -/
theorem drained_packet_lost :
    (∃ x, run (sentStep 10 1) (Sent.init 0 1 [⟨"h264", 640, 360, 1, some 0, [0], true⟩])
        drainedScript = some x ∧ x.sentFrameCount = 1 ∧ x.accepted = [] ∧ x.delivery.queue = []) ∧
    ¬ Always (sentStep 10 1) KeepsNewest
      (Sent.init 0 1 [⟨"h264", 640, 360, 1, some 0, [0], true⟩]) drainedScript := by
  refine ⟨⟨_, rfl, rfl, rfl, rfl⟩, fun h => ?_⟩
  have hend := always_iff_runs.mp h drainedScript _ (List.prefix_refl _) rfl
  exact absurd (hend.counted rfl rfl) (by decide)

end PipeWorks.NvidiaPipe.Sender
