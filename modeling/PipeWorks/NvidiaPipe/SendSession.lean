import PipeWorks.NvidiaPipe.Send

/-!
# The session structure of `send`

What reaches the outside through one container is a contiguous stretch of the input that opens
with a keyframe, and what `send` passes over lies before the first keyframe or between a failed
attempt and the next keyframe.

The invariant that carries this (`Session`) ties `awaitingKeyframe` to the container: while the
code waits for a keyframe there is no container, or one nothing has been muxed into; otherwise
the stretch muxed into the current container ends right before the next packet.
-/

set_option autoImplicit false

namespace PipeWorks.NvidiaPipe.Send

open StepSystem

/-- A keyframe and what follows it, without a hole, ending before position `j`. -/
def Stretch (packets : List EncodedPacket) (positions : List Nat) (j : Nat) : Prop :=
  ∃ a n, 0 < n ∧ positions = List.range' a n ∧ KeyframeAt packets a ∧ a + n = j

/-- No keyframe since the beginning, or since a failed attempt, up to position `j`. -/
def Gap (packets : List EncodedPacket) (failed : List Nat) (j : Nat) : Prop :=
  (∀ i < j, ¬ KeyframeAt packets i) ∨
    ∃ f ∈ failed, f < packets.length ∧ ∀ i, f ≤ i → i < j → ¬ KeyframeAt packets i

/-- Position `i` lies before the first keyframe, or after a failed attempt and before the next
    keyframe. -/
def Discardable (packets : List EncodedPacket) (failed : List Nat) (i : Nat) : Prop :=
  ¬ KeyframeAt packets i ∧
    ((∀ j ≤ i, ¬ KeyframeAt packets j) ∨
      ∃ f ∈ failed, f ≤ i ∧ ∀ j, f ≤ j → j ≤ i → ¬ KeyframeAt packets j)

/-- Waiting for a keyframe, without a container. -/
def State.Fresh (s : State) : Prop := s.awaitingKeyframe = true ∧ s.container = none

/-- Waiting for a keyframe, with a container nothing has been muxed into. -/
def State.Opened (s : State) : Prop :=
  s.awaitingKeyframe = true ∧ ∃ k, s.container = some k ∧ positionsOf s.muxed k = []

/-- In the middle of a session whose next packet is at `j`. -/
def State.Live (s : State) (j : Nat) : Prop :=
  s.awaitingKeyframe = false ∧ ∃ k, s.container = some k ∧
    Stretch s.fetched (positionsOf s.muxed k) j

/-- In a session that a shutdown has cut short. -/
def State.Cut (s : State) : Prop :=
  s.awaitingKeyframe = false ∧ s.container ≠ none ∧ s.shutdown = true

/-- **The session invariant**, by program counter. -/
def Session (s : State) : Prop :=
  match s.pc with
  | .fetch | .loop _ => s.Fresh ∨ s.Live s.passed ∨ s.Cut
  | .backoff _ => s.Fresh
  | .opening it => s.Fresh ∧ it.packet.isKeyframe = true
  | .adding it => s.Opened ∧ it.packet.isKeyframe = true
  | .muxing it => s.Opened ∧ it.packet.isKeyframe = true ∨ s.Live it.position
  | .closing _ => s.awaitingKeyframe = true
  | .finishing _ | .ended _ => True

structure Inv (s : State) : Prop where
  item : ∀ it, s.pc.item? = some it →
    it.position + 1 = s.fetched.length ∧ s.fetched[it.position]? = some it.packet
  container_opened : ∀ k, s.container = some k → k + 1 = s.opened
  muxed_lt : ∀ m ∈ s.muxed, m.container < s.opened ∧ m.position < s.passed
  content : ∀ m ∈ s.muxed, ∃ p out, s.fetched[m.position]? = some p ∧
    m.sendPacket = sendPacketOf p out
  order : s.muxed.Pairwise fun a b => a.container ≤ b.container ∧ a.position < b.position
  block : ∀ k, positionsOf s.muxed k = [] ∨ ∃ j, Stretch s.fetched (positionsOf s.muxed k) j
  session : Session s
  gap : s.shutdown = false → s.awaitingKeyframe = true → Gap s.fetched s.failed s.passed
  discards : s.shutdown = false → ∀ i < s.passed,
    i ∈ s.muxed.map (·.position) ∨ Discardable s.fetched s.failed i

/-! ## Stretches and gaps -/

theorem Stretch.snoc {packets : List EncodedPacket} {positions : List Nat} {j : Nat}
    (h : Stretch packets positions j) : Stretch packets (positions ++ [j]) (j + 1) := by
  obtain ⟨a, n, hn, rfl, hkey, rfl⟩ := h
  refine ⟨a, n + 1, by omega, ?_, hkey, by omega⟩
  rw [List.range'_concat]
  simp

theorem Stretch.single {packets : List EncodedPacket} {j : Nat} (h : KeyframeAt packets j) :
    Stretch packets [j] (j + 1) :=
  ⟨j, 1, by omega, rfl, h, rfl⟩

theorem Stretch.append {packets : List EncodedPacket} {positions : List Nat} {j : Nat}
    (h : Stretch packets positions j) (p : EncodedPacket) :
    Stretch (packets ++ [p]) positions j := by
  obtain ⟨a, n, hn, hpos, hkey, hj⟩ := h
  exact ⟨a, n, hn, hpos, keyframeAt_append hkey p, hj⟩

/-- A packet that is no keyframe widens the gap and may be discarded. -/
theorem Gap.widen {packets : List EncodedPacket} {failed : List Nat} {j : Nat}
    (h : Gap packets failed j) (hj : j + 1 = packets.length) (hkey : ¬ KeyframeAt packets j) :
    Gap packets failed (j + 1) ∧ Discardable packets failed j := by
  rcases h with h | ⟨f, hf, hlt, h⟩
  · have hall : ∀ i ≤ j, ¬ KeyframeAt packets i := fun i hi => by
      rcases Nat.lt_or_eq_of_le hi with hi | rfl
      · exact h i hi
      · exact hkey
    exact ⟨Or.inl fun i hi => hall i (by omega), hkey, Or.inl hall⟩
  · have hall : ∀ i, f ≤ i → i ≤ j → ¬ KeyframeAt packets i := fun i hfi hi => by
      rcases Nat.lt_or_eq_of_le hi with hi | rfl
      · exact h i hfi hi
      · exact hkey
    exact ⟨Or.inr ⟨f, hf, hlt, fun i hfi hi => hall i hfi (by omega)⟩, hkey,
      Or.inr ⟨f, hf, by omega, hall⟩⟩

theorem Gap.append {packets : List EncodedPacket} {failed : List Nat} {j : Nat}
    (h : Gap packets failed j) (hj : j ≤ packets.length) (p : EncodedPacket) :
    Gap (packets ++ [p]) failed j := by
  rcases h with h | ⟨f, hf, hlt, h⟩
  · exact Or.inl fun i hi => (keyframeAt_snoc (by omega)).not.mpr (h i hi)
  · refine Or.inr ⟨f, hf, by simp; omega, fun i hfi hi => ?_⟩
    exact (keyframeAt_snoc (by omega)).not.mpr (h i hfi hi)

theorem Discardable.append {packets : List EncodedPacket} {failed : List Nat} {i : Nat}
    (h : Discardable packets failed i) (hi : i < packets.length) (p : EncodedPacket) :
    Discardable (packets ++ [p]) failed i := by
  obtain ⟨hkey, h⟩ := h
  refine ⟨(keyframeAt_snoc hi).not.mpr hkey, ?_⟩
  rcases h with h | ⟨f, hf, hfi, h⟩
  · exact Or.inl fun j hj => (keyframeAt_snoc (by omega)).not.mpr (h j hj)
  · exact Or.inr ⟨f, hf, hfi, fun j hfj hj => (keyframeAt_snoc (by omega)).not.mpr (h j hfj hj)⟩

theorem Discardable.mono {packets : List EncodedPacket} {failed : List Nat} {i : Nat}
    (h : Discardable packets failed i) (j : Nat) : Discardable packets (failed ++ [j]) i :=
  ⟨h.1, h.2.imp_right fun ⟨f, hf, hrest⟩ => ⟨f, List.mem_append_left _ hf, hrest⟩⟩

/-! ## What each part of a step preserves -/

theorem init_inv : Inv State.init where
  item := fun it h => by cases h
  container_opened := fun k h => by cases h
  muxed_lt := fun m h => by cases h
  content := fun m h => by cases h
  order := List.Pairwise.nil
  block := fun _ => Or.inl rfl
  session := Or.inl ⟨rfl, rfl⟩
  gap := fun _ _ => Or.inl fun i hi => absurd hi (Nat.not_lt_zero i)
  discards := fun _ i hi => absurd hi (Nat.not_lt_zero i)

/-- A step that neither fetches, muxes, fails nor moves on has only its session to show. -/
theorem Inv.of_frame {s t : State} (h : Inv s) (hfetched : t.fetched = s.fetched)
    (hmuxed : t.muxed = s.muxed) (hfailed : t.failed = s.failed) (hpassed : t.passed = s.passed)
    (hopened : s.opened ≤ t.opened) (hshut : t.shutdown = false → s.shutdown = false)
    (hawait : t.awaitingKeyframe = true → s.awaitingKeyframe = true)
    (hitem : ∀ it, t.pc.item? = some it → s.pc.item? = some it)
    (hcont : ∀ k, t.container = some k → k + 1 = t.opened) (hsession : Session t) : Inv t where
  item := fun it hit => by rw [hfetched]; exact h.item it (hitem it hit)
  container_opened := hcont
  muxed_lt := fun m hm => by
    obtain ⟨hk, hp⟩ := h.muxed_lt m (hmuxed ▸ hm)
    exact ⟨by omega, by omega⟩
  content := by rw [hmuxed, hfetched]; exact h.content
  order := by rw [hmuxed]; exact h.order
  block := by rw [hmuxed, hfetched]; exact h.block
  session := hsession
  gap := fun hs ha => by rw [hfetched, hfailed, hpassed]; exact h.gap (hshut hs) (hawait ha)
  discards := fun hs => by
    rw [hfetched, hfailed, hpassed, hmuxed]
    exact h.discards (hshut hs)

theorem passed_of_item {s : State} {it : Item} (h : s.pc.item? = some it) :
    s.passed = it.position := by
  simp [State.passed, h]

theorem passed_of_no_item {s : State} (h : s.pc.item? = none) : s.passed = s.fetched.length := by
  simp [State.passed, h]

theorem Inv.keyframeAt_item {s : State} (h : Inv s) {it : Item} (hit : s.pc.item? = some it) :
    KeyframeAt s.fetched it.position ↔ it.packet.isKeyframe = true := by
  simp [KeyframeAt, (h.item it hit).2]

/-- Fetching the next packet. -/
theorem next_inv {s : State} (h : Inv s) (hpc : s.pc = .fetch) (p : EncodedPacket) :
    Inv { s with pc := .loop ⟨s.fetched.length, p⟩, fetched := s.fetched ++ [p] } := by
  have hpassed : s.passed = s.fetched.length := passed_of_no_item (by rw [hpc]; rfl)
  have hpassed' : State.passed
      { s with pc := .loop ⟨s.fetched.length, p⟩, fetched := s.fetched ++ [p] } =
        s.fetched.length := rfl
  refine ⟨?_, h.container_opened, ?_, ?_, h.order, ?_, ?_, ?_, ?_⟩
  · intro it hit
    cases hit
    simp
  · intro m hm
    rw [hpassed', ← hpassed]
    exact h.muxed_lt m hm
  · intro m hm
    obtain ⟨q, out, hq, hsend⟩ := h.content m hm
    refine ⟨q, out, ?_, hsend⟩
    simp only
    rw [List.getElem?_append_left (List.getElem?_eq_some_iff.mp hq).1, hq]
  · exact fun k => (h.block k).imp_right fun ⟨j, hj⟩ => ⟨j, hj.append p⟩
  · have hs := h.session
    simp only [Session, hpc, hpassed] at hs
    simp only [Session, hpassed']
    rcases hs with hs | ⟨ha, k, hk, hst⟩ | hs
    · exact Or.inl hs
    · exact Or.inr (Or.inl ⟨ha, k, hk, hst.append p⟩)
    · exact Or.inr (Or.inr hs)
  · intro hs ha
    rw [hpassed']
    have := h.gap hs ha
    rw [hpassed] at this
    exact this.append (Nat.le_refl _) p
  · intro hs i hi
    rw [hpassed'] at hi
    exact (h.discards hs i (by omega)).imp_right fun hd => hd.append hi p

/-- Skipping a packet after the shutdown. -/
theorem skip_inv {s : State} {it : Item} (h : Inv s) (hpc : s.pc = .loop it)
    (hshut : s.shutdown = true) : Inv { s with pc := .fetch } := by
  have hit : s.pc.item? = some it := by rw [hpc]; rfl
  have hpassed := passed_of_item hit
  have hlen := (h.item it hit).1
  refine ⟨fun it hit => (by cases hit), h.container_opened, ?_, h.content, h.order, h.block, ?_, ?_,
    ?_⟩
  · intro m hm
    obtain ⟨hk, hp⟩ := h.muxed_lt m hm
    refine ⟨hk, ?_⟩
    simp only [State.passed, Pc.item?]
    omega
  · have hs := h.session
    simp only [Session, hpc] at hs
    simp only [Session]
    rcases hs with hs | ⟨ha, k, hk, -⟩ | hs
    · exact Or.inl hs
    · exact Or.inr (Or.inr ⟨ha, by simp [hk], hshut⟩)
    · exact Or.inr (Or.inr hs)
  · intro hs
    rw [hshut] at hs
    cases hs
  · intro hs
    rw [hshut] at hs
    cases hs

/-- Passing over a packet that is no keyframe while waiting for one. -/
theorem discard_inv {s : State} {it : Item} (h : Inv s) (hpc : s.pc = .loop it)
    (hawait : s.awaitingKeyframe = true) (hkey : it.packet.isKeyframe = false) :
    Inv { s with pc := .fetch } := by
  have hit : s.pc.item? = some it := by rw [hpc]; rfl
  have hpassed := passed_of_item hit
  have hlen := (h.item it hit).1
  have hnot : ¬ KeyframeAt s.fetched it.position := by simp [h.keyframeAt_item hit, hkey]
  have hpassed' : State.passed { s with pc := .fetch } = it.position + 1 := hlen.symm
  have hgap : s.shutdown = false →
      Gap s.fetched s.failed (it.position + 1) ∧ Discardable s.fetched s.failed it.position :=
    fun hs => (hpassed ▸ h.gap hs hawait).widen hlen hnot
  refine ⟨fun it hit => (by cases hit), h.container_opened, ?_, h.content, h.order, h.block, ?_, ?_,
    ?_⟩
  · intro m hm
    obtain ⟨hk, hp⟩ := h.muxed_lt m hm
    exact ⟨hk, by rw [hpassed']; omega⟩
  · have hs := h.session
    simp only [Session, hpc] at hs
    simp only [Session]
    rcases hs with hs | ⟨ha, -⟩ | ⟨ha, -⟩
    · exact Or.inl hs
    · rw [hawait] at ha
      cases ha
    · rw [hawait] at ha
      cases ha
  · exact fun hs _ => hpassed' ▸ (hgap hs).1
  · intro hs i hi
    rw [hpassed'] at hi
    rcases Nat.lt_or_eq_of_le (Nat.le_of_lt_succ hi) with hi | rfl
    · exact h.discards hs i (by omega)
    · exact Or.inr (hgap hs).2

theorem check_inv {s : State} {it : Item} (h : Inv s) (hpc : s.pc = .loop it) :
    Inv (s.check it) := by
  have hit : s.pc.item? = some it := by rw [hpc]; rfl
  have hs := h.session
  simp only [Session, hpc, passed_of_item hit] at hs
  unfold State.check
  split
  · exact skip_inv h hpc ‹_›
  · rename_i hshut
    split
    · rename_i hdiscard
      simp only [Bool.and_eq_true, Bool.not_eq_true'] at hdiscard
      exact discard_inv h hpc hdiscard.1 hdiscard.2
    · rename_i hgo
      -- an attempt: with no container the packet is a keyframe, else the session goes on
      split
      · rename_i hnone
        refine h.of_frame rfl rfl rfl (passed_of_item hit).symm (Nat.le_refl _) id id
          (fun it' hit' => by rw [hit]; exact hit') h.container_opened ?_
        rcases hs with hs | ⟨-, k, hk, -⟩ | ⟨-, hk, -⟩
        · refine ⟨hs, ?_⟩
          simpa [hs.1] using hgo
        · rw [hnone] at hk
          cases hk
        · exact absurd hnone hk
      · rename_i k hsome
        refine h.of_frame rfl rfl rfl (passed_of_item hit).symm (Nat.le_refl _) id id
          (fun it' hit' => by rw [hit]; exact hit') h.container_opened ?_
        rcases hs with hs | hs | ⟨-, -, hs⟩
        · rw [hs.2] at hsome
          cases hsome
        · exact Or.inr hs
        · exact absurd hs hshut

theorem fail_frame (s : State) (it : Item) :
    (s.fail it).fetched = s.fetched ∧ (s.fail it).muxed = s.muxed ∧
      (s.fail it).opened = s.opened ∧ (s.fail it).container = s.container ∧
      (s.fail it).shutdown = s.shutdown ∧ (s.fail it).failed = s.failed ++ [it.position] ∧
      (s.fail it).pc.item? = some it := by
  unfold State.fail
  split <;> exact ⟨rfl, rfl, rfl, rfl, rfl, rfl, rfl⟩

theorem fail_session (s : State) (it : Item) : Session (s.fail it) := by
  unfold State.fail
  split
  · rename_i hnone
    exact ⟨rfl, hnone⟩
  · rfl

/-- A failed attempt opens a gap at its own packet. -/
theorem fail_inv {s : State} {it : Item} (h : Inv s) (hit : s.pc.item? = some it) :
    Inv (s.fail it) := by
  obtain ⟨hfetched, hmuxed, hopened, hcont, hshut, hfailed, hitem⟩ := fail_frame s it
  have hpassed := passed_of_item hit
  have hpassed' := passed_of_item hitem
  have hlen := (h.item it hit).1
  refine ⟨?_, ?_, ?_, ?_, ?_, ?_, fail_session s it, ?_, ?_⟩
  · intro it' hit'
    rw [hitem] at hit'
    cases hit'
    rw [hfetched]
    exact h.item it hit
  · rw [hcont, hopened]
    exact h.container_opened
  · rw [hmuxed, hopened, hpassed', ← hpassed]
    exact h.muxed_lt
  · rw [hmuxed, hfetched]
    exact h.content
  · rw [hmuxed]
    exact h.order
  · rw [hmuxed, hfetched]
    exact h.block
  · intro _ _
    rw [hfetched, hfailed, hpassed']
    exact Or.inr ⟨it.position, by simp, by omega, fun i hi hlt => absurd hlt (by omega)⟩
  · intro hs i hi
    rw [hshut] at hs
    rw [hpassed', ← hpassed] at hi
    rw [hmuxed, hfetched, hfailed]
    exact (h.discards hs i hi).imp_right fun hd => hd.mono _

/-- A packet that is muxed opens a stretch at a keyframe or extends the current one. -/
theorem Inv.stretch_muxing {s : State} {it : Item} {k : Nat} (h : Inv s) (hpc : s.pc = .muxing it)
    (hk : s.container = some k) :
    Stretch s.fetched (positionsOf s.muxed k ++ [it.position]) (it.position + 1) := by
  have hit : s.pc.item? = some it := by rw [hpc]; rfl
  have hs := h.session
  simp only [Session, hpc] at hs
  rcases hs with ⟨⟨-, k', hk', hnil⟩, hkey⟩ | ⟨-, k', hk', hst⟩
  · rw [hk] at hk'
    cases hk'
    rw [hnil]
    exact .single ((h.keyframeAt_item hit).mpr hkey)
  · rw [hk] at hk'
    cases hk'
    exact hst.snoc

theorem muxOk_inv {s : State} {it : Item} {k : Nat} (h : Inv s) (hpc : s.pc = .muxing it)
    (hk : s.container = some k) (out : OutputStream) : Inv (s.muxOk it k out) := by
  have hit : s.pc.item? = some it := by rw [hpc]; rfl
  have hpassed := passed_of_item hit
  have hlen := (h.item it hit).1
  have hpassed' : (s.muxOk it k out).passed = it.position + 1 := hlen.symm
  have hmuxed : (s.muxOk it k out).muxed =
      s.muxed ++ [⟨k, it.position, sendPacketOf it.packet out⟩] := rfl
  have hopened := h.container_opened k hk
  have hst := h.stretch_muxing hpc hk
  refine ⟨fun it hit => (by cases hit), h.container_opened, ?_, ?_, ?_, ?_, ?_, ?_, ?_⟩
  · intro m hm
    rw [hpassed']
    rw [hmuxed, List.mem_append, List.mem_singleton] at hm
    rcases hm with hm | rfl
    · obtain ⟨hmk, hmp⟩ := h.muxed_lt m hm
      exact ⟨hmk, by omega⟩
    · exact ⟨by show k < s.opened; omega, by show it.position < it.position + 1; omega⟩
  · intro m hm
    rw [hmuxed, List.mem_append, List.mem_singleton] at hm
    rcases hm with hm | rfl
    · exact h.content m hm
    · exact ⟨it.packet, out, (h.item it hit).2, rfl⟩
  · rw [hmuxed, List.pairwise_append]
    refine ⟨h.order, List.pairwise_singleton _ _, fun m hm m' hm' => ?_⟩
    obtain ⟨hmk, hmp⟩ := h.muxed_lt m hm
    rw [List.mem_singleton] at hm'
    subst hm'
    exact ⟨by show m.container ≤ k; omega, by show m.position < it.position; omega⟩
  · intro k'
    rw [hmuxed, positionsOf_snoc]
    by_cases hkk : k = k'
    · subst hkk
      rw [if_pos rfl]
      exact Or.inr ⟨_, hst⟩
    · rw [if_neg hkk, List.append_nil]
      exact h.block k'
  · refine Or.inr (Or.inl ⟨rfl, k, hk, ?_⟩)
    rw [hmuxed, positionsOf_snoc, if_pos rfl, hpassed']
    exact hst
  · intro _ ha
    cases ha
  · intro hs i hi
    rw [hpassed'] at hi
    rw [hmuxed, List.map_append, List.mem_append]
    rcases Nat.lt_or_eq_of_le (Nat.le_of_lt_succ hi) with hi | rfl
    · exact (h.discards hs i (by omega)).imp_left Or.inl
    · exact Or.inl (Or.inr (by simp))

theorem toFinally_inv {s : State} (h : Inv s) (hitem : s.pc.item? = none) (pending : Bool) :
    Inv (s.toFinally pending) := by
  have hpassed := passed_of_no_item hitem
  unfold State.toFinally
  split <;>
    exact h.of_frame rfl rfl rfl hpassed.symm (Nat.le_refl _) id id (fun it hit => by cases hit)
      h.container_opened trivial

/-- Setting the event keeps the session: one in progress counts as cut short. -/
theorem Session.shutdown {s : State} (h : Session s) : Session { s with shutdown := true } := by
  unfold Session at h ⊢
  cases hpc : s.pc with
  | fetch =>
    rw [hpc] at h
    rcases h with h | ⟨ha, k, hk, -⟩ | ⟨ha, hk, -⟩
    · exact Or.inl h
    · exact Or.inr (Or.inr ⟨ha, by simp [hk], rfl⟩)
    · exact Or.inr (Or.inr ⟨ha, hk, rfl⟩)
  | loop it =>
    rw [hpc] at h
    rcases h with h | ⟨ha, k, hk, -⟩ | ⟨ha, hk, -⟩
    · exact Or.inl h
    · exact Or.inr (Or.inr ⟨ha, by simp [hk], rfl⟩)
    · exact Or.inr (Or.inr ⟨ha, hk, rfl⟩)
  | _ =>
    rw [hpc] at h
    exact h

/-- Nothing has been muxed into a container that has just been opened. -/
theorem Inv.positionsOf_opened {s : State} (h : Inv s) : positionsOf s.muxed s.opened = [] := by
  simp only [positionsOf, List.map_eq_nil_iff, List.filter_eq_nil_iff, beq_iff_eq]
  intro m hm
  have := (h.muxed_lt m hm).1
  omega

/-- **Step lemma.**  Every step preserves the invariant, as long as `close` does not raise. -/
theorem step_inv {s t : State} {e : Event} (h : Inv s) (hclose : e ≠ .close false)
    (hst : step s e = some t) : Inv t := by
  have hs := h.session
  cases step_transition hst with
  | shutdown =>
    -- another process sets the event: a session may be cut short from here on
    exact h.of_frame rfl rfl rfl rfl (Nat.le_refl _) (fun hs => by cases hs) id
      (fun it hit => hit) h.container_opened h.session.shutdown
  | next p hpc => exact next_inv h hpc p
  | exhausted hpc => exact toFinally_inv h (item?_pc hpc) false
  | check it hpc => exact check_inv h hpc
  | avOpenRaises it hpc | addStreamRaises it hpc | muxRaises it hpc =>
    exact fail_inv h (item?_pc hpc)
  | avOpen it hpc =>
    simp only [Session, hpc] at hs
    refine h.of_frame rfl rfl rfl (passed_of_pc (item?_pc hpc).symm rfl) (Nat.le_succ _) id id
      (fun it' hit' => (item?_pc hpc).trans hit') ?_ ?_
    · rintro k hk
      cases hk
      rfl
    · exact ⟨⟨hs.1.1, s.opened, rfl, h.positionsOf_opened⟩, hs.2⟩
  | addStream it hpc =>
    simp only [Session, hpc] at hs
    exact h.of_frame rfl rfl rfl (passed_of_pc (item?_pc hpc).symm rfl) (Nat.le_refl _) id id
      (fun it' hit' => (item?_pc hpc).trans hit') h.container_opened (Or.inl hs)
  | muxed it now k out hpc hk hout => exact muxOk_inv h hpc hk out
  | close it hpc =>
    simp only [Session, hpc] at hs
    exact h.of_frame rfl rfl rfl (passed_of_pc (item?_pc hpc).symm rfl) (Nat.le_refl _) id id
      (fun it' hit' => (item?_pc hpc).trans hit') (fun k hk => by cases hk) ⟨hs, rfl⟩
  | closeRaises it hpc => exact absurd rfl hclose
  | wait it hpc =>
    simp only [Session, hpc] at hs
    exact h.of_frame rfl rfl rfl (passed_of_pc (item?_pc hpc).symm rfl) (Nat.le_refl _) id id
      (fun it' hit' => (item?_pc hpc).trans hit') h.container_opened (Or.inl hs)
  | finish pending ok hpc =>
    exact h.of_frame rfl rfl rfl (passed_of_pc (item?_pc hpc).symm rfl) (Nat.le_refl _) id id
      (fun it hit => by cases hit) h.container_opened trivial

/-! ## Whole runs -/

/-- What an observer of the containers and of the discarded packets sees. -/
structure SessionStructure (s : State) : Prop where
  /-- what is muxed is the packet at its position -/
  content : ∀ m ∈ s.muxed, ∃ p out, s.fetched[m.position]? = some p ∧
    m.sendPacket = sendPacketOf p out
  /-- one container: nothing, or a contiguous block that starts with a keyframe -/
  blocks : ∀ k, positionsOf s.muxed k = [] ∨
    ∃ a n, 0 < n ∧ positionsOf s.muxed k = List.range' a n ∧ KeyframeAt s.fetched a
  /-- all containers: in opening order, strictly increasing positions -/
  order : s.muxed.Pairwise fun a b => a.container ≤ b.container ∧ a.position < b.position
  /-- no keyframe is passed over before the shutdown -/
  keyframes : s.shutdown = false → ∀ i < s.passed, KeyframeAt s.fetched i →
    i ∈ s.muxed.map (·.position)
  /-- what is discarded before the shutdown is no keyframe and lies before the first keyframe
      or between a failed attempt and the next keyframe -/
  discards : s.shutdown = false → ∀ i < s.passed, i ∉ s.muxed.map (·.position) →
    Discardable s.fetched s.failed i

theorem Inv.sessionStructure {s : State} (h : Inv s) : SessionStructure s where
  content := h.content
  blocks := fun k => (h.block k).imp_right
    fun ⟨_, a, n, hn, hpos, hkey, _⟩ => ⟨a, n, hn, hpos, hkey⟩
  order := h.order
  keyframes := fun hs i hi hkey => (h.discards hs i hi).resolve_right fun hd => hd.1 hkey
  discards := fun hs i hi hnot => (h.discards hs i hi).resolve_left hnot

/-- **Session structure of `send`**, in every state of every run: whatever the iterator
    delivers, whatever `av.open`, `add_stream` and `mux` answer, and whenever the shutdown comes,
    as long as `close` does not raise. -/
theorem send_sessionStructure (events : List Event) (hclose : Event.close false ∉ events) :
    Always step SessionStructure State.init events := by
  have hmeet : StepsMeet step (fun _ e => e ≠ .close false) State.init events :=
    stepsMeet_of_forall_mem fun _ e he heq => hclose (heq ▸ he)
  exact always_of_stepsMeet (fun _ h => h.sessionStructure)
    (fun _ _ _ h he hst => step_inv h he hst) init_inv hmeet

/-- A keyframe goes out, the packet after it fails and is dropped, the next keyframe goes out
    through a new container. -/
def recoveryScript : List Event :=
  let frame : Bool → EncodedPacket := fun key => ⟨"h264", 640, 360, 1, some 0, [1], key⟩
  [.next (frame true), .check, .avOpen true, .addStream true, .muxed 1,
    .next (frame false), .check, .muxRaises, .close true, .wait, .check,
    .next (frame true), .check, .avOpen true, .addStream true, .muxed 2]

theorem recovery_sessionStructure :
    (∃ s, run step State.init recoveryScript = some s ∧
      s.muxed.map (fun m => (m.container, m.position)) = [(0, 0), (1, 2)]) ∧
    Always step SessionStructure State.init recoveryScript :=
  ⟨⟨_, rfl, by decide⟩, send_sessionStructure recoveryScript (by decide)⟩

end PipeWorks.NvidiaPipe.Send
