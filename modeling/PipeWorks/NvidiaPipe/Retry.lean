import PipeWorks.NvidiaPipe.SendSession

/-!
# The retry of `send`

After a failed attempt `send` throws the container away and tries again one second later; nothing
but the end of the packets or the shutdown should end it, and no container should be forgotten.
The `except` clause calls `container.close()` before it resets `container` and waits, so an
exception of that call leaves the clause, the loop and `send`: `survives_iff` says that this is
the only way in which the retry breaks.  `finally` closes the container a second time on the way
out, so none is forgotten even then.
-/

set_option autoImplicit false

namespace PipeWorks.NvidiaPipe.Send

open StepSystem

/-! ## The property -/

/-- `send`, and what has become of its packet iterator. -/
structure Watched where
  send : State
  /-- history: the iterator is exhausted -/
  exhausted : Bool
  deriving DecidableEq, Repr

def Watched.init : Watched := ⟨State.init, false⟩

def watchedStep (w : Watched) (e : Event) : Option Watched :=
  (step w.send e).map fun s => ⟨s, w.exhausted || decide (e = .exhausted)⟩

/-- The retry survives every failure, seen in one state. -/
structure Survives (w : Watched) : Prop where
  /-- `send` ends because the packets have ended or the shutdown has come -/
  ends : ∀ raised, w.send.pc = .ended raised → w.exhausted = true ∨ w.send.shutdown = true
  /-- no exception raised while a broken container is discarded is on its way out -/
  discards : w.send.pc ≠ .finishing true
  /-- every container has been asked to close before `send` ends -/
  closed : ∀ raised, w.send.pc = .ended raised → ∀ k < w.send.opened, k ∈ w.send.closed
  /-- every container has been asked to close before another one is opened -/
  replaced : ∀ k, k + 1 < w.send.opened → k ∈ w.send.closed

/-- A broken container is closed without an exception. -/
def DiscardsCleanly (w : Watched) (e : Event) : Prop :=
  ∀ it, w.send.pc = .closing it → e ≠ .close false

/-! ## What every step preserves -/

/-- A container that has been opened is the one in hand or has been asked to close. -/
def State.Accounted (s : State) : Prop := ∀ k < s.opened, k ∈ s.closed ∨ s.container = some k

/-- Containers are opened one after the other, and only when there is none. -/
structure Containers (s : State) : Prop where
  latest : ∀ k, s.container = some k → k + 1 = s.opened
  accounted : s.Accounted
  opening : ∀ it, s.pc = .opening it → s.container = none
  ended : ∀ raised, s.pc = .ended raised → ∀ k < s.opened, k ∈ s.closed

theorem init_containers : Containers State.init where
  latest := fun _ h => by cases h
  accounted := fun _ h => absurd h (Nat.not_lt_zero _)
  opening := fun _ _ => rfl
  ended := fun _ h => by cases h

/-- A container that is not the one in hand has been asked to close. -/
theorem Containers.closed_of_replaced {s : State} (h : Containers s) {k : Nat}
    (hk : k + 1 < s.opened) : k ∈ s.closed := by
  rcases h.accounted k (by omega) with hclosed | hcont
  · exact hclosed
  · have := h.latest k hcont
    omega

theorem Containers.closed_of_none {s : State} (h : Containers s) (hnone : s.container = none) :
    ∀ k < s.opened, k ∈ s.closed := by
  intro k hk
  rcases h.accounted k hk with hclosed | hcont
  · exact hclosed
  · rw [hnone] at hcont
    cases hcont

/-- After a call of `close` on the container in hand, every container has been asked. -/
theorem Containers.closed_append {s : State} (h : Containers s) :
    ∀ k < s.opened, k ∈ s.closed ++ s.container.toList := by
  intro k hk
  rcases h.accounted k hk with hclosed | hcont
  · exact List.mem_append_left _ hclosed
  · exact List.mem_append_right _ (by simp [hcont])

/-- A step that leaves the containers alone. -/
theorem Containers.of_frame {s t : State} (h : Containers s) (hcont : t.container = s.container)
    (hopened : t.opened = s.opened) (hclosed : t.closed = s.closed)
    (hopening : ∀ it, t.pc = .opening it → s.container = none)
    (hended : ∀ raised, t.pc = .ended raised → s.container = none ∨ s.pc = .ended raised) :
    Containers t where
  latest := fun k hk => by
    rw [hopened]
    exact h.latest k (hcont ▸ hk)
  accounted := fun k hk => by
    rw [hclosed, hcont]
    exact h.accounted k (hopened ▸ hk)
  opening := fun it hit => hcont.trans (hopening it hit)
  ended := fun raised hr k hk => by
    rw [hclosed]
    rcases hended raised hr with hnone | hpc
    · exact h.closed_of_none hnone k (hopened ▸ hk)
    · exact h.ended raised hpc k (hopened ▸ hk)

theorem fail_containers {s : State} (h : Containers s) (it : Item) : Containers (s.fail it) := by
  unfold State.fail
  split <;>
    exact h.of_frame rfl rfl rfl (fun _ hpc => by cases hpc) fun _ hpc => by cases hpc

theorem check_containers {s : State} (h : Containers s) (it : Item) : Containers (s.check it) := by
  unfold State.check
  split
  · exact h.of_frame rfl rfl rfl (fun _ hpc => by cases hpc) fun _ hpc => by cases hpc
  split
  · exact h.of_frame rfl rfl rfl (fun _ hpc => by cases hpc) fun _ hpc => by cases hpc
  split
  · rename_i hnone
    exact h.of_frame rfl rfl rfl (fun _ _ => hnone) fun _ hpc => by cases hpc
  · exact h.of_frame rfl rfl rfl (fun _ hpc => by cases hpc) fun _ hpc => by cases hpc

theorem toFinally_containers {s : State} (h : Containers s) (pending : Bool) :
    Containers (s.toFinally pending) := by
  unfold State.toFinally
  split
  · rename_i hnone
    exact h.of_frame rfl rfl rfl (fun _ hpc => by cases hpc) fun _ _ => Or.inl hnone
  · exact h.of_frame rfl rfl rfl (fun _ hpc => by cases hpc) fun _ hpc => by cases hpc

/-- **Step lemma for the containers**, whether a call of `close` raises or not. -/
theorem step_containers {s t : State} {e : Event} (h : Containers s) (hst : step s e = some t) :
    Containers t := by
  cases step_transition hst with
  | shutdown =>
    exact h.of_frame rfl rfl rfl h.opening fun _ hpc => Or.inr hpc
  | exhausted hpc => exact toFinally_containers h false
  | check it hpc => exact check_containers h it
  | avOpenRaises it hpc | addStreamRaises it hpc | muxRaises it hpc => exact fail_containers h it
  | next p hpc | addStream it hpc | muxed it now k out hpc hk hout | wait it hpc =>
    exact h.of_frame rfl rfl rfl (fun _ hpc => by cases hpc) fun _ hpc => by cases hpc
  | avOpen it hpc =>
    -- there was no container, so the ones before have all been asked to close
    have hclosed := h.closed_of_none (h.opening it hpc)
    refine ⟨fun k hk => ?_, fun k hk => ?_, fun _ hit => (by cases hit), fun _ hr => (by cases hr)⟩
    · cases hk
      rfl
    rcases Nat.lt_succ_iff_lt_or_eq.mp hk with hlt | rfl
    · exact Or.inl (hclosed k hlt)
    · exact Or.inr rfl
  | close it hpc =>
    exact ⟨fun _ hk => (by cases hk), fun k hk => Or.inl (h.closed_append k hk), fun _ _ => rfl,
      fun _ hr => (by cases hr)⟩
  | closeRaises it hpc =>
    exact ⟨h.latest, fun k hk => Or.inl (h.closed_append k hk), fun _ hit => (by cases hit),
      fun _ hr => (by cases hr)⟩
  | finish pending ok hpc =>
    exact ⟨h.latest, fun k hk => Or.inl (h.closed_append k hk), fun _ hit => (by cases hit),
      fun _ _ => h.closed_append⟩

/-- The loop is only left when the packets have ended. -/
structure Exits (w : Watched) : Prop where
  finishing : ∀ pending, w.send.pc = .finishing pending → pending = false ∧ w.exhausted = true
  ended : ∀ raised, w.send.pc = .ended raised → w.exhausted = true

/-- A step that stays in the loop. -/
theorem Exits.of_item {w : Watched} (hpc : w.send.pc.item?.isSome = true ∨ w.send.pc = .fetch) :
    Exits w := by
  refine ⟨fun _ h => ?_, fun _ h => ?_⟩ <;>
    rcases hpc with hpc | hpc <;> rw [h] at hpc <;> cases hpc

theorem check_pc (s : State) (it : Item) :
    (s.check it).pc.item?.isSome = true ∨ (s.check it).pc = .fetch := by
  unfold State.check
  split
  · exact Or.inr rfl
  split
  · exact Or.inr rfl
  split <;> exact Or.inl rfl

theorem step_exits {w w' : Watched} {e : Event} (h : Exits w) (he : DiscardsCleanly w e)
    (hst : watchedStep w e = some w') : Exits w' := by
  obtain ⟨t, ht, rfl⟩ := Option.map_eq_some_iff.mp hst
  cases step_transition ht with
  | shutdown =>
    refine ⟨fun p hp => ?_, fun r hr => ?_⟩
    · obtain ⟨hpending, hexhausted⟩ := h.finishing p hp
      exact ⟨hpending, by simp [hexhausted]⟩
    · simp [h.ended r hr]
  | exhausted hpc =>
    unfold State.toFinally
    split
    · exact ⟨fun _ hp => (by cases hp), fun _ _ => (by simp)⟩
    · refine ⟨fun _ hp => ?_, fun _ hr => (by cases hr)⟩
      cases hp
      exact ⟨rfl, by simp⟩
  | check it hpc => exact Exits.of_item (check_pc _ it)
  | avOpenRaises it hpc | addStreamRaises it hpc | muxRaises it hpc =>
    exact Exits.of_item (Or.inl (by rw [(fail_frame _ it).2.2.2.2.2.2]; rfl))
  | next p hpc | avOpen it hpc | addStream it hpc | close it hpc | wait it hpc =>
    exact Exits.of_item (Or.inl rfl)
  | muxed it now k out hpc hk hout => exact Exits.of_item (Or.inr rfl)
  | closeRaises it hpc => exact absurd rfl (he it hpc)
  | finish pending ok hpc =>
    obtain ⟨-, hexhausted⟩ := h.finishing pending hpc
    exact ⟨fun _ hp => (by cases hp), fun _ _ => (by simp [hexhausted])⟩

/-! ## Whole runs -/

/-- What the runs keep in which every broken container is closed without an exception. -/
structure Retries (w : Watched) : Prop where
  containers : Containers w.send
  exits : Exits w

theorem init_retries : Retries Watched.init :=
  ⟨init_containers, Exits.of_item (Or.inr rfl)⟩

theorem Retries.survives {w : Watched} (h : Retries w) : Survives w where
  ends := fun raised hr => Or.inl (h.exits.ended raised hr)
  discards := fun hpc => by cases (h.exits.finishing true hpc).1
  closed := h.containers.ended
  replaced := fun _ hk => h.containers.closed_of_replaced hk

theorem step_retries {w w' : Watched} {e : Event} (h : Retries w) (he : DiscardsCleanly w e)
    (hst : watchedStep w e = some w') : Retries w' := by
  have hexits := step_exits h.exits he hst
  obtain ⟨t, ht, rfl⟩ := Option.map_eq_some_iff.mp hst
  exact ⟨step_containers h.containers ht, hexits⟩

/-- An exception of `close` in the `except` clause is on its way out of `send`. -/
theorem step_not_survives {w w' : Watched} {e : Event} (he : ¬ DiscardsCleanly w e)
    (hst : watchedStep w e = some w') : ¬ Survives w' := by
  simp only [DiscardsCleanly, not_forall, not_not] at he
  obtain ⟨it, hpc, rfl⟩ := he
  obtain ⟨t, ht, rfl⟩ := Option.map_eq_some_iff.mp hst
  have hsend : t.pc = .finishing true := by
    simp only [step, hpc] at ht
    cases ht
    rfl
  exact fun hs => hs.discards hsend

/-- **When the retry survives every output failure**: in every state of a run, whatever `av.open`,
    `add_stream`, `mux` and `close` answer, exactly when no `close` of a broken container raises. -/
theorem survives_iff (events : List Event) :
    Always watchedStep Survives Watched.init events ↔
      StepsMeet watchedStep DiscardsCleanly Watched.init events :=
  always_iff_stepsMeet (fun _ h => h.survives) (fun _ _ _ h he hst => step_retries h he hst)
    (fun _ _ _ _ he hst => step_not_survives he hst) init_retries

/-- Even when a `close` raises, every container has been asked to close before the next one is
    opened and before `send` ends. -/
theorem always_containers (events : List Event) :
    Always step Containers State.init events :=
  always_of_invariant (fun _ h => h) (fun _ _ _ h hst => step_containers h hst) init_containers

/-- The `mux` of the first keyframe fails, and so does the `close` of its container. -/
def brokenScript : List Event :=
  [.next ⟨"h264", 640, 360, 1, some 0, [1], true⟩, .check, .avOpen true, .addStream true,
    .muxRaises, .close false, .close true]

/-- `send` has ended by the exception of `close`: packets are left, no shutdown has been asked for
    and nothing is tried again. -/
theorem broken_not_survives :
    (∃ w, run watchedStep Watched.init brokenScript = some w ∧ w.send.pc = .ended true ∧
      w.exhausted = false ∧ w.send.shutdown = false) ∧
    ¬ Always watchedStep Survives Watched.init brokenScript := by
  refine ⟨⟨_, rfl, rfl, rfl, rfl⟩, fun h => ?_⟩
  have hend := always_iff_runs.mp h brokenScript _ (List.prefix_refl _) rfl
  rcases hend.ends true rfl with hex | hshut
  · cases hex
  · cases hshut

end PipeWorks.NvidiaPipe.Send
