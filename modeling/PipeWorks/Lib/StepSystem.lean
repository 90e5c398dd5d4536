import Mathlib.Data.List.Basic

/-!
# Labelled step systems

A machine is a partial function `step : σ → α → Option σ`: the label carries every choice of
the environment, so that the step itself is deterministic and can be evaluated.  `run`
executes a list of labels; a run exists when every label is enabled where it is taken.

* `run_project` — the runs of a machine, seen by one of its parts;
* `run_invariant` — what every step preserves holds along every run;
* `run_map` — a simulation, step for step, along every run;
* `Always` / `StepsMeet` — a property of every visited state, a condition on every step;
* `always_of_invariant` — an invariant that implies the property;
* `always_of_stepsMeet` — a conditional invariant: preserved by the steps that meet `C`;
* `always_iff_stepsMeet` — the exactness rule: if moreover a step outside `C` always lands in
  a state that violates `P`, a run stays inside `P` exactly when all its steps meet `C`.
-/

set_option autoImplicit false

namespace StepSystem

variable {σ α : Type*}

/-- Execute a list of labels; `none` if one of them is not enabled. -/
def run (step : σ → α → Option σ) : σ → List α → Option σ
  | s, [] => some s
  | s, a :: as => (step s a).bind fun t => run step t as

/-- `t` is reachable from `s`. -/
def Reaches (step : σ → α → Option σ) (s t : σ) : Prop := ∃ as, run step s as = some t

/-- `P` holds in every state the run visits, its first state included. -/
def Always (step : σ → α → Option σ) (P : σ → Prop) : σ → List α → Prop
  | s, [] => P s
  | s, a :: as => P s ∧ ∀ t, step s a = some t → Always step P t as

/-- Every step the run takes meets `C`, a condition on its label and the state before it. -/
def StepsMeet (step : σ → α → Option σ) (C : σ → α → Prop) : σ → List α → Prop
  | _, [] => True
  | s, a :: as => ∀ t, step s a = some t → C s a ∧ StepsMeet step C t as

variable {step : σ → α → Option σ} {P I : σ → Prop} {C : σ → α → Prop}

instance decidableStepsMeet [∀ s a, Decidable (C s a)] :
    ∀ (s : σ) (as : List α), Decidable (StepsMeet step C s as)
  | _, [] => .isTrue trivial
  | s, a :: as =>
    match h : step s a with
    | none => .isTrue fun t ht => by rw [h] at ht; cases ht
    | some u =>
      have := (decidableStepsMeet u as : Decidable (StepsMeet step C u as))
      decidable_of_iff (C s a ∧ StepsMeet step C u as)
        ⟨fun hu t ht => by rw [h] at ht; cases ht; exact hu, fun hu => hu u h⟩

/-! ## Runs -/

@[simp] theorem run_nil (s : σ) : run step s [] = some s := rfl

theorem run_cons_eq_some {s t : σ} {a : α} {as : List α} :
    run step s (a :: as) = some t ↔ ∃ u, step s a = some u ∧ run step u as = some t := by
  simp [run, Option.bind_eq_some_iff]

theorem run_append_eq_some {s t : σ} {as bs : List α} :
    run step s (as ++ bs) = some t ↔ ∃ u, run step s as = some u ∧ run step u bs = some t := by
  induction as generalizing s with
  | nil => simp
  | cons a as ih =>
    rw [List.cons_append, run_cons_eq_some]
    constructor
    · rintro ⟨v, hv, h⟩
      obtain ⟨u, hu, ht⟩ := ih.mp h
      exact ⟨u, run_cons_eq_some.mpr ⟨v, hv, hu⟩, ht⟩
    · rintro ⟨u, hu, ht⟩
      obtain ⟨v, hv, hvu⟩ := run_cons_eq_some.mp hu
      exact ⟨v, hv, ih.mpr ⟨u, hvu, ht⟩⟩

/-- **Projection.**  If every step of a machine is a step of another one on its part of the state,
or leaves that part alone, its runs are runs of the other one. -/
theorem run_project {τ β : Type*} {stepτ : τ → β → Option τ} {f : σ → τ} {g : α → Option β}
    (hskip : ∀ s a t, step s a = some t → g a = none → f t = f s)
    (hstep : ∀ s a t b, step s a = some t → g a = some b → stepτ (f s) b = some (f t)) :
    ∀ {as : List α} {s t : σ}, run step s as = some t →
      run stepτ (f s) (as.filterMap g) = some (f t) := by
  intro as
  induction as with
  | nil =>
    intro s t h
    cases h
    rfl
  | cons a as ih =>
    intro s t h
    obtain ⟨u, hu, ht⟩ := run_cons_eq_some.mp h
    cases hg : g a with
    | none =>
      rw [List.filterMap_cons_none hg, ← hskip s a u hu hg]
      exact ih ht
    | some b =>
      rw [List.filterMap_cons_some hg]
      exact run_cons_eq_some.mpr ⟨f u, hstep s a u b hu hg, ih ht⟩

/-! ## Invariants -/

/-- **Run rule.**  What every step preserves, every run preserves. -/
theorem run_invariant (hstep : ∀ s a t, I s → step s a = some t → I t) :
    ∀ {as : List α} {s t : σ}, I s → run step s as = some t → I t := by
  intro as
  induction as with
  | nil =>
    intro s t hs h
    cases h
    exact hs
  | cons a as ih =>
    intro s t hs h
    obtain ⟨u, hu, ht⟩ := run_cons_eq_some.mp h
    exact ih (hstep s a u hs hu) ht

/-- **Simulation.**  If every step from a state of an invariant keeps it and is, on images, a step
of another machine with the same label, every run is a run of the other machine. -/
theorem run_map {τ : Type*} {stepτ : τ → α → Option τ} {f : σ → τ}
    (hstep : ∀ s a t, I s → step s a = some t → I t ∧ stepτ (f s) a = some (f t)) :
    ∀ {as : List α} {s t : σ}, I s → run step s as = some t →
      I t ∧ run stepτ (f s) as = some (f t) := by
  intro as
  induction as with
  | nil =>
    intro s t hs h
    cases h
    exact ⟨hs, rfl⟩
  | cons a as ih =>
    intro s t hs h
    obtain ⟨u, hu, ht⟩ := run_cons_eq_some.mp h
    obtain ⟨hIu, hfu⟩ := hstep s a u hs hu
    obtain ⟨hIt, hft⟩ := ih hIu ht
    exact ⟨hIt, run_cons_eq_some.mpr ⟨f u, hfu, hft⟩⟩

/-- A step that is taken. -/
theorem StepsMeet.cons {s t : σ} {a : α} {as : List α} (ha : C s a) (ht : step s a = some t)
    (hC : StepsMeet step C t as) : StepsMeet step C s (a :: as) := by
  intro u hu
  rw [ht] at hu
  cases hu
  exact ⟨ha, hC⟩

/-- A condition on labels alone, met by every label of the list. -/
theorem stepsMeet_of_forall_mem : ∀ {as : List α} {s : σ}, (∀ s, ∀ a ∈ as, C s a) →
    StepsMeet step C s as := by
  intro as
  induction as with
  | nil => exact fun _ => trivial
  | cons a as ih =>
    exact fun h t _ => ⟨h _ a (List.mem_cons_self ..),
      ih fun s b hb => h s b (List.mem_cons_of_mem _ hb)⟩

/-- A condition on the steps may be weakened. -/
theorem StepsMeet.imp {D : σ → α → Prop} (hCD : ∀ s a, C s a → D s a) :
    ∀ {as : List α} {s : σ}, StepsMeet step C s as → StepsMeet step D s as := by
  intro as
  induction as with
  | nil => exact fun _ => trivial
  | cons a as ih => exact fun h t ht => ⟨hCD _ a (h t ht).1, ih (h t ht).2⟩

/-- Two conditions that mean the same for the steps taken under an invariant. -/
theorem stepsMeet_congr {D : σ → α → Prop} (hstep : ∀ s a t, I s → step s a = some t → I t)
    (hCD : ∀ s a t, I s → step s a = some t → (C s a ↔ D s a)) :
    ∀ {as : List α} {s : σ}, I s → (StepsMeet step C s as ↔ StepsMeet step D s as) := by
  intro as
  induction as with
  | nil => exact fun _ => Iff.rfl
  | cons a as ih =>
    intro s hs
    exact forall_congr' fun t => forall_congr' fun ht =>
      and_congr (hCD s a t hs ht) (ih (hstep s a t hs ht))

/-- What an invariant of the steps that meet `C` says about these steps. -/
theorem StepsMeet.of_invariant {D : σ → α → Prop}
    (hstep : ∀ s a t, I s → C s a → step s a = some t → I t)
    (hD : ∀ s a t, I s → C s a → step s a = some t → D s a) :
    ∀ {as : List α} {s : σ}, I s → StepsMeet step C s as → StepsMeet step D s as := by
  intro as
  induction as with
  | nil => exact fun _ _ => trivial
  | cons a as ih =>
    intro s hs hC t ht
    obtain ⟨hCa, hCas⟩ := hC t ht
    exact ⟨hD s a t hs hCa ht, ih (hstep s a t hs hCa ht) hCas⟩

theorem always_of_stepsMeet (hIP : ∀ s, I s → P s)
    (hstep : ∀ s a t, I s → C s a → step s a = some t → I t) :
    ∀ {as : List α} {s : σ}, I s → StepsMeet step C s as → Always step P s as := by
  intro as
  induction as with
  | nil => exact fun hs _ => hIP _ hs
  | cons a as ih =>
    intro s hs hC
    refine ⟨hIP s hs, fun t ht => ?_⟩
    obtain ⟨hCa, hCas⟩ := hC t ht
    exact ih (hstep s a t hs hCa ht) hCas

/-- An invariant that implies `P` keeps every run inside `P`. -/
theorem always_of_invariant (hIP : ∀ s, I s → P s)
    (hstep : ∀ s a t, I s → step s a = some t → I t) :
    ∀ {as : List α} {s : σ}, I s → Always step P s as := by
  intro as s hs
  have hmeet : StepsMeet step (fun _ _ => True) s as := stepsMeet_of_forall_mem fun _ _ _ => trivial
  exact always_of_stepsMeet hIP (fun s a t h _ ht => hstep s a t h ht) hs hmeet

theorem Always.head {s : σ} {as : List α} (h : Always step P s as) : P s := by
  cases as with
  | nil => exact h
  | cons a as => exact h.1

/-- **Exactness rule.**  If the steps inside `C` preserve `I`, and a step outside `C` taken
    under `I` leads out of `P`, then a run stays in `P` exactly when its steps meet `C`. -/
theorem always_iff_stepsMeet (hIP : ∀ s, I s → P s)
    (hstep : ∀ s a t, I s → C s a → step s a = some t → I t)
    (hexact : ∀ s a t, I s → ¬ C s a → step s a = some t → ¬ P t) :
    ∀ {as : List α} {s : σ}, I s → (Always step P s as ↔ StepsMeet step C s as) := by
  intro as s hs
  refine ⟨fun h => ?_, always_of_stepsMeet hIP hstep hs⟩
  induction as generalizing s with
  | nil => trivial
  | cons a as ih =>
    intro t ht
    have hrest := h.2 t ht
    by_cases hCa : C s a
    · exact ⟨hCa, ih (hstep s a t hs hCa ht) hrest⟩
    · exact absurd hrest.head (hexact s a t hs hCa ht)

/-- The exactness rule for the runs whose steps meet another condition as well. -/
theorem always_iff_stepsMeet_within {B : σ → α → Prop} (hIP : ∀ s, I s → P s)
    (hstep : ∀ s a t, I s → B s a → C s a → step s a = some t → I t)
    (hexact : ∀ s a t, I s → B s a → ¬ C s a → step s a = some t → ¬ P t)
    {as : List α} {s : σ} (hs : I s) :
    (StepsMeet step B s as ∧ Always step P s as) ↔
      StepsMeet step (fun s a => B s a ∧ C s a) s as := by
  constructor
  · rintro ⟨hB, h⟩
    induction as generalizing s with
    | nil => trivial
    | cons a as ih =>
      intro t ht
      obtain ⟨hBa, hBas⟩ := hB t ht
      have hrest := h.2 t ht
      by_cases hCa : C s a
      · exact ⟨⟨hBa, hCa⟩, ih (hstep s a t hs hBa hCa ht) hBas hrest⟩
      · exact absurd hrest.head (hexact s a t hs hBa hCa ht)
  · intro h
    exact ⟨h.imp fun _ _ => And.left,
      always_of_stepsMeet hIP (fun s a t hs hC ht => hstep s a t hs hC.1 hC.2 ht) hs h⟩

/-- `Always` in terms of prefixes: every run of a prefix ends inside `P`. -/
theorem always_iff_runs {as : List α} {s : σ} :
    Always step P s as ↔ ∀ bs t, bs <+: as → run step s bs = some t → P t := by
  induction as generalizing s with
  | nil =>
    constructor
    · rintro h bs t hbs ht
      rw [List.prefix_nil.mp hbs] at ht
      cases ht
      exact h
    · exact fun h => h [] s (List.prefix_refl _) rfl
  | cons a as ih =>
    constructor
    · rintro ⟨hs, h⟩ bs t hbs ht
      cases bs with
      | nil =>
        cases ht
        exact hs
      | cons b bs =>
        obtain ⟨rfl, hpre⟩ := List.cons_prefix_cons.mp hbs
        obtain ⟨u, hu, hut⟩ := run_cons_eq_some.mp ht
        exact ih.mp (h u hu) bs t hpre hut
    · intro h
      refine ⟨h [] s (List.nil_prefix) rfl, fun u hu => ih.mpr fun bs t hbs ht => ?_⟩
      exact h (a :: bs) t (List.cons_prefix_cons.mpr ⟨rfl, hbs⟩)
        (run_cons_eq_some.mpr ⟨u, hu, ht⟩)

end StepSystem
