/-!
# What a computation may fail with

`FailsWith P x`: if `x` fails, then with an error that satisfies `P`.  A sequence of computations
fails with `P` exactly if the first does, and the second for every value the first can give
(`failsWith_bind`), so what a program may fail with is the conjunction of what its steps may.
-/

set_option autoImplicit false

namespace Fails

universe u v w

variable {ε : Type u} {ε' : Type v} {α β : Type w} {P : ε → Prop}

/-- Every failure of `x` satisfies `P`. -/
def FailsWith (P : ε → Prop) (x : Except ε α) : Prop := ∀ e, x = .error e → P e

@[simp] theorem failsWith_ok (a : α) : FailsWith P (.ok a : Except ε α) := fun _ h => by cases h

@[simp] theorem failsWith_pure (a : α) : FailsWith P (pure a : Except ε α) := failsWith_ok a

@[simp] theorem failsWith_error (e : ε) : FailsWith P (.error e : Except ε α) ↔ P e := by
  constructor
  · exact fun h => h e rfl
  · rintro h _ ⟨⟩
    exact h

/-- **Sequences.** -/
@[simp] theorem failsWith_bind (x : Except ε α) (f : α → Except ε β) :
    FailsWith P (x >>= f) ↔ FailsWith P x ∧ ∀ a, x = .ok a → FailsWith P (f a) := by
  cases x with
  | error e =>
    constructor
    · rintro h
      exact ⟨(failsWith_error e).2 (h e rfl), fun a ha => by cases ha⟩
    · exact fun h e' he' => by cases he'; exact h.1 e rfl
  | ok a =>
    constructor
    · exact fun h => ⟨failsWith_ok a, fun b hb => by cases hb; exact h⟩
    · exact fun h => h.2 a rfl

theorem ok_bind (a : α) (f : α → Except ε β) : ((.ok a : Except ε α) >>= f) = f a := rfl

theorem bind_eq_ok {x : Except ε α} {f : α → Except ε β} {b : β} :
    (x >>= f) = .ok b ↔ ∃ a, x = .ok a ∧ f a = .ok b := by
  cases x with
  | error e => simp [bind, Except.bind]
  | ok a => simp [bind, Except.bind]

theorem bind_eq_error {x : Except ε α} {f : α → Except ε β} {e : ε} :
    (x >>= f) = .error e ↔ x = .error e ∨ ∃ a, x = .ok a ∧ f a = .error e := by
  cases x with
  | error e => simp [bind, Except.bind]
  | ok a => simp [bind, Except.bind]

theorem mapError_eq_ok {x : Except ε' α} {f : ε' → ε} {a : α} :
    x.mapError f = .ok a ↔ x = .ok a := by
  cases x with
  | error e => exact ⟨nofun, nofun⟩
  | ok b =>
    constructor
    · intro h
      rw [Except.ok.inj h]
    · intro h
      rw [Except.ok.inj h]
      rfl

theorem mapError_eq_error {x : Except ε' α} {f : ε' → ε} {e : ε} :
    x.mapError f = .error e ↔ ∃ e', x = .error e' ∧ f e' = e := by
  cases x with
  | error e' =>
    constructor
    · intro h
      exact ⟨e', rfl, Except.error.inj h⟩
    · rintro ⟨_, hx, rfl⟩
      rw [← Except.error.inj hx]
      rfl
  | ok b => exact ⟨nofun, nofun⟩

theorem map_eq_ok {x : Except ε α} {f : α → β} {b : β} :
    x.map f = .ok b ↔ ∃ a, x = .ok a ∧ f a = b := by
  cases x with
  | error e => simp [Except.map]
  | ok a => simp [Except.map]

theorem toOption_eq_some {x : Except ε α} {a : α} : x.toOption = some a ↔ x = .ok a := by
  cases x with
  | error e => simp [Except.toOption]
  | ok b => simp [Except.toOption]

theorem exists_mapM_eq_ok {γ : Type w} {f : γ → Except ε α} {xs : List γ}
    (h : ∀ x ∈ xs, ∃ y, f x = .ok y) : ∃ ys, xs.mapM f = .ok ys := by
  induction xs with
  | nil => exact ⟨[], rfl⟩
  | cons x xs ih =>
    obtain ⟨y, hy⟩ := h x (List.mem_cons_self ..)
    obtain ⟨ys, hys⟩ := ih fun x hx => h x (List.mem_cons_of_mem _ hx)
    exact ⟨y :: ys, by rw [List.mapM_cons, hy, hys]; rfl⟩

/-- Each result comes from an item. -/
theorem mem_of_mapM_eq_ok {γ : Type w} {f : γ → Except ε α} {xs : List γ} {ys : List α}
    (h : xs.mapM f = .ok ys) : ∀ y ∈ ys, ∃ x ∈ xs, f x = .ok y := by
  induction xs generalizing ys with
  | nil =>
    cases h
    exact fun y hy => absurd hy List.not_mem_nil
  | cons x xs ih =>
    rw [List.mapM_cons] at h
    obtain ⟨z, hz, h⟩ := bind_eq_ok.1 h
    obtain ⟨zs, hzs, h⟩ := bind_eq_ok.1 h
    cases h
    intro y hy
    rcases List.mem_cons.1 hy with rfl | hy
    · exact ⟨x, List.mem_cons_self .., hz⟩
    · obtain ⟨w, hw, hfw⟩ := ih hzs y hy
      exact ⟨w, List.mem_cons_of_mem _ hw, hfw⟩

theorem exists_mem_of_mapM_eq_ok {γ : Type w} {f : γ → Except ε α} {xs : List γ} {ys : List α}
    (h : xs.mapM f = .ok ys) : ∀ x ∈ xs, ∃ y ∈ ys, f x = .ok y := by
  induction xs generalizing ys with
  | nil => exact fun x hx => absurd hx List.not_mem_nil
  | cons x xs ih =>
    rw [List.mapM_cons] at h
    obtain ⟨y, hy, h⟩ := bind_eq_ok.1 h
    obtain ⟨zs, hzs, h⟩ := bind_eq_ok.1 h
    cases h
    intro z hz
    rcases List.mem_cons.1 hz with rfl | hz
    · exact ⟨y, List.mem_cons_self .., hy⟩
    · obtain ⟨w, hw, hfw⟩ := ih hzs z hz
      exact ⟨w, List.mem_cons_of_mem _ hw, hfw⟩

/-- Errors that are renamed. -/
@[simp] theorem failsWith_mapError (f : ε' → ε) (x : Except ε' α) :
    FailsWith P (x.mapError f) ↔ FailsWith (fun e => P (f e)) x := by
  cases x with
  | error e =>
    rw [failsWith_error e]
    exact failsWith_error (f e)
  | ok a => exact iff_of_true (failsWith_ok a) (failsWith_ok a)

theorem FailsWith.imp {Q : ε → Prop} {x : Except ε α} (h : FailsWith P x) (hPQ : ∀ e, P e → Q e) :
    FailsWith Q x :=
  fun e he => hPQ e (h e he)

end Fails
