import Mathlib.Data.List.Basic

/-!
# Positions in a list that grows

Entries are appended at the end and replaced where they stand, so that what has a position keeps
it.
-/

set_option autoImplicit false

namespace Positions

variable {α : Type*} {xs ys : List α} {x y : α} {i k : Nat}

theorem getElem?_append_of_some (h : xs[k]? = some x) : (xs ++ ys)[k]? = some x := by
  rw [List.getElem?_append_left (List.getElem?_eq_some_iff.1 h).1]
  exact h

/-- An entry has been there before, or is the new one. -/
theorem getElem?_concat_cases (h : (xs ++ [y])[k]? = some x) :
    xs[k]? = some x ∨ k = xs.length ∧ x = y := by
  rcases Nat.lt_trichotomy k xs.length with hlt | rfl | hgt
  · rw [List.getElem?_append_left hlt] at h
    exact .inl h
  · rw [List.getElem?_concat_length] at h
    exact .inr ⟨rfl, (Option.some.inj h).symm⟩
  · rw [List.getElem?_eq_none (by simp; omega)] at h
    cases h

/-- An entry has been there before, or is the one in the place of another. -/
theorem getElem?_set_cases (h : (xs.set i y)[k]? = some x) :
    k ≠ i ∧ xs[k]? = some x ∨ k = i ∧ x = y := by
  by_cases hk : i = k
  · subst hk
    have hlt : i < xs.length := by
      have hset := (List.getElem?_eq_some_iff.1 h).1
      rwa [List.length_set] at hset
    rw [List.getElem?_set_self hlt] at h
    exact .inr ⟨rfl, (Option.some.inj h).symm⟩
  · rw [List.getElem?_set_ne hk] at h
    exact .inl ⟨fun heq => hk heq.symm, h⟩

end Positions
