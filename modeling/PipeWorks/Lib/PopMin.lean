import Mathlib.Data.List.Perm.Basic
import Mathlib.Order.Lattice

/-!
# Taking the least element out of a list

`popMin lt` removes the first least element of a list with respect to a Boolean comparison
`lt`.  It is the observable behaviour of a binary heap whose pop returns the smallest entry:
what the list holds is what the heap holds, in any order.

* `popMin_perm`, `popMin_length` — the popped element and the rest are the list;
* `popMin_isSome` — a nonempty list can be popped;
* `popMin_le` — under a comparison of keys the popped element is a least one.
-/

set_option autoImplicit false

namespace PopMin

variable {α : Type*} (lt : α → α → Bool)

/-- The first least element and the others, in their order. -/
def popMin : List α → Option (α × List α)
  | [] => none
  | x :: xs =>
    match popMin xs with
    | none => some (x, [])
    | some (m, rest) => if lt m x then some (m, x :: rest) else some (x, xs)

variable {lt}

theorem popMin_isSome {l : List α} (h : l ≠ []) : ∃ m rest, popMin lt l = some (m, rest) := by
  cases l with
  | nil => exact absurd rfl h
  | cons x xs =>
    simp only [popMin]
    cases popMin lt xs with
    | none => exact ⟨x, [], rfl⟩
    | some p =>
      simp only
      split
      · exact ⟨p.1, x :: p.2, rfl⟩
      · exact ⟨x, xs, rfl⟩

theorem popMin_none {l : List α} (h : popMin lt l = none) : l = [] := by
  by_contra hne
  obtain ⟨m, rest, hm⟩ := @popMin_isSome α lt l hne
  rw [hm] at h
  cases h

/-- **Nothing is lost or invented**: the popped element with the rest is the list. -/
theorem popMin_perm {l rest : List α} {m : α} (h : popMin lt l = some (m, rest)) :
    l.Perm (m :: rest) := by
  induction l generalizing m rest with
  | nil => cases h
  | cons x xs ih =>
    simp only [popMin] at h
    split at h
    · rename_i hxs
      cases h
      rw [popMin_none hxs]
    · rename_i m' rest' hxs
      split at h
      · cases h
        exact ((ih hxs).cons x).trans (List.Perm.swap _ _ _)
      · cases h
        exact List.Perm.refl _

theorem popMin_length {l rest : List α} {m : α} (h : popMin lt l = some (m, rest)) :
    l.length = rest.length + 1 := by
  simpa using (popMin_perm h).length_eq

/-- The popped element has a least key. -/
theorem popMin_le {κ : Type*} [LinearOrder κ] {key : α → κ} {l rest : List α} {m : α}
    (h : popMin (fun a b => decide (key a < key b)) l = some (m, rest)) :
    ∀ y ∈ l, key m ≤ key y := by
  induction l generalizing m rest with
  | nil => cases h
  | cons x xs ih =>
    simp only [popMin] at h
    split at h
    · rename_i hxs
      cases h
      intro y hy
      rw [popMin_none hxs, List.mem_singleton] at hy
      rw [hy]
    · rename_i m' rest' hxs
      have hmin := ih hxs
      split at h
      · rename_i hlt
        cases h
        intro y hy
        rcases List.mem_cons.1 hy with rfl | hy
        · exact le_of_lt (of_decide_eq_true hlt)
        · exact hmin y hy
      · rename_i hge
        cases h
        intro y hy
        rcases List.mem_cons.1 hy with rfl | hy
        · exact le_refl _
        · have hle : key x ≤ key m' := not_lt.1 fun hlt => hge (decide_eq_true hlt)
          exact le_trans hle (hmin y hy)

end PopMin
