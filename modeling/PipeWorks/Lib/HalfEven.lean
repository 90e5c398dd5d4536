import Mathlib.Algebra.Order.Round
import Mathlib.Algebra.Ring.Int.Parity
import Mathlib.Tactic.Linarith
import Mathlib.Tactic.Ring

/-!
# Rounding half to even

`halfEven q` is the nearest integer of `q`, in a tie the even one.

* `abs_halfEven_sub_le` — it is at most one half away, and no integer is nearer;
* `even_halfEven` — it is even if another integer is as near;
* `halfEven_eq_of_near` — a number that is nearer to `q` than every tie is rounds as `q` does.
-/

set_option autoImplicit false

namespace HalfEven

variable {α : Type*} [Field α] [LinearOrder α] [IsStrictOrderedRing α] [FloorRing α]

def halfEven (q : α) : ℤ :=
  if q - ⌊q⌋ < 1 / 2 then ⌊q⌋
  else if 1 / 2 < q - ⌊q⌋ then ⌊q⌋ + 1
  else if ⌊q⌋ % 2 = 0 then ⌊q⌋
  else ⌊q⌋ + 1

variable {q x : α} {n : ℤ}

theorem abs_halfEven_sub_le (q : α) : |(halfEven q : α) - q| ≤ 1 / 2 := by
  have hle := Int.floor_le q
  have hlt := Int.lt_floor_add_one q
  rw [abs_le]
  unfold halfEven
  split_ifs with h1 h2 h3 <;> push_cast <;> constructor <;> linarith

/-- Two integers that are at most one half away from `q` are equal, or `q` is the tie. -/
theorem abs_sub_of_ne (hn : |(n : α) - q| ≤ 1 / 2) (hne : n ≠ halfEven q) :
    |(n : α) - q| = 1 / 2 ∧ |(halfEven q : α) - q| = 1 / 2 := by
  have hround := abs_halfEven_sub_le q
  have hone : 1 ≤ |(n : α) - halfEven q| := by
    have hint : 1 ≤ |n - halfEven q| := Int.one_le_abs (sub_ne_zero.mpr hne)
    exact_mod_cast hint
  have htriangle : |(n : α) - halfEven q| ≤ |(n : α) - q| + |(halfEven q : α) - q| := by
    rw [abs_sub_comm (halfEven q : α)]
    exact abs_sub_le _ _ _
  constructor <;> linarith

theorem halfEven_eq_of_lt (h : |(n : α) - q| < 1 / 2) : halfEven q = n := by
  by_contra hne
  have htie := abs_sub_of_ne h.le (Ne.symm hne)
  exact absurd htie.1 h.ne

@[simp]
theorem halfEven_intCast (n : ℤ) : halfEven (n : α) = n := by
  refine halfEven_eq_of_lt ?_
  rw [sub_self, abs_zero]
  exact one_half_pos

/-- No integer is nearer. -/
theorem abs_halfEven_sub_le_abs (q : α) (n : ℤ) : |(halfEven q : α) - q| ≤ |(n : α) - q| := by
  by_cases hn : |(n : α) - q| < 1 / 2
  · rw [halfEven_eq_of_lt hn]
  · exact (abs_halfEven_sub_le q).trans (not_lt.mp hn)

/-- In a tie the integer is even. -/
theorem even_halfEven (hn : |(n : α) - q| = |(halfEven q : α) - q|) (hne : n ≠ halfEven q) :
    Even (halfEven q) := by
  have hround := abs_halfEven_sub_le q
  obtain ⟨-, htie⟩ := abs_sub_of_ne (hn.trans_le hround) hne
  have hle := Int.floor_le q
  have hlt := Int.lt_floor_add_one q
  rw [Int.even_iff]
  unfold halfEven at htie ⊢
  split_ifs at htie ⊢ with h1 h2 h3
  · -- below the tie
    rw [abs_sub_comm, abs_of_nonneg (by linarith)] at htie
    linarith
  · push_cast at htie
    rw [abs_of_nonneg (by linarith)] at htie
    linarith
  · exact h3
  · omega

/-- A number that is nearer to `q` than every tie is. -/
theorem halfEven_eq_of_near (h : ∀ k : ℤ, |x - q| < |q - (k + 1 / 2)|) :
    halfEven x = halfEven q := by
  have hround := abs_le.mp (abs_halfEven_sub_le q)
  have hbelow := h (halfEven q - 1)
  have habove := h (halfEven q)
  push_cast at hbelow
  rw [abs_of_nonneg (by linarith : 0 ≤ q - (↑(halfEven q) - 1 + 1 / 2))] at hbelow
  rw [abs_sub_comm q, abs_of_nonneg (by linarith : 0 ≤ ↑(halfEven q) + 1 / 2 - q)] at habove
  have hx := abs_lt.mp hbelow
  have hx' := abs_lt.mp habove
  refine halfEven_eq_of_lt ?_
  rw [abs_lt]
  constructor <;> linarith

end HalfEven
