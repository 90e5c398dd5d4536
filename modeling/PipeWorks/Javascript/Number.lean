import Mathlib.Algebra.Group.Nat.Defs
import Mathlib.Data.List.Basic

/-!
# Integers in JavaScript

A number of JavaScript is a binary double.  `double` is the number that the decimal digits of a
natural number are read as, `shortest` the natural number whose digits `String` and
`JSON.stringify` write for such a number: as few significant digits as will be read back, then
zeros.  (Exponents are written from `10 ^ 21` on.)
-/

set_option autoImplicit false

namespace PipeWorks.Javascript

/-- The nearest number with a significand of 53 bits, in a tie the one with an even significand. -/
def double (n : Nat) : Nat :=
  let ulp := 2 ^ (n.log2 - 52)
  let q := n / ulp
  if 2 * (n % ulp) < ulp || (2 * (n % ulp) == ulp && q % 2 == 0) then q * ulp else (q + 1) * ulp

/-- A multiple of `10 ^ zeros` that is read as `x`, the closest one first. -/
def rounded? (x zeros : Nat) : Option Nat :=
  let unit := 10 ^ zeros
  let below := x / unit * unit
  (if 2 * (x % unit) ≤ unit then [below, below + unit] else [below + unit, below]).find?
    fun c => double c == x

/-- The integer that is written for the number `x`. -/
def shortest (x : Nat) : Nat := ((List.range 21).reverse.findSome? (rounded? x)).getD x

example : double 9007199254740993 = 9007199254740992 ∧ shortest (2 ^ 63) = 9223372036854776000 := by
  decide

/-- `q * 2 ^ e` is read as it is if its unit in the last place is `2 ^ e`. -/
theorem double_mul {q e : Nat} (h : (q * 2 ^ e).log2 - 52 = e) :
    double (q * 2 ^ e) = q * 2 ^ e := by
  have hpos : 0 < 2 ^ e := Nat.two_pow_pos e
  simp [double, h, hpos]

theorem double_of_lt {n : Nat} (h : n < 2 ^ 53) : double n = n := by
  have hlog : n.log2 - 52 = 0 := by
    rcases Nat.eq_zero_or_pos n with rfl | hn
    · rfl
    · have := (Nat.log2_lt (by omega)).2 h
      omega
  simpa using double_mul (q := n) (e := 0) (by simpa using hlog)

theorem log2_mul_two_pow {m : Nat} (e : Nat) (hm : 2 ^ 52 ≤ m) (hm' : m < 2 ^ 53) :
    (m * 2 ^ e).log2 = 52 + e := by
  have hpos : 0 < 2 ^ e := Nat.two_pow_pos e
  rw [Nat.log2_eq_iff (Nat.mul_ne_zero (by omega) (by omega))]
  constructor
  · rw [Nat.pow_add]
    exact Nat.mul_le_mul_right _ hm
  · rw [show 52 + e + 1 = 53 + e by omega, Nat.pow_add]
    exact Nat.mul_lt_mul_of_pos_right hm' hpos

/-- A number with a significand of 53 bits is read as it is. -/
theorem double_mul_two_pow {m : Nat} (e : Nat) (hm : 2 ^ 52 ≤ m) (hm' : m < 2 ^ 53) :
    double (m * 2 ^ e) = m * 2 ^ e :=
  double_mul (by rw [log2_mul_two_pow e hm hm']; omega)

/-- What is read has a significand of 53 bits. -/
theorem double_eq {n : Nat} (h : 2 ^ 53 ≤ n) :
    ∃ m e, 2 ^ 52 ≤ m ∧ m < 2 ^ 53 ∧ 1 ≤ e ∧ double n = m * 2 ^ e := by
  have hne : n ≠ 0 := by omega
  have hlog : 53 ≤ n.log2 := (Nat.le_log2 hne).2 h
  obtain ⟨e, he⟩ : ∃ e, n.log2 = 52 + e := ⟨n.log2 - 52, by omega⟩
  have hulp : n.log2 - 52 = e := by omega
  have hpos : 0 < 2 ^ e := Nat.two_pow_pos e
  have hlow : 2 ^ 52 ≤ n / 2 ^ e := by
    rw [Nat.le_div_iff_mul_le hpos, ← Nat.pow_add, ← he]
    exact Nat.log2_self_le hne
  have hhigh : n / 2 ^ e < 2 ^ 53 := by
    rw [Nat.div_lt_iff_lt_mul hpos, ← Nat.pow_add, show 53 + e = n.log2 + 1 by omega]
    exact Nat.lt_log2_self
  simp only [double, hulp]
  split
  · exact ⟨n / 2 ^ e, e, hlow, hhigh, by omega, rfl⟩
  · by_cases hcarry : n / 2 ^ e + 1 < 2 ^ 53
    · exact ⟨n / 2 ^ e + 1, e, by omega, hcarry, by omega, rfl⟩
    · -- the significand is carried into the next power of two
      refine ⟨2 ^ 52, e + 1, Nat.le_refl _, by decide, by omega, ?_⟩
      have hfull : n / 2 ^ e + 1 = 2 ^ 52 * 2 := by omega
      calc (n / 2 ^ e + 1) * 2 ^ e = 2 ^ 52 * (2 ^ e * 2) := by
            rw [hfull, Nat.mul_assoc, Nat.mul_comm 2]
        _ = 2 ^ 52 * 2 ^ (e + 1) := by rw [← Nat.pow_succ]

theorem le_double {n : Nat} (h : 2 ^ 53 ≤ n) : 2 ^ 53 ≤ double n := by
  obtain ⟨m, e, hm, _, he, hdouble⟩ := double_eq h
  have htwo : 2 ^ 1 ≤ 2 ^ e := Nat.pow_le_pow_right (by decide) he
  rw [hdouble, show 53 = 52 + 1 by decide, Nat.pow_add]
  exact Nat.mul_le_mul hm htwo

@[simp]
theorem double_double (n : Nat) : double (double n) = double n := by
  by_cases h : n < 2 ^ 53
  · rw [double_of_lt h, double_of_lt h]
  · obtain ⟨m, e, hm, hm', _, hdouble⟩ := double_eq (Nat.le_of_not_lt h)
    rw [hdouble, double_mul_two_pow e hm hm']

theorem double_eq_zero {n : Nat} : double n = 0 ↔ n = 0 := by
  by_cases h : n < 2 ^ 53
  · rw [double_of_lt h]
  · have := le_double (Nat.le_of_not_lt h)
    omega

theorem double_rounded {x zeros c : Nat} (h : rounded? x zeros = some c) : double c = x := by
  simpa using List.find?_some h

/-- What is written for a number is read as that number. -/
theorem double_shortest {x : Nat} (h : double x = x) : double (shortest x) = x := by
  unfold shortest
  cases hfound : (List.range 21).reverse.findSome? (rounded? x) with
  | none => exact h
  | some c =>
    obtain ⟨_, zeros, _, _, hzeros, _⟩ := List.findSome?_eq_some_iff.1 hfound
    exact double_rounded hzeros

/-- Numbers below `2 ^ 53` are written as they are. -/
theorem shortest_of_lt {x : Nat} (h : x < 2 ^ 53) : shortest x = x := by
  have hread := double_shortest (double_of_lt h)
  by_cases hshort : shortest x < 2 ^ 53
  · rwa [double_of_lt hshort] at hread
  · have := le_double (Nat.le_of_not_lt hshort)
    omega

end PipeWorks.Javascript
