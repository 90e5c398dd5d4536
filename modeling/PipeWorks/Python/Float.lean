import Mathlib.Data.Int.Log
import Mathlib.Data.Rat.Floor
import Mathlib.Tactic.FieldSimp
import Mathlib.Tactic.NormNum
import Mathlib.Tactic.Positivity
import PipeWorks.Lib.HalfEven

/-!
# Binary doubles

`float q` is the double that `float` makes of a positive fraction: the nearest number with a
significand of 53 bits.  Fractions too large or too small for the exponent of a double are not
treated.

`halfEven_float` — `round` sees no difference, if the numerator is a 32-bit integer.
-/

set_option autoImplicit false

namespace PipeWorks.Python

open HalfEven

/-- The unit in the last place of the doubles around `q`. -/
def ulp (q : ℚ) : ℚ := 2 ^ (Int.log 2 q - 52)

/-- `float(q)`. -/
def float (q : ℚ) : ℚ := halfEven (q / ulp q) * ulp q

variable {q : ℚ}

theorem ulp_pos (q : ℚ) : 0 < ulp q := zpow_pos (by norm_num) _

theorem ulp_le (hq : 0 < q) : ulp q ≤ q / 2 ^ 52 := by
  have hlog : (2 : ℚ) ^ Int.log 2 q ≤ q := by
    exact_mod_cast Int.zpow_log_le_self (b := 2) (by norm_num) hq
  have hulp : ulp q = 2 ^ Int.log 2 q / 2 ^ 52 := by
    unfold ulp
    rw [zpow_sub₀ (by norm_num)]
    norm_num
  rw [hulp]
  exact div_le_div_of_nonneg_right hlog (by positivity)

theorem abs_float_sub_le (hq : 0 < q) : |float q - q| ≤ q / 2 ^ 53 := by
  have hpos := ulp_pos q
  have hscaled : float q - q = (halfEven (q / ulp q) - q / ulp q) * ulp q := by
    unfold float
    rw [sub_mul, div_mul_cancel₀ _ hpos.ne']
  calc |float q - q| = |(halfEven (q / ulp q) : ℚ) - q / ulp q| * ulp q := by
        rw [hscaled, abs_mul, abs_of_pos hpos]
    _ ≤ 1 / 2 * (q / 2 ^ 52) :=
        mul_le_mul (abs_halfEven_sub_le _) (ulp_le hq) hpos.le (by norm_num)
    _ = q / 2 ^ 53 := by ring

/-- A multiple of the unit is a double. -/
theorem float_eq_self {n : ℤ} (h : q = n * ulp q) : float q = q := by
  have hpos := ulp_pos q
  have hscaled : q / ulp q = (n : ℤ) := by
    rw [div_eq_iff hpos.ne']
    exact h
  rw [float, hscaled, halfEven_intCast]
  exact h.symm

/-- Halves of integers below `2 ^ 31` are doubles. -/
theorem float_half {k : ℤ} (hq : q = k + 1 / 2) (hpos : 0 < q) (hlt : q < 2 ^ 31) :
    float q = q := by
  have hlog : (2 : ℚ) ^ Int.log 2 q ≤ q := by
    exact_mod_cast Int.zpow_log_le_self (b := 2) (by norm_num) hpos
  have hexp : Int.log 2 q < 31 := by
    rw [← zpow_lt_zpow_iff_right₀ (by norm_num : (1 : ℚ) < 2)]
    exact hlog.trans_lt (by exact_mod_cast hlt)
  obtain ⟨e, he⟩ : ∃ e : ℕ, Int.log 2 q - 52 = -(e + 1 : ℤ) :=
    ⟨(51 - Int.log 2 q).toNat, by omega⟩
  refine float_eq_self (n := (2 * k + 1) * 2 ^ e) ?_
  have hulp : ulp q = 1 / 2 ^ (e + 1) := by
    unfold ulp
    rw [he, zpow_neg, one_div]
    exact_mod_cast rfl
  rw [hulp, hq]
  push_cast
  field_simp
  ring

/-- A fraction that is no tie is further from every tie than the double is from it. -/
theorem float_near (hpos : 0 < q) (hnum : q.num < 2 ^ 31) {k : ℤ} (hk : q ≠ k + 1 / 2) :
    |float q - q| < |q - (k + 1 / 2)| := by
  have hden : (0 : ℚ) < q.den := by exact_mod_cast q.den_pos
  have hq : q = q.num / q.den := (Rat.num_div_den q).symm
  have hgap : q - (k + 1 / 2) = ((2 * q.num - (2 * k + 1) * q.den : ℤ) : ℚ) / (2 * q.den) := by
    conv_lhs => rw [hq]
    push_cast
    field_simp
  have hone : (1 : ℚ) ≤ |((2 * q.num - (2 * k + 1) * q.den : ℤ) : ℚ)| := by
    have hne : (2 * q.num - (2 * k + 1) * q.den : ℤ) ≠ 0 := by
      intro hzero
      rw [hzero, Int.cast_zero, zero_div] at hgap
      exact hk (sub_eq_zero.mp hgap)
    exact_mod_cast Int.one_le_abs hne
  have hnum' : (q.num : ℚ) < 2 ^ 31 := by exact_mod_cast hnum
  calc |float q - q| ≤ q.num / q.den / 2 ^ 53 := by
        rw [← hq]
        exact abs_float_sub_le hpos
    _ < 1 / (2 * q.den) := by
        rw [div_div, div_lt_div_iff₀ (by positivity) (by positivity)]
        nlinarith
    _ ≤ |q - (k + 1 / 2)| := by
        rw [hgap, abs_div, abs_of_pos (by positivity : (0 : ℚ) < 2 * q.den)]
        exact div_le_div_of_nonneg_right hone (by positivity)

/-- **The double of a fraction rounds as the fraction does**, if its numerator has 32 bits. -/
theorem halfEven_float (hpos : 0 < q) (hnum : q.num < 2 ^ 31) :
    halfEven (float q) = halfEven q := by
  by_cases htie : ∃ k : ℤ, q = k + 1 / 2
  · obtain ⟨k, hk⟩ := htie
    have hlt : q < 2 ^ 31 := by
      have hnum' : (q.num : ℚ) < 2 ^ 31 := by exact_mod_cast hnum
      have hden : (1 : ℚ) ≤ q.den := by exact_mod_cast q.den_pos
      calc q = q.num / q.den := (Rat.num_div_den q).symm
        _ ≤ q.num := div_le_self (by exact_mod_cast (Rat.num_pos.mpr hpos).le) hden
        _ < 2 ^ 31 := hnum'
    rw [float_half hk hpos hlt]
  · push Not at htie
    exact halfEven_eq_of_near fun k => float_near hpos hnum (htie k)

end PipeWorks.Python
