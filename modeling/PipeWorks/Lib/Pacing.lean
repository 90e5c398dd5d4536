import Mathlib.Data.Nat.Count

/-!
# A counter that paces requests

Ticks are numbered from zero.  A tick that is reached asks for something exactly if the number of
completed ticks before it is a multiple of `k`; the counter of completed ticks stands for the
number of the tick itself.

`due_iff_inStep` says when the two come to the same, i.e. when the requests fall on the multiples
of `k`: in every group of `k` ticks that begins at a multiple, either the first one completes, and
all the others as well unless the run ends before the next group, or the first one does not, and no
other tick of the group is reached.
-/

set_option autoImplicit false

namespace Pacing

variable (reached completed : ℕ → Prop) [DecidablePred completed] (k n : ℕ)

/-- Tick `i` asks. -/
def Due (i : ℕ) : Prop := reached i ∧ k ∣ Nat.count completed i

/-- The counter keeps in step with the first `n` ticks, modulo `k`. -/
structure InStep : Prop where
  first : ∀ i < n, k ∣ i → reached i
  full : ∀ i, i + k < n → k ∣ i → completed i → ∀ j, i < j → j < i + k → completed j
  empty : ∀ i, k ∣ i → ¬ completed i → ∀ j < n, i < j → j < i + k → ¬ reached j

variable {reached completed k n}

theorem count_pos_of_first {i r : ℕ} (hi : completed i) (hr : 0 < r) :
    0 < Nat.count (fun r => completed (i + r)) r := by
  rw [Nat.pos_iff_ne_zero, Nat.count_ne_iff_exists]
  exact ⟨0, hr, hi⟩

section

variable (h : InStep reached completed k n) (hsub : ∀ i, completed i → reached i)

include h hsub

/-- At the first tick of a group the counter is a multiple. -/
theorem InStep.dvd_count (m : ℕ) (hm : k * m < n) : k ∣ Nat.count completed (k * m) := by
  induction m with
  | zero => simp
  | succ m ih =>
    rw [Nat.mul_succ] at hm ⊢
    have hlast : k ∣ Nat.count completed (k * m) := ih (by omega)
    rw [Nat.count_add]
    refine Nat.dvd_add hlast ?_
    by_cases hc : completed (k * m)
    · have hall : Nat.count (fun r => completed (k * m + r)) k = k := by
        rw [Nat.count_iff_forall]
        intro r hr
        cases r with
        | zero => exact hc
        | succ r =>
          exact h.full (k * m) hm (Nat.dvd_mul_right k m) hc (k * m + (r + 1)) (by omega)
            (by omega)
      exact ⟨1, by omega⟩
    · have hnone : Nat.count (fun r => completed (k * m + r)) k = 0 := by
        rw [Nat.count_iff_forall_not]
        intro r hr hr'
        cases r with
        | zero => exact hc hr'
        | succ r =>
          exact h.empty (k * m) (Nat.dvd_mul_right k m) hc (k * m + (r + 1)) (by omega) (by omega)
            (by omega) (hsub _ hr')
      exact hnone ▸ Nat.dvd_zero k

theorem InStep.due_iff (hk : 0 < k) {i : ℕ} (hi : i < n) : Due reached completed k i ↔ k ∣ i := by
  constructor
  · rintro ⟨hreached, hcount⟩
    by_contra hndvd
    have hr : 0 < i % k := Nat.pos_of_ne_zero fun h0 => hndvd (Nat.dvd_of_mod_eq_zero h0)
    have hlt := Nat.mod_lt i hk
    have hsplit := Nat.div_add_mod i k
    have hfirst := h.dvd_count hsub (i / k) (by omega)
    by_cases hc : completed (k * (i / k))
    · -- between one and `k - 1` ticks of the group have completed
      have hpos := count_pos_of_first hc hr
      have hle : Nat.count (fun r => completed (k * (i / k) + r)) (i % k) ≤ i % k :=
        Nat.count_le _
      rw [← hsplit, Nat.count_add] at hcount
      have := Nat.le_of_dvd hpos ((Nat.dvd_add_right hfirst).1 hcount)
      omega
    · exact h.empty (k * (i / k)) (Nat.dvd_mul_right k _) hc i hi (by omega) (by omega) hreached
  · rintro ⟨m, rfl⟩
    exact ⟨h.first _ hi (Nat.dvd_mul_right k m), h.dvd_count hsub m hi⟩

end

section

variable (hdue : ∀ i < n, Due reached completed k i ↔ k ∣ i)
  (hsub : ∀ i, completed i → reached i)

include hdue

theorem completed_of_due {i j : ℕ} (hi : i + k < n) (hdvd : k ∣ i) (hc : completed i)
    (hij : i < j) (hj : j < i + k) : completed j := by
  have hfirst := ((hdue i (by omega)).2 hdvd).2
  have hnext := ((hdue (i + k) hi).2 (Nat.dvd_add hdvd (Nat.dvd_refl k))).2
  rw [Nat.count_add] at hnext
  have hgroup := (Nat.dvd_add_right hfirst).1 hnext
  have hpos := count_pos_of_first (r := k) hc (by omega)
  have hall : Nat.count (fun r => completed (i + r)) k = k :=
    Nat.le_antisymm (Nat.count_le _) (Nat.le_of_dvd hpos hgroup)
  have := Nat.count_iff_forall.1 hall (j - i) (by omega)
  rwa [Nat.add_sub_cancel' (by omega)] at this

include hsub

/-- Nothing of the group has completed before tick `i + r`: the counter stands where it was. -/
theorem not_reached_of_due {i : ℕ} (hdvd : k ∣ i) (hc : ¬ completed i) (r : ℕ) (hr : 0 < r)
    (hrk : r < k) (hn : i + r < n) : ¬ reached (i + r) := by
  induction r using Nat.strong_induction_on with
  | _ r ih =>
    intro hreached
    have hnone : Nat.count (fun r => completed (i + r)) r = 0 := by
      rw [Nat.count_iff_forall_not]
      intro q hq hq'
      rcases Nat.eq_zero_or_pos q with rfl | hpos
      · exact hc hq'
      · exact ih q hq hpos (by omega) (by omega) (hsub _ hq')
    have hfirst := ((hdue i (by omega)).2 hdvd).2
    have hcount : k ∣ Nat.count completed (i + r) := by rwa [Nat.count_add, hnone]
    have hr' : k ∣ i + r := (hdue (i + r) hn).1 ⟨hreached, hcount⟩
    have := Nat.le_of_dvd hr ((Nat.dvd_add_right hdvd).1 hr')
    omega

theorem inStep_of_due : InStep reached completed k n where
  first := fun i hi hdvd => ((hdue i hi).2 hdvd).1
  full := fun _ hi hdvd hc _ hij hj => completed_of_due hdue hi hdvd hc hij hj
  empty := by
    intro i hdvd hc j hj hij hjk
    have := not_reached_of_due hdue hsub hdvd hc (j - i) (by omega) (by omega) (by omega)
    rwa [Nat.add_sub_cancel' (by omega)] at this

end

/-- The requests fall on the multiples of `k` exactly if the counter keeps in step. -/
theorem due_iff_inStep (hk : 0 < k) (hsub : ∀ i, completed i → reached i) :
    (∀ i < n, Due reached completed k i ↔ k ∣ i) ↔ InStep reached completed k n :=
  ⟨fun hdue => inStep_of_due hdue hsub, fun h _ hi => h.due_iff hsub hk hi⟩

/-- Of `k` ticks in a row exactly one is a multiple of `k`. -/
theorem existsUnique_dvd (hk : 0 < k) (start : ℕ) :
    ∃! i, (start ≤ i ∧ i < start + k) ∧ k ∣ i := by
  have hlt := Nat.mod_lt start hk
  have hsplit := Nat.div_add_mod start k
  rcases Nat.eq_zero_or_pos (start % k) with h0 | hpos
  · refine ⟨start, ⟨⟨Nat.le_refl _, by omega⟩, Nat.dvd_of_mod_eq_zero h0⟩, ?_⟩
    rintro i ⟨⟨hle, hi⟩, hdvd⟩
    have hsub := Nat.dvd_sub hdvd (Nat.dvd_of_mod_eq_zero h0)
    by_contra hne
    have := Nat.le_of_dvd (by omega) hsub
    omega
  · refine ⟨k * (start / k) + k, ⟨⟨by omega, by omega⟩, ?_⟩, ?_⟩
    · exact Nat.dvd_add (Nat.dvd_mul_right _ _) (Nat.dvd_refl k)
    · rintro i ⟨⟨hle, hi⟩, m, rfl⟩
      have h1 : start / k < m := by
        by_contra hm
        have := Nat.mul_le_mul_left k (Nat.le_of_not_lt hm)
        omega
      have h2 : m < start / k + 2 := by
        by_contra hm
        have := Nat.mul_le_mul_left k (Nat.le_of_not_lt hm)
        rw [Nat.mul_add] at this
        omega
      rw [show m = start / k + 1 by omega, Nat.mul_succ]

end Pacing
