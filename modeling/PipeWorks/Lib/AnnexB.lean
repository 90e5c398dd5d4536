import Mathlib.Data.List.Infix

/-!
# Units between start codes (the Annex-B byte stream)

A unit follows a start code `00 00 01`, with any number of zero bytes before it.  No unit contains a
start code, so the first one after (part of) a unit is the one of the next unit:
`not_startsAt_before`, `startsAt_next`.
-/

set_option autoImplicit false

namespace AnnexB

/-- The start code. -/
def startCode : List UInt8 := [0, 0, 1]

/-- There is a start code at this position. -/
def StartsAt (data : List UInt8) (i : ℕ) : Prop :=
  data[i]? = some 0 ∧ data[i + 1]? = some 0 ∧ data[i + 2]? = some 1

structure NalUnit where
  header : UInt8
  payload : List UInt8
  no_startCode : ¬ startCode <:+: header :: payload

/-- Every unit with the number of zero bytes before its start code. -/
def annexB : List (ℕ × NalUnit) → List UInt8
  | [] => []
  | (zeros, u) :: rest =>
    List.replicate zeros 0 ++ (startCode ++ (u.header :: (u.payload ++ annexB rest)))

theorem startsAt_iff {data : List UInt8} {i : ℕ} : StartsAt data i ↔ startCode <+: data.drop i := by
  have hread : ∀ k, data[i + k]? = (data.drop i)[k]? := fun k => by rw [List.getElem?_drop]
  unfold StartsAt startCode
  rw [← Nat.add_zero i, hread, Nat.add_zero, hread 1, hread 2]
  rcases data.drop i with _ | ⟨a, _ | ⟨b, _ | ⟨c, tail⟩⟩⟩
  · simp
  · simp
  · simp
  · simp [List.cons_prefix_cons, eq_comm (a := (0 : UInt8)), eq_comm (a := (1 : UInt8))]

theorem startCode_within {data : List UInt8} {i : ℕ} (h : StartsAt data i) : startCode <:+: data :=
  (startsAt_iff.1 h).isInfix.trans (List.drop_suffix i data).isInfix

theorem startsAt_append (pre rest : List UInt8) (i : ℕ) :
    StartsAt (pre ++ rest) (pre.length + i) ↔ StartsAt rest i := by
  rw [startsAt_iff, startsAt_iff, List.drop_append, List.drop_of_length_le (Nat.le_add_right _ i),
    List.nil_append, Nat.add_sub_cancel_left]

theorem NalUnit.payload_clean (u : NalUnit) (i : ℕ) : ¬ StartsAt u.payload i :=
  fun h => u.no_startCode ((startCode_within h).trans (List.suffix_cons u.header u.payload).isInfix)

variable {body : List UInt8} (zeros : ℕ) (tail : List UInt8)

theorem startsAt_next (body : List UInt8) :
    StartsAt (body ++ (List.replicate zeros 0 ++ (startCode ++ tail))) (body.length + zeros) := by
  have hlen : (List.replicate zeros (0 : UInt8)).length = zeros := List.length_replicate
  rw [startsAt_append]
  nth_rewrite 2 [← hlen]
  rw [← Nat.add_zero (List.length _), startsAt_append]
  exact ⟨rfl, rfl, rfl⟩

/-- There is no start code before it: what looks like one would lie in `body`, or end in a zero. -/
theorem not_startsAt_before (hclean : ∀ i, ¬ StartsAt body i) {i : ℕ}
    (hi : i < body.length + zeros) :
    ¬ StartsAt (body ++ (List.replicate zeros 0 ++ (startCode ++ tail))) i := by
  rintro ⟨h0, h1, h2⟩
  by_cases hin : i + 2 < body.length
  · rw [List.getElem?_append_left (by omega)] at h0 h1 h2
    exact hclean i ⟨h0, h1, h2⟩
  · rw [List.getElem?_append_right (by omega)] at h2
    by_cases hzero : i + 2 - body.length < zeros
    · rw [List.getElem?_append_left (by simpa using hzero), List.getElem?_replicate,
        if_pos hzero] at h2
      cases h2
    · rw [List.getElem?_append_right (by simpa using hzero), List.length_replicate] at h2
      obtain hk | hk : i + 2 - body.length - zeros = 0 ∨ i + 2 - body.length - zeros = 1 := by
        omega
      · rw [hk] at h2
        cases h2
      · rw [hk] at h2
        cases h2

end AnnexB
