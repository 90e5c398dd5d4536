import Mathlib.Data.List.Basic
import Mathlib.Logic.Function.Basic

/-!
# Named objects that are counted by their handles

A kernel keeps an object under a name as long as somebody has a handle to it.  `table` counts the
handles of each name, `holds` says which name a user has a handle to.

`Counts` is the invariant that the table counts the users: `Counts.opened`, `Counts.closed` and
`Counts.same` keep it, and an object is there exactly if it has a user (`Counts.exists_iff`).
-/

set_option autoImplicit false

namespace Handles

variable {K : Type*} {α : Type*} [DecidableEq K] {holds : α → Option K} {table : K → Nat}
  {users : List α} {a b : α} {k : K} {i : Nat}

def opened (table : K → Nat) (k : K) : K → Nat := Function.update table k (table k + 1)

def closed (table : K → Nat) (k : K) : K → Nat := Function.update table k (table k - 1)

/-- The table counts the handles of the users. -/
def Counts (holds : α → Option K) (table : K → Nat) (users : List α) : Prop :=
  ∀ k, table k = users.countP fun a => decide (holds a = some k)

theorem counts_nil : Counts holds (fun _ => 0) [] := fun _ => rfl

/-- A user without a handle. -/
theorem Counts.append (h : Counts holds table users) (ha : holds a = none) :
    Counts holds table (users ++ [a]) := by
  intro k
  rw [List.countP_append, h k, List.countP_singleton, ha]
  rfl

/-- A user changes, and the handles of one name by as much. -/
theorem Counts.set (h : Counts holds table users) (ha : users[i]? = some a) {table' : K → Nat}
    (htable : ∀ k, table' k + (if holds a = some k then 1 else 0) =
      table k + if holds b = some k then 1 else 0) : Counts holds table' (users.set i b) := by
  intro k
  obtain ⟨hlt, hget⟩ := List.getElem?_eq_some_iff.1 ha
  have hmem : holds a = some k → 0 < table k := by
    intro hk
    rw [h k, List.countP_pos_iff]
    exact ⟨a, List.mem_of_getElem? ha, decide_eq_true hk⟩
  have hk := htable k
  rw [List.countP_set hlt, hget, ← h k]
  by_cases hold : holds a = some k
  · have hpos := hmem hold
    simp only [hold, decide_true, if_true] at hk ⊢
    by_cases hnew : holds b = some k
    · simp only [hnew, decide_true, if_true] at hk ⊢
      omega
    · simp only [hnew, decide_false, if_false, Bool.false_eq_true] at hk ⊢
      omega
  · simp only [hold, decide_false, if_false, Bool.false_eq_true] at hk ⊢
    by_cases hnew : holds b = some k
    · simp only [hnew, decide_true, if_true] at hk ⊢
      omega
    · simp only [hnew, decide_false, if_false, Bool.false_eq_true] at hk ⊢
      omega

theorem Counts.same (h : Counts holds table users) (ha : users[i]? = some a)
    (hsame : holds b = holds a) : Counts holds table (users.set i b) :=
  h.set ha fun k => by rw [hsame]

theorem Counts.opened (h : Counts holds table users) (ha : users[i]? = some a)
    (hnone : holds a = none) (hsome : holds b = some k) :
    Counts holds (Handles.opened table k) (users.set i b) := by
  refine h.set ha fun k' => ?_
  rw [hnone, hsome]
  by_cases hk : k' = k
  · subst hk
    simp [Handles.opened]
  · have hne : k ≠ k' := fun heq => hk heq.symm
    simp [Handles.opened, Function.update_of_ne hk, hne]

theorem Counts.pos (h : Counts holds table users) (ha : users[i]? = some a)
    (hsome : holds a = some k) : 0 < table k := by
  rw [h k, List.countP_pos_iff]
  exact ⟨a, List.mem_of_getElem? ha, decide_eq_true hsome⟩

theorem Counts.closed (h : Counts holds table users) (ha : users[i]? = some a)
    (hsome : holds a = some k) (hnone : holds b = none) :
    Counts holds (Handles.closed table k) (users.set i b) := by
  have hpos := h.pos ha hsome
  refine h.set ha fun k' => ?_
  rw [hnone, hsome]
  by_cases hk : k' = k
  · subst hk
    simp [Handles.closed]
    omega
  · have hne : k ≠ k' := fun heq => hk heq.symm
    simp [Handles.closed, Function.update_of_ne hk, hne]

/-- **An object is there exactly if somebody has a handle to it.** -/
theorem Counts.exists_iff (h : Counts holds table users) :
    0 < table k ↔ ∃ a ∈ users, holds a = some k := by
  rw [h k, List.countP_pos_iff]
  simp only [decide_eq_true_eq]

end Handles
