import Mathlib.Data.List.Induction
import Mathlib.Data.List.Nodup
import PipeWorks.Lib.PopMin

/-!
# Putting a nearly sorted sequence in order

A buffer holds up to `n` entries.  Every entry that arrives joins it, and when it holds more than
`n` the one with the least key leaves.

* `release_perm`, `release_held` — nothing is lost, and the buffer is as full as it can be;
* `release_sorted` — if every entry has at most `n` larger ones before it, the entries leave in the
  order of their keys.

The keys are those of a linear order, and no two entries have the same one.
-/

set_option autoImplicit false

namespace Reorder

open PopMin

variable {α κ : Type*} [LinearOrder κ] (key : α → κ) (n : ℕ)

/-- What has left the buffer, in order, and what it holds. -/
structure Buffer (α : Type*) where
  released : List α
  held : List α

/-- An entry arrives. -/
def push (b : Buffer α) (x : α) : Buffer α :=
  if (b.held ++ [x]).length > n then
    match popMin (fun a b => decide (key a < key b)) (b.held ++ [x]) with
    | some (m, rest) => ⟨b.released ++ [m], rest⟩
    | none => ⟨b.released, b.held ++ [x]⟩
  else ⟨b.released, b.held ++ [x]⟩

/-- The buffer after these arrivals. -/
def release (xs : List α) : Buffer α := xs.foldl (push key n) ⟨[], []⟩

/-- No entry has more than `n` larger ones before it. -/
def Displaced (xs : List α) : Prop :=
  ∀ pre x post, xs = pre ++ x :: post → pre.countP (fun y => decide (key x < key y)) ≤ n

/-- What one arrival does. -/
theorem push_cases (b : Buffer α) (x : α) :
    (b.held.length < n ∧ push key n b x = ⟨b.released, b.held ++ [x]⟩) ∨
      ∃ m rest, n ≤ b.held.length ∧ push key n b x = ⟨b.released ++ [m], rest⟩ ∧
        (b.held ++ [x]).Perm (m :: rest) ∧ ∀ y ∈ b.held ++ [x], key m ≤ key y := by
  unfold push
  rw [List.length_append, List.length_singleton]
  by_cases hfull : b.held.length + 1 > n
  · obtain ⟨m, rest, hpop⟩ := @popMin_isSome α (fun a b => decide (key a < key b))
      (b.held ++ [x]) (by simp)
    refine .inr ⟨m, rest, by omega, ?_, popMin_perm hpop, popMin_le hpop⟩
    rw [if_pos hfull, hpop]
  · exact .inl ⟨by omega, if_neg hfull⟩

theorem release_append (xs : List α) (x : α) :
    release key n (xs ++ [x]) = push key n (release key n xs) x := by
  simp [release]

theorem release_held (xs : List α) : (release key n xs).held.length = min n xs.length := by
  induction xs using List.reverseRecOn with
  | nil => simp [release]
  | append_singleton xs x ih =>
    rw [release_append, List.length_append, List.length_singleton]
    rcases push_cases key n (release key n xs) x with
      ⟨hroom, heq⟩ | ⟨m, rest, hfull, heq, hperm, -⟩
    · rw [heq, List.length_append, List.length_singleton]
      omega
    · have hlength := hperm.length_eq
      simp only [List.length_append, List.length_cons, List.length_nil] at hlength
      rw [heq]
      show rest.length = _
      omega

theorem release_perm (xs : List α) :
    ((release key n xs).released ++ (release key n xs).held).Perm xs := by
  induction xs using List.reverseRecOn with
  | nil => exact List.Perm.refl _
  | append_singleton xs x ih =>
    have hall : ((release key n xs).released ++ ((release key n xs).held ++ [x])).Perm
        (xs ++ [x]) := by
      rw [← List.append_assoc]
      exact ih.append_right [x]
    rw [release_append]
    rcases push_cases key n (release key n xs) x with
      ⟨-, heq⟩ | ⟨m, rest, -, heq, hperm, -⟩
    · rw [heq]
      exact hall
    · rw [heq, List.append_assoc, List.singleton_append]
      exact (hperm.symm.append_left _).trans hall

variable {key n}

/-- What has left is in order, and comes before all that is held or still to arrive. -/
structure Sorted (key : α → κ) (b : Buffer α) (future : List α) : Prop where
  released : b.released.Pairwise fun x y => key x < key y
  before : ∀ x ∈ b.released, ∀ y ∈ b.held ++ future, key x < key y

/-- An entry that leaves a full buffer comes before everything to come: otherwise it and the `n`
entries left behind would all be larger than one that arrives after them. -/
theorem leaves_before {pre future rest : List α} {m : α} {released : List α}
    (hnodup : ((pre ++ future).map key).Nodup) (hdisplaced : Displaced key n (pre ++ future))
    (hperm : (released ++ m :: rest).Perm pre) (hrest : rest.length = n)
    (hmin : ∀ y ∈ m :: rest, key m ≤ key y) : ∀ y ∈ rest ++ future, key m < key y := by
  have hm : m ∈ pre := hperm.subset (by simp)
  intro y hy
  rcases List.mem_append.1 hy with hy | hy
  · refine lt_of_le_of_ne (hmin y (List.mem_cons_of_mem m hy)) ?_
    have hheld : ((released ++ m :: rest).map key).Nodup :=
      (hperm.map key).nodup_iff.2 (List.Nodup.of_append_left (by rwa [← List.map_append]))
    rw [List.map_append, List.map_cons] at hheld
    have hne := (List.nodup_cons.1 (List.Nodup.of_append_right hheld)).1
    exact fun heq => hne (heq ▸ List.mem_map_of_mem hy)
  · by_contra hnot
    have hlt : key y < key m := by
      refine lt_of_le_of_ne (not_lt.1 hnot) fun heq => ?_
      rw [List.map_append] at hnodup
      exact List.disjoint_of_nodup_append hnodup (List.mem_map_of_mem hm)
        (heq ▸ List.mem_map_of_mem hy)
    obtain ⟨f₁, f₂, rfl⟩ := List.append_of_mem hy
    have hbound := hdisplaced (pre ++ f₁) y f₂ (by simp)
    have hcount : n + 1 ≤ pre.countP fun z => decide (key y < key z) := by
      have hall : (m :: rest).countP (fun z => decide (key y < key z)) = n + 1 := by
        rw [List.countP_eq_length.2, List.length_cons, hrest]
        intro z hz
        exact decide_eq_true (lt_of_lt_of_le hlt (hmin z hz))
      rw [← hperm.countP_eq, List.countP_append, hall]
      omega
    rw [List.countP_append] at hbound
    omega

theorem release_sorted_before {pre future : List α}
    (hnodup : ((pre ++ future).map key).Nodup) (hdisplaced : Displaced key n (pre ++ future)) :
    Sorted key (release key n pre) future := by
  induction pre using List.reverseRecOn generalizing future with
  | nil => exact ⟨List.Pairwise.nil, fun x hx => by cases hx⟩
  | append_singleton pre x ih =>
    have hassoc : pre ++ [x] ++ future = pre ++ x :: future := by simp
    have hsorted := ih (hassoc ▸ hnodup) (hassoc ▸ hdisplaced)
    have hlen := release_held key n pre
    have hall := release_perm key n (pre ++ [x])
    rw [release_append] at hall ⊢
    rcases push_cases key n (release key n pre) x with
      ⟨-, heq⟩ | ⟨m, rest, hfull, heq, hperm, hmin⟩
    · rw [heq]
      refine ⟨hsorted.released, fun y hy z hz => hsorted.before y hy z ?_⟩
      simpa using hz
    · have hlength := hperm.length_eq
      simp only [List.length_append, List.length_cons, List.length_nil] at hlength
      rw [heq] at hall ⊢
      simp only [List.append_assoc, List.singleton_append] at hall
      have hbefore := leaves_before hnodup hdisplaced hall (by omega)
        fun y hy => hmin y (hperm.symm.subset hy)
      have hkept : ∀ y ∈ m :: rest, y ∈ (release key n pre).held ++ x :: future := by
        intro y hy
        have := hperm.symm.subset hy
        simp only [List.mem_append, List.mem_cons, List.not_mem_nil, or_false] at this ⊢
        tauto
      constructor
      · refine List.pairwise_append.2 ⟨hsorted.released, List.pairwise_singleton _ _, ?_⟩
        intro y hy z hz
        rw [List.mem_singleton.1 hz]
        exact hsorted.before y hy m (hkept m (List.mem_cons_self ..))
      · intro y hy z hz
        rcases List.mem_append.1 hy with hy | hy
        · rcases List.mem_append.1 hz with hz | hz
          · exact hsorted.before y hy z (hkept z (List.mem_cons_of_mem m hz))
          · exact hsorted.before y hy z (by simp [hz])
        · rw [List.mem_singleton.1 hy]
          exact hbefore z hz

/-- **Entries that are displaced by at most `n` leave in order.** -/
theorem release_sorted {xs : List α} (hnodup : (xs.map key).Nodup) (h : Displaced key n xs) :
    (release key n xs).released.Pairwise fun x y => key x < key y := by
  have hsorted : Sorted key (release key n xs) [] :=
    release_sorted_before (by rwa [List.append_nil]) (by rwa [List.append_nil])
  exact hsorted.released

end Reorder
