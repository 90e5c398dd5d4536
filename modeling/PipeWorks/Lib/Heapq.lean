import Mathlib.Data.List.Basic

/-!
# A binary heap whose comparison may fail (`heapq` of the Python library)

`heappush` and `heappop` are the loops of `heapq`: the new item goes up along its parents; when the
least item leaves, the last one takes its place, falls to a leaf along the smaller children and goes
up from there.  A comparison gives `none` if it raises, and the operation with it.

* `heappush_spec`, `heappop_spec` — if every two items can be compared, in either order, and the
  comparison agrees with a transitive relation `le`, no comparison raises, the items are kept, the
  heap stays one, and the item that leaves is a least one.

In the loops the new item is held in a variable and the list has a hole where it belongs; the
lemmas speak of the list with the new item in the hole.
-/

set_option autoImplicit false

namespace Heapq

variable {α : Type*}

/-! ## The code -/

/-- `(pos - 1) >> 1`. -/
def parent (pos : ℕ) : ℕ := (pos - 1) / 2

theorem parent_lt {pos : ℕ} (h : 0 < pos) : parent pos < pos := by
  unfold parent
  omega

/-- Every position but the first is a child. -/
theorem parent_cases {j : ℕ} (h : 0 < j) : j = 2 * parent j + 1 ∨ j = 2 * parent j + 2 := by
  unfold parent
  omega

section

variable (lt : α → α → Option Bool)

/-- `_siftdown(heap, 0, pos)`, where `newitem` is `heap[pos]`. -/
def siftdown (newitem : α) (heap : List α) (pos : ℕ) : Option (List α) :=
  if 0 < pos then
    match heap[parent pos]? with
    | none => none
    | some above =>
      match lt newitem above with
      | none => none
      | some true => siftdown newitem (heap.set pos above) (parent pos)
      | some false => some (heap.set pos newitem)
  else some (heap.set pos newitem)
termination_by pos
decreasing_by exact parent_lt ‹_›

/-- The position of the smaller child. -/
def smallerChild (heap : List α) (childpos : ℕ) : Option ℕ :=
  match heap[childpos]?, heap[childpos + 1]? with
  | some left, some right =>
    (lt left right).map fun less => if less then childpos else childpos + 1
  | _, _ => some childpos

theorem smallerChild_cases {lt : α → α → Option Bool} {heap : List α} {childpos c : ℕ}
    (h : smallerChild lt heap childpos = some c) :
    c = childpos ∨ c = childpos + 1 ∧ childpos + 1 < heap.length := by
  unfold smallerChild at h
  split at h
  · rename_i left right _ hright
    obtain ⟨less, -, rfl⟩ := Option.map_eq_some_iff.1 h
    cases less with
    | true => exact .inl rfl
    | false => exact .inr ⟨rfl, (List.getElem?_eq_some_iff.1 hright).1⟩
  · cases h
    exact .inl rfl

/-- The first loop of `_siftup(heap, 0)`: smaller children move up until the hole is a leaf. -/
def bubble (heap : List α) (pos : ℕ) : Option (List α × ℕ) :=
  if 2 * pos + 1 < heap.length then
    match _h : smallerChild lt heap (2 * pos + 1) with
    | none => none
    | some childpos =>
      match heap[childpos]? with
      | none => none
      | some child => bubble (heap.set pos child) childpos
  else some (heap, pos)
termination_by heap.length - pos
decreasing_by
  have := smallerChild_cases ‹smallerChild lt heap (2 * pos + 1) = some _›
  simp only [List.length_set]
  omega

/-- `_siftup(heap, 0)`. -/
def siftup (heap : List α) : Option (List α) :=
  heap[0]?.bind fun newitem =>
    (bubble lt heap 0).bind fun moved => siftdown lt newitem moved.1 moved.2

def heappush (heap : List α) (item : α) : Option (List α) :=
  siftdown lt item (heap ++ [item]) heap.length

/-- The item that leaves, and the rest; an empty heap raises `IndexError`. -/
def heappop (heap : List α) : Option (α × List α) :=
  heap.getLast?.bind fun lastelt =>
    match heap.dropLast with
    | [] => some (lastelt, [])
    | returnitem :: rest => (siftup lt (lastelt :: rest)).map fun heap => (returnitem, heap)

end

/-! ## Heaps -/

section

variable (lt : α → α → Option Bool) (le : α → α → Prop)

/-- The comparison does not raise, and agrees with `le`. -/
def Decided (a b : α) : Prop := ∃ less, lt a b = some less ∧ if less then le a b else le b a

/-- Every two items can be compared. -/
def Comparable (heap : List α) : Prop :=
  heap.Pairwise fun a b => Decided lt le a b ∧ Decided lt le b a

/-- The item at `i`, if there are both, is not above the one at `j`. -/
def Below (heap : List α) (i j : ℕ) : Prop :=
  ∀ a b, heap[i]? = some a → heap[j]? = some b → le a b

def IsHeap (heap : List α) : Prop := ∀ j, 0 < j → Below le heap (parent j) j

end

variable {lt : α → α → Option Bool} {le : α → α → Prop} {heap g : List α} {i j pos c : ℕ}

theorem Comparable.perm {heap' : List α} (h : Comparable lt le heap) (hp : heap.Perm heap') :
    Comparable lt le heap' :=
  (hp.pairwise_iff fun h => ⟨h.2, h.1⟩).1 h

theorem Comparable.decided (h : Comparable lt le heap) {a b : α} (ha : heap[i]? = some a)
    (hb : heap[j]? = some b) (hij : i ≠ j) : Decided lt le a b := by
  obtain ⟨hi, rfl⟩ := List.getElem?_eq_some_iff.1 ha
  obtain ⟨hj, rfl⟩ := List.getElem?_eq_some_iff.1 hb
  rcases Nat.lt_or_gt_of_ne hij with hlt | hlt
  · exact (List.pairwise_iff_getElem.1 h i j hi hj hlt).1
  · exact (List.pairwise_iff_getElem.1 h j i hj hi hlt).2

theorem below_of_getElem {a b : α} (ha : g[i]? = some a) (hb : g[j]? = some b) (hle : le a b) :
    Below le g i j := by
  intro a' b' ha' hb'
  rw [ha] at ha'
  rw [hb] at hb'
  cases ha'
  cases hb'
  exact hle

theorem Below.trans (htrans : ∀ a b c, le a b → le b c → le a c) {k : ℕ} (hik : Below le g i k)
    (hkj : Below le g k j) (hk : k ≤ j) : Below le g i j := by
  intro a b ha hb
  have hlt : k < g.length := Nat.lt_of_le_of_lt hk (List.getElem?_eq_some_iff.1 hb).1
  exact htrans a g[k] b (hik a _ ha (List.getElem?_eq_getElem hlt))
    (hkj _ b (List.getElem?_eq_getElem hlt) hb)

/-- The first item is a least one. -/
theorem IsHeap.root (h : IsHeap le heap) (hrefl : ∀ a, le a a)
    (htrans : ∀ a b c, le a b → le b c → le a c) (j : ℕ) : Below le heap 0 j := by
  induction j using Nat.strongRecOn with
  | ind j ih =>
    rcases Nat.eq_zero_or_pos j with rfl | hpos
    · intro a b ha hb
      rw [ha] at hb
      cases hb
      exact hrefl a
    · have hlt := parent_lt hpos
      exact (ih (parent j) hlt).trans htrans (h j hpos) (Nat.le_of_lt hlt)

/-! ## Two items change places -/

/-- `g` with the items at `i` and `j` exchanged. -/
structure Exchanged (g g' : List α) (i j : ℕ) : Prop where
  perm : g'.Perm g
  left : g'[i]? = g[j]?
  right : g'[j]? = g[i]?
  others : ∀ k, k ≠ i → k ≠ j → g'[k]? = g[k]?

/-- An item moves into the hole, and leaves one. -/
theorem exchanged_set (newitem : α) {moved : α} (hpos : pos < heap.length)
    (hc : heap[c]? = some moved) (hne : pos ≠ c) :
    Exchanged (heap.set pos newitem) ((heap.set pos moved).set c newitem) pos c := by
  obtain ⟨hlt, hget⟩ := List.getElem?_eq_some_iff.1 hc
  refine ⟨?_, ?_, ?_, fun k hk hk' => ?_⟩
  · have hpos' : pos < (heap.set pos newitem).length := by simpa using hpos
    have hlt' : c < (heap.set pos newitem).length := by simpa using hlt
    have hperm := List.set_set_perm hpos' hlt'
    rw [List.getElem_set_self, List.getElem_set_ne hne, hget, List.set_set] at hperm
    exact hperm
  · simp [hne, Ne.symm hne, hpos, hc]
  · simp [hpos, hlt]
  · simp [Ne.symm hk, Ne.symm hk']

section

variable {g' : List α} (h : Exchanged g g' i j) {k l : ℕ}

include h

/-- An edge that touches neither item is the edge it was. -/
theorem Exchanged.below (hk : k ≠ i ∧ k ≠ j) (hl : l ≠ i ∧ l ≠ j) (hbelow : Below le g k l) :
    Below le g' k l := by
  unfold Below
  rw [h.others k hk.1 hk.2, h.others l hl.1 hl.2]
  exact hbelow

theorem Exchanged.below_left_others (hl : l ≠ i ∧ l ≠ j) (hbelow : Below le g j l) :
    Below le g' i l := by
  unfold Below
  rw [h.left, h.others l hl.1 hl.2]
  exact hbelow

theorem Exchanged.below_right_others (hl : l ≠ i ∧ l ≠ j) (hbelow : Below le g i l) :
    Below le g' j l := by
  unfold Below
  rw [h.right, h.others l hl.1 hl.2]
  exact hbelow

theorem Exchanged.below_others_left (hk : k ≠ i ∧ k ≠ j) (hbelow : Below le g k j) :
    Below le g' k i := by
  unfold Below
  rw [h.left, h.others k hk.1 hk.2]
  exact hbelow

theorem Exchanged.below_right_left (hbelow : Below le g i j) : Below le g' j i := by
  unfold Below
  rw [h.left, h.right]
  exact hbelow

end

/-! ## Up along the parents -/

/-- A heap, but for the edge from its parent to `pos`. -/
structure Sifting (le : α → α → Prop) (g : List α) (pos : ℕ) : Prop where
  edges : ∀ j, 0 < j → j ≠ pos → Below le g (parent j) j
  around : 0 < pos → ∀ j, 0 < j → parent j = pos → Below le g (parent pos) j

/-- The new item changes places with a parent that is not below it. -/
theorem Sifting.exchange (htrans : ∀ a b c, le a b → le b c → le a c) {g' : List α}
    (h : Sifting le g pos) (hpos : 0 < pos) (hg : Exchanged g g' pos (parent pos))
    (hle : Below le g pos (parent pos)) (hlen : parent pos < g.length) :
    Sifting le g' (parent pos) := by
  have hlt := parent_lt hpos
  constructor
  · intro j hj hne
    have hparent := parent_lt hj
    by_cases hjpos : j = pos
    · subst hjpos
      exact hg.below_right_left hle
    · by_cases hchild : parent j = pos
      · rw [hchild]
        exact hg.below_left_others ⟨hjpos, hne⟩ (h.around hpos j hj hchild)
      · by_cases hsibling : parent j = parent pos
        · have hedge := h.edges j hj hjpos
          rw [hsibling] at hedge ⊢
          exact hg.below_right_others ⟨hjpos, hne⟩ (hle.trans htrans hedge (by omega))
        · exact hg.below ⟨hchild, hsibling⟩ ⟨hjpos, hne⟩ (h.edges j hj hjpos)
  · intro hppos j hj hchild
    have hpp := parent_lt hppos
    have hparent := parent_lt hj
    have habove := h.edges (parent pos) hppos (by omega)
    by_cases hjpos : j = pos
    · subst hjpos
      exact hg.below_others_left ⟨by omega, by omega⟩ habove
    · have hedge := h.edges j hj hjpos
      rw [hchild] at hedge
      exact hg.below ⟨by omega, by omega⟩ ⟨hjpos, by omega⟩ (habove.trans htrans hedge (by omega))

theorem siftdown_spec (htrans : ∀ a b c, le a b → le b c → le a c) {newitem : α}
    (hpos : pos < heap.length) (hcomp : Comparable lt le (heap.set pos newitem))
    (hsift : Sifting le (heap.set pos newitem) pos) :
    ∃ heap', siftdown lt newitem heap pos = some heap' ∧ heap'.Perm (heap.set pos newitem) ∧
      IsHeap le heap' := by
  induction pos using Nat.strongRecOn generalizing heap with
  | ind pos ih =>
    unfold siftdown
    by_cases h0 : 0 < pos
    · have hlt := parent_lt h0
      have hitem : (heap.set pos newitem)[pos]? = some newitem := by simp [hpos]
      obtain ⟨above, habove⟩ : ∃ above, heap[parent pos]? = some above :=
        ⟨_, List.getElem?_eq_getElem (by omega)⟩
      have habove' : (heap.set pos newitem)[parent pos]? = some above := by
        rw [List.getElem?_set_ne (by omega), habove]
      obtain ⟨less, hless, hle⟩ := hcomp.decided hitem habove' (by omega)
      cases less with
      | true =>
        have hexchanged := exchanged_set newitem hpos habove (by omega)
        have hbelow : Below le (heap.set pos newitem) pos (parent pos) :=
          below_of_getElem hitem habove' hle
        have hlen : parent pos < (heap.set pos above).length := by
          rw [List.length_set]
          omega
        obtain ⟨heap', hheap', hperm, hheap⟩ := ih (parent pos) hlt hlen
          (hcomp.perm hexchanged.perm.symm)
          (hsift.exchange htrans h0 hexchanged hbelow (by simp only [List.length_set]; omega))
        refine ⟨heap', ?_, hperm.trans hexchanged.perm, hheap⟩
        simp only [h0, if_true, habove, hless, hheap']
      | false =>
        refine ⟨heap.set pos newitem, ?_, List.Perm.refl _, fun j hj => ?_⟩
        · simp only [h0, if_true, habove, hless]
        · by_cases hjpos : j = pos
          · subst hjpos
            exact below_of_getElem habove' hitem hle
          · exact hsift.edges j hj hjpos
    · refine ⟨heap.set pos newitem, by simp only [h0, if_false], List.Perm.refl _, fun j hj => ?_⟩
      exact hsift.edges j hj (by omega)

/-! ## Down along the smaller children -/

/-- A heap, but for the edges at `pos`. -/
structure Bubbling (le : α → α → Prop) (g : List α) (pos : ℕ) : Prop where
  edges : ∀ j, 0 < j → j ≠ pos → parent j ≠ pos → Below le g (parent j) j
  around : 0 < pos → ∀ j, 0 < j → parent j = pos → Below le g (parent pos) j

/-- The hole changes places with a child that is not above the other one. -/
theorem Bubbling.exchange {g' : List α} (h : Bubbling le g pos) (hc : 0 < c)
    (hchild : parent c = pos) (hg : Exchanged g g' pos c)
    (hsmaller : ∀ j, 0 < j → parent j = pos → j ≠ c → Below le g c j) : Bubbling le g' c := by
  have hlt := parent_lt hc
  constructor
  · intro j hj hjc hparentc
    have hparent := parent_lt hj
    by_cases hjpos : j = pos
    · subst hjpos
      exact hg.below_others_left ⟨by omega, hparentc⟩ (h.around hj c hc hchild)
    · by_cases hsibling : parent j = pos
      · rw [hsibling]
        exact hg.below_left_others ⟨hjpos, hjc⟩ (hsmaller j hj hsibling hjc)
      · exact hg.below ⟨hsibling, hparentc⟩ ⟨hjpos, hjc⟩ (h.edges j hj hjpos hsibling)
  · intro _ j hj hparentc
    have hparent := parent_lt hj
    have hedge := h.edges j hj (by omega) (by omega)
    rw [hparentc] at hedge
    rw [hchild]
    exact hg.below_left_others ⟨by omega, by omega⟩ hedge

/-- The children of `pos` are compared, and the smaller one is chosen. -/
theorem smallerChild_spec {newitem : α} (hcomp : Comparable lt le (heap.set pos newitem))
    (hlen : 2 * pos + 1 < heap.length) :
    ∃ c, smallerChild lt heap (2 * pos + 1) = some c ∧ 0 < c ∧ parent c = pos ∧
      c < heap.length ∧
      ∀ j, 0 < j → parent j = pos → j ≠ c → Below le (heap.set pos newitem) c j := by
  have hread : ∀ k, k ≠ pos → (heap.set pos newitem)[k]? = heap[k]? := fun k hk =>
    List.getElem?_set_ne (Ne.symm hk)
  have hleft : heap[2 * pos + 1]? = some heap[2 * pos + 1] := List.getElem?_eq_getElem hlen
  have hleft' := (hread (2 * pos + 1) (by omega)).trans hleft
  cases hright : heap[2 * pos + 1 + 1]? with
  | none =>
    refine ⟨2 * pos + 1, ?_, by omega, by unfold parent; omega, hlen, fun j hj hparent hne => ?_⟩
    · simp [smallerChild, hright]
    · intro a b _ hb
      have hj2 : j = 2 * pos + 1 + 1 := by
        have := parent_cases hj
        omega
      rw [hj2, hread _ (by omega), hright] at hb
      cases hb
  | some right =>
    have hright' := (hread (2 * pos + 1 + 1) (by omega)).trans hright
    obtain ⟨less, hless, hle⟩ := hcomp.decided hleft' hright' (by omega)
    have hrightlen := (List.getElem?_eq_some_iff.1 hright).1
    have hchosen : smallerChild lt heap (2 * pos + 1) =
        some (if less then 2 * pos + 1 else 2 * pos + 1 + 1) := by
      simp only [smallerChild, hleft, hright, hless, Option.map_some]
    cases less with
    | true =>
      refine ⟨2 * pos + 1, hchosen, by omega, by unfold parent; omega, hlen,
        fun j hj hparent hne => ?_⟩
      obtain rfl : j = 2 * pos + 1 + 1 := by
        have := parent_cases hj
        omega
      exact below_of_getElem hleft' hright' hle
    | false =>
      refine ⟨2 * pos + 1 + 1, hchosen, by omega, by unfold parent; omega, hrightlen,
        fun j hj hparent hne => ?_⟩
      obtain rfl : j = 2 * pos + 1 := by
        have := parent_cases hj
        omega
      exact below_of_getElem hright' hleft' hle

theorem bubble_spec {newitem : α} (hpos : pos < heap.length)
    (hcomp : Comparable lt le (heap.set pos newitem))
    (hbubble : Bubbling le (heap.set pos newitem) pos) :
    ∃ heap' pos', bubble lt heap pos = some (heap', pos') ∧ pos' < heap'.length ∧
      (heap'.set pos' newitem).Perm (heap.set pos newitem) ∧
      Sifting le (heap'.set pos' newitem) pos' := by
  induction hk : heap.length - pos using Nat.strongRecOn generalizing heap pos with
  | ind k ih =>
    unfold bubble
    by_cases hlen : 2 * pos + 1 < heap.length
    · obtain ⟨c, hc, hc0, hparent, hclen, hsmaller⟩ := smallerChild_spec hcomp hlen
      have hlt := parent_lt hc0
      have hmoved : heap[c]? = some heap[c] := List.getElem?_eq_getElem hclen
      have hexchanged := exchanged_set newitem hpos hmoved (by omega)
      have hlen' : c < (heap.set pos heap[c]).length := by rwa [List.length_set]
      obtain ⟨heap', pos', hresult, hpos', hperm, hsift⟩ :=
        ih ((heap.set pos heap[c]).length - c) (by rw [List.length_set]; omega) hlen'
          (hcomp.perm hexchanged.perm.symm) (hbubble.exchange hc0 hparent hexchanged hsmaller) rfl
      refine ⟨heap', pos', ?_, hpos', hperm.trans hexchanged.perm, hsift⟩
      rw [if_pos hlen]
      split
      · rename_i hnone
        rw [hc] at hnone
        cases hnone
      · rename_i c' hc'
        rw [hc] at hc'
        cases hc'
        simp only [hmoved, hresult]
    · refine ⟨heap, pos, by rw [if_neg hlen], hpos, List.Perm.refl _, fun j hj hne => ?_,
        hbubble.around⟩
      by_cases hchild : parent j = pos
      · -- the hole is a leaf
        intro a b _ hb
        have hjlen := (List.getElem?_eq_some_iff.1 hb).1
        have hcases := parent_cases hj
        rw [List.length_set] at hjlen
        omega
      · exact hbubble.edges j hj hne hchild

/-! ## The operations -/

theorem siftup_spec (htrans : ∀ a b c, le a b → le b c → le a c) (hne : heap ≠ [])
    (hcomp : Comparable lt le heap)
    (hedges : ∀ j, 0 < j → parent j ≠ 0 → Below le heap (parent j) j) :
    ∃ heap', siftup lt heap = some heap' ∧ heap'.Perm heap ∧ IsHeap le heap' := by
  obtain ⟨newitem, rest, rfl⟩ := List.exists_cons_of_ne_nil hne
  have hself : (newitem :: rest).set 0 newitem = newitem :: rest := rfl
  have hbubble : Bubbling le ((newitem :: rest).set 0 newitem) 0 :=
    ⟨fun j hj _ hparent => hedges j hj hparent, fun h => absurd h (Nat.lt_irrefl 0)⟩
  obtain ⟨moved, pos, hmoved, hpos, hperm, hsift⟩ :=
    bubble_spec (Nat.zero_lt_succ _) (hself ▸ hcomp) hbubble
  rw [hself] at hperm
  obtain ⟨heap', hheap', hperm', hheap⟩ :=
    siftdown_spec htrans hpos (hcomp.perm hperm.symm) hsift
  refine ⟨heap', ?_, hperm'.trans hperm, hheap⟩
  simp only [siftup, List.getElem?_cons_zero, Option.bind_some, hmoved, hheap']

/-- **`heappush`** keeps the items and the heap, and no comparison raises. -/
theorem heappush_spec (htrans : ∀ a b c, le a b → le b c → le a c) {item : α}
    (hcomp : Comparable lt le (heap ++ [item])) (hheap : IsHeap le heap) :
    ∃ heap', heappush lt heap item = some heap' ∧ heap'.Perm (heap ++ [item]) ∧
      IsHeap le heap' := by
  have hself : (heap ++ [item]).set heap.length item = heap ++ [item] := by
    rw [List.set_append_right _ _ (Nat.le_refl _)]
    simp
  have hsift : Sifting le ((heap ++ [item]).set heap.length item) heap.length := by
    rw [hself]
    constructor
    · intro j hj hne a b ha hb
      have hlt := parent_lt hj
      have hjlen := (List.getElem?_eq_some_iff.1 hb).1
      simp only [List.length_append, List.length_singleton] at hjlen
      rw [List.getElem?_append_left (by omega)] at ha hb
      exact hheap j hj a b ha hb
    · intro _ j hj hparent a b _ hb
      have hlt := parent_lt hj
      have hjlen := (List.getElem?_eq_some_iff.1 hb).1
      simp only [List.length_append, List.length_singleton] at hjlen
      omega
  obtain ⟨heap', hpush, hperm, hheap'⟩ :=
    siftdown_spec htrans (by simp) (hself.symm ▸ hcomp) hsift
  exact ⟨heap', hpush, hself ▸ hperm, hheap'⟩

/-- **`heappop`** takes a least item out, keeps the others and the heap, and no comparison
raises. -/
theorem heappop_spec (hrefl : ∀ a, le a a) (htrans : ∀ a b c, le a b → le b c → le a c)
    (hne : heap ≠ []) (hcomp : Comparable lt le heap) (hheap : IsHeap le heap) :
    ∃ m rest, heappop lt heap = some (m, rest) ∧ heap.Perm (m :: rest) ∧ IsHeap le rest ∧
      ∀ y ∈ heap, le m y := by
  obtain ⟨init, lastelt, rfl⟩ : ∃ init lastelt, heap = init ++ [lastelt] :=
    ⟨heap.dropLast, heap.getLast hne, (List.dropLast_append_getLast hne).symm⟩
  have hroot : ∀ m, (init ++ [lastelt])[0]? = some m → ∀ y ∈ init ++ [lastelt], le m y := by
    intro m hm y hy
    obtain ⟨j, hj⟩ := List.mem_iff_getElem?.1 hy
    exact hheap.root hrefl htrans j m y hm hj
  cases init with
  | nil =>
    refine ⟨lastelt, [], by simp [heappop], List.Perm.refl _, fun j hj a b _ hb => ?_, ?_⟩
    · cases hb
    · exact hroot lastelt rfl
  | cons m rest =>
    have hcomp' : Comparable lt le (lastelt :: rest) := by
      have hperm : (m :: rest ++ [lastelt]).Perm (m :: lastelt :: rest) :=
        (List.perm_append_singleton lastelt rest).cons m
      exact (List.pairwise_cons.1 (hcomp.perm hperm)).2
    have hedges : ∀ j, 0 < j → parent j ≠ 0 → Below le (lastelt :: rest) (parent j) j := by
      intro j hj hparent a b ha hb
      have hlt := parent_lt hj
      have hjlen := (List.getElem?_eq_some_iff.1 hb).1
      have hread : ∀ k, k ≠ 0 → k < (lastelt :: rest).length →
          (lastelt :: rest)[k]? = (m :: rest ++ [lastelt])[k]? := by
        intro k hk hklen
        obtain ⟨k, rfl⟩ := Nat.exists_eq_succ_of_ne_zero hk
        rw [List.getElem?_append_left (by simpa using hklen)]
        rfl
      rw [hread _ hparent (by omega)] at ha
      rw [hread _ (by omega) hjlen] at hb
      exact hheap j hj a b ha hb
    obtain ⟨heap', hheap', hperm, hheapIs⟩ := siftup_spec htrans (by simp) hcomp' hedges
    refine ⟨m, heap', ?_, ?_, hheapIs, hroot m rfl⟩
    · simp only [heappop, List.getLast?_append, List.dropLast_concat]
      simp [hheap']
    · exact ((List.perm_append_singleton lastelt rest).trans hperm.symm).cons m

end Heapq
