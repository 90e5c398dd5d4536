import Mathlib.Data.List.DropRight
import Mathlib.Data.List.Sublists

/-!
# Bounded queues that evict their oldest item

A queue of at most `m` items, with the history of what was put into it and what was taken out.
`Sound` is the invariant: the queue is a final segment of what was put in, what was taken is a
subsequence of the part before it, and an item before it that was not taken was pushed out by
`m` newer ones.

* `Sound.putNowait`, `Sound.putLatest`, `Sound.getNowait` — the operations keep it;
* `putNowait_isSome` — there is room as long as fewer than `m` items were put in.

`append_rtake` is the same window without a reader: appending to the last `m` items and keeping
the last `m` of the result.
-/

set_option autoImplicit false

structure EvictingQueue (β : Type*) where
  items : List β
  /-- history: what was put in -/
  inserted : List β
  /-- history: what was taken out -/
  taken : List β

namespace EvictingQueue

variable {β : Type*} {m : Nat} {q q' : EvictingQueue β} {x e : β}

def empty : EvictingQueue β := ⟨[], [], []⟩

/-- A bound of zero means that the queue is unbounded. -/
def full (m : Nat) (q : EvictingQueue β) : Bool := decide (0 < m) && decide (m ≤ q.items.length)

/-- Put an item in; `none` if the queue is full. -/
def putNowait (m : Nat) (q : EvictingQueue β) (x : β) : Option (EvictingQueue β) :=
  if q.full m then none else some { q with items := q.items ++ [x], inserted := q.inserted ++ [x] }

/-- Throw the oldest item away. -/
def discard (q : EvictingQueue β) : EvictingQueue β := { q with items := q.items.tail }

/-- Put an item in, after throwing the oldest one away if the queue is full. -/
def putLatest (m : Nat) (q : EvictingQueue β) (x : β) : EvictingQueue β :=
  let q := if q.full m then q.discard else q
  { q with items := q.items ++ [x], inserted := q.inserted ++ [x] }

/-- Take the oldest item. -/
def getNowait (q : EvictingQueue β) : Option (β × EvictingQueue β) :=
  match q.items with
  | [] => none
  | e :: items => some (e, { q with items := items, taken := q.taken ++ [e] })

/-- `k` items have left the queue. -/
structure SoundAt (m : Nat) (q : EvictingQueue β) (k : Nat) : Prop where
  le : k ≤ q.inserted.length
  items : q.items = q.inserted.drop k
  bound : q.items.length ≤ m
  taken : q.taken.Sublist (q.inserted.take k)
  evicted : ∀ i < k, ∀ e, q.inserted[i]? = some e → e ∈ q.taken ∨ i + m < q.inserted.length

def Sound (m : Nat) (q : EvictingQueue β) : Prop := ∃ k, q.SoundAt m k

theorem sound_empty (m : Nat) : (empty : EvictingQueue β).Sound m :=
  ⟨0, Nat.zero_le _, rfl, Nat.zero_le _, List.nil_sublist _,
    fun _ h => absurd h (Nat.not_lt_zero _)⟩

theorem full_iff (hm : 0 < m) : q.full m = true ↔ m ≤ q.items.length := by
  simp [full, hm]

theorem SoundAt.length {k : Nat} (h : q.SoundAt m k) :
    q.items.length = q.inserted.length - k := by
  rw [h.items, List.length_drop]

/-- An item is appended to a queue that has room. -/
theorem SoundAt.append {k : Nat} (h : q.SoundAt m k) (hroom : q.items.length < m) (x : β) :
    SoundAt m { q with items := q.items ++ [x], inserted := q.inserted ++ [x] } k := by
  have hle := h.le
  refine ⟨by simp; omega, ?_, by simp; omega, ?_, ?_⟩
  · show q.items ++ [x] = (q.inserted ++ [x]).drop k
    rw [h.items, List.drop_append_of_le_length hle]
  · show q.taken.Sublist ((q.inserted ++ [x]).take k)
    rw [List.take_append_of_le_length hle]
    exact h.taken
  · intro i hi e he
    have hlt : i < q.inserted.length := Nat.lt_of_lt_of_le hi hle
    have hold : q.inserted[i]? = some e := by
      simpa [List.getElem?_append_left hlt] using he
    apply (h.evicted i hi e hold).imp id
    intro hnew
    simp
    omega

/-- The oldest item leaves a full queue and a new one takes its place. -/
theorem SoundAt.replace {k : Nat} (h : q.SoundAt m k) (hm : 0 < m) (hfull : m ≤ q.items.length)
    (x : β) :
    SoundAt m { q with items := q.items.tail ++ [x], inserted := q.inserted ++ [x] } (k + 1) := by
  have hle := h.le
  have hlen := h.length
  have hbound := h.bound
  have hk : k < q.inserted.length := by omega
  refine ⟨by simp; omega, ?_, by simp; omega, ?_, ?_⟩
  · show q.items.tail ++ [x] = (q.inserted ++ [x]).drop (k + 1)
    rw [h.items, List.tail_drop, List.drop_append_of_le_length hk]
  · show q.taken.Sublist ((q.inserted ++ [x]).take (k + 1))
    rw [List.take_append_of_le_length hk]
    exact h.taken.trans (List.take_sublist_take_left (Nat.le_succ k))
  · intro i hi e he
    have hlt : i < q.inserted.length := by omega
    have hold : q.inserted[i]? = some e := by
      simpa [List.getElem?_append_left hlt] using he
    rcases Nat.lt_succ_iff_lt_or_eq.mp hi with hlt' | rfl
    · apply (h.evicted i hlt' e hold).imp id
      intro hnew
      simp
      omega
    · right
      simp
      omega

theorem Sound.putLatest (h : q.Sound m) (hm : 0 < m) (x : β) : (q.putLatest m x).Sound m := by
  obtain ⟨k, hk⟩ := h
  unfold EvictingQueue.putLatest
  by_cases hfull : m ≤ q.items.length
  · rw [if_pos ((full_iff hm).mpr hfull)]
    exact ⟨k + 1, hk.replace hm hfull x⟩
  · rw [if_neg fun h => hfull ((full_iff hm).mp h)]
    exact ⟨k, hk.append (Nat.lt_of_not_le hfull) x⟩

theorem inserted_putLatest (m : Nat) (q : EvictingQueue β) (x : β) :
    (q.putLatest m x).inserted = q.inserted ++ [x] := by
  unfold putLatest
  split <;> rfl

theorem putNowait_eq_some (h : q.putNowait m x = some q') :
    q.full m = false ∧ q' = { q with items := q.items ++ [x], inserted := q.inserted ++ [x] } := by
  unfold putNowait at h
  split at h
  · cases h
  · rename_i hfull
    exact ⟨Bool.not_eq_true _ ▸ hfull, (Option.some.inj h).symm⟩

theorem Sound.putNowait (h : q.Sound m) (hm : 0 < m) (hput : q.putNowait m x = some q') :
    q'.Sound m := by
  obtain ⟨k, hk⟩ := h
  obtain ⟨hfull, rfl⟩ := putNowait_eq_some hput
  refine ⟨k, hk.append ?_ x⟩
  by_contra hge
  rw [(full_iff hm).mpr (Nat.le_of_not_lt hge)] at hfull
  cases hfull

/-- There is room while fewer than `m` items have been put in. -/
theorem Sound.putNowait_isSome (h : q.Sound m) (hlt : q.inserted.length < m) (x : β) :
    ∃ q', q.putNowait m x = some q' := by
  obtain ⟨k, hk⟩ := h
  have hlen := hk.length
  refine ⟨_, if_neg ?_⟩
  rw [full_iff (by omega)]
  omega

theorem getNowait_eq_some (h : q.getNowait = some (e, q')) :
    ∃ items, q.items = e :: items ∧ q' = { q with items := items, taken := q.taken ++ [e] } := by
  unfold getNowait at h
  split at h
  · cases h
  · rename_i e' items hitems
    cases h
    exact ⟨items, hitems, rfl⟩

theorem Sound.getNowait (h : q.Sound m) (hget : q.getNowait = some (e, q')) : q'.Sound m := by
  obtain ⟨k, hk⟩ := h
  obtain ⟨items, hitems, rfl⟩ := getNowait_eq_some hget
  have hdrop : q.inserted.drop k = e :: items := by rw [← hk.items, hitems]
  have hlt : k < q.inserted.length := by
    by_contra hge
    rw [List.drop_eq_nil_of_le (Nat.le_of_not_lt hge)] at hdrop
    cases hdrop
  have hhead : q.inserted[k]? = some e := by
    rw [← List.head?_drop, hdrop]
    rfl
  have htake : q.inserted.take (k + 1) = q.inserted.take k ++ [e] := by
    rw [List.take_add_one, hhead]
    rfl
  refine ⟨k + 1, hlt, ?_, ?_, ?_, ?_⟩
  · show items = q.inserted.drop (k + 1)
    rw [← List.tail_drop, hdrop]
    rfl
  · have hbound := hk.bound
    rw [hitems, List.length_cons] at hbound
    exact Nat.le_of_succ_le hbound
  · show (q.taken ++ [e]).Sublist (q.inserted.take (k + 1))
    rw [htake]
    exact hk.taken.append (List.Sublist.refl _)
  · intro i hi x hx
    rcases Nat.lt_succ_iff_lt_or_eq.mp hi with hlt' | rfl
    · refine (hk.evicted i hlt' x hx).imp (fun hmem => ?_) id
      exact List.mem_append_left _ hmem
    · left
      have heq : e = x := Option.some.inj (hhead.symm.trans hx)
      rw [← heq]
      exact List.mem_append_right _ (List.mem_singleton_self _)

/-- What was taken is a subsequence of what was put in. -/
theorem Sound.taken_sublist (h : q.Sound m) : q.taken.Sublist q.inserted := by
  obtain ⟨k, hk⟩ := h
  exact hk.taken.trans (List.take_sublist k _)

/-- An item that is neither taken nor in the queue was pushed out by `m` newer ones. -/
theorem Sound.missing (h : q.Sound m) {i : Nat} (he : q.inserted[i]? = some e)
    (htaken : e ∉ q.taken) (hitems : e ∉ q.items) : i + m < q.inserted.length := by
  obtain ⟨k, hk⟩ := h
  by_cases hi : i < k
  · rcases hk.evicted i hi e he with hmem | hlt
    · exact absurd hmem htaken
    · exact hlt
  · rw [hk.items] at hitems
    refine absurd (List.mem_of_getElem? (i := i - k) ?_) hitems
    rw [List.getElem?_drop, Nat.add_sub_cancel' (Nat.le_of_not_lt hi)]
    exact he

/-- The last `m` items can be kept by appending to the last `m` items. -/
theorem append_rtake (m : Nat) (xs : List β) (x : β) :
    (xs.rtake m ++ [x]).rtake m = (xs ++ [x]).rtake m := by
  cases m with
  | zero => simp
  | succ m =>
    rw [List.rtake_concat_succ, List.rtake_concat_succ]
    congr 1
    simp only [List.rtake, List.drop_drop, List.length_drop]
    congr 1
    omega

end EvictingQueue
