import Mathlib.Data.List.Nodup

/-!
# Putting into a shared queue so that the newest item is kept

One thread offers items to a bounded queue, one after the other; other threads take items out.
When the offering thread finds the queue full, it throws the oldest item out and tries once more,
and whatever fails then is passed over in silence.  Each operation on the queue is atomic, and the
others may take items between any two of them.

`room n` says that there is room beside `n` items; `Operates` lists the operations.

* `Operates.sound` — the second put cannot fail, and each offer evicts at most one item, an older
  one;
* `Operates.kept` — as long as the eviction finds an item, the item of every finished offer is in
  the queue or has been taken;
* `Operates.not_kept` — an eviction that finds the queue empty loses the item of its own offer;
* `Operates.inTurn` — items are accepted in the order in which they are offered.
-/

set_option autoImplicit false

namespace LatestPut

variable {β : Type*}

/-- The offering thread. -/
inductive Putter (β : Type*) where
  | idle
  /-- about to put the item -/
  | putting (x : β)
  /-- the queue was full; about to throw the oldest item out -/
  | evicting (x : β)
  /-- about to put the item again -/
  | replacing (x : β)

/-- The item of an offer that has not ended. -/
def Putter.pending : Putter β → Option β
  | .idle => none
  | .putting x | .evicting x | .replacing x => some x

/-- How many items the current offer, or the latest one, may have evicted. -/
def Putter.evictions : Putter β → Nat
  | .putting _ | .evicting _ => 0
  | .idle | .replacing _ => 1

theorem Putter.evictions_le_one (p : Putter β) : p.evictions ≤ 1 := by
  cases p <;> simp [Putter.evictions]

structure SharedQueue (β : Type*) where
  items : List β
  putter : Putter β
  /-- history: the items that were there at first, and those that have been offered -/
  offered : List β
  /-- history: the items that have been put in -/
  accepted : List β
  /-- history: the items that other threads have taken -/
  taken : List β
  evicted : List β
  /-- history: the items whose offer has failed -/
  refused : List β
  /-- history: how many items had been evicted when the latest offer began -/
  evictedBefore : Nat

inductive Op where
  | offer
  | put
  /-- the put finds the queue full -/
  | full
  | evict
  /-- the eviction finds the queue empty -/
  | evictEmpty
  | replace
  /-- the second put finds the queue full -/
  | replaceFull
  | take
  deriving DecidableEq

/-- The operation ends an offer. -/
def Op.ends : Op → Bool
  | .put | .evictEmpty | .replace | .replaceFull => true
  | _ => false

inductive Operates (room : Nat → Prop) (q : SharedQueue β) : Op → SharedQueue β → Prop where
  | offer (x : β) (hidle : q.putter = .idle) (hnew : x ∉ q.offered) :
    Operates room q .offer
      { q with
        putter := .putting x
        offered := q.offered ++ [x]
        evictedBefore := q.evicted.length }
  | put (x : β) (hputter : q.putter = .putting x) (hroom : room q.items.length) :
    Operates room q .put
      { q with items := q.items ++ [x], putter := .idle, accepted := q.accepted ++ [x] }
  | full (x : β) (hputter : q.putter = .putting x) (hfull : ¬ room q.items.length) :
    Operates room q .full { q with putter := .evicting x }
  | evict (x oldest : β) (rest : List β) (hputter : q.putter = .evicting x)
      (hitems : q.items = oldest :: rest) :
    Operates room q .evict
      { q with items := rest, putter := .replacing x, evicted := q.evicted ++ [oldest] }
  | evictEmpty (x : β) (hputter : q.putter = .evicting x) (hitems : q.items = []) :
    Operates room q .evictEmpty { q with putter := .idle, refused := q.refused ++ [x] }
  | replace (x : β) (hputter : q.putter = .replacing x) (hroom : room q.items.length) :
    Operates room q .replace
      { q with items := q.items ++ [x], putter := .idle, accepted := q.accepted ++ [x] }
  | replaceFull (x : β) (hputter : q.putter = .replacing x) (hfull : ¬ room q.items.length) :
    Operates room q .replaceFull { q with putter := .idle, refused := q.refused ++ [x] }
  | take (oldest : β) (rest : List β) (hitems : q.items = oldest :: rest) :
    Operates room q .take { q with items := rest, taken := q.taken ++ [oldest] }

/-- What every operation keeps. -/
structure Sound (room : Nat → Prop) (q : SharedQueue β) : Prop where
  bounded : ∀ n, q.items.length = n + 1 → room n
  /-- an eviction makes room, and nobody else puts anything in -/
  makesRoom : ∀ x, q.putter = .replacing x → room q.items.length
  nodup : q.offered.Nodup
  known : ∀ e, e ∈ q.items ∨ e ∈ q.taken → e ∈ q.offered
  /-- the current item is the latest one, and nowhere yet -/
  pending : ∀ x, q.putter.pending = some x →
    (∃ before, q.offered = before ++ [x]) ∧ x ∉ q.items ∧ x ∉ q.taken
  evictions : q.evictedBefore ≤ q.evicted.length ∧
    q.evicted.length ≤ q.evictedBefore + q.putter.evictions
  older : ∀ e ∈ q.evicted.drop q.evictedBefore, e ∈ q.offered.dropLast

/-- The item of the latest offer, once it has ended, is in the queue or has been taken. -/
def Kept (q : SharedQueue β) : Prop :=
  q.putter = .idle → ∀ x, q.offered.getLast? = some x → x ∈ q.items ∨ x ∈ q.taken

variable {room : Nat → Prop} {q q' : SharedQueue β} {op : Op}

/-- The latest item. -/
theorem Sound.getLast? (h : Sound room q) {x : β} (hx : q.putter.pending = some x) :
    q.offered.getLast? = some x := by
  obtain ⟨⟨before, hbefore⟩, -⟩ := h.pending x hx
  rw [hbefore, List.getLast?_concat]

/-- The current item moves into the queue. -/
theorem Sound.accept (h : Sound room q) {x : β} (hx : q.putter.pending = some x)
    (hroom : room q.items.length) (accepted : List β) :
    Sound room { q with items := q.items ++ [x], putter := .idle, accepted := accepted } := by
  obtain ⟨⟨before, hbefore⟩, -⟩ := h.pending x hx
  refine ⟨fun n hn => ?_, fun _ hputter => (by cases hputter), h.nodup, fun e he => ?_,
    fun _ hy => (by cases hy), ⟨h.evictions.1, ?_⟩, h.older⟩
  · simp only [List.length_append, List.length_cons, List.length_nil] at hn
    have hlen : q.items.length = n := by omega
    rwa [hlen] at hroom
  · rcases he with he | he
    · rcases List.mem_append.mp he with he | he
      · exact h.known e (Or.inl he)
      · rw [List.mem_singleton.mp he]
        simp [hbefore]
    · exact h.known e (Or.inr he)
  · have hle := h.evictions.2
    have hone := q.putter.evictions_le_one
    simp only [Putter.evictions]
    omega

/-- The offer of the current item ends without it. -/
theorem Sound.refuse (h : Sound room q) (refused : List β) :
    Sound room { q with putter := .idle, refused := refused } := by
  refine ⟨h.bounded, fun _ hputter => (by cases hputter), h.nodup, h.known,
    fun _ hy => (by cases hy), ⟨h.evictions.1, ?_⟩, h.older⟩
  have hle := h.evictions.2
  have hone := q.putter.evictions_le_one
  simp only [Putter.evictions]
  omega

/-- **Every operation keeps the queue sound.** -/
theorem Operates.sound (hmono : ∀ n, room (n + 1) → room n) (h : Sound room q)
    (hop : Operates room q op q') : Sound room q' := by
  cases hop with
  | offer x hidle hnew =>
    refine ⟨h.bounded, fun _ hputter => (by cases hputter), ?_, fun e he => ?_, fun y hy => ?_,
      ⟨Nat.le_refl _, Nat.le_add_right _ _⟩, fun e he => ?_⟩
    · exact List.Nodup.append h.nodup (List.nodup_singleton x)
        (by simpa [List.disjoint_singleton] using hnew)
    · exact List.mem_append_left _ (h.known e he)
    · cases hy
      exact ⟨⟨q.offered, rfl⟩, fun hx => hnew (h.known x (Or.inl hx)),
        fun hx => hnew (h.known x (Or.inr hx))⟩
    · simp at he
  | put x hputter hroom => exact h.accept (by rw [hputter]; rfl) hroom _
  | full x hputter hfull =>
    have hpending := h.pending x (by rw [hputter]; rfl)
    have hevictions := h.evictions
    rw [hputter] at hevictions
    refine ⟨h.bounded, fun _ hputter => (by cases hputter), h.nodup, h.known, fun y hy => ?_,
      hevictions, h.older⟩
    cases hy
    exact hpending
  | evict x oldest rest hputter hitems =>
    obtain ⟨⟨before, hbefore⟩, hnot, htaken⟩ := h.pending x (by rw [hputter]; rfl)
    have hevictions := h.evictions
    rw [hputter] at hevictions
    have hrest : ∀ e ∈ rest, e ∈ q.items := fun e he => hitems ▸ List.mem_cons_of_mem _ he
    have hroom : room rest.length := h.bounded rest.length (by rw [hitems]; rfl)
    refine ⟨fun n hn => ?_, fun _ _ => hroom, h.nodup, fun e he => ?_, fun y hy => ?_, ?_,
      fun e he => ?_⟩
    · exact hmono n (hn ▸ hroom)
    · exact h.known e (he.imp_left (hrest e))
    · cases hy
      exact ⟨⟨before, hbefore⟩, fun hx => hnot (hrest x hx), htaken⟩
    · simp only [Putter.evictions, List.length_append, List.length_cons, List.length_nil]
        at hevictions ⊢
      omega
    · simp only [List.drop_append_of_le_length hevictions.1, List.mem_append,
        List.mem_singleton] at he
      rcases he with he | rfl
      · exact h.older e he
      · -- the oldest item was in the queue, so it is not the one being offered
        have hmem : e ∈ q.items := by rw [hitems]; exact List.mem_cons_self ..
        have hoffered := h.known e (Or.inl hmem)
        rw [hbefore] at hoffered
        simp only [hbefore, List.dropLast_concat]
        rcases List.mem_append.mp hoffered with hin | hin
        · exact hin
        · exact absurd (List.mem_singleton.mp hin ▸ hmem) hnot
  | evictEmpty x hputter hitems => exact h.refuse _
  | replace x hputter hroom => exact h.accept (by rw [hputter]; rfl) hroom _
  | replaceFull x hputter hfull => exact h.refuse _
  | take oldest rest hitems =>
    have hmem : oldest ∈ q.items := by rw [hitems]; exact List.mem_cons_self ..
    have hrest : ∀ e ∈ rest, e ∈ q.items := fun e he => hitems ▸ List.mem_cons_of_mem _ he
    have hroom : room rest.length := h.bounded rest.length (by rw [hitems]; rfl)
    refine ⟨fun n hn => hmono n (hn ▸ hroom), fun _ _ => hroom, h.nodup, fun e he => ?_,
      fun y hy => ?_, h.evictions, h.older⟩
    · rcases he with he | he
      · exact h.known e (Or.inl (hrest e he))
      · rcases List.mem_append.mp he with he | he
        · exact h.known e (Or.inr he)
        · exact h.known e (Or.inl (List.mem_singleton.mp he ▸ hmem))
    · obtain ⟨hlatest, hnot, htaken⟩ := h.pending y hy
      refine ⟨hlatest, fun hy => hnot (hrest y hy), fun hy => ?_⟩
      rcases List.mem_append.mp hy with hy | hy
      · exact htaken hy
      · exact hnot (List.mem_singleton.mp hy ▸ hmem)

/-- **The newest item is kept** by every operation but an eviction from an empty queue, and no
    offer fails. -/
theorem Operates.kept (h : Sound room q) (hkept : Kept q) (hop : Operates room q op q')
    (hne : op ≠ .evictEmpty) : Kept q' ∧ q'.refused = q.refused := by
  cases hop with
  | put x hputter hroom | replace x hputter hroom =>
    refine ⟨fun _ y hy => Or.inl ?_, rfl⟩
    have hlast := h.getLast? (x := x) (by rw [hputter]; rfl)
    cases Option.some.inj (hlast.symm.trans hy)
    exact List.mem_append_right _ (List.mem_singleton_self x)
  | offer x hidle hnew | full x hputter hfull | evict x oldest rest hputter hitems =>
    exact ⟨fun hidle => (by cases hidle), rfl⟩
  | evictEmpty x hputter hitems => exact absurd rfl hne
  | replaceFull x hputter hfull => exact absurd (h.makesRoom x hputter) hfull
  | take oldest rest hitems =>
    refine ⟨fun hidle y hy => ?_, rfl⟩
    rcases hkept hidle y hy with hin | hin
    · rw [hitems] at hin
      rcases List.mem_cons.mp hin with rfl | hin
      · exact Or.inr (List.mem_append_right _ (List.mem_singleton_self y))
      · exact Or.inl hin
    · exact Or.inr (List.mem_append_left _ hin)

/-- An eviction that finds the queue empty gives the item of its own offer up. -/
theorem Operates.not_kept (h : Sound room q) (hop : Operates room q .evictEmpty q') :
    ¬ Kept q' := by
  cases hop with
  | evictEmpty x hputter hitems =>
    have hpending : q.putter.pending = some x := by rw [hputter]; rfl
    obtain ⟨-, hnot, htaken⟩ := h.pending x hpending
    intro hkept
    rcases hkept rfl x (h.getLast? hpending) with hin | hin
    · exact hnot hin
    · exact htaken hin

/-- The latest offer has evicted at most one item, an older one. -/
theorem Sound.evicted_one (h : Sound room q) :
    (q.evicted.drop q.evictedBefore).length ≤ 1 := by
  have hone := q.putter.evictions_le_one
  have := h.evictions.2
  rw [List.length_drop]
  omega

/-! ## Offers -/

/-- Every offer that ends is accepted or refused. -/
theorem Operates.ends (hop : Operates room q op q') :
    q'.accepted.length + q'.refused.length =
      q.accepted.length + q.refused.length + op.ends.toNat := by
  cases hop <;> simp only [Op.ends, List.length_append, List.length_cons, List.length_nil,
    Bool.toNat_true, Bool.toNat_false] <;> omega

/-- Only an offer begins while no other is going on. -/
theorem Operates.busy (hop : Operates room q op q') (hoffer : op ≠ .offer) (htake : op ≠ .take) :
    q.putter ≠ .idle := by
  cases hop with
  | offer x hidle hnew => exact absurd rfl hoffer
  | take oldest rest hitems => exact absurd rfl htake
  | put x hputter hroom | full x hputter hfull | evict x oldest rest hputter hitems
  | evictEmpty x hputter hitems | replace x hputter hroom | replaceFull x hputter hfull =>
    rw [hputter]
    nofun

theorem Operates.idle_of_ends (hop : Operates room q op q') (hends : op.ends = true) :
    q'.putter = .idle := by
  cases hop <;> first | rfl | cases hends

theorem Operates.offered (hop : Operates room q op q') (hoffer : op ≠ .offer) :
    q'.offered = q.offered := by
  cases hop <;> first | rfl | exact absurd rfl hoffer

/-- The items that have been accepted, and the current one, are in the order of their offers. -/
def SharedQueue.InTurn (q : SharedQueue β) : Prop :=
  (q.accepted ++ q.putter.pending.toList).Sublist q.offered

/-- **Items are accepted in the order in which they are offered.** -/
theorem Operates.inTurn (h : q.InTurn) (hop : Operates room q op q') : q'.InTurn := by
  have haccepted : q.accepted.Sublist q.offered :=
    (List.sublist_append_left q.accepted _).trans h
  cases hop with
  | offer x hidle hnew => exact haccepted.append (List.Sublist.refl [x])
  | put x hputter hroom | replace x hputter hroom =>
    rw [SharedQueue.InTurn, hputter] at h
    simpa [SharedQueue.InTurn, Putter.pending] using h
  | full x hputter hfull | evict x oldest rest hputter hitems =>
    rw [SharedQueue.InTurn, hputter] at h
    exact h
  | evictEmpty x hputter hitems | replaceFull x hputter hfull =>
    simpa [SharedQueue.InTurn, Putter.pending] using haccepted
  | take oldest rest hitems => exact h

theorem Operates.putter_take (hop : Operates room q .take q') : q'.putter = q.putter := by
  cases hop
  rfl

end LatestPut
