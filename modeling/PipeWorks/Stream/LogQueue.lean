import Mathlib.Data.List.Nodup
import PipeWorks.Lib.Positions
import PipeWorks.Lib.StepSystem
import PipeWorks.Stream.LogDelivery

/-!
# The window of the log queue (`LatestLogQueue`)

Any number of threads call `put`, and any number of others `get`.  A `put` makes its calls of the
underlying queue under the lock; a `get` does not take the lock and may come between any two of
them.

`puts_slide_window`: no `put` raises, each inserts its item once, in the order in which they have
taken the lock, and evicts one item at most, after it has found the queue full.  What has been
inserted leaves the queue in this order, and the queue is always the end of it.
-/

set_option autoImplicit false

namespace PipeWorks.Stream.Logs

open StepSystem

variable {α : Type} {maxsize : Nat}

/-! ## The queue -/

/-- The underlying `get`; without an item for the time of its timeout it raises `queue.Empty`. -/
def LatestLogQueue.get (q : LatestLogQueue α) : Option (α × LatestLogQueue α) :=
  match q.items with
  | [] => none
  | item :: items => some (item, { q with items := items })

/-- A size of zero means that there is no bound. -/
def LatestLogQueue.Bounded (maxsize : Nat) (q : LatestLogQueue α) : Prop :=
  0 < maxsize → q.items.length ≤ maxsize

theorem LatestLogQueue.full_eq_false {q : LatestLogQueue α} :
    q.full maxsize = false ↔ (0 < maxsize → q.items.length < maxsize) := by
  simp [full]

theorem LatestLogQueue.Bounded.suffix {q q' : LatestLogQueue α} (h : q.Bounded maxsize)
    (hsuffix : q'.items <:+ q.items) : q'.Bounded maxsize :=
  fun hpos => Nat.le_trans hsuffix.length_le (h hpos)

/-- Taking items away makes no queue full. -/
theorem LatestLogQueue.full_suffix {q q' : LatestLogQueue α} (h : q.full maxsize = false)
    (hsuffix : q'.items <:+ q.items) : q'.full maxsize = false := by
  rw [full_eq_false] at h ⊢
  intro hpos
  exact Nat.lt_of_le_of_lt hsuffix.length_le (h hpos)

theorem LatestLogQueue.get_items {q q' : LatestLogQueue α} {item : α}
    (hget : q.get = some (item, q')) : q.items = item :: q'.items := by
  unfold get at hget
  split at hget
  · cases hget
  · rename_i x items hitems
    cases hget
    exact hitems

/-- How many calls are left. -/
def PutPc.left : PutPc → Nat
  | .locking => 4
  | .checking => 3
  | .evicting => 2
  | .inserting => 1

/-- What a call of `put` finds when it is about to insert. -/
def LatestLogQueue.Room (maxsize : Nat) (q : LatestLogQueue α) (pc : PutPc) : Prop :=
  pc = .inserting → q.full maxsize = false

/-- What a call of `put` does that does not end it. -/
inductive LatestLogQueue.Moves (maxsize : Nat) (q : LatestLogQueue α) :
    PutPc → LatestLogQueue α → PutPc → Prop where
  | lock : q.Moves maxsize .locking q .checking
  | full (hfull : q.full maxsize = true) : q.Moves maxsize .checking q .evicting
  | free (hfull : q.full maxsize = false) : q.Moves maxsize .checking q .inserting
  | empty (hitems : q.items = []) : q.Moves maxsize .evicting q .inserting
  | evict {oldest : α} {items : List α} (hitems : q.items = oldest :: items) :
      q.Moves maxsize .evicting ⟨items, q.evicted ++ [oldest]⟩ .inserting

theorem LatestLogQueue.putStep_spec {q : LatestLogQueue α} {pc : PutPc} (item : α)
    (hroom : q.Room maxsize pc) :
    (∃ q' pc', q.putStep maxsize item pc = (q', .goesOn pc') ∧ q.Moves maxsize pc q' pc') ∨
    ∃ q', q.putStep maxsize item pc = (q', .returned) ∧ pc = .inserting ∧
      q'.items = q.items ++ [item] ∧ q'.Bounded maxsize := by
  cases pc with
  | locking => exact .inl ⟨q, .checking, rfl, .lock⟩
  | checking =>
    left
    cases hfull : q.full maxsize with
    | true => exact ⟨q, .evicting, by simp only [putStep, hfull, if_true], .full hfull⟩
    | false =>
      refine ⟨q, .inserting, ?_, .free hfull⟩
      simp only [putStep, hfull]
      rfl
  | evicting =>
    left
    cases hitems : q.items with
    | nil => exact ⟨q, .inserting, by simp only [putStep, hitems], .empty hitems⟩
    | cons oldest items => exact ⟨_, .inserting, by simp only [putStep, hitems], .evict hitems⟩
  | inserting =>
    right
    have hfull := hroom rfl
    refine ⟨{ q with items := q.items ++ [item] }, ?_, rfl, rfl, fun hpos => ?_⟩
    · simp only [putStep, hfull]
      rfl
    · have hlt := full_eq_false.mp hfull hpos
      rw [List.length_append, List.length_singleton]
      exact hlt

namespace LatestLogQueue.Moves

variable {q q' : LatestLogQueue α} {pc pc' : PutPc}

theorem left_lt (h : q.Moves maxsize pc q' pc') : pc'.left < pc.left := by
  cases h <;> decide

theorem behind (h : q.Moves maxsize pc q' pc') : pc' ≠ .locking := by
  cases h <;> decide

theorem room (h : q.Moves maxsize pc q' pc') (hbounded : q.Bounded maxsize) :
    q'.Room maxsize pc' := by
  intro hpc'
  cases h with
  | lock | full => cases hpc'
  | free hfull => exact hfull
  | empty hitems =>
    rw [full_eq_false, hitems]
    exact id
  | evict hitems =>
    rw [full_eq_false]
    intro hpos
    have hlength := hbounded hpos
    rw [hitems, List.length_cons] at hlength
    exact hlength

/-- A call takes nothing out of the queue but what it evicts. -/
theorem items (h : q.Moves maxsize pc q' pc') :
    q.items = q'.evicted.drop q.evicted.length ++ q'.items := by
  cases h with
  | evict hitems => simp [hitems]
  | _ => simp

theorem suffix (h : q.Moves maxsize pc q' pc') : q'.items <:+ q.items :=
  ⟨_, h.items.symm⟩

/-- It evicts one item at most, and goes on to insert its own. -/
theorem evicted (h : q.Moves maxsize pc q' pc') {x : α}
    (hx : x ∈ q'.evicted.drop q.evicted.length) :
    q'.evicted.drop q.evicted.length = [x] ∧ pc = .evicting ∧ pc' = .inserting := by
  cases h with
  | evict hitems =>
    rw [List.drop_left, List.mem_singleton] at hx
    rw [List.drop_left, hx]
    exact ⟨rfl, rfl, rfl⟩
  | _ => simp at hx

end LatestLogQueue.Moves

namespace Window

/-! ## Threads that put and threads that get -/

inductive PutState where
  | running (pc : PutPc)
  | returned
  /-- with `queue.Full` -/
  | raised
  deriving DecidableEq, Repr

/-- A call of `put`. -/
structure Put (α : Type) where
  item : α
  state : PutState
  deriving DecidableEq, Repr

structure State (α : Type) where
  queue : LatestLogQueue α
  /-- the calls of `put`, in the order in which they have been made -/
  puts : List (Put α)
  /-- the call that holds `_lock` -/
  lock : Option Nat
  /-- history: the calls that have taken the lock -/
  locked : List Nat
  /-- history: the calls that have inserted, with their items -/
  inserted : List (Nat × α)
  /-- history: what has left the queue, taken by a `get` or evicted by the `put` that is named -/
  gone : List (α × Option Nat)
  /-- history: the calls that have looked at a full queue -/
  sawFull : List Nat
  deriving DecidableEq, Repr

def State.init : State α :=
  { queue := ⟨[], []⟩
    puts := []
    lock := none
    locked := []
    inserted := []
    gone := []
    sawFull := [] }

inductive Label (α : Type) where
  | call (item : α)
  /-- the next call that the `i`-th `put` makes -/
  | put (i : Nat)
  | get
  deriving DecidableEq, Repr

/-- The thread of the `i`-th `put` may make its next call. -/
def State.MayRun (s : State α) (i : Nat) : PutPc → Prop
  | .locking => s.lock = none
  | _ => s.lock = some i

instance (s : State α) (i : Nat) : ∀ pc, Decidable (s.MayRun i pc)
  | .locking | .checking | .evicting | .inserting => inferInstanceAs (Decidable (_ = _))

/-- It makes it; the lock is released by a return and by an exception. -/
def State.put (maxsize : Nat) (s : State α) (i : Nat) (item : α) (pc : PutPc) : State α :=
  match s.queue.putStep maxsize item pc with
  | (q, .goesOn pc') =>
    { s with
      queue := q
      puts := s.puts.set i ⟨item, .running pc'⟩
      lock := some i
      locked := if pc = .locking then s.locked ++ [i] else s.locked
      gone := s.gone ++ (q.evicted.drop s.queue.evicted.length).map fun x => (x, some i)
      sawFull := if pc = .checking ∧ s.queue.full maxsize = true then s.sawFull ++ [i]
        else s.sawFull }
  | (q, .returned) =>
    { s with
      queue := q
      puts := s.puts.set i ⟨item, .returned⟩
      lock := none
      inserted := s.inserted ++ [(i, item)] }
  | (q, .raises) =>
    { s with queue := q, puts := s.puts.set i ⟨item, .raised⟩, lock := none }

def step (maxsize : Nat) (s : State α) : Label α → Option (State α)
  | .call item => some { s with puts := s.puts ++ [⟨item, .running .locking⟩] }
  | .put i =>
    match s.puts[i]? with
    | some ⟨item, .running pc⟩ => if s.MayRun i pc then some (s.put maxsize i item pc) else none
    | _ => none
  | .get =>
    match s.queue.get with
    | some (x, q) => some { s with queue := q, gone := s.gone ++ [(x, none)] }
    | none => some s

/-! ## What is promised -/

/-- The `i`-th `put` has gone on, or has returned, and has fewer calls left. -/
def State.Advanced (s : State α) (i : Nat) (item : α) (pc : PutPc) : Prop :=
  s.puts[i]? = some ⟨item, .returned⟩ ∨
    ∃ pc', s.puts[i]? = some ⟨item, .running pc'⟩ ∧ pc'.left < pc.left

structure SlidesWindow (maxsize : Nat) (s : State α) : Prop where
  /-- neither `queue.Full` nor `queue.Empty` comes out of a `put` -/
  quiet : ∀ p ∈ s.puts, p.state ≠ .raised
  /-- a `put` returns exactly when its item has been inserted -/
  inserts : ∀ i item, s.puts[i]? = some ⟨item, .returned⟩ ↔ (i, item) ∈ s.inserted
  once : (s.inserted.map Prod.fst).Nodup
  /-- the lock is held by a `put` that has not returned -/
  held : ∀ i, s.lock = some i → ∃ item pc, s.puts[i]? = some ⟨item, .running pc⟩ ∧ pc ≠ .locking
  /-- a `put` waits for nothing but the lock, and returns after at most four calls -/
  advances : ∀ i item pc, s.puts[i]? = some ⟨item, .running pc⟩ →
    pc = .locking ∧ s.lock.isSome = true ∨
      ∃ t, step maxsize s (.put i) = some t ∧ t.Advanced i item pc
  /-- items are inserted in the order in which the lock has been taken -/
  lockOrder : s.locked = s.inserted.map Prod.fst ++ s.lock.toList
  /-- what has been inserted has left in this order, or is in the queue -/
  conserved : s.inserted.map Prod.snd = s.gone.map Prod.fst ++ s.queue.items
  /-- only a `put` that has looked at a full queue evicts -/
  evicts : ∀ i x, (x, some i) ∈ s.gone → i ∈ s.sawFull
  evictsOnce : (s.gone.filterMap Prod.snd).Nodup
  /-- the queue is the end of what has been inserted -/
  window : s.queue.items <:+ s.inserted.map Prod.snd
  bounded : s.queue.Bounded maxsize

/-- The call has nothing more to evict. -/
def Put.Spent (p : Put α) : Prop := p.state = .running .inserting ∨ p.state = .returned

structure Ordered (maxsize : Nat) (s : State α) : Prop where
  quiet : ∀ p ∈ s.puts, p.state ≠ .raised
  inserts : ∀ i item, s.puts[i]? = some ⟨item, .returned⟩ ↔ (i, item) ∈ s.inserted
  once : (s.inserted.map Prod.fst).Nodup
  held : ∀ i, s.lock = some i → ∃ item pc, s.puts[i]? = some ⟨item, .running pc⟩ ∧ pc ≠ .locking
  /-- only the call that holds the lock is behind it, and the queue that it has found not to be full
      has not been filled by others -/
  inside : ∀ i item pc, s.puts[i]? = some ⟨item, .running pc⟩ → pc ≠ .locking →
    s.lock = some i ∧ s.queue.Room maxsize pc
  lockOrder : s.locked = s.inserted.map Prod.fst ++ s.lock.toList
  bounded : s.queue.Bounded maxsize

/-- What leaves the queue is accounted for. -/
structure Accounted (s : State α) : Prop where
  conserved : s.inserted.map Prod.snd = s.gone.map Prod.fst ++ s.queue.items
  looked : ∀ i item, s.puts[i]? = some ⟨item, .running .evicting⟩ → i ∈ s.sawFull
  evicts : ∀ i x, (x, some i) ∈ s.gone → i ∈ s.sawFull
  spent : ∀ i x, (x, some i) ∈ s.gone → ∃ p, s.puts[i]? = some p ∧ p.Spent
  evictsOnce : (s.gone.filterMap Prod.snd).Nodup

theorem ordered_init : Ordered maxsize (State.init : State α) where
  quiet := nofun
  inserts := by simp [State.init]
  once := List.nodup_nil
  held := nofun
  inside := by simp [State.init]
  lockOrder := rfl
  bounded := fun _ => Nat.zero_le _

theorem accounted_init : Accounted (State.init : State α) where
  conserved := rfl
  looked := by simp [State.init]
  evicts := nofun
  spent := nofun
  evictsOnce := List.nodup_nil

variable {s t : State α} {i : Nat} {item : α} {pc : PutPc}

/-! ## Steps -/

/-- A new call is not behind the lock. -/
theorem getElem?_call {x : α} {state : PutState} {j : Nat} (hstate : state ≠ .running .locking)
    (hj : (s.puts ++ [⟨item, .running .locking⟩])[j]? = some ⟨x, state⟩) :
    s.puts[j]? = some ⟨x, state⟩ := by
  rcases Positions.getElem?_concat_cases hj with hj | ⟨-, hp⟩
  · exact hj
  · cases hp
    exact absurd rfl hstate

theorem Ordered.call (h : Ordered maxsize s) (item : α) :
    Ordered maxsize { s with puts := s.puts ++ [⟨item, .running .locking⟩] } := by
  refine { h with quiet := fun p hp => ?_, inserts := fun j x => ?_, held := fun j hj => ?_,
                  inside := fun j x pc hj hpc => ?_ }
  · rcases List.mem_append.mp hp with hp | hp
    · exact h.quiet p hp
    · rw [List.mem_singleton.mp hp]
      exact nofun
  · rw [← h.inserts j x]
    exact ⟨getElem?_call nofun, Positions.getElem?_append_of_some⟩
  · obtain ⟨x, pc, hx, hpc⟩ := h.held j hj
    exact ⟨x, pc, Positions.getElem?_append_of_some hx, hpc⟩
  · refine h.inside j x pc (getElem?_call (fun hstate => hpc ?_) hj) hpc
    cases hstate
    rfl

theorem Accounted.call (h : Accounted s) (item : α) :
    Accounted { s with puts := s.puts ++ [⟨item, .running .locking⟩] } := by
  refine { h with looked := fun j x hj => ?_, spent := fun j x hx => ?_ }
  · exact h.looked j x (getElem?_call (by simp) hj)
  · obtain ⟨p, hp, hspent⟩ := h.spent j x hx
    exact ⟨p, Positions.getElem?_append_of_some hp, hspent⟩

/-- A `get` comes between any two calls of a `put`. -/
theorem Ordered.get (h : Ordered maxsize s) {q : LatestLogQueue α}
    (hsuffix : q.items <:+ s.queue.items) (gone : List (α × Option Nat)) :
    Ordered maxsize { s with queue := q, gone := gone } :=
  { h with
    inside := fun j x pc hj hpc =>
      have hinside := h.inside j x pc hj hpc
      ⟨hinside.1, fun hinserting => LatestLogQueue.full_suffix (hinside.2 hinserting) hsuffix⟩
    bounded := h.bounded.suffix hsuffix }

theorem Accounted.get (h : Accounted s) {x : α} {q : LatestLogQueue α}
    (hitems : s.queue.items = x :: q.items) :
    Accounted { s with queue := q, gone := s.gone ++ [(x, none)] } := by
  have hgone : ∀ {j : Nat} {y : α}, (y, some j) ∈ s.gone ++ [(x, none)] → (y, some j) ∈ s.gone := by
    intro j y hy
    rcases List.mem_append.mp hy with hy | hy
    · exact hy
    · cases List.mem_singleton.mp hy
  refine { h with conserved := ?_, evicts := fun j y hy => h.evicts j y (hgone hy),
                  spent := fun j y hy => h.spent j y (hgone hy), evictsOnce := ?_ }
  · rw [h.conserved, hitems]
    simp
  · rw [List.filterMap_append]
    simpa using h.evictsOnce

/-- The thread that makes the next call is the only one that is behind the lock. -/
theorem Ordered.alone (h : Ordered maxsize s) (hmay : s.MayRun i pc) {j : Nat} {x : α}
    {pc' : PutPc} (hj : s.puts[j]? = some ⟨x, .running pc'⟩) (hpc' : pc' ≠ .locking) : j = i := by
  have hlock := (h.inside j x pc' hj hpc').1
  cases pc <;> cases hmay.symm.trans hlock
  all_goals rfl

theorem Ordered.room (h : Ordered maxsize s) (hi : s.puts[i]? = some ⟨item, .running pc⟩) :
    s.queue.Room maxsize pc := by
  intro hpc
  exact (h.inside i item pc hi (by rw [hpc]; decide)).2 hpc

/-- A call of `put` that does not end it. -/
theorem Ordered.goesOn (h : Ordered maxsize s) (hi : s.puts[i]? = some ⟨item, .running pc⟩)
    (hmay : s.MayRun i pc) {q : LatestLogQueue α} {pc' : PutPc}
    (hmoves : s.queue.Moves maxsize pc q pc') (gone : List (α × Option Nat)) (sawFull : List Nat) :
    Ordered maxsize { s with
      queue := q
      puts := s.puts.set i ⟨item, .running pc'⟩
      lock := some i
      locked := if pc = .locking then s.locked ++ [i] else s.locked
      gone := gone
      sawFull := sawFull } := by
  have hself : (s.puts.set i ⟨item, .running pc'⟩)[i]? = some ⟨item, .running pc'⟩ :=
    List.getElem?_set_self (List.getElem?_eq_some_iff.mp hi).1
  refine ⟨fun p hp => ?_, fun j x => ?_, h.once, fun j hj => ?_, fun j x pc'' hj hpc'' => ?_, ?_,
    h.bounded.suffix hmoves.suffix⟩
  · rcases List.mem_or_eq_of_mem_set hp with hp | rfl
    · exact h.quiet p hp
    · exact nofun
  · rw [← h.inserts j x]
    by_cases hij : i = j
    · subst hij
      simp [hself, hi]
    · rw [List.getElem?_set_ne hij]
  · cases hj
    exact ⟨item, pc', hself, hmoves.behind⟩
  · rcases Positions.getElem?_set_cases hj with ⟨hij, hj⟩ | ⟨rfl, heq⟩
    · exact absurd (h.alone hmay hj hpc'') hij
    · cases heq
      exact ⟨rfl, hmoves.room h.bounded⟩
  · have horder := h.lockOrder
    by_cases hpc : pc = .locking
    · subst hpc
      have hfree : s.lock = none := hmay
      rw [hfree, Option.toList_none, List.append_nil] at horder
      simp [horder]
    · rw [(h.inside i item pc hi hpc).1] at horder
      simp only [hpc, if_false]
      exact horder

/-- What has left the queue before the call, or is evicted by it. -/
theorem mem_gone {gone : List (α × Option Nat)} {xs : List α} {x : α} {j : Nat}
    (hx : (x, some j) ∈ gone ++ xs.map fun x => (x, some i)) :
    (x, some j) ∈ gone ∨ j = i ∧ x ∈ xs := by
  rcases List.mem_append.mp hx with hx | hx
  · exact .inl hx
  · obtain ⟨y, hy, heq⟩ := List.mem_map.mp hx
    cases heq
    exact .inr ⟨rfl, hy⟩

/-- A call that is about to evict has not evicted yet. -/
theorem Accounted.fresh (h : Accounted s) (hi : s.puts[i]? = some ⟨item, .running .evicting⟩)
    (x : α) : (x, some i) ∉ s.gone := by
  intro hx
  obtain ⟨p, hp, hspent⟩ := h.spent i x hx
  cases hi.symm.trans hp
  rcases hspent with hspent | hspent <;> cases hspent

theorem Accounted.goesOn (h : Accounted s) (hi : s.puts[i]? = some ⟨item, .running pc⟩)
    {q : LatestLogQueue α} {pc' : PutPc} (hmoves : s.queue.Moves maxsize pc q pc')
    (lock : Option Nat) (locked : List Nat) :
    Accounted { s with
      queue := q
      puts := s.puts.set i ⟨item, .running pc'⟩
      lock := lock
      locked := locked
      gone := s.gone ++ (q.evicted.drop s.queue.evicted.length).map fun x => (x, some i)
      sawFull := if pc = .checking ∧ s.queue.full maxsize = true then s.sawFull ++ [i]
        else s.sawFull } := by
  have hself : (s.puts.set i ⟨item, .running pc'⟩)[i]? = some ⟨item, .running pc'⟩ :=
    List.getElem?_set_self (List.getElem?_eq_some_iff.mp hi).1
  have hsawFull : s.sawFull ⊆
      if pc = .checking ∧ s.queue.full maxsize = true then s.sawFull ++ [i] else s.sawFull := by
    split
    · exact List.subset_append_left _ _
    · exact List.Subset.refl _
  refine ⟨?_, fun j x hj => ?_, fun j x hx => ?_, fun j x hx => ?_, ?_⟩
  · have hfst : ∀ xs : List α, (xs.map fun x => (x, some i)).map Prod.fst = xs := by
      intro xs
      rw [List.map_map]
      exact List.map_id xs
    rw [h.conserved, hmoves.items, List.map_append, hfst, List.append_assoc]
  · rcases Positions.getElem?_set_cases hj with ⟨-, hj⟩ | ⟨rfl, heq⟩
    · exact hsawFull (h.looked j x hj)
    · cases heq
      cases hmoves with
      | full hfull => simp [hfull]
  · rcases mem_gone hx with hold | ⟨rfl, hevicted⟩
    · exact hsawFull (h.evicts j x hold)
    · obtain ⟨-, rfl, -⟩ := hmoves.evicted hevicted
      exact hsawFull (h.looked j item hi)
  · rcases mem_gone hx with hold | ⟨rfl, hevicted⟩
    · obtain ⟨p, hp, hspent⟩ := h.spent j x hold
      by_cases hij : i = j
      · -- a call that is spent only inserts
        subst hij
        cases hi.symm.trans hp
        rcases hspent with hspent | hspent
        · cases hspent
          cases hmoves
        · cases hspent
      · exact ⟨p, (List.getElem?_set_ne hij).trans hp, hspent⟩
    · obtain ⟨-, -, rfl⟩ := hmoves.evicted hevicted
      exact ⟨_, hself, .inl rfl⟩
  · rw [List.filterMap_append]
    cases hevicted : q.evicted.drop s.queue.evicted.length with
    | nil => simpa using h.evictsOnce
    | cons x xs =>
      obtain ⟨hone, rfl, -⟩ := hmoves.evicted (x := x) (by simp [hevicted])
      rw [hevicted] at hone
      rw [hone]
      refine List.Nodup.append h.evictsOnce (List.nodup_singleton _) fun j hj hji => ?_
      obtain rfl := List.mem_singleton.mp hji
      obtain ⟨⟨y, _⟩, hy, rfl⟩ := List.mem_filterMap.mp hj
      exact h.fresh hi y hy

/-- `put_nowait` returns. -/
theorem Ordered.returns (h : Ordered maxsize s) (hi : s.puts[i]? = some ⟨item, .running .inserting⟩)
    {q : LatestLogQueue α} (hbounded : q.Bounded maxsize) :
    Ordered maxsize { s with
      queue := q
      puts := s.puts.set i ⟨item, .returned⟩
      lock := none
      inserted := s.inserted ++ [(i, item)] } := by
  have hself : (s.puts.set i ⟨item, .returned⟩)[i]? = some ⟨item, .returned⟩ :=
    List.getElem?_set_self (List.getElem?_eq_some_iff.mp hi).1
  have hlock := (h.inside i item _ hi (by decide)).1
  have hmay : s.MayRun i .inserting := hlock
  have hfresh : ∀ x, (i, x) ∉ s.inserted := by
    intro x hx
    cases hi.symm.trans ((h.inserts i x).mpr hx)
  refine ⟨fun p hp => ?_, fun j x => ?_, ?_, nofun, fun j x pc hj hpc => ?_, ?_, hbounded⟩
  · rcases List.mem_or_eq_of_mem_set hp with hp | rfl
    · exact h.quiet p hp
    · exact nofun
  · rw [List.mem_append, List.mem_singleton]
    by_cases hij : i = j
    · subst hij
      simp [hself, hfresh, eq_comm]
    · rw [List.getElem?_set_ne hij, h.inserts j x]
      simp [Ne.symm hij]
  · rw [List.map_append, List.map_singleton]
    apply List.Nodup.append h.once (List.nodup_singleton _)
    intro j hj hji
    rw [List.mem_singleton.mp hji] at hj
    obtain ⟨⟨_, x⟩, hx, rfl⟩ := List.mem_map.mp hj
    exact hfresh x hx
  · -- nobody else is behind the lock
    rcases Positions.getElem?_set_cases hj with ⟨hij, hj⟩ | ⟨rfl, heq⟩
    · exact absurd (h.alone hmay hj hpc) hij
    · cases heq
  · have horder := h.lockOrder
    rw [hlock] at horder
    simpa using horder

theorem Accounted.returns (h : Accounted s) (hi : s.puts[i]? = some ⟨item, .running .inserting⟩)
    {q : LatestLogQueue α} (hitems : q.items = s.queue.items ++ [item]) (lock : Option Nat) :
    Accounted { s with
      queue := q
      puts := s.puts.set i ⟨item, .returned⟩
      lock := lock
      inserted := s.inserted ++ [(i, item)] } := by
  have hself : (s.puts.set i ⟨item, .returned⟩)[i]? = some ⟨item, .returned⟩ :=
    List.getElem?_set_self (List.getElem?_eq_some_iff.mp hi).1
  refine { h with conserved := ?_, looked := fun j x hj => ?_, spent := fun j x hx => ?_ }
  · rw [hitems, List.map_append, h.conserved, List.append_assoc]
    rfl
  · rcases Positions.getElem?_set_cases hj with ⟨-, hj⟩ | ⟨-, heq⟩
    · exact h.looked j x hj
    · cases heq
  · obtain ⟨p, hp, hspent⟩ := h.spent j x hx
    by_cases hij : i = j
    · subst hij
      exact ⟨_, hself, .inr rfl⟩
    · exact ⟨p, (List.getElem?_set_ne hij).trans hp, hspent⟩

theorem put_ordered (h : Ordered maxsize s) (haccounted : Accounted s)
    (hi : s.puts[i]? = some ⟨item, .running pc⟩) (hmay : s.MayRun i pc) :
    Ordered maxsize (s.put maxsize i item pc) ∧ Accounted (s.put maxsize i item pc) ∧
      (s.put maxsize i item pc).Advanced i item pc := by
  have hlt : i < s.puts.length := (List.getElem?_eq_some_iff.mp hi).1
  rcases LatestLogQueue.putStep_spec item (h.room hi) with
    ⟨q, pc', hput, hmoves⟩ | ⟨q, hput, rfl, hitems, hbounded⟩
  · simp only [State.put, hput]
    exact ⟨h.goesOn hi hmay hmoves _ _, haccounted.goesOn hi hmoves _ _,
      .inr ⟨pc', List.getElem?_set_self hlt, hmoves.left_lt⟩⟩
  · simp only [State.put, hput]
    exact ⟨h.returns hi hbounded, haccounted.returns hi hitems _,
      .inl (List.getElem?_set_self hlt)⟩

theorem step_ordered {l : Label α} (h : Ordered maxsize s) (haccounted : Accounted s)
    (ht : step maxsize s l = some t) : Ordered maxsize t ∧ Accounted t := by
  cases l with
  | call item =>
    cases ht
    exact ⟨h.call item, haccounted.call item⟩
  | put i =>
    simp only [step] at ht
    split at ht
    · rename_i item pc hi
      split at ht <;> cases ht
      obtain ⟨hordered, haccounted, -⟩ := put_ordered h haccounted hi ‹_›
      exact ⟨hordered, haccounted⟩
    · cases ht
  | get =>
    simp only [step] at ht
    split at ht <;> cases ht
    · rename_i x q hget
      have hitems : s.queue.items = x :: q.items := LatestLogQueue.get_items hget
      exact ⟨h.get (hitems ▸ List.suffix_cons _ _) _, haccounted.get hitems⟩
    · exact ⟨h, haccounted⟩

theorem slidesWindow (h : Ordered maxsize s) (haccounted : Accounted s) :
    SlidesWindow maxsize s where
  quiet := h.quiet
  inserts := h.inserts
  once := h.once
  held := h.held
  advances := fun i item pc hi => by
    by_cases hmay : s.MayRun i pc
    · refine .inr ⟨s.put maxsize i item pc, ?_, (put_ordered h haccounted hi hmay).2.2⟩
      simp only [step, hi]
      exact if_pos hmay
    · -- behind the lock nothing is waited for
      have hpc : pc = .locking := by
        by_contra hne
        have hlock := (h.inside i item pc hi hne).1
        cases pc with
        | locking => exact hne rfl
        | checking | evicting | inserting => exact hmay hlock
      subst hpc
      exact .inl ⟨rfl, Option.isSome_iff_ne_none.mpr hmay⟩
  lockOrder := h.lockOrder
  conserved := haccounted.conserved
  evicts := haccounted.evicts
  evictsOnce := haccounted.evictsOnce
  window := ⟨_, haccounted.conserved.symm⟩
  bounded := h.bounded

/-! ## Runs -/

/-- **The sliding window**, in every state of every run. -/
theorem puts_slide_window (maxsize : Nat) (labels : List (Label α)) :
    Always (step maxsize) (SlidesWindow maxsize) State.init labels :=
  always_of_invariant (I := fun s => Ordered maxsize s ∧ Accounted s)
    (fun _ h => slidesWindow h.1 h.2) (fun _ _ _ h ht => step_ordered h.1 h.2 ht)
    ⟨ordered_init, accounted_init⟩

/-- The queue is full when it is looked at and empty when the oldest item is to be removed. -/
example : (run (step 1) (State.init : State Nat)
    [.call 7, .put 0, .put 0, .put 0, .call 8, .call 9, .put 1, .put 1, .get, .put 1, .put 1,
      .put 2, .put 2, .put 2, .put 2]).map (fun s => (s.queue.items, s.inserted, s.gone)) =
    some ([9], [(0, 7), (1, 8), (2, 9)], [(7, none), (8, some 2)]) := rfl

end Window

end PipeWorks.Stream.Logs
