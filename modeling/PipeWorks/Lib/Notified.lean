import Mathlib.Data.List.Basic

/-!
# A copy that is renewed when a notice comes

Values are stored under keys, and a copy of them is shown elsewhere.  A reading looks one value up
after the other, and what it has seen replaces the copy when it arrives.  A change of the values
sends a notice, and a notice that arrives begins a new reading.  Readings may arrive in any order,
but the youngest one must be the last to arrive.

* `Operates` lists what can happen; notices may be merged, as long as one of them is left;
* `Operates.current` — a copy stays `Current`: what the youngest reading has seen is what is stored,
  or a notice is on its way;
* `Current.settled` — when nothing is under way, what is shown is what is stored.
-/

set_option autoImplicit false

namespace Notified

structure Copy (κ β : Type*) where
  stored : κ → β
  /-- a notice is on its way -/
  due : Prop
  /-- what each reading has seen, the oldest one first -/
  readings : List (List (κ × β))
  shown : List (κ × β)

variable {κ β : Type*} {c d : Copy κ β}

/-- What will be shown if nothing else begins. -/
def Copy.youngest (c : Copy κ β) : List (κ × β) := c.readings.getLast?.getD c.shown

def Copy.Agrees (c : Copy κ β) (seen : List (κ × β)) : Prop := ∀ o ∈ seen, o.2 = c.stored o.1

def Copy.Current (c : Copy κ β) : Prop := c.due ∨ c.Agrees c.youngest

inductive Operates : Copy κ β → Copy κ β → Prop
  | changes (c : Copy κ β) (stored : κ → β) :
      Operates c { c with stored := stored, due := True }
  /-- notices go on, or are merged -/
  | relays (c : Copy κ β) {due : Prop} (hdue : c.due → due) : Operates c { c with due := due }
  /-- a reading begins; a notice may have arrived with it -/
  | begins (c : Copy κ β) (due : Prop) :
      Operates c { c with due := due, readings := c.readings ++ [[]] }
  | sees (c : Copy κ β) {i : Nat} {seen : List (κ × β)} (hi : c.readings[i]? = some seen)
      (k : κ) : Operates c { c with readings := c.readings.set i (seen ++ [(k, c.stored k)]) }
  /-- a reading arrives, or what is left of it -/
  | shows (c : Copy κ β) {i : Nat} {seen shown : List (κ × β)} (hi : c.readings[i]? = some seen)
      (hlast : i + 1 = c.readings.length → i = 0) (hshown : ∀ o ∈ shown, o ∈ seen) :
      Operates c { c with readings := c.readings.eraseIdx i, shown := shown }
  /-- notices are lost before anything has been seen -/
  | misses (c : Copy κ β) (due : Prop) (hyoungest : c.youngest = []) :
      Operates c { c with due := due }

theorem agrees_nil (c : Copy κ β) : c.Agrees [] := fun _ ho => by cases ho

theorem current_of_youngest_eq_nil (h : c.youngest = []) : c.Current :=
  .inr (h ▸ agrees_nil c)

theorem youngest_concat (c : Copy κ β) (due : Prop) (seen : List (κ × β)) :
    { c with due := due, readings := c.readings ++ [seen] : Copy κ β }.youngest = seen := by
  simp [Copy.youngest]

/-- Only the youngest reading matters for what the youngest one has seen. -/
theorem youngest_set {i : Nat} {seen : List (κ × β)} (hi : c.readings[i]? = some seen)
    (seen' : List (κ × β)) :
    { c with readings := c.readings.set i seen' }.youngest =
      if i + 1 = c.readings.length then seen' else c.youngest := by
  have hlt := (List.getElem?_eq_some_iff.mp hi).1
  simp only [Copy.youngest, List.getLast?_eq_getElem?, List.length_set]
  by_cases hlast : i + 1 = c.readings.length
  · rw [if_pos hlast, ← hlast, Nat.add_sub_cancel, List.getElem?_set_self hlt]
    rfl
  · rw [if_neg hlast, List.getElem?_set_ne (by omega)]

theorem youngest_eq_of_last {i : Nat} {seen : List (κ × β)} (hi : c.readings[i]? = some seen)
    (hlast : i + 1 = c.readings.length) : c.youngest = seen := by
  rw [Copy.youngest, List.getLast?_eq_getElem?, ← hlast, Nat.add_sub_cancel, hi]
  rfl

theorem youngest_eraseIdx {i : Nat} {seen shown : List (κ × β)}
    (hi : c.readings[i]? = some seen) (hlast : i + 1 ≠ c.readings.length) :
    { c with readings := c.readings.eraseIdx i, shown := shown }.youngest = c.youngest := by
  have hlt := (List.getElem?_eq_some_iff.mp hi).1
  have hsub : c.readings.length - 1 - 1 + 1 = c.readings.length - 1 := by omega
  have hget : c.readings[c.readings.length - 1]? = some c.readings[c.readings.length - 1] :=
    List.getElem?_eq_getElem (by omega)
  simp only [Copy.youngest, List.getLast?_eq_getElem?, List.length_eraseIdx_of_lt hlt]
  rw [List.getElem?_eraseIdx_of_ge (by omega), hsub, hget]
  rfl

theorem youngest_eraseIdx_of_single {i : Nat} {shown : List (κ × β)} (hi : i = 0)
    (hlast : i + 1 = c.readings.length) :
    { c with readings := c.readings.eraseIdx i, shown := shown }.youngest = shown := by
  subst hi
  obtain ⟨seen, hseen⟩ := List.length_eq_one_iff.mp hlast.symm
  simp [Copy.youngest, hseen]

theorem Operates.current (h : Operates c d) (hc : c.Current) : d.Current := by
  cases h with
  | changes stored => exact .inl trivial
  | relays hdue => exact hc.imp hdue id
  | begins due =>
    refine .inr ?_
    rw [youngest_concat]
    exact agrees_nil _
  | @sees i seen hi k =>
    refine hc.imp id fun hagrees => ?_
    rw [youngest_set hi]
    split
    · rename_i hlast
      rw [youngest_eq_of_last hi hlast] at hagrees
      intro o ho
      rcases List.mem_append.mp ho with ho | ho
      · exact hagrees o ho
      · rw [List.mem_singleton.mp ho]
    · exact hagrees
  | @shows i seen shown hi hlast hshown =>
    refine hc.imp id fun hagrees => ?_
    by_cases hyoungest : i + 1 = c.readings.length
    · -- nothing else is under way
      rw [youngest_eq_of_last hi hyoungest] at hagrees
      rw [youngest_eraseIdx_of_single (hlast hyoungest) hyoungest]
      exact fun o ho => hagrees o (hshown o ho)
    · rw [youngest_eraseIdx hi hyoungest]
      exact hagrees
  | misses due hyoungest => exact current_of_youngest_eq_nil hyoungest

/-- **A settled copy is right.** -/
theorem Copy.Current.settled (h : c.Current) (hdue : ¬ c.due) (hreadings : c.readings = []) :
    c.Agrees c.shown := by
  have hagrees := h.resolve_left hdue
  rw [Copy.youngest, hreadings] at hagrees
  exact hagrees

end Notified
