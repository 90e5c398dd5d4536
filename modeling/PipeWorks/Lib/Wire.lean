import Mathlib.Data.List.Infix

/-!
# Messages on a wire

A wire keeps the order of what is put on it and loses nothing.  The two ends do not share the
messages but their encodings: `Carries` says that what has been taken off, and what the encodings
on the wire are decoded to, is together what has been sent.
-/

set_option autoImplicit false

namespace Wire

variable {α β : Type*} {decode : β → Option α} {wire : List β} {sent taken : List α}
  {message : α} {encoding : β}

/-- The messages on the wire are those that have been sent and not been taken off. -/
def Carries (decode : β → Option α) (wire : List β) (sent taken : List α) : Prop :=
  ∃ onWire, taken ++ onWire = sent ∧ wire.map decode = onWire.map some

theorem carries_init : Carries decode [] [] [] := ⟨[], rfl, rfl⟩

theorem Carries.taken_prefix (h : Carries decode wire sent taken) : taken <+: sent := by
  obtain ⟨onWire, heq, -⟩ := h
  exact ⟨onWire, heq⟩

/-- A message is put on the wire. -/
theorem Carries.send (h : Carries decode wire sent taken)
    (hdecode : decode encoding = some message) :
    Carries decode (wire ++ [encoding]) (sent ++ [message]) taken := by
  obtain ⟨onWire, rfl, hwire⟩ := h
  refine ⟨onWire ++ [message], (List.append_assoc ..).symm, ?_⟩
  rw [List.map_append, List.map_append, hwire, List.map_singleton, List.map_singleton, hdecode]

/-- The oldest is taken off. -/
theorem Carries.take (h : Carries decode (encoding :: wire) sent taken) :
    ∃ message, decode encoding = some message ∧ Carries decode wire sent (taken ++ [message]) := by
  obtain ⟨onWire, rfl, hwire⟩ := h
  cases onWire with
  | nil => cases hwire
  | cons message onWire =>
    obtain ⟨hdecode, hrest⟩ := List.cons.inj hwire
    exact ⟨message, hdecode, onWire, List.append_assoc .., hrest⟩

end Wire
