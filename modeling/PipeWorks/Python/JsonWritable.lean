import Mathlib.Algebra.Group.Nat.Defs
import Mathlib.Data.List.DropRight
import PipeWorks.Python.JsonRoundTrip

/-!
# What can be written

`json.dumps` refuses integers of more than 4300 digits, and as many nested containers as the
recursion limit leaves no room for.  `json.loads` refuses the same, so that what has been read can
be written (`writable_loads`).
-/

set_option autoImplicit false

namespace PipeWorks.Python

open Fails (bind_eq_ok map_eq_ok)

/-- `json.dumps` returns. -/
def Writable (depth : Nat) (value : Json) : Prop := ∃ text, dumps depth value = .ok text

section

variable {depth : Nat} {value : Json} {s rest : PyStr}

theorem writable_int {i : Int} : Writable depth (.int i) ↔ i.natAbs < 10 ^ maxStrDigits := by
  unfold Writable
  rw [dumps, reprInt, List.length_map,
    ← Nat.length_toDigits_le_iff (by decide) (show 0 < maxStrDigits by decide)]
  constructor
  · rintro ⟨text, h⟩
    split at h
    · cases h
    · rename_i hle
      exact Nat.le_of_not_lt hle
  · intro h
    rw [if_neg (Nat.not_lt.2 h)]
    exact ⟨_, rfl⟩

theorem writable_str (s : PyStr) : Writable depth (.str s) := ⟨_, by rw [dumps]⟩

theorem writable_null : Writable depth .null := ⟨_, by rw [dumps]⟩

theorem writable_list {items : List Json} (h : ∀ item ∈ items, Writable depth item) :
    Writable (depth + 1) (.list items) := by
  have hparts : ∃ parts, dumpItems depth items = .ok parts := by
    induction items with
    | nil => exact ⟨[], by rw [dumpItems]⟩
    | cons item items ih =>
      obtain ⟨part, hpart⟩ := h item (List.mem_cons_self ..)
      obtain ⟨parts, hparts⟩ := ih fun i hi => h i (List.mem_cons_of_mem _ hi)
      exact ⟨part :: parts, by rw [dumpItems, hpart, hparts]; rfl⟩
  obtain ⟨parts, hparts⟩ := hparts
  exact ⟨_, by rw [dumps, hparts]; rfl⟩

theorem writable_dict {members : List (PyStr × Json)}
    (h : ∀ member ∈ members, Writable depth member.2) :
    Writable (depth + 1) (.dict members) := by
  have hparts : ∃ parts, dumpMembers depth members = .ok parts := by
    induction members with
    | nil => exact ⟨[], by rw [dumpMembers]⟩
    | cons member members ih =>
      obtain ⟨text, htext⟩ := h member (List.mem_cons_self ..)
      obtain ⟨parts, hparts⟩ := ih fun m hm => h m (List.mem_cons_of_mem _ hm)
      exact ⟨_ :: parts, by rw [dumpMembers, dumpMember, htext, hparts]; rfl⟩
  obtain ⟨parts, hparts⟩ := hparts
  exact ⟨_, by rw [dumps, hparts]; rfl⟩

theorem Writable.dumpBytes (h : Writable depth value) (hvalid : value.Valid) :
    ∃ raw, dumpBytes depth value = .ok raw := by
  obtain ⟨text, htext⟩ := h
  exact ⟨_, dumpBytes_eq hvalid htext⟩

/-! ## What has been read -/

theorem ofDigits_lt {digits : PyStr} (h : ∀ c ∈ digits, isDigit c = true) :
    ofDigits digits < 10 ^ digits.length := by
  induction digits using List.reverseRecOn with
  | nil => decide
  | append_singleton digits c ih =>
    have hc : c - '0'.toNat < 10 := by
      have := isDigit_iff.1 (h c (by simp))
      have : '0'.toNat = 48 := rfl
      omega
    have hdigits := ih fun d hd => h d (List.mem_append_left _ hd)
    have hstep : ofDigits (digits ++ [c]) = ofDigits digits * 10 + (c - '0'.toNat) := by
      rw [ofDigits, List.foldl_append]
      rfl
    rw [hstep, List.length_append, List.length_singleton, Nat.pow_succ]
    omega

theorem writable_scanConstant (h : scanConstant s = some (value, rest)) :
    Writable depth value := by
  have hconstants : ∀ c ∈ constants, Writable depth c.2 := by
    intro c hc
    simp only [constants, List.mem_cons, List.not_mem_nil, or_false] at hc
    obtain rfl | rfl | rfl | rfl | rfl | rfl := hc <;> exact ⟨_, by rw [dumps]⟩
  obtain ⟨c, hc, heq⟩ := Option.map_eq_some_iff.1 h
  cases heq
  exact hconstants c (List.mem_of_find?_eq_some hc)

theorem scanInteger_digits (s : PyStr) : ∀ c ∈ (scanInteger s).1, isDigit c = true := by
  unfold scanInteger
  split
  · rename_i hzero
    cases s with
    | nil => exact fun c hc => nomatch hc
    | cons d s =>
      obtain rfl : d = '0'.toNat := Option.some.inj hzero
      intro c hc
      obtain rfl := List.mem_singleton.1 hc
      decide
  · intro c hc
    rw [List.span_eq_takeWhile_dropWhile] at hc
    exact List.mem_takeWhile_imp hc

theorem writable_scanUnsigned (negative : Bool) (h : scanUnsigned negative s = .ok (value, rest)) :
    Writable depth value := by
  have hdigits := ofDigits_lt (scanInteger_digits s)
  unfold scanUnsigned at h
  dsimp only at h
  split at h
  · cases h
  · split at h
    · split at h
      · cases h
      · rename_i hlength
        cases h
        have hlt := Nat.lt_of_lt_of_le hdigits
          (Nat.pow_le_pow_right (show 0 < 10 by decide) (Nat.le_of_not_lt hlength))
        refine writable_int.2 (Nat.lt_of_le_of_lt (Nat.le_of_eq ?_) hlt)
        cases negative
        · exact Int.natAbs_natCast _
        · exact (Int.natAbs_neg _).trans (Int.natAbs_natCast _)
    · cases h
      exact ⟨_, by rw [dumps]⟩

theorem writable_scanNumber (h : scanNumber s = .ok (value, rest)) : Writable depth value := by
  unfold scanNumber at h
  split at h
  · split at h
    · exact writable_scanUnsigned true h
    · exact writable_scanUnsigned false h
  · cases h

theorem writable_scanValue {dict list : PyStr → Except PyError (Json × PyStr)}
    (hdict : ∀ s value rest, dict s = .ok (value, rest) → Writable depth value)
    (hlist : ∀ s value rest, list s = .ok (value, rest) → Writable depth value)
    (h : scanValue dict list s = .ok (value, rest)) : Writable depth value := by
  unfold scanValue at h
  split at h
  · cases h
  · split at h
    · obtain ⟨⟨text, after⟩, -, heq⟩ := map_eq_ok.1 h
      cases heq
      exact writable_str text
    · split at h
      · exact hdict _ _ _ h
      · split at h
        · exact hlist _ _ _ h
        · split at h
          · rename_i result hconstant
            cases h
            exact writable_scanConstant hconstant
          · exact writable_scanNumber h

theorem mem_setItem {key : PyStr} {members : List (PyStr × Json)} {member : PyStr × Json}
    (h : member ∈ setItem key value members) : member ∈ members ∨ member = (key, value) := by
  induction members with
  | nil => exact .inr (List.mem_singleton.1 h)
  | cons m members ih =>
    obtain ⟨k, v⟩ := m
    rw [setItem] at h
    split at h
    · rcases List.mem_cons.1 h with rfl | h
      · exact .inr rfl
      · exact .inl (List.mem_cons_of_mem _ h)
    · rcases List.mem_cons.1 h with rfl | h
      · exact .inl (List.mem_cons_self ..)
      · exact (ih h).imp_left (List.mem_cons_of_mem _)

section Nested

variable {scan : PyStr → Except PyError (Json × PyStr)}
  (hscan : ∀ s value rest, scan s = .ok (value, rest) → Writable depth value)

include hscan

theorem writable_scanItems {fuel : Nat} {items : List Json}
    (h : scanItems scan fuel s = .ok (items, rest)) : ∀ item ∈ items, Writable depth item := by
  induction fuel generalizing s items with
  | zero => cases h
  | succ fuel ih =>
    obtain ⟨⟨item, after⟩, hitem, h⟩ := bind_eq_ok.1 h
    dsimp only at h
    split at h
    · split at h
      · cases h
        intro i hi
        obtain rfl := List.mem_singleton.1 hi
        exact hscan _ _ _ hitem
      · split at h
        · obtain ⟨⟨others, after⟩, hothers, h⟩ := bind_eq_ok.1 h
          cases h
          intro i hi
          rcases List.mem_cons.1 hi with rfl | hi
          · exact hscan _ _ _ hitem
          · exact ih hothers i hi
        · cases h
    · cases h

theorem writable_scanList (h : scanList scan s = .ok (value, rest)) :
    Writable (depth + 1) value := by
  unfold scanList at h
  split at h
  · split at h
    · cases h
      exact writable_list fun _ hitem => nomatch hitem
    · obtain ⟨⟨items, after⟩, hitems, h⟩ := bind_eq_ok.1 h
      cases h
      exact writable_list (writable_scanItems hscan hitems)
  · cases h

theorem writable_scanMembers {fuel : Nat} {members result : List (PyStr × Json)}
    (hmembers : ∀ member ∈ members, Writable depth member.2)
    (h : scanMembers scan fuel members s = .ok (result, rest)) :
    ∀ member ∈ result, Writable depth member.2 := by
  induction fuel generalizing s members with
  | zero => cases h
  | succ fuel ih =>
    obtain ⟨⟨⟨key, value⟩, after⟩, hmember, h⟩ := bind_eq_ok.1 h
    have hvalue : Writable depth value := by
      unfold scanMember at hmember
      split at hmember
      · cases hmember
      · split at hmember
        · obtain ⟨⟨text, _⟩, -, hmember⟩ := bind_eq_ok.1 hmember
          dsimp only at hmember
          split at hmember
          · split at hmember
            · obtain ⟨⟨found, _⟩, hfound, hmember⟩ := bind_eq_ok.1 hmember
              cases hmember
              exact hscan _ _ _ hfound
            · cases hmember
          · cases hmember
        · cases hmember
    have hset : ∀ member ∈ setItem key value members, Writable depth member.2 := by
      intro member hm
      rcases mem_setItem hm with hm | rfl
      · exact hmembers member hm
      · exact hvalue
    dsimp only at h
    split at h
    · split at h
      · cases h
        exact hset
      · split at h
        · exact ih hset h
        · cases h
    · cases h

theorem writable_scanDict (h : scanDict scan s = .ok (value, rest)) :
    Writable (depth + 1) value := by
  unfold scanDict at h
  split at h
  · split at h
    · cases h
      exact writable_dict fun _ hmember => nomatch hmember
    · obtain ⟨⟨members, after⟩, hmembers, h⟩ := bind_eq_ok.1 h
      cases h
      exact writable_dict (writable_scanMembers hscan
        (fun _ hmember => absurd hmember List.not_mem_nil) hmembers)
  · cases h

end Nested

theorem writable_scanOnce (h : scanOnce depth s = .ok (value, rest)) : Writable depth value := by
  induction depth generalizing s value rest with
  | zero =>
    refine writable_scanValue ?_ ?_ h
    · exact fun _ _ _ h => by cases h
    · exact fun _ _ _ h => by cases h
  | succ depth ih =>
    refine writable_scanValue ?_ ?_ h
    · exact fun _ _ _ h => writable_scanDict (fun _ _ _ h => ih h) h
    · exact fun _ _ _ h => writable_scanList (fun _ _ _ h => ih h) h

/-- **What has been read can be written.** -/
theorem writable_loads (h : loads depth s = .ok value) : Writable depth value := by
  unfold loads at h
  split at h
  · cases h
  · obtain ⟨⟨found, after⟩, hscan, h⟩ := bind_eq_ok.1 h
    dsimp only at h
    split at h
    · cases h
      exact writable_scanOnce hscan
    · cases h

end

end PipeWorks.Python
