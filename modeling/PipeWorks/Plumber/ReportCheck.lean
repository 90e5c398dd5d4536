import PipeWorks.Lib.Fails
import PipeWorks.Plumber.Statistics

/-!
# The check of a report (`record_statistics` of `plumber/cli.py`)

* `refuses`: the condition of `record_statistics` as the source has it, with the exceptions that
  its parts can raise; Python goes through the set of the two status keys in any order
  (`StatusOrder`);
* `WellFormed`: what a report has to be;
* `refuses_eq`: no part of the condition raises, and it reads a report as `validStatistics` does;
* `loads_distinct`: what `json.loads` returns is a Python value.
-/

set_option autoImplicit false

namespace PipeWorks.Plumber

open PipeWorks.Python Fails

/-! ## The condition -/

/-- A Python dict: no two of its members have one name. -/
def Distinct : Json → Prop
  | .dict members => (members.map Prod.fst).Nodup
  | _ => True

instance decidableDistinct : (v : Json) → Decidable (Distinct v)
  | .dict members => inferInstanceAs (Decidable (members.map Prod.fst).Nodup)
  | .null | .bool _ | .int _ | .float _ | .str _ | .list _ => .isTrue trivial

/-- `statistics[key]`. -/
def getItem (members : List (PyStr × Json)) (key : PyStr) : Except PyError Json :=
  match members.lookup key with
  | some value => .ok value
  | none => .error .keyError

/-- `isinstance(value, bool) or not isinstance(value, int) or value < 0`. -/
def badCounter : Json → Bool
  | .bool _ => true
  | .int i => i < 0
  | _ => true

/-- `isinstance(value, str)`. -/
def isStr : Json → Bool
  | .str _ => true
  | _ => false

/-- `value in {"disconnected", "connected"}`.  Lists and dicts cannot be hashed. -/
def isStatusText : Json → Except PyError Bool
  | .str s => .ok (s == pyStr "disconnected" || s == pyStr "connected")
  | .list _ | .dict _ => .error .typeError
  | _ => .ok false

/-- `not isinstance(statistics[key], str) or statistics[key] not in {...}`. -/
def badStatus (members : List (PyStr × Json)) (key : PyStr) : Except PyError Bool := do
  let value ← getItem members key
  if isStr value then
    let value ← getItem members key
    let known ← isStatusText value
    pure !known
  else pure true

/-- An order in which Python goes through the set `statuses`. -/
structure StatusOrder where
  keys : List PyStr
  perm : keys.Perm statuses

/-- The condition under which `record_statistics` raises `ValueError`. -/
def refuses (order : StatusOrder) : Json → Except PyError Bool
  | .dict members =>
    if hasRequiredKeys members then
      if members.any fun m => counters.contains m.1 && badCounter m.2 then .ok true
      else order.keys.anyM (badStatus members)
    else .ok true
  | _ => .ok true

/-! ## What a report has to be -/

/-- Exactly the seven keys, five non-negative integers and two status texts. -/
structure IsSnapshot (members : List (PyStr × Json)) : Prop where
  exact_keys : ∀ key, key ∈ members.map Prod.fst ↔ key ∈ required
  counts : ∀ m ∈ members, m.1 ∈ counters → ∃ n : Nat, m.2 = .int n
  states : ∀ m ∈ members, m.1 ∈ statuses →
    m.2 = .str (pyStr "connected") ∨ m.2 = .str (pyStr "disconnected")

def WellFormed (v : Json) : Prop := ∃ members, v = .dict members ∧ IsSnapshot members

variable {members : List (PyStr × Json)} {key : PyStr} {value : Json}

theorem hasRequiredKeys_iff : hasRequiredKeys members = true ↔
    ∀ key, key ∈ members.map Prod.fst ↔ key ∈ required := by
  unfold hasRequiredKeys
  rw [Bool.and_eq_true, List.all_eq_true, List.all_eq_true]
  constructor
  · rintro ⟨honly, hall⟩ key
    constructor
    · intro hkey
      obtain ⟨m, hm, rfl⟩ := List.mem_map.1 hkey
      exact List.contains_iff_mem.1 (honly m hm)
    · intro hkey
      obtain ⟨m, hm, hmkey⟩ := List.any_eq_true.1 (hall key hkey)
      exact List.mem_map.2 ⟨m, hm, eq_of_beq hmkey⟩
  · intro h
    refine ⟨fun m hm => List.contains_iff_mem.2 ((h m.1).1 (List.mem_map_of_mem hm)), ?_⟩
    intro key hkey
    obtain ⟨m, hm, rfl⟩ := List.mem_map.1 ((h key).2 hkey)
    exact List.any_eq_true.2 ⟨m, hm, beq_self_eq_true _⟩

theorem badCounter_eq (value : Json) : badCounter value = (asCounter value).isNone := by
  cases value with
  | int i =>
    unfold badCounter asCounter
    by_cases hi : i < 0 <;> simp [hi]
  | _ => rfl

theorem asCounter_isSome_iff : (asCounter value).isSome = true ↔ ∃ n : Nat, value = .int n := by
  cases value with
  | int i =>
    unfold asCounter
    by_cases hi : i < 0
    · have hne : ∀ n : Nat, i ≠ n := by omega
      simp [hi, hne]
    · have hi' : i = (i.toNat : Int) := by omega
      simp only [hi, if_false, Option.isSome_some, true_iff]
      exact ⟨i.toNat, congrArg Json.int hi'⟩
  | _ => simp [asCounter]

theorem connected_ne : pyStr "connected" ≠ pyStr "disconnected" := by decide

theorem asStatus_isSome_iff : (asStatus value).isSome = true ↔
    value = .str (pyStr "connected") ∨ value = .str (pyStr "disconnected") := by
  cases value with
  | str s =>
    unfold asStatus
    by_cases hd : s = pyStr "disconnected"
    · simp [hd]
    · by_cases hc : s = pyStr "connected"
      · simp [hc, connected_ne]
      · simp [hd, hc]
  | _ => simp [asStatus]

theorem isStatusText_str (s : PyStr) : isStatusText (.str s) = .ok (asStatus (.str s)).isSome := by
  unfold isStatusText asStatus
  by_cases hd : s = pyStr "disconnected"
  · simp [hd]
  · by_cases hc : s = pyStr "connected"
    · simp [hc, connected_ne]
    · simp [hd, hc]

/-- The parts of the condition on a status raise nothing where there is one. -/
theorem badStatus_eq (h : members.lookup key = some value) :
    badStatus members key = .ok (asStatus value).isNone := by
  have hget : getItem members key = .ok value := by
    unfold getItem
    rw [h]
  unfold badStatus
  rw [hget]
  cases value with
  | str s =>
    show (isStatusText (.str s)).bind (fun known => .ok !known) = _
    rw [isStatusText_str]
    exact congrArg Except.ok (Option.not_isSome _)
  | _ => rfl

theorem anyM_eq_ok {α : Type} {f : α → Except PyError Bool} {g : α → Bool} :
    ∀ {xs : List α}, (∀ x ∈ xs, f x = .ok (g x)) → xs.anyM f = .ok (xs.any g)
  | [], _ => rfl
  | x :: xs, h => by
    rw [List.anyM, h x (List.mem_cons_self ..), List.any_cons]
    cases g x with
    | true => rfl
    | false => exact anyM_eq_ok fun y hy => h y (List.mem_cons_of_mem _ hy)

theorem lookup_of_mem (h : (members.map Prod.fst).Nodup) (hm : (key, value) ∈ members) :
    members.lookup key = some value := by
  induction members with
  | nil => cases hm
  | cons m members ih =>
    rw [List.map_cons, List.nodup_cons] at h
    rcases List.mem_cons.1 hm with rfl | hm
    · exact List.lookup_cons_self
    · have hne : (key == m.1) = false := by
        rw [beq_eq_false_iff_ne]
        rintro rfl
        exact h.1 (List.mem_map.2 ⟨_, hm, rfl⟩)
      rw [List.lookup_cons, hne]
      exact ih h.2 hm

/-- `any` over the members of some of the keys, and `any` over these keys. -/
theorem any_members_eq {α : Type} {f : Json → Option α} (h : (members.map Prod.fst).Nodup)
    {keys : List PyStr} (hkeys : ∀ key ∈ keys, key ∈ members.map Prod.fst) :
    (members.any fun m => keys.contains m.1 && (f m.2).isNone) =
      keys.any fun key => ((members.lookup key).bind f).isNone := by
  rw [Bool.eq_iff_iff, List.any_eq_true, List.any_eq_true]
  constructor
  · rintro ⟨⟨key, value⟩, hm, hbad⟩
    rw [Bool.and_eq_true, List.contains_iff_mem] at hbad
    refine ⟨key, hbad.1, ?_⟩
    rw [lookup_of_mem h hm]
    exact hbad.2
  · rintro ⟨key, hkey, hbad⟩
    obtain ⟨⟨key', value⟩, hm, rfl⟩ := List.mem_map.1 (hkeys key hkey)
    rw [lookup_of_mem h hm] at hbad
    refine ⟨(key', value), hm, ?_⟩
    rw [Bool.and_eq_true, List.contains_iff_mem]
    exact ⟨hkey, hbad⟩

/-- What `validStatistics` reads. -/
theorem validStatistics_isNone (h : hasRequiredKeys members = true) :
    (validStatistics (.dict members)).isNone =
      ((counters.any fun key => ((members.lookup key).bind asCounter).isNone) ||
        statuses.any fun key => ((members.lookup key).bind asStatus).isNone) := by
  unfold validStatistics
  dsimp only
  rw [if_pos h]
  unfold getCounter getStatus
  simp only [counters, statuses, List.any_cons, List.any_nil, Bool.or_false]
  generalize (members.lookup (pyStr "received_frame_count")).bind asCounter = received
  generalize (members.lookup (pyStr "sent_frame_count")).bind asCounter = sent
  generalize (members.lookup (pyStr "inference_success_frame_count")).bind asCounter = success
  generalize (members.lookup (pyStr "inference_failure_frame_count")).bind asCounter = failure
  generalize (members.lookup (pyStr "out_of_order_frame_count")).bind asCounter = outOfOrder
  generalize (members.lookup (pyStr "input_rtsp_status")).bind asStatus = input
  generalize (members.lookup (pyStr "output_rtsp_status")).bind asStatus = output
  -- the first one that cannot be read decides
  cases received with | none => rfl | some _ => ?_
  cases sent with | none => rfl | some _ => ?_
  cases success with | none => rfl | some _ => ?_
  cases failure with | none => rfl | some _ => ?_
  cases outOfOrder with | none => rfl | some _ => ?_
  cases input with | none => rfl | some _ => ?_
  cases output with
  | none => rfl
  | some _ => rfl

theorem mem_keys_of_required (h : hasRequiredKeys members = true) (hkey : key ∈ required) :
    key ∈ members.map Prod.fst :=
  (hasRequiredKeys_iff.1 h key).2 hkey

theorem counters_required (hkey : key ∈ counters) : key ∈ required :=
  List.mem_append_left _ hkey

theorem statuses_required (hkey : key ∈ statuses) : key ∈ required :=
  List.mem_append_right _ hkey

/-- **The literal condition is the reading of `validStatistics`.**  It raises nothing, in
whatever order Python goes through the status keys. -/
theorem refuses_eq (order : StatusOrder) {v : Json} (h : Distinct v) :
    refuses order v = .ok (validStatistics v).isNone := by
  cases v with
  | dict members =>
    by_cases hkeys : hasRequiredKeys members = true
    · have hcounters : (members.any fun m => counters.contains m.1 && badCounter m.2) =
          counters.any fun key => ((members.lookup key).bind asCounter).isNone := by
        simp only [badCounter_eq]
        exact any_members_eq h fun key hkey =>
          mem_keys_of_required hkeys (counters_required hkey)
      have hstatuses : order.keys.anyM (badStatus members) =
          .ok (statuses.any fun key => ((members.lookup key).bind asStatus).isNone) := by
        rw [anyM_eq_ok (g := fun key => ((members.lookup key).bind asStatus).isNone)]
        · rw [order.perm.any_eq]
        · intro key hkey
          have hmem := mem_keys_of_required hkeys (statuses_required (order.perm.mem_iff.1 hkey))
          obtain ⟨⟨key', value⟩, hm, rfl⟩ := List.mem_map.1 hmem
          have hlookup := lookup_of_mem h hm
          rw [badStatus_eq hlookup, hlookup]
          rfl
      unfold refuses
      dsimp only
      rw [if_pos hkeys, hcounters, hstatuses, validStatistics_isNone hkeys]
      cases counters.any fun key => ((members.lookup key).bind asCounter).isNone with
      | true => rfl
      | false => rfl
    · unfold refuses validStatistics
      dsimp only
      rw [if_neg hkeys, if_neg hkeys]
      rfl
  | _ => rfl

theorem any_members_false_iff {α : Type} {f : Json → Option α} {keys : List PyStr} :
    (members.any fun m => keys.contains m.1 && (f m.2).isNone) = false ↔
      ∀ m ∈ members, m.1 ∈ keys → (f m.2).isSome = true := by
  rw [List.any_eq_false]
  refine forall_congr' fun m => imp_congr_right fun _ => ?_
  rw [Bool.and_eq_true, List.contains_iff_mem, not_and, Bool.not_eq_true,
    Option.isNone_eq_false_iff]

/-- The reports that can be read are the well-formed ones. -/
theorem validStatistics_isSome_iff {v : Json} (h : Distinct v) :
    (validStatistics v).isSome = true ↔ WellFormed v := by
  cases v with
  | dict members =>
    by_cases hkeys : hasRequiredKeys members = true
    · rw [← Option.isNone_eq_false_iff, validStatistics_isNone hkeys, Bool.or_eq_false_iff,
        ← any_members_eq h fun key hkey => mem_keys_of_required hkeys (counters_required hkey),
        ← any_members_eq h fun key hkey => mem_keys_of_required hkeys (statuses_required hkey),
        any_members_false_iff, any_members_false_iff]
      simp only [asCounter_isSome_iff, asStatus_isSome_iff]
      constructor
      · rintro ⟨hcounts, hstates⟩
        exact ⟨members, rfl, hasRequiredKeys_iff.1 hkeys, hcounts, hstates⟩
      · rintro ⟨_, heq, hsnapshot⟩
        cases heq
        exact ⟨hsnapshot.counts, hsnapshot.states⟩
    · have hnone : validStatistics (.dict members) = none := if_neg hkeys
      rw [hnone]
      simp only [Option.isSome_none, Bool.false_eq_true, false_iff]
      rintro ⟨_, heq, hsnapshot⟩
      cases heq
      exact hkeys (hasRequiredKeys_iff.2 hsnapshot.exact_keys)
  | _ => simp [validStatistics, WellFormed]

/-! ## The report of a pipeline -/

theorem distinct_toJson (s : FrameStatistics) : Distinct s.toJson := by
  have hkeys : required.Nodup := by decide
  exact hkeys

theorem wellFormed_toJson (s : FrameStatistics) : WellFormed s.toJson := by
  rw [← validStatistics_isSome_iff (distinct_toJson s), validStatistics_toJson]
  rfl

/-! ## What `json.loads` returns -/

theorem keys_setItem (key : PyStr) (value : Json) (members : List (PyStr × Json)) :
    (setItem key value members).map Prod.fst =
      if key ∈ members.map Prod.fst then members.map Prod.fst
      else members.map Prod.fst ++ [key] := by
  induction members with
  | nil => rfl
  | cons m members ih =>
    obtain ⟨k, v⟩ := m
    unfold setItem
    by_cases hk : k = key
    · subst hk
      simp
    · rw [if_neg hk, List.map_cons, ih, List.map_cons]
      have hne : key ≠ k := Ne.symm hk
      by_cases hmem : key ∈ members.map Prod.fst
      · rw [if_pos hmem, if_pos (List.mem_cons_of_mem _ hmem)]
      · rw [if_neg hmem, if_neg (by simpa [hne] using hmem)]
        rfl

/-- `members[key] = value` keeps the names apart. -/
theorem nodup_setItem (h : (members.map Prod.fst).Nodup) (key : PyStr) (value : Json) :
    ((setItem key value members).map Prod.fst).Nodup := by
  rw [keys_setItem]
  split
  · exact h
  · rename_i hkey
    refine List.nodup_append.2 ⟨h, by simp, fun k hk k' hk' => ?_⟩
    rw [List.mem_singleton.1 hk']
    rintro rfl
    exact hkey hk

theorem scanMembers_nodup {scan : PyStr → Except PyError (Json × PyStr)} :
    ∀ {fuel : Nat} {members result : List (PyStr × Json)} {s rest : PyStr},
      (members.map Prod.fst).Nodup → scanMembers scan fuel members s = .ok (result, rest) →
        (result.map Prod.fst).Nodup := by
  intro fuel
  induction fuel with
  | zero =>
    intro members result s rest _ hscan
    cases hscan
  | succ fuel ih =>
    intro members result s rest h hscan
    obtain ⟨⟨⟨key, value⟩, after⟩, -, hscan⟩ := bind_eq_ok.1 hscan
    dsimp only at hscan
    split at hscan
    · split at hscan
      · cases hscan
        exact nodup_setItem h key value
      · split at hscan
        · exact ih (nodup_setItem h key value) hscan
        · cases hscan
    · cases hscan

theorem scanDict_distinct {scan : PyStr → Except PyError (Json × PyStr)} {s rest : PyStr}
    {v : Json} (h : scanDict scan s = .ok (v, rest)) : Distinct v := by
  unfold scanDict at h
  split at h
  · split at h
    · cases h
      exact List.nodup_nil
    · obtain ⟨⟨members, after⟩, hmembers, h⟩ := bind_eq_ok.1 h
      cases h
      have hnil : (([] : List (PyStr × Json)).map Prod.fst).Nodup := List.nodup_nil
      exact scanMembers_nodup hnil hmembers
  · cases h

theorem scanList_distinct {scan : PyStr → Except PyError (Json × PyStr)} {s rest : PyStr}
    {v : Json} (h : scanList scan s = .ok (v, rest)) : Distinct v := by
  unfold scanList at h
  split at h
  · split at h
    · cases h
      trivial
    · obtain ⟨⟨items, after⟩, -, h⟩ := bind_eq_ok.1 h
      cases h
      trivial
  · cases h

theorem scanConstant_distinct {s rest : PyStr} {v : Json} (h : scanConstant s = some (v, rest)) :
    Distinct v := by
  have hconstants : ∀ c ∈ constants, Distinct c.2 := by
    simp [constants, Distinct]
  obtain ⟨c, hc, heq⟩ := Option.map_eq_some_iff.1 h
  cases heq
  exact hconstants c (List.mem_of_find?_eq_some hc)

theorem scanNumber_distinct {s rest : PyStr} {v : Json} (h : scanNumber s = .ok (v, rest)) :
    Distinct v := by
  have hunsigned : ∀ negative s, scanUnsigned negative s = .ok (v, rest) → Distinct v := by
    intro negative s h
    unfold scanUnsigned at h
    dsimp only at h
    split at h
    · cases h
    · split at h
      · split at h <;> cases h
        trivial
      · cases h
        trivial
  unfold scanNumber at h
  split at h
  · split at h
    · exact hunsigned _ _ h
    · exact hunsigned _ _ h
  · cases h

theorem scanValue_distinct {dict list : PyStr → Except PyError (Json × PyStr)}
    (hdict : ∀ s v rest, dict s = .ok (v, rest) → Distinct v)
    (hlist : ∀ s v rest, list s = .ok (v, rest) → Distinct v) {s rest : PyStr} {v : Json}
    (h : scanValue dict list s = .ok (v, rest)) : Distinct v := by
  unfold scanValue at h
  split at h
  · cases h
  · split at h
    · rename_i c cs _
      cases hstring : scanString cs.length cs with
      | error e => simp [hstring, Except.map] at h
      | ok r =>
        simp only [hstring, Except.map, Except.ok.injEq, Prod.mk.injEq] at h
        rw [← h.1]
        trivial
    · split at h
      · exact hdict _ _ _ h
      · split at h
        · exact hlist _ _ _ h
        · split at h
          · rename_i result hconstant
            cases h
            exact scanConstant_distinct hconstant
          · exact scanNumber_distinct h

/-- What `json.loads` returns is a Python value. -/
theorem loads_distinct {depth : Nat} {s : PyStr} {v : Json} (h : loads depth s = .ok v) :
    Distinct v := by
  unfold loads at h
  split at h
  · cases h
  · obtain ⟨⟨value, rest⟩, hscan, h⟩ := bind_eq_ok.1 h
    dsimp only at h
    split at h
    · cases h
      cases depth with
      | zero =>
        refine scanValue_distinct ?_ ?_ hscan
        · exact fun _ _ _ h => by cases h
        · exact fun _ _ _ h => by cases h
      | succ depth =>
        refine scanValue_distinct ?_ ?_ hscan
        · exact fun _ _ _ h => scanDict_distinct h
        · exact fun _ _ _ h => scanList_distinct h
    · cases h

end PipeWorks.Plumber
