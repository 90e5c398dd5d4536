import Mathlib.Data.List.Basic
import PipeWorks.Python.Exception

/-!
# The bytes of an encoded packet (`encoded_bytes` of `nvidia_pipe/cli.py`)

An encoder hands out bytes, or dicts, lists and tuples around them.  `encodedBytes` searches such
a value from left to right and turns back at a `TypeError`.  `candidates` lists what this search
can stop at: a bytes-like leaf, but also a sequence of integers, the empty one included, or the
end of the call stack.  A preferred key that holds a sequence hides everything else in its dict,
and everything in the sequence.  `extracts_iff` says for which values the answer is a leaf all the
same.
-/

set_option autoImplicit false

namespace PipeWorks.NvidiaPipe.EncodedBytes

open Python (PyError)

/-! ## The code -/

inductive Key where
  | str (text : String)
  /-- any other key -/
  | other (n : Nat)
  deriving DecidableEq, Repr

inductive Value where
  /-- `bytes`, `bytearray` or `memoryview` -/
  | bytesLike (content : List UInt8)
  /-- an `int`, or a `bool` -/
  | int (n : Int)
  /-- any other scalar: a string, a float, `None` -/
  | other
  | dict (items : List (Key × Value))
  | list (items : List Value)
  | tuple (items : List Value)
  deriving Repr

/-- `isinstance(value, int)`. -/
def Value.isInt : Value → Bool
  | .int _ => true
  | _ => false

/-- The byte an item of a sequence stands for. -/
def Value.byte? : Value → Option UInt8
  | .int n => if 0 ≤ n ∧ n < 256 then some n.toNat.toUInt8 else none
  | _ => none

/-- `bytes(items)`: the first item that is no byte decides about the exception. -/
def bytesOf (items : List Value) : Except PyError (List UInt8) :=
  match items.find? fun item => item.byte?.isNone with
  | none => .ok (items.filterMap Value.byte?)
  | some item => if item.isInt then .error .valueError else .error .typeError

/-- The keys that are looked up before the dict is searched. -/
def preferredKeys : List String := ["bitstream", "data", "packet", "encoded_data", "payload"]

/-- What `return bytes(value)` answers where a preferred key holds `value`, if it is reached. -/
def bytesValue? : Value → Option (Except PyError (List UInt8))
  | .bytesLike content => some (.ok content)
  | .list items | .tuple items => some (bytesOf items)
  | _ => none

/-- `encoded[key]`. -/
def getItem (items : List (Key × Value)) (key : String) : Option Value :=
  (items.find? fun item => item.1 = .str key).map Prod.snd

/-- `try: return ...`, `except TypeError: continue`. -/
def returned : Except PyError (List UInt8) → Option (Except PyError (List UInt8))
  | .error .typeError => none
  | result => some result

/-- A round of the loop over the values of a dict; `none` if the loop goes on. -/
def dictRound (attempt : Value → Except PyError (List UInt8)) :
    Value → Option (Except PyError (List UInt8))
  | .bytesLike content => some (.ok content)
  | .dict items => returned (attempt (.dict items))
  | .list items => returned (attempt (.list items))
  | .tuple items => returned (attempt (.tuple items))
  | _ => none

/-- `encoded_bytes`.  `limit` is the number of calls within one another that the interpreter
    allows. -/
def encodedBytes : Nat → Value → Except PyError (List UInt8)
  | 0, _ => .error .recursionError
  | _ + 1, .bytesLike content => .ok content
  | limit + 1, .dict items =>
    match preferredKeys.findSome? fun key => (getItem items key).bind bytesValue? with
    | some result => result
    | none =>
      ((items.map Prod.snd).findSome? (dictRound (encodedBytes limit))).getD (.error .typeError)
  | limit + 1, .list items | limit + 1, .tuple items =>
    if items.all Value.isInt then bytesOf items
    else (items.findSome? fun value => returned (encodedBytes limit value)).getD (.error .typeError)
  | _ + 1, _ => .error .typeError

/-! ## The property -/

/-- `content` is that of a bytes-like leaf, reached through dict values and sequence elements. -/
inductive IsLeaf (content : List UInt8) : Value → Prop where
  | here : IsLeaf content (.bytesLike content)
  | dict {items : List (Key × Value)} {key : Key} {value : Value} :
      (key, value) ∈ items → IsLeaf content value → IsLeaf content (.dict items)
  | list {items : List Value} {value : Value} :
      value ∈ items → IsLeaf content value → IsLeaf content (.list items)
  | tuple {items : List Value} {value : Value} :
      value ∈ items → IsLeaf content value → IsLeaf content (.tuple items)

/-- With a leaf in the value a result is returned, with a non-empty one the content of a leaf,
    and nothing but `TypeError` is raised. -/
structure Extracts (limit : Nat) (v : Value) : Prop where
  returns : (∃ content, IsLeaf content v) → ∃ result, encodedBytes limit v = .ok result
  leaf : (∃ content, content ≠ [] ∧ IsLeaf content v) →
    ∀ result, encodedBytes limit v = .ok result → IsLeaf result v
  raises : ∀ e, encodedBytes limit v = .error e → e = .typeError

/-! ## The condition -/

/-- Where the search can stop. -/
inductive Candidate where
  | leaf (content : List UInt8)
  | sequence (items : List Value)
  /-- one call too many -/
  | deep

/-- A sequence that is not spoiled: the first of its items that is no byte, if there is one, is
    an integer. -/
def sequenceCandidates (items : List Value) : List Candidate :=
  if (items.find? fun item => item.byte?.isNone).all Value.isInt then [.sequence items] else []

/-- The candidate in the value of a preferred key; `none` if the key is passed over. -/
def preferredCandidates? : Value → Option (List Candidate)
  | .bytesLike content => some [.leaf content]
  | .list items | .tuple items => some (sequenceCandidates items)
  | _ => none

def dictCandidates (nested : Value → List Candidate) : Value → List Candidate
  | .bytesLike content => [.leaf content]
  | .dict items => nested (.dict items)
  | .list items => nested (.list items)
  | .tuple items => nested (.tuple items)
  | _ => []

/-- The places where the search can stop, from left to right. -/
def candidates : Nat → Value → List Candidate
  | 0, _ => [.deep]
  | _ + 1, .bytesLike content => [.leaf content]
  | limit + 1, .dict items =>
    match preferredKeys.findSome? fun key => (getItem items key).bind preferredCandidates? with
    | some found => found
    | none => (items.map Prod.snd).flatMap (dictCandidates (candidates limit))
  | limit + 1, .list items | limit + 1, .tuple items =>
    if items.all Value.isInt then [.sequence items] else items.flatMap (candidates limit)
  | _ + 1, _ => []

/-- The first candidate is a leaf, or a sequence of bytes that is a leaf's content as well unless
    there are no leaves but empty ones; or there are neither candidates nor leaves. -/
def FindsLeaf (limit : Nat) (v : Value) : Prop :=
  match (candidates limit v).head? with
  | none => ∀ content, ¬ IsLeaf content v
  | some (.leaf _) => True
  | some (.sequence items) =>
    (∀ item ∈ items, item.byte?.isSome = true) ∧
      ((∃ content, content ≠ [] ∧ IsLeaf content v) → IsLeaf (items.filterMap Value.byte?) v)
  | some .deep => False

variable {limit : Nat} {v : Value} {items : List Value} {content : List UInt8}

/-! ## The search stops at the first candidate -/

/-- What the search answers where it stops. -/
def Candidate.result : Candidate → Except PyError (List UInt8)
  | .leaf content => .ok content
  | .sequence items => bytesOf items
  | .deep => .error .recursionError

@[simp] theorem returned_ok : returned (.ok content) = some (.ok content) := rfl

theorem returned_eq_none {result : Except PyError (List UInt8)} :
    returned result = none ↔ result = .error .typeError := by
  unfold returned
  split <;> simp_all

theorem returned_eq_some {result result' : Except PyError (List UInt8)} :
    returned result = some result' ↔ result = result' ∧ result ≠ .error .typeError := by
  unfold returned
  split <;> simp_all

theorem returned_bytesOf :
    returned (bytesOf items) = (sequenceCandidates items).head?.map Candidate.result := by
  unfold sequenceCandidates
  cases hfind : items.find? fun item => item.byte?.isNone with
  | none => simp [Candidate.result, bytesOf, hfind]
  | some item =>
    cases hint : item.isInt <;> simp [Candidate.result, bytesOf, hfind, hint, returned]

/-- A sequence of integers is not spoiled. -/
theorem sequenceCandidates_of_ints (h : items.all Value.isInt = true) :
    sequenceCandidates items = [.sequence items] := by
  unfold sequenceCandidates
  cases hfind : items.find? fun item => item.byte?.isNone with
  | none => rfl
  | some item =>
    have hint : item.isInt = true := List.all_eq_true.mp h item (List.mem_of_find?_eq_some hfind)
    simp [hint]

/-- The value of a preferred key. -/
theorem bytesValue?_candidates (value : Value) :
    (bytesValue? value).map returned =
      (preferredCandidates? value).map fun found => found.head?.map Candidate.result := by
  cases value with
  | list items => exact congrArg some returned_bytesOf
  | tuple items => exact congrArg some returned_bytesOf
  | _ => rfl

/-- A loop over values that never returns a `TypeError` stops where the first of its rounds
    does. -/
theorem returned_search {values : List Value}
    {round : Value → Option (Except PyError (List UInt8))} {found : Value → List Candidate}
    (hround : ∀ value, round value = (found value).head?.map Candidate.result)
    (hne : ∀ value, round value ≠ some (.error .typeError)) :
    returned ((values.findSome? round).getD (.error .typeError)) =
      (values.flatMap found).head?.map Candidate.result := by
  have hrounds : round = Option.map Candidate.result ∘ fun value => (found value).head? :=
    funext hround
  rw [List.head?_flatMap, List.map_findSome?, ← hrounds]
  cases hsearch : values.findSome? round with
  | none => rfl
  | some result =>
    obtain ⟨value, -, hstop⟩ := List.exists_of_findSome?_eq_some hsearch
    exact returned_eq_some.mpr ⟨rfl, fun htype => hne value (by rw [hstop, ← htype]; rfl)⟩

theorem returned_ne_typeError {result : Except PyError (List UInt8)} :
    returned result ≠ some (.error .typeError) := by
  intro h
  obtain ⟨heq, hne⟩ := returned_eq_some.mp h
  exact hne heq

/-- **The search.**  `encoded_bytes` answers what the first candidate gives, and raises
    `TypeError` if there is none. -/
theorem returned_encodedBytes (limit : Nat) (v : Value) :
    returned (encodedBytes limit v) = (candidates limit v).head?.map Candidate.result := by
  induction limit generalizing v with
  | zero => rfl
  | succ limit ih =>
    have hsequence : ∀ items : List Value,
        returned (if items.all Value.isInt then bytesOf items else
          (items.findSome? fun value => returned (encodedBytes limit value)).getD
            (.error .typeError)) =
        (if items.all Value.isInt then [Candidate.sequence items]
          else items.flatMap (candidates limit)).head?.map Candidate.result := by
      intro items
      split
      · rename_i hints
        rw [returned_bytesOf, sequenceCandidates_of_ints hints]
      · exact returned_search ih fun value => returned_ne_typeError
    cases v with
    | bytesLike content => rfl
    | int n => rfl
    | other => rfl
    | list items => exact hsequence items
    | tuple items => exact hsequence items
    | dict items =>
      have hpreferred : (preferredKeys.findSome? fun key =>
            (getItem items key).bind bytesValue?).map returned =
          (preferredKeys.findSome? fun key =>
            (getItem items key).bind preferredCandidates?).map
              fun found => found.head?.map Candidate.result := by
        rw [List.map_findSome?, List.map_findSome?]
        congr 1
        funext key
        cases hvalue : getItem items key with
        | none => simp [hvalue]
        | some value => simpa [hvalue] using bytesValue?_candidates value
      simp only [encodedBytes, candidates]
      split
      · rename_i result hresult
        rw [hresult] at hpreferred
        obtain ⟨found, hfound, heq⟩ := Option.map_eq_some_iff.mp hpreferred.symm
        rw [hfound]
        exact heq.symm
      · rename_i hnone
        rw [hnone] at hpreferred
        rw [Option.map_eq_none_iff.mp hpreferred.symm]
        apply returned_search
        · intro value
          cases value <;> first | exact ih _ | rfl
        · intro value
          cases value <;> first | exact returned_ne_typeError | simp [dictRound]

/-! ## Candidates -/

/-- A leaf the search can stop at is a leaf, and a sequence is not spoiled. -/
def Candidate.Sound (v : Value) : Candidate → Prop
  | .leaf content => IsLeaf content v
  | .sequence items => bytesOf items ≠ .error .typeError
  | .deep => True

/-- Everything reached through a part of a value is reached through the value. -/
theorem Candidate.Sound.imp {w : Value} {found : Candidate} (h : found.Sound w)
    (hleaf : ∀ content, IsLeaf content w → IsLeaf content v) : found.Sound v := by
  cases found with
  | leaf content => exact hleaf content h
  | sequence items => exact h
  | deep => trivial

theorem sound_of_mem_sequenceCandidates {found : Candidate} (h : found ∈ sequenceCandidates items) :
    found.Sound v := by
  have hreturned : returned (bytesOf items) =
      (sequenceCandidates items).head?.map Candidate.result := returned_bytesOf
  unfold sequenceCandidates at h hreturned
  split at h
  · rename_i hspoiled
    rw [if_pos hspoiled] at hreturned
    rw [List.mem_singleton.mp h]
    exact (returned_eq_some.mp hreturned).2
  · cases h

theorem sound_of_mem_preferred {found : Candidate} {founds : List Candidate} {value : Value}
    (hvalue : preferredCandidates? value = some founds) (h : found ∈ founds) :
    found.Sound value := by
  cases value with
  | bytesLike content =>
    cases hvalue
    rw [List.mem_singleton.mp h]
    exact .here
  | list items =>
    cases hvalue
    exact sound_of_mem_sequenceCandidates h
  | tuple items =>
    cases hvalue
    exact sound_of_mem_sequenceCandidates h
  | _ => cases hvalue

theorem mem_of_getItem {items : List (Key × Value)} {key : String} {value : Value}
    (h : getItem items key = some value) : ∃ key, (key, value) ∈ items := by
  obtain ⟨item, hfind, rfl⟩ := Option.map_eq_some_iff.mp h
  exact ⟨item.1, List.mem_of_find?_eq_some hfind⟩

theorem sound_of_mem_candidates {found : Candidate} (h : found ∈ candidates limit v) :
    found.Sound v := by
  induction limit generalizing v with
  | zero =>
    rw [List.mem_singleton.mp h]
    trivial
  | succ limit ih =>
    have hsequence : ∀ items : List Value,
        found ∈ (if items.all Value.isInt then [Candidate.sequence items]
          else items.flatMap (candidates limit)) →
        (∃ value ∈ items, found.Sound value) ∨ found.Sound v := by
      intro items h
      split at h
      · rename_i hints
        rw [← sequenceCandidates_of_ints hints] at h
        exact .inr (sound_of_mem_sequenceCandidates h)
      · obtain ⟨value, hvalue, h⟩ := List.mem_flatMap.mp h
        exact .inl ⟨value, hvalue, ih h⟩
    cases v with
    | bytesLike content =>
      rw [List.mem_singleton.mp h]
      exact .here
    | int n => cases h
    | other => cases h
    | list items =>
      rcases hsequence items h with ⟨value, hvalue, hsound⟩ | hsound
      · exact hsound.imp fun _ => .list hvalue
      · exact hsound
    | tuple items =>
      rcases hsequence items h with ⟨value, hvalue, hsound⟩ | hsound
      · exact hsound.imp fun _ => .tuple hvalue
      · exact hsound
    | dict items =>
      simp only [candidates] at h
      split at h
      · rename_i founds hfounds
        obtain ⟨key, -, hkey⟩ := List.exists_of_findSome?_eq_some hfounds
        obtain ⟨value, hitem, hvalue⟩ := Option.bind_eq_some_iff.mp hkey
        obtain ⟨key, hmem⟩ := mem_of_getItem hitem
        exact (sound_of_mem_preferred hvalue h).imp fun _ => .dict hmem
      · obtain ⟨value, hmem, h⟩ := List.mem_flatMap.mp h
        obtain ⟨⟨key, value⟩, hitem, rfl⟩ := List.mem_map.mp hmem
        have hsound : found.Sound value := by
          cases value with
          | bytesLike content =>
            rw [List.mem_singleton.mp h]
            exact .here
          | int n => cases h
          | other => cases h
          | dict items => exact ih h
          | list items => exact ih h
          | tuple items => exact ih h
        exact hsound.imp fun _ => .dict hitem

/-! ## When a leaf is found -/

theorem bytesOf_of_bytes (h : ∀ item ∈ items, item.byte?.isSome = true) :
    bytesOf items = .ok (items.filterMap Value.byte?) := by
  have hnone : (items.find? fun item => item.byte?.isNone) = none := by
    rw [List.find?_eq_none]
    intro item hitem
    simpa [Option.isNone_iff_eq_none, ← Option.isSome_iff_ne_none] using h item hitem
  unfold bytesOf
  rw [hnone]

theorem bytes_of_bytesOf {result : List UInt8} (h : bytesOf items = .ok result) :
    ∀ item ∈ items, item.byte?.isSome = true := by
  unfold bytesOf at h
  split at h
  · rename_i hnone
    intro item hitem
    simpa [Option.isSome_iff_ne_none] using List.find?_eq_none.mp hnone item hitem
  · split at h <;> cases h

theorem extracts_of_ok {result : List UInt8} (h : encodedBytes limit v = .ok result)
    (hleaf : (∃ content, content ≠ [] ∧ IsLeaf content v) → IsLeaf result v) :
    Extracts limit v where
  returns := fun _ => ⟨result, h⟩
  leaf := by
    intro hnonempty result' h'
    rw [h] at h'
    cases h'
    exact hleaf hnonempty
  raises := by
    intro e he
    rw [h] at he
    cases he

/-- **The payload of a packet.**  With a leaf in the value `encoded_bytes` returns, with a
    non-empty one the content of a leaf, and it raises nothing but `TypeError`, exactly when the
    search comes to a leaf first, or to bytes that can stand for one. -/
theorem extracts_iff (limit : Nat) (v : Value) : Extracts limit v ↔ FindsLeaf limit v := by
  have hsearch := returned_encodedBytes limit v
  unfold FindsLeaf
  cases hfirst : (candidates limit v).head? with
  | none =>
    rw [hfirst] at hsearch
    have hraised : encodedBytes limit v = .error .typeError := returned_eq_none.mp hsearch
    constructor
    · intro h content hleaf
      obtain ⟨result, hresult⟩ := h.returns ⟨content, hleaf⟩
      rw [hraised] at hresult
      cases hresult
    · intro hnone
      refine ⟨fun ⟨content, hleaf⟩ => absurd hleaf (hnone content),
        fun ⟨content, _, hleaf⟩ => absurd hleaf (hnone content), fun e he => ?_⟩
      rw [hraised] at he
      cases he
      rfl
  | some found =>
    have hsound := sound_of_mem_candidates (List.mem_of_head? hfirst)
    rw [hfirst] at hsearch
    obtain ⟨hstop, -⟩ := returned_eq_some.mp hsearch
    cases found with
    | leaf content => exact iff_of_true (extracts_of_ok hstop fun _ => hsound) trivial
    | sequence items =>
      constructor
      · intro h
        cases hbytes : bytesOf items with
        | ok result =>
          have hitems := bytes_of_bytesOf hbytes
          refine ⟨hitems, fun hleaf => h.leaf hleaf _ ?_⟩
          rw [hstop]
          exact bytesOf_of_bytes hitems
        | error e => exact absurd (hbytes.trans (by rw [h.raises e (hstop.trans hbytes)])) hsound
      · rintro ⟨hitems, hleaf⟩
        exact extracts_of_ok (hstop.trans (bytesOf_of_bytes hitems)) hleaf
    | deep =>
      refine iff_of_false (fun h => ?_) id
      cases h.raises .recursionError hstop

example : encodedBytes 1000 (.dict [(.str "frame", .list [.bytesLike [0, 0, 1]])]) =
    .ok [0, 0, 1] := by
  rfl

/-- The bytes that are found in a list under any other key are lost under a preferred one, where
    the list itself is handed to `bytes`. -/
theorem nested_leaf_lost :
    ¬ Extracts 1000 (.dict [(.str "data", .list [.bytesLike [0, 0, 1]])]) := by
  intro h
  obtain ⟨result, hresult⟩ := h.returns ⟨_, .dict (.head _) (.list (.head _) .here)⟩
  have hraised : encodedBytes 1000 (.dict [(.str "data", .list [.bytesLike [0, 0, 1]])]) =
      .error .typeError := rfl
  rw [hraised] at hresult
  cases hresult

end PipeWorks.NvidiaPipe.EncodedBytes
