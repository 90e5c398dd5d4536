import Mathlib.Data.List.Chain
import Mathlib.Data.List.TakeDrop
import PipeWorks.Python.Utf8

/-!
# `json.dumps`

`json.dumps` with its defaults: ASCII only, a pair of surrogate escapes beyond the sixteen bits, one
space behind a comma and a colon.  A float is its literal: `float.__repr__` writes digits that
`float` reads as the same number.

Strings and numbers are read back as they have been written (`scanString_encodeString`,
`scanUnsigned_append`), unless a high surrogate stands right before a low one, which come back as
the one character they encode.
-/

set_option autoImplicit false

namespace PipeWorks.Python

/-! ## What is written -/

/-- A digit of `format(u, "x")`. -/
def hexChar (d : Nat) : Nat := if d < 10 then '0'.toNat + d else 'a'.toNat + (d - 10)

/-- `"\\u" + format(u, "04x")`, for sixteen bits. -/
def escapeUnit (u : Nat) : PyStr :=
  ['\\'.toNat, 'u'.toNat, hexChar (u / 4096), hexChar (u / 256 % 16), hexChar (u / 16 % 16),
    hexChar (u % 16)]

/-- The short escapes. -/
def shortEscape (c : Nat) : Option Nat :=
  if c = '"'.toNat ∨ c = '\\'.toNat then some c
  else if c = 0x08 then some 'b'.toNat
  else if c = 0x0C then some 'f'.toNat
  else if c = 0x0A then some 'n'.toNat
  else if c = 0x0D then some 'r'.toNat
  else if c = 0x09 then some 't'.toNat
  else none

/-- A character of a string. -/
def escapeChar (c : Nat) : PyStr :=
  match shortEscape c with
  | some e => ['\\'.toNat, e]
  | none =>
    if 0x20 ≤ c ∧ c ≤ 0x7E then [c]
    else if c < 0x10000 then escapeUnit c
    else
      escapeUnit (0xD800 + (c - 0x10000) / 0x400) ++ escapeUnit (0xDC00 + (c - 0x10000) % 0x400)

/-- `json.encoder.py_encode_basestring_ascii(s)`. -/
def encodeString (s : PyStr) : PyStr := '"'.toNat :: s.flatMap escapeChar ++ ['"'.toNat]

/-- `int.__repr__(i)`. -/
def reprInt (i : Int) : Except PyError PyStr :=
  let digits := (Nat.toDigits 10 i.natAbs).map Char.toNat
  if maxStrDigits < digits.length then .error .valueError
  else .ok (if i < 0 then '-'.toNat :: digits else digits)

/-- `", ".join(parts)`. -/
def joinParts (parts : List PyStr) : PyStr := (pyStr ", ").intercalate parts

mutual

/-- `json.dumps(value)`, when the recursion limit leaves room for `depth` nested containers. -/
def dumps : Nat → Json → Except PyError PyStr
  | _, .null => .ok (pyStr "null")
  | _, .bool true => .ok (pyStr "true")
  | _, .bool false => .ok (pyStr "false")
  | _, .int i => reprInt i
  | _, .float literal => .ok literal
  | _, .str s => .ok (encodeString s)
  | 0, .list _ | 0, .dict _ => .error .recursionError
  | depth + 1, .list items =>
    (dumpItems depth items).map fun parts => '['.toNat :: joinParts parts ++ [']'.toNat]
  | depth + 1, .dict members =>
    (dumpMembers depth members).map fun parts =>
      '\x7b'.toNat :: joinParts parts ++ ['\x7d'.toNat]
  termination_by structural _ value => value

/-- The items of a list. -/
def dumpItems : Nat → List Json → Except PyError (List PyStr)
  | _, [] => .ok []
  | depth, item :: items => do
    let part ← dumps depth item
    let parts ← dumpItems depth items
    .ok (part :: parts)
  termination_by structural _ items => items

/-- The members of a dict. -/
def dumpMembers : Nat → List (PyStr × Json) → Except PyError (List PyStr)
  | _, [] => .ok []
  | depth, member :: members => do
    let part ← dumpMember depth member
    let parts ← dumpMembers depth members
    .ok (part :: parts)
  termination_by structural _ members => members

/-- A member of a dict. -/
def dumpMember : Nat → PyStr × Json → Except PyError PyStr
  | depth, (key, value) =>
    (dumps depth value).map fun text => encodeString key ++ pyStr ": " ++ text
  termination_by structural _ member => member

end

example : dumps 2 (.dict [(pyStr "a\n", .list [.int (-12), .null]), ([0x1F600], .str [])]) =
    .ok (pyStr "\x7b\"a\\n\": [-12, null], \"\\ud83d\\ude00\": \"\"\x7d") := by
  rfl

/-! ## What is read back -/

def isHigh (c : Nat) : Bool := 0xD800 ≤ c && c ≤ 0xDBFF

def isLow (c : Nat) : Bool := 0xDC00 ≤ c && c ≤ 0xDFFF

/-- Code points, no high surrogate right before a low one. -/
structure IsText (s : PyStr) : Prop where
  points : ∀ c ∈ s, c ≤ 0x10FFFF
  unpaired : s.IsChain fun c d => ¬ (isHigh c = true ∧ isLow d = true)

/-- Digits without a leading zero. -/
structure IsInteger (digits : PyStr) : Prop where
  ne_nil : digits ≠ []
  digit : ∀ c ∈ digits, isDigit c = true
  zero : digits.head? = some '0'.toNat → digits = ['0'.toNat]

/-- Nothing, or a mark with digits behind it. -/
def IsPart (mark part : PyStr) : Prop :=
  part = [] ∨ ∃ digits, part = mark ++ digits ∧ digits ≠ [] ∧ ∀ c ∈ digits, isDigit c = true

/-- What `json.dumps` writes for a float: a fraction, an exponent or both, or one of the three
words. -/
inductive IsFloat : PyStr → Prop where
  | constant {literal : PyStr} (h : (literal, Json.float literal) ∈ constants) : IsFloat literal
  | number {digits fraction exponent sign : PyStr} (negative : Bool)
    (hsign : sign = [] ∨ sign = ['+'.toNat] ∨ sign = ['-'.toNat]) (hdigits : IsInteger digits)
    (hfraction : IsPart ['.'.toNat] fraction) (hexponent : IsPart ('e'.toNat :: sign) exponent)
    (hsome : fraction ++ exponent ≠ []) :
    IsFloat ((if negative then ['-'.toNat] else []) ++ digits ++ fraction ++ exponent)

mutual

/-- Every string is a text, every dict has its keys once. -/
def Json.Valid : Json → Prop
  | .null | .bool _ | .int _ => True
  | .float literal => IsFloat literal
  | .str s => IsText s
  | .list items => ValidItems items
  | .dict members => (members.map Prod.fst).Nodup ∧ ValidMembers members

def ValidItems : List Json → Prop
  | [] => True
  | item :: items => item.Valid ∧ ValidItems items

def ValidMembers : List (PyStr × Json) → Prop
  | [] => True
  | member :: members => ValidMember member ∧ ValidMembers members

def ValidMember : PyStr × Json → Prop
  | (key, value) => IsText key ∧ value.Valid

end

/-! ## Strings -/

section

variable {c d fuel : Nat} {s t rest : PyStr}

theorem hexDigit_hexChar (h : d < 16) : hexDigit (hexChar d) = some d := by
  revert d
  decide

/-- An escape of sixteen bits is read as it has been written. -/
theorem hex4_escapeUnit {u : Nat} (hu : u < 0x10000) :
    ∃ digits, escapeUnit u = '\\'.toNat :: 'u'.toNat :: digits ∧
      ∀ rest, hex4 (digits ++ rest) = some (u, rest) := by
  refine ⟨_, rfl, fun rest => ?_⟩
  have hvalue : ((u / 4096 * 16 + u / 256 % 16) * 16 + u / 16 % 16) * 16 + u % 16 = u := by omega
  have hfirst : hexDigit (hexChar (u / 4096)) = some (u / 4096) := hexDigit_hexChar (by omega)
  have hnext : ∀ n, hexDigit (hexChar (n % 16)) = some (n % 16) :=
    fun n => hexDigit_hexChar (Nat.mod_lt _ (by decide))
  simp only [List.cons_append, List.nil_append, hex4, hfirst, hnext, Option.bind_eq_bind,
    Option.bind_some, hvalue]

/-- A low surrogate does not come next. -/
def NoLow (s : PyStr) : Prop :=
  ∀ digits low rest, s = '\\'.toNat :: 'u'.toNat :: digits → hex4 digits = some (low, rest) →
    isLow low = false

theorem joinSurrogates_of_not_high (h : isHigh c = false) (s : PyStr) :
    joinSurrogates c s = (c, s) := by
  have hnot : ¬ (0xD800 ≤ c ∧ c ≤ 0xDBFF) := by simpa [isHigh] using h
  unfold joinSurrogates
  split
  · rw [if_neg fun hhigh => hnot ⟨hhigh.1, hhigh.2.1⟩]
  · rfl

theorem joinSurrogates_of_noLow (h : NoLow s) : joinSurrogates c s = (c, s) := by
  unfold joinSurrogates
  split
  · rename_i a b digits
    split
    · rename_i hhigh
      split
      · rename_i low rest hhex
        have hlow := h digits low rest (by rw [hhigh.2.2.1, hhigh.2.2.2]) hhex
        rw [if_neg (by simpa [isLow] using hlow)]
      · rfl
    · rfl
  · rfl

theorem shortEscape_spec {e : Nat} (h : shortEscape c = some e) :
    e ≠ 'u'.toNat ∧ simpleEscape e = some c ∧ e < 0x80 := by
  unfold shortEscape at h
  split at h
  · rename_i hc
    obtain rfl := Option.some.inj h
    obtain rfl | rfl := hc <;> decide
  · iterate 5
      split at h
      · rename_i hc
        obtain rfl := Option.some.inj h
        rw [hc]
        decide
    cases h

theorem shortEscape_none (h : shortEscape c = none) : c ≠ '"'.toNat ∧ c ≠ '\\'.toNat := by
  unfold shortEscape at h
  split at h
  · cases h
  · rename_i hc
    exact not_or.mp hc

theorem scanEscape_unit {u : Nat} {digits : PyStr} (h : hex4 digits = some (u, s)) :
    scanEscape ('u'.toNat :: digits) = some (joinSurrogates u s) := by
  rw [scanEscape, if_pos rfl, h]
  rfl

theorem scanString_backslash (s : PyStr) : scanString (fuel + 1) ('\\'.toNat :: s) =
    match scanEscape s with
    | none => .error .jsonDecodeError
    | some (u, s) => (scanString fuel s).map fun (t, s) => (u :: t, s) :=
  rfl

/-- What a character is written as is read as the character. -/
theorem scanString_escapeChar (hc : c ≤ 0x10FFFF) (hlow : isHigh c = true → NoLow s)
    (h : scanString fuel s = .ok (t, rest)) :
    scanString (fuel + 1) (escapeChar c ++ s) = .ok (c :: t, rest) := by
  unfold escapeChar
  split
  · rename_i e he
    obtain ⟨hu, hsimple, -⟩ := shortEscape_spec he
    have hescape : scanEscape (e :: s) = some (c, s) := by
      rw [scanEscape, if_neg hu, hsimple, Option.map_some]
    simp only [List.cons_append, List.nil_append, scanString_backslash, hescape, h]
    rfl
  · rename_i hnone
    obtain ⟨hquote, hbackslash⟩ := shortEscape_none hnone
    split
    · rename_i hprintable
      rw [List.singleton_append, scanString, if_neg hquote, if_neg (by omega), if_neg hbackslash, h]
      rfl
    · split
      · rename_i hunit
        obtain ⟨digits, heq, hhex⟩ := hex4_escapeUnit hunit
        have hjoin : joinSurrogates c s = (c, s) := by
          cases hhigh : isHigh c with
          | true => exact joinSurrogates_of_noLow (hlow hhigh)
          | false => exact joinSurrogates_of_not_high hhigh s
        have hescape : scanEscape ('u'.toNat :: (digits ++ s)) = some (c, s) :=
          (scanEscape_unit (hhex s)).trans (congrArg some hjoin)
        rw [heq, List.cons_append, List.cons_append, scanString_backslash, hescape]
        simp only [h]
        rfl
      · rename_i hunit
        -- the two escapes of a character beyond the sixteen bits are joined again
        obtain ⟨first, hfirst, hhexFirst⟩ :=
          hex4_escapeUnit (show 0xD800 + (c - 0x10000) / 0x400 < 0x10000 by omega)
        obtain ⟨second, hsecond, hhexSecond⟩ :=
          hex4_escapeUnit (show 0xDC00 + (c - 0x10000) % 0x400 < 0x10000 by omega)
        have hjoin : joinSurrogates (0xD800 + (c - 0x10000) / 0x400)
            ('\\'.toNat :: 'u'.toNat :: (second ++ s)) = (c, s) := by
          unfold joinSurrogates
          dsimp only
          rw [if_pos ⟨by omega, by omega, rfl, rfl⟩, hhexSecond]
          dsimp only
          rw [if_pos (by omega)]
          exact Prod.ext (by dsimp only; omega) rfl
        have hescape := (scanEscape_unit (hhexFirst _)).trans (congrArg some hjoin)
        rw [hfirst, hsecond]
        simp only [List.cons_append, List.append_assoc]
        rw [scanString_backslash, hescape]
        simp only [h]
        rfl

theorem noLow_quote (rest : PyStr) : NoLow ('"'.toNat :: rest) := by
  intro digits low rest' h
  cases (List.cons.inj h).1

theorem noLow_escapeChar (hc : c ≤ 0x10FFFF) (hlow : isLow c = false) (s : PyStr) :
    NoLow (escapeChar c ++ s) := by
  intro digits low rest heq hhex
  unfold escapeChar at heq
  split at heq
  · rename_i e he
    exact absurd (List.cons.inj (List.cons.inj heq).2).1 (shortEscape_spec he).1
  · rename_i hnone
    split at heq
    · exact absurd (List.cons.inj heq).1 (shortEscape_none hnone).2
    · split at heq
      · rename_i hunit
        obtain ⟨first, hfirst, hhexFirst⟩ := hex4_escapeUnit hunit
        rw [hfirst] at heq
        obtain rfl := (List.cons.inj (List.cons.inj heq).2).2
        rw [List.append_eq, hhexFirst] at hhex
        cases hhex
        exact hlow
      · -- the first of the two escapes is a high surrogate
        obtain ⟨first, hfirst, hhexFirst⟩ :=
          hex4_escapeUnit (show 0xD800 + (c - 0x10000) / 0x400 < 0x10000 by omega)
        rw [hfirst, List.append_assoc] at heq
        obtain rfl := (List.cons.inj (List.cons.inj heq).2).2
        rw [List.append_eq, hhexFirst] at hhex
        cases hhex
        simp only [isLow, Bool.and_eq_false_iff, decide_eq_false_iff_not]
        exact .inl (by omega)

theorem escapeChar_ne_nil (c : Nat) : escapeChar c ≠ [] := by
  unfold escapeChar escapeUnit
  split
  · exact List.cons_ne_nil _ _
  · split
    · exact List.cons_ne_nil _ _
    · split <;> exact List.cons_ne_nil _ _

theorem length_lt_flatMap_escapeChar (s rest : PyStr) :
    s.length < (s.flatMap escapeChar ++ '"'.toNat :: rest).length := by
  induction s with
  | nil => exact Nat.zero_lt_succ _
  | cons c s ih =>
    have hpos := List.length_pos_iff.mpr (escapeChar_ne_nil c)
    rw [List.flatMap_cons, List.append_assoc, List.length_append, List.length_cons]
    omega

/-- **A string is read as it has been written.** -/
theorem scanString_encodeString (hs : IsText s) (hfuel : s.length < fuel) (rest : PyStr) :
    scanString fuel (s.flatMap escapeChar ++ '"'.toNat :: rest) = .ok (s, rest) := by
  obtain ⟨hpoints, hunpaired⟩ := hs
  induction s generalizing fuel with
  | nil =>
    obtain ⟨fuel, rfl⟩ : ∃ n, fuel = n + 1 := ⟨fuel - 1, by simp at hfuel; omega⟩
    rfl
  | cons c s ih =>
    rw [List.length_cons] at hfuel
    obtain ⟨fuel, rfl⟩ : ∃ n, fuel = n + 1 := ⟨fuel - 1, by omega⟩
    have hfuel' : s.length < fuel := by omega
    have hrest := ih hfuel' (fun d hd => hpoints d (List.mem_cons_of_mem _ hd)) hunpaired.tail
    rw [List.flatMap_cons, List.append_assoc]
    refine scanString_escapeChar (hpoints c (List.mem_cons_self ..)) (fun hhigh => ?_) hrest
    cases s with
    | nil => exact noLow_quote rest
    | cons d s =>
      have hlow : isLow d = false := by
        rw [← Bool.not_eq_true]
        exact fun hlow => (List.isChain_cons_cons.mp hunpaired).1 ⟨hhigh, hlow⟩
      rw [List.flatMap_cons, List.append_assoc]
      exact noLow_escapeChar (hpoints d (by simp)) hlow _

end

/-! ## Numbers -/

theorem isDigit_iff {c : Nat} : isDigit c = true ↔ 48 ≤ c ∧ c ≤ 57 := by
  simp [isDigit]

/-- What stands behind a value: nothing, or the rest of a container. -/
def Ends (rest : PyStr) : Prop :=
  ∀ c ∈ rest.head?, c = ','.toNat ∨ c = ']'.toNat ∨ c = '\x7d'.toNat

section

variable {digits fraction exponent sign mark rest : PyStr}

theorem span_append {p : Nat → Bool} (h : ∀ c ∈ digits, p c = true)
    (hrest : ∀ c ∈ rest.head?, p c = false) : (digits ++ rest).span p = (digits, rest) := by
  rw [List.span_eq_takeWhile_dropWhile, List.takeWhile_append_of_pos h,
    List.dropWhile_append_of_pos h]
  cases rest with
  | nil => exact Prod.ext (List.append_nil _) rfl
  | cons c rest =>
    have hc : ¬ p c = true := by simp [hrest c rfl]
    rw [List.takeWhile_cons_of_neg hc, List.dropWhile_cons_of_neg hc, List.append_nil]

theorem digits_append (h : ∀ c ∈ digits, isDigit c = true)
    (hrest : ∀ c ∈ rest.head?, isDigit c = false) :
    (digits ++ rest).takeWhile isDigit = digits ∧ (digits ++ rest).dropWhile isDigit = rest := by
  have hspan := span_append h hrest
  rw [List.span_eq_takeWhile_dropWhile] at hspan
  exact Prod.mk.inj hspan

theorem scanInteger_append (h : IsInteger digits) (hrest : ∀ c ∈ rest.head?, isDigit c = false) :
    scanInteger (digits ++ rest) = (digits, rest) := by
  unfold scanInteger
  rw [List.head?_append_of_ne_nil _ h.ne_nil]
  split
  · rename_i hzero
    rw [h.zero hzero]
    rfl
  · exact span_append h.digit hrest

theorem head?_any_digits (hne : digits ≠ []) (h : ∀ c ∈ digits, isDigit c = true) (rest : PyStr) :
    (digits ++ rest).head?.any isDigit = true := by
  cases digits with
  | nil => exact absurd rfl hne
  | cons c digits => exact h c (List.mem_cons_self ..)

theorem scanFraction_append (h : IsPart ['.'.toNat] fraction)
    (hrest : ∀ c ∈ rest.head?, isDigit c = false ∧ c ≠ '.'.toNat) :
    scanFraction (fraction ++ rest) = (fraction, rest) := by
  obtain rfl | ⟨digits, rfl, hne, hdigit⟩ := h
  · cases rest with
    | nil => rfl
    | cons c rest =>
      rw [List.nil_append, scanFraction, if_neg fun hdot => (hrest c rfl).2 hdot.1]
  · obtain ⟨htake, hdrop⟩ := digits_append hdigit fun c hc => (hrest c hc).1
    rw [List.append_assoc, List.singleton_append, scanFraction,
      if_pos ⟨rfl, head?_any_digits hne hdigit rest⟩, htake, hdrop]
    rfl

/-- The sign of an exponent ends where the digits begin. -/
theorem span_sign (hsign : sign = [] ∨ sign = ['+'.toNat] ∨ sign = ['-'.toNat])
    (hany : digits.head?.any isDigit = true) :
    (sign ++ digits).span (fun c => c == '+'.toNat || c == '-'.toNat) = (sign, digits) := by
  refine span_append ?_ ?_
  · obtain rfl | rfl | rfl := hsign <;> decide
  · intro c hc
    rw [Option.mem_def.mp hc, Option.any_some] at hany
    have hle : '0'.toNat ≤ c := of_decide_eq_true (Bool.and_eq_true_iff.mp hany).1
    rw [Bool.or_eq_false_iff, beq_eq_false_iff_ne, beq_eq_false_iff_ne]
    exact ⟨fun h => absurd (h ▸ hle) (by decide), fun h => absurd (h ▸ hle) (by decide)⟩

theorem scanExponent_append (hsign : sign = [] ∨ sign = ['+'.toNat] ∨ sign = ['-'.toNat])
    (h : IsPart ('e'.toNat :: sign) exponent)
    (hrest : ∀ c ∈ rest.head?, isDigit c = false ∧ c ≠ 'e'.toNat ∧ c ≠ 'E'.toNat) :
    scanExponent (exponent ++ rest) = (exponent, rest) := by
  obtain rfl | ⟨digits, rfl, hne, hdigit⟩ := h
  · cases rest with
    | nil => rfl
    | cons c rest =>
      obtain ⟨-, hlower, hupper⟩ := hrest c rfl
      rw [List.nil_append, scanExponent, if_neg (not_or.mpr ⟨hlower, hupper⟩)]
  · obtain ⟨htake, hdrop⟩ := digits_append hdigit fun c hc => (hrest c hc).1
    have hany := head?_any_digits hne hdigit rest
    have hlength : sign.length ≤ 1 := by
      obtain rfl | rfl | rfl := hsign <;> decide
    rw [List.append_assoc, List.cons_append, scanExponent, if_pos (.inl rfl), span_sign hsign hany]
    dsimp only
    rw [if_pos ⟨hlength, hany⟩, htake, hdrop]

/-! ### The whole number -/

theorem Ends.not_number (h : Ends rest) : ∀ c ∈ rest.head?,
    isDigit c = false ∧ c ≠ '.'.toNat ∧ c ≠ 'e'.toNat ∧ c ≠ 'E'.toNat := by
  intro c hc
  obtain rfl | rfl | rfl := h c hc <;> decide

theorem IsPart.head? {c : Nat} (h : IsPart (c :: mark) fraction) :
    ∀ x ∈ (fraction ++ rest).head?, x = c ∨ x ∈ rest.head? := by
  obtain rfl | ⟨digits, rfl, -, -⟩ := h
  · exact fun x hx => .inr hx
  · exact fun x hx => .inl (Option.some.inj hx).symm

/-- The three parts of a number are told apart. -/
theorem scanUnsigned_append (negative : Bool) (hdigits : IsInteger digits)
    (hfraction : IsPart ['.'.toNat] fraction)
    (hsign : sign = [] ∨ sign = ['+'.toNat] ∨ sign = ['-'.toNat])
    (hexponent : IsPart ('e'.toNat :: sign) exponent) (hrest : Ends rest) :
    scanUnsigned negative (digits ++ (fraction ++ (exponent ++ rest))) =
      if fraction ++ exponent = [] then
        if maxStrDigits < digits.length then .error .valueError
        else .ok (.int (if negative then -(ofDigits digits : Int) else ofDigits digits), rest)
      else .ok (.float ((if negative then ['-'.toNat] else []) ++ digits ++ fraction ++ exponent),
        rest) := by
  have hnumber := hrest.not_number
  have hbehind : ∀ c ∈ (exponent ++ rest).head?, isDigit c = false ∧ c ≠ '.'.toNat := by
    intro c hc
    obtain rfl | hc := hexponent.head? c hc
    · decide
    · exact ⟨(hnumber c hc).1, (hnumber c hc).2.1⟩
  have hpoint : ∀ c ∈ (fraction ++ (exponent ++ rest)).head?, isDigit c = false := by
    intro c hc
    obtain rfl | hc := hfraction.head? c hc
    · decide
    · exact (hbehind c hc).1
  have hempty : digits.isEmpty = false := List.isEmpty_eq_false_iff.mpr hdigits.ne_nil
  unfold scanUnsigned
  rw [scanInteger_append hdigits hpoint]
  dsimp only
  rw [hempty, if_neg Bool.false_ne_true, scanFraction_append hfraction hbehind]
  dsimp only
  rw [scanExponent_append hsign hexponent fun c hc => ⟨(hnumber c hc).1, (hnumber c hc).2.2⟩]
  simp only [Bool.and_eq_true, List.isEmpty_iff, List.append_eq_nil_iff]

end

theorem head?_toDigits {n : Nat} (hpos : 0 < n) : (Nat.toDigits 10 n).head? ≠ some '0' := by
  induction n using Nat.base_induction 10 (by decide) with
  | single m hm =>
    rw [Nat.toDigits_of_lt_base hm]
    revert hpos
    revert m
    decide
  | digit m k hk hm ih =>
    rw [← Nat.toDigits_append_toDigits (by decide) hm hk,
      List.head?_append_of_ne_nil _ Nat.toDigits_ne_nil]
    exact ih hm

theorem isInteger_toDigits (n : Nat) : IsInteger ((Nat.toDigits 10 n).map Char.toNat) where
  ne_nil := fun h => Nat.toDigits_ne_nil (List.map_eq_nil_iff.mp h)
  digit := by
    intro c hc
    obtain ⟨x, hx, rfl⟩ := List.mem_map.mp hc
    have hx := Nat.isDigit_of_mem_toDigits (by decide) (by decide) hx
    simp only [Char.isDigit, Bool.and_eq_true, decide_eq_true_eq] at hx
    simp only [isDigit, Bool.and_eq_true, decide_eq_true_eq]
    exact ⟨UInt32.le_iff_toNat_le.mp hx.1, UInt32.le_iff_toNat_le.mp hx.2⟩
  zero := by
    intro hhead
    rw [List.head?_map, Option.map_eq_some_iff] at hhead
    obtain ⟨x, hx, hzero⟩ := hhead
    obtain rfl : x = '0' := Char.toNat_inj.mp hzero
    obtain rfl | hpos := Nat.eq_zero_or_pos n
    · rfl
    · exact absurd hx (head?_toDigits hpos)

theorem ofDigits_toDigits (n : Nat) : ofDigits ((Nat.toDigits 10 n).map Char.toNat) = n := by
  unfold ofDigits
  rw [List.foldl_map]
  have h : Nat.ofDigitChars 10 (Nat.toDigits 10 n) 0 = n := Nat.ofDigitChars_ten_toDigits
  rw [Nat.ofDigitChars_eq_foldl] at h
  simpa only [Nat.mul_comm] using h

end PipeWorks.Python
