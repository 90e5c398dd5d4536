import PipeWorks.Python.Exception

/-!
# `bytes.decode("utf-8")` and `json.loads`

The two standard library calls that turn the bytes of a message into a value, with the
exceptions they raise: strict UTF-8, then the grammar of CPython's scanner (`NaN` and the
infinities are accepted, a later member replaces an earlier one of the same name, control
characters inside strings are refused, adjacent surrogate escapes are joined and lone ones
kept).  A `str` is its list of code points.

The scanners recurse on fuel, the length of the text: every round consumes a character.  Nesting
is bounded by the interpreter's recursion limit, so the scanner of nested values recurses on
that.
-/

set_option autoImplicit false

namespace PipeWorks.Python

/-- A `str`: its code points, lone surrogates included. -/
abbrev PyStr := List Nat

def pyStr (s : String) : PyStr := s.toList.map Char.toNat

/-- A value built by `json.loads`. -/
inductive Json where
  | null
  | bool (b : Bool)
  | int (i : Int)
  | float (literal : PyStr)
  | str (s : PyStr)
  | list (items : List Json)
  | dict (members : List (PyStr × Json))

/-- `members[key] = value`. -/
def setItem (key : PyStr) (value : Json) : List (PyStr × Json) → List (PyStr × Json)
  | [] => [(key, value)]
  | (k, v) :: members =>
    if k = key then (key, value) :: members else (k, v) :: setItem key value members

/-! ## UTF-8 -/

def isTail (b : Nat) : Bool := 0x80 ≤ b && b ≤ 0xBF

/-- The second byte of a three-byte sequence: no overlong form, no surrogate. -/
def isSecondOfThree (a b : Nat) : Bool :=
  if a = 0xE0 then 0xA0 ≤ b && b ≤ 0xBF
  else if a = 0xED then 0x80 ≤ b && b ≤ 0x9F
  else isTail b

/-- The second byte of a four-byte sequence: no overlong form, nothing above `10FFFF`. -/
def isSecondOfFour (a b : Nat) : Bool :=
  if a = 0xF0 then 0x90 ≤ b && b ≤ 0xBF
  else if a = 0xF4 then 0x80 ≤ b && b ≤ 0x8F
  else isTail b

/-- The code point at the head of the bytes, and the bytes after it. -/
def utf8Head : List Nat → Option (Nat × List Nat)
  | [] => none
  | a :: s =>
    if a ≤ 0x7F then some (a, s)
    else if 0xC2 ≤ a ∧ a ≤ 0xDF then
      match s with
      | b :: s => if isTail b then some ((a - 0xC0) * 64 + (b - 0x80), s) else none
      | _ => none
    else if 0xE0 ≤ a ∧ a ≤ 0xEF then
      match s with
      | b :: c :: s =>
        if isSecondOfThree a b && isTail c then
          some (((a - 0xE0) * 64 + (b - 0x80)) * 64 + (c - 0x80), s)
        else none
      | _ => none
    else if 0xF0 ≤ a ∧ a ≤ 0xF4 then
      match s with
      | b :: c :: d :: s =>
        if isSecondOfFour a b && isTail c && isTail d then
          some ((((a - 0xF0) * 64 + (b - 0x80)) * 64 + (c - 0x80)) * 64 + (d - 0x80), s)
        else none
      | _ => none
    else none

def decodeWithFuel : Nat → List Nat → Except PyError PyStr
  | _, [] => .ok []
  | 0, _ :: _ => .error .unicodeDecodeError
  | fuel + 1, s =>
    match utf8Head s with
    | none => .error .unicodeDecodeError
    | some (c, s) => (decodeWithFuel fuel s).map (c :: ·)

/-- `raw.decode("utf-8")`. -/
def decodeUtf8 (raw : List UInt8) : Except PyError PyStr :=
  decodeWithFuel raw.length (raw.map UInt8.toNat)

/-! ## Strings and numbers -/

def isWhitespace (c : Nat) : Bool := c == 0x20 || c == 0x09 || c == 0x0A || c == 0x0D

def skipWhitespace (s : PyStr) : PyStr := s.dropWhile isWhitespace

def isDigit (c : Nat) : Bool := '0'.toNat ≤ c && c ≤ '9'.toNat

def hexDigit (c : Nat) : Option Nat :=
  if isDigit c then some (c - '0'.toNat)
  else if 'a'.toNat ≤ c ∧ c ≤ 'f'.toNat then some (c - 'a'.toNat + 10)
  else if 'A'.toNat ≤ c ∧ c ≤ 'F'.toNat then some (c - 'A'.toNat + 10)
  else none

/-- The four digits of a `\u` escape. -/
def hex4 : PyStr → Option (Nat × PyStr)
  | a :: b :: c :: d :: s => do
    let a ← hexDigit a
    let b ← hexDigit b
    let c ← hexDigit c
    let d ← hexDigit d
    some (((a * 16 + b) * 16 + c) * 16 + d, s)
  | _ => none

/-- A high surrogate takes the low surrogate of the escape right after it. -/
def joinSurrogates (u : Nat) (s : PyStr) : Nat × PyStr :=
  match s with
  | a :: b :: s' =>
    if 0xD800 ≤ u ∧ u ≤ 0xDBFF ∧ a = '\\'.toNat ∧ b = 'u'.toNat then
      match hex4 s' with
      | some (low, rest) =>
        if 0xDC00 ≤ low ∧ low ≤ 0xDFFF then
          (0x10000 + (u - 0xD800) * 0x400 + (low - 0xDC00), rest)
        else (u, s)
      | none => (u, s)
    else (u, s)
  | _ => (u, s)

def simpleEscape (c : Nat) : Option Nat :=
  if c = '"'.toNat ∨ c = '\\'.toNat ∨ c = '/'.toNat then some c
  else if c = 'b'.toNat then some 0x08
  else if c = 'f'.toNat then some 0x0C
  else if c = 'n'.toNat then some 0x0A
  else if c = 'r'.toNat then some 0x0D
  else if c = 't'.toNat then some 0x09
  else none

/-- What follows a backslash. -/
def scanEscape : PyStr → Option (Nat × PyStr)
  | [] => none
  | c :: s =>
    if c = 'u'.toNat then (hex4 s).map fun (u, s) => joinSurrogates u s
    else (simpleEscape c).map fun u => (u, s)

/-- A string, from behind its opening quote. -/
def scanString : Nat → PyStr → Except PyError (PyStr × PyStr)
  | 0, _ | _, [] => .error .jsonDecodeError
  | fuel + 1, c :: s =>
    if c = '"'.toNat then .ok ([], s)
    else if c < 0x20 then .error .jsonDecodeError
    else if c = '\\'.toNat then
      match scanEscape s with
      | none => .error .jsonDecodeError
      | some (u, s) => (scanString fuel s).map fun (t, s) => (u :: t, s)
    else (scanString fuel s).map fun (t, s) => (c :: t, s)

/-- The fraction and the exponent that follow an integer part; empty where there is none. -/
def scanFraction (s : PyStr) : PyStr × PyStr :=
  match s with
  | dot :: digits =>
    if dot = '.'.toNat ∧ (digits.head?.any isDigit) then
      (dot :: digits.takeWhile isDigit, digits.dropWhile isDigit)
    else ([], s)
  | [] => ([], s)

def scanExponent (s : PyStr) : PyStr × PyStr :=
  match s with
  | e :: rest =>
    if e = 'e'.toNat ∨ e = 'E'.toNat then
      let (sign, digits) := rest.span fun c => c == '+'.toNat || c == '-'.toNat
      if sign.length ≤ 1 ∧ digits.head?.any isDigit then
        (e :: sign ++ digits.takeWhile isDigit, digits.dropWhile isDigit)
      else ([], s)
    else ([], s)
  | [] => ([], s)

/-- The digits `int(text)` accepts: the interpreter's default limit. -/
def maxStrDigits : Nat := 4300

def ofDigits (digits : PyStr) : Nat := digits.foldl (fun n c => n * 10 + (c - '0'.toNat)) 0

/-- The integer part of a number: a single zero, or all digits. -/
def scanInteger (s : PyStr) : PyStr × PyStr :=
  if s.head? = some '0'.toNat then (s.take 1, s.drop 1) else s.span isDigit

/-- A number without its sign. -/
def scanUnsigned (negative : Bool) (s : PyStr) : Except PyError (Json × PyStr) :=
  let (digits, rest) := scanInteger s
  if digits.isEmpty then .error .jsonDecodeError
  else
    let (fraction, rest) := scanFraction rest
    let (exponent, rest) := scanExponent rest
    let sign := if negative then ['-'.toNat] else []
    if fraction.isEmpty && exponent.isEmpty then
      if maxStrDigits < digits.length then .error .valueError
      else .ok (.int (if negative then -(ofDigits digits : Int) else ofDigits digits), rest)
    else .ok (.float (sign ++ digits ++ fraction ++ exponent), rest)

/-! ## Values -/

/-- The literals that do not depend on what follows them. -/
def constants : List (PyStr × Json) :=
  [(pyStr "null", .null), (pyStr "true", .bool true), (pyStr "false", .bool false),
   (pyStr "NaN", .float (pyStr "NaN")), (pyStr "Infinity", .float (pyStr "Infinity")),
   (pyStr "-Infinity", .float (pyStr "-Infinity"))]

def scanConstant (s : PyStr) : Option (Json × PyStr) :=
  (constants.find? fun (literal, _) => literal.isPrefixOf s).map
    fun (literal, value) => (value, s.drop literal.length)

def scanNumber (s : PyStr) : Except PyError (Json × PyStr) :=
  match s with
  | c :: rest => if c = '-'.toNat then scanUnsigned true rest else scanUnsigned false s
  | [] => .error .jsonDecodeError

section Nested

-- the scanner of the values one level further in
variable (scanOnce : PyStr → Except PyError (Json × PyStr))

/-- The items of a list, from the first one to behind the closing bracket. -/
def scanItems : Nat → PyStr → Except PyError (List Json × PyStr)
  | 0, _ => .error .jsonDecodeError
  | fuel + 1, s => do
    let (item, s) ← scanOnce s
    match skipWhitespace s with
    | c :: s =>
      if c = ']'.toNat then .ok ([item], s)
      else if c = ','.toNat then
        let (items, s) ← scanItems fuel (skipWhitespace s)
        .ok (item :: items, s)
      else .error .jsonDecodeError
    | [] => .error .jsonDecodeError

/-- A list, from behind its opening bracket. -/
def scanList (s : PyStr) : Except PyError (Json × PyStr) :=
  match skipWhitespace s with
  | c :: rest =>
    if c = ']'.toNat then .ok (.list [], rest)
    else do
      let (items, s) ← scanItems scanOnce s.length (c :: rest)
      .ok (.list items, s)
  | [] => .error .jsonDecodeError

/-- A member of a dict: its name, its value and what follows it. -/
def scanMember (s : PyStr) : Except PyError ((PyStr × Json) × PyStr) :=
  match s with
  | [] => .error .jsonDecodeError
  | quote :: s =>
    if quote = '"'.toNat then do
      let (key, s) ← scanString s.length s
      match skipWhitespace s with
      | colon :: s =>
        if colon = ':'.toNat then do
          let (value, s) ← scanOnce (skipWhitespace s)
          .ok ((key, value), s)
        else .error .jsonDecodeError
      | [] => .error .jsonDecodeError
    else .error .jsonDecodeError

/-- The members of a dict, added to those before them, to behind the closing brace. -/
def scanMembers : Nat → List (PyStr × Json) → PyStr →
    Except PyError (List (PyStr × Json) × PyStr)
  | 0, _, _ => .error .jsonDecodeError
  | fuel + 1, members, s => do
    let ((key, value), s) ← scanMember scanOnce s
    match skipWhitespace s with
    | c :: s =>
      if c = '\x7d'.toNat then .ok (setItem key value members, s)
      else if c = ','.toNat then scanMembers fuel (setItem key value members) (skipWhitespace s)
      else .error .jsonDecodeError
    | [] => .error .jsonDecodeError

/-- A dict, from behind its opening brace. -/
def scanDict (s : PyStr) : Except PyError (Json × PyStr) :=
  match skipWhitespace s with
  | c :: rest =>
    if c = '\x7d'.toNat then .ok (.dict [], rest)
    else do
      let (members, s) ← scanMembers scanOnce s.length [] (c :: rest)
      .ok (.dict members, s)
  | [] => .error .jsonDecodeError

end Nested

/-- A value, given the scanners of what stands behind an opening brace or bracket. -/
def scanValue (dict list : PyStr → Except PyError (Json × PyStr)) (s : PyStr) :
    Except PyError (Json × PyStr) :=
  match s with
  | [] => .error .jsonDecodeError
  | c :: rest =>
    if c = '"'.toNat then (scanString rest.length rest).map fun (t, s) => (.str t, s)
    else if c = '\x7b'.toNat then dict rest
    else if c = '['.toNat then list rest
    else match scanConstant s with
      | some result => .ok result
      | none => scanNumber s

/-- `scan_once`, when `depth` more containers may be entered. -/
def scanOnce : Nat → PyStr → Except PyError (Json × PyStr)
  | 0, s => scanValue (fun _ => .error .recursionError) (fun _ => .error .recursionError) s
  | depth + 1, s => scanValue (scanDict (scanOnce depth)) (scanList (scanOnce depth)) s

/-- `json.loads(s)`, when the recursion limit leaves room for `depth` nested containers. -/
def loads (depth : Nat) (s : PyStr) : Except PyError Json :=
  if s.head? = some 0xFEFF then .error .jsonDecodeError
  else do
    let (value, rest) ← scanOnce depth (skipWhitespace s)
    if (skipWhitespace rest).isEmpty then .ok value else .error .jsonDecodeError

/-! ## The exceptions they raise -/

/-- `UnicodeDecodeError` and what `json.loads` raises. -/
def decodeErrors : List PyError :=
  [.jsonDecodeError, .recursionError, .unicodeDecodeError, .valueError]

/-- If the computation raises, it raises one of `decodeErrors`. -/
def Decodes {β : Type} (r : Except PyError β) : Prop := ∀ e, r = .error e → e ∈ decodeErrors

section Decodes

variable {β γ : Type}

theorem Decodes.ok (x : β) : Decodes (.ok x) := fun _ h => nomatch h

theorem Decodes.error {e : PyError} (h : e ∈ decodeErrors) :
    Decodes (.error e : Except PyError β) :=
  fun _ he => Except.error.inj he ▸ h

theorem Decodes.json : Decodes (.error .jsonDecodeError : Except PyError β) :=
  .error (by decide)

theorem Decodes.map {r : Except PyError β} (h : Decodes r) (f : β → γ) : Decodes (r.map f) := by
  cases r with
  | error e => exact .error (h e rfl)
  | ok x => exact .ok (f x)

theorem Decodes.bind {r : Except PyError β} {f : β → Except PyError γ} (h : Decodes r)
    (hf : ∀ x, Decodes (f x)) : Decodes (r >>= f) := by
  cases r with
  | error e => exact .error (h e rfl)
  | ok x => exact hf x

end Decodes

theorem decodeWithFuel_decodes (fuel : Nat) (raw : List Nat) :
    Decodes (decodeWithFuel fuel raw) := by
  induction fuel generalizing raw with
  | zero =>
    cases raw with
    | nil => exact .ok []
    | cons b raw => exact .error (by decide)
  | succ fuel ih =>
    cases raw with
    | nil => exact .ok []
    | cons b raw =>
      unfold decodeWithFuel
      split
      · exact .error (by decide)
      · exact (ih _).map _

theorem scanString_decodes (fuel : Nat) (s : PyStr) : Decodes (scanString fuel s) := by
  induction fuel generalizing s with
  | zero => exact .json
  | succ fuel ih =>
    cases s with
    | nil => exact .json
    | cons c s =>
      unfold scanString
      split
      · exact .ok _
      · split
        · exact .json
        · split
          · split
            · exact .json
            · exact (ih _).map _
          · exact (ih _).map _

theorem scanUnsigned_decodes (negative : Bool) (s : PyStr) : Decodes (scanUnsigned negative s) := by
  unfold scanUnsigned
  dsimp only
  split
  · exact .json
  · split
    · split
      · exact .error (by decide)
      · exact .ok _
    · exact .ok _

theorem scanNumber_decodes (s : PyStr) : Decodes (scanNumber s) := by
  unfold scanNumber
  split
  · split
    · exact scanUnsigned_decodes true _
    · exact scanUnsigned_decodes false _
  · exact .json

section Nested

variable {scanOnce : PyStr → Except PyError (Json × PyStr)} (h : ∀ s, Decodes (scanOnce s))

include h

theorem scanItems_decodes (fuel : Nat) (s : PyStr) : Decodes (scanItems scanOnce fuel s) := by
  induction fuel generalizing s with
  | zero => exact .json
  | succ fuel ih =>
    unfold scanItems
    refine (h s).bind fun ⟨_, _⟩ => ?_
    dsimp only
    split
    · split
      · exact .ok _
      · split
        · exact (ih _).bind fun ⟨_, _⟩ => .ok _
        · exact .json
    · exact .json

theorem scanList_decodes (s : PyStr) : Decodes (scanList scanOnce s) := by
  unfold scanList
  split
  · split
    · exact .ok _
    · exact (scanItems_decodes h _ _).bind fun ⟨_, _⟩ => .ok _
  · exact .json

theorem scanMember_decodes (s : PyStr) : Decodes (scanMember scanOnce s) := by
  unfold scanMember
  split
  · exact .json
  · split
    · refine (scanString_decodes _ _).bind fun ⟨_, _⟩ => ?_
      dsimp only
      split
      · split
        · exact (h _).bind fun ⟨_, _⟩ => .ok _
        · exact .json
      · exact .json
    · exact .json

theorem scanMembers_decodes (fuel : Nat) (members : List (PyStr × Json)) (s : PyStr) :
    Decodes (scanMembers scanOnce fuel members s) := by
  induction fuel generalizing members s with
  | zero => exact .json
  | succ fuel ih =>
    unfold scanMembers
    refine (scanMember_decodes h s).bind fun ⟨_, _⟩ => ?_
    dsimp only
    split
    · split
      · exact .ok _
      · split
        · exact ih _ _
        · exact .json
    · exact .json

theorem scanDict_decodes (s : PyStr) : Decodes (scanDict scanOnce s) := by
  unfold scanDict
  split
  · split
    · exact .ok _
    · exact (scanMembers_decodes h _ _ _).bind fun ⟨_, _⟩ => .ok _
  · exact .json

end Nested

theorem scanValue_decodes {dict list : PyStr → Except PyError (Json × PyStr)}
    (hdict : ∀ s, Decodes (dict s)) (hlist : ∀ s, Decodes (list s)) (s : PyStr) :
    Decodes (scanValue dict list s) := by
  unfold scanValue
  split
  · exact .json
  · split
    · exact (scanString_decodes _ _).map _
    · split
      · exact hdict _
      · split
        · exact hlist _
        · split
          · exact .ok _
          · exact scanNumber_decodes _

theorem scanOnce_decodes (depth : Nat) (s : PyStr) : Decodes (scanOnce depth s) := by
  induction depth generalizing s with
  | zero => exact scanValue_decodes (fun _ => .error (by decide)) (fun _ => .error (by decide)) s
  | succ depth ih =>
    exact scanValue_decodes (fun _ => scanDict_decodes ih _) (fun _ => scanList_decodes ih _) s

theorem decodeUtf8_decodes (raw : List UInt8) : Decodes (decodeUtf8 raw) :=
  decodeWithFuel_decodes _ _

theorem loads_decodes (depth : Nat) (s : PyStr) : Decodes (loads depth s) := by
  unfold loads
  split
  · exact .json
  · refine (scanOnce_decodes depth _).bind fun ⟨_, _⟩ => ?_
    dsimp only
    split
    · exact .ok _
    · exact .json

end PipeWorks.Python
