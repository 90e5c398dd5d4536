import PipeWorks.Python.JsonRoundTrip

/-!
# `json.loads` of bytes

`json.loads` takes bytes as well, finds out whether they are UTF-8, UTF-16 or UTF-32, and decodes
them with `errors="surrogatepass"`.  `loadsBytes_dumpBytes`: what `json.dumps` has written for a
dict, in UTF-8, is read back.
-/

set_option autoImplicit false

namespace PipeWorks.Python

open Fails (bind_eq_ok map_eq_ok ok_bind)

/-! ## Decoding -/

/-- Decode with a function that takes one character off the bytes. -/
def decodeBy (head : List Nat → Option (Nat × List Nat)) : Nat → List Nat → Except PyError PyStr
  | _, [] => .ok []
  | 0, _ :: _ => .error .unicodeDecodeError
  | fuel + 1, s =>
    match head s with
    | none => .error .unicodeDecodeError
    | some (c, s) => (decodeBy head fuel s).map (c :: ·)

/-- UTF-8, and surrogates as if they were characters. -/
def utf8Pass (s : List Nat) : Option (Nat × List Nat) :=
  match utf8Head s, s with
  | some result, _ => some result
  | none, a :: b :: c :: rest =>
    if a = 0xED ∧ 0xA0 ≤ b ∧ b ≤ 0xBF ∧ isTail c then
      some (((a - 0xE0) * 64 + (b - 0x80)) * 64 + (c - 0x80), rest)
    else none
  | none, _ => none

/-- Two bytes. -/
def codeUnit (bigEndian : Bool) : List Nat → Option (Nat × List Nat)
  | a :: b :: s => some (if bigEndian then a * 256 + b else b * 256 + a, s)
  | _ => none

/-- UTF-16, and lone surrogates as if they were characters. -/
def utf16Pass (bigEndian : Bool) (s : List Nat) : Option (Nat × List Nat) := do
  let (u, s) ← codeUnit bigEndian s
  if isHigh u then
    match codeUnit bigEndian s with
    | some (low, rest) =>
      if isLow low then some (0x10000 + (u - 0xD800) * 0x400 + (low - 0xDC00), rest)
      else some (u, s)
    | none => some (u, s)
  else some (u, s)

/-- UTF-32, surrogates included. -/
def utf32Pass (bigEndian : Bool) : List Nat → Option (Nat × List Nat)
  | a :: b :: c :: d :: s =>
    let u := if bigEndian then ((a * 256 + b) * 256 + c) * 256 + d
      else ((d * 256 + c) * 256 + b) * 256 + a
    if u ≤ 0x10FFFF then some (u, s) else none
  | _ => none

inductive Encoding where
  | utf32
  | utf16
  | utf8Sig
  | utf16Be
  | utf32Be
  | utf16Le
  | utf32Le
  | utf8
  deriving DecidableEq, Repr

/-- `json.detect_encoding(b)`. -/
def detectEncoding (b : List Nat) : Encoding :=
  if [0, 0, 0xFE, 0xFF].isPrefixOf b || [0xFF, 0xFE, 0, 0].isPrefixOf b then .utf32
  else if [0xFE, 0xFF].isPrefixOf b || [0xFF, 0xFE].isPrefixOf b then .utf16
  else if [0xEF, 0xBB, 0xBF].isPrefixOf b then .utf8Sig
  else match b with
    | b0 :: b1 :: b2 :: b3 :: _ =>
      if b0 = 0 then (if b1 ≠ 0 then .utf16Be else .utf32Be)
      else if b1 = 0 then (if b2 ≠ 0 ∨ b3 ≠ 0 then .utf16Le else .utf32Le)
      else .utf8
    | [b0, b1] => if b0 = 0 then .utf16Be else if b1 = 0 then .utf16Le else .utf8
    | _ => .utf8

/-- The bytes behind the mark that says which one it is, and how to take a character off them. -/
def Encoding.codec (b : List Nat) :
    Encoding → (List Nat → Option (Nat × List Nat)) × List Nat
  | .utf32 => (utf32Pass (b.head? == some 0), b.drop 4)
  | .utf16 => (utf16Pass (b.head? == some 0xFE), b.drop 2)
  | .utf8Sig => (utf8Pass, b.drop 3)
  | .utf16Be => (utf16Pass true, b)
  | .utf32Be => (utf32Pass true, b)
  | .utf16Le => (utf16Pass false, b)
  | .utf32Le => (utf32Pass false, b)
  | .utf8 => (utf8Pass, b)

/-- `b.decode(detect_encoding(b), "surrogatepass")`. -/
def decodeBytes (b : List Nat) : Except PyError PyStr :=
  let (head, s) := (detectEncoding b).codec b
  decodeBy head s.length s

/-- `json.loads(raw)`, when the recursion limit leaves room for `depth` nested containers. -/
def loadsBytes (depth : Nat) (raw : List UInt8) : Except PyError Json :=
  decodeBytes (raw.map UInt8.toNat) >>= loads depth

example : loadsBytes 1 [0xFF, 0xFE, 0x5B, 0, 0x31, 0, 0x5D, 0] =
    .ok (.list [.int 1]) := by
  rfl

/-! ## The exceptions it raises -/

section

variable {a b : Nat} {s text : PyStr}

/-- Two ASCII characters, neither of them null, begin a text in UTF-8. -/
theorem detectEncoding_ascii (ha : 0 < a ∧ a < 0x80) (hb : 0 < b) :
    detectEncoding (a :: b :: s) = .utf8 := by
  obtain ⟨hpos, hlt⟩ := ha
  have hmark : ∀ c rest, c = 0 ∨ 0x80 ≤ c → (c :: rest).isPrefixOf (a :: b :: s) = false := by
    intro c rest hc
    have hne : (c == a) = false := by
      rw [beq_eq_false_iff_ne]
      omega
    rw [List.isPrefixOf_cons_cons, hne, Bool.false_and]
  have ha' : a ≠ 0 := by omega
  have hb' : b ≠ 0 := by omega
  unfold detectEncoding
  rw [hmark _ _ (by omega), hmark _ _ (by omega), hmark _ _ (by omega), hmark _ _ (by omega),
    hmark _ _ (by omega)]
  cases s with
  | nil => simp [ha', hb']
  | cons c s =>
    cases s with
    | nil => rfl
    | cons d s => simp [ha', hb']

theorem utf8Pass_ascii (ha : a < 0x80) : utf8Pass (a :: s) = some (a, s) := by
  have hle : a ≤ 0x7F := by omega
  simp only [utf8Pass, utf8Head, if_pos hle]

theorem decodeBy_ascii (h : IsAscii text) : ∀ fuel, text.length ≤ fuel →
    decodeBy utf8Pass fuel text = .ok text := by
  induction text with
  | nil =>
    intro fuel _
    cases fuel <;> rfl
  | cons c s ih =>
    intro fuel hfuel
    obtain ⟨fuel, rfl⟩ : ∃ n, fuel = n + 1 := ⟨fuel - 1, by simp at hfuel; omega⟩
    have hrest := ih (fun d hd => h d (List.mem_cons_of_mem c hd)) fuel (by simpa using hfuel)
    simp only [decodeBy, utf8Pass_ascii (h c (List.mem_cons_self ..)), hrest]
    rfl

/-- What follows the opening brace of a dict. -/
theorem dumps_dict {depth : Nat} {members : List (PyStr × Json)}
    (h : dumps depth (.dict members) = .ok text) :
    ∃ b s, text = '\x7b'.toNat :: b :: s ∧ 0 < b := by
  cases depth with
  | zero =>
    rw [dumps] at h
    cases h
  | succ depth =>
    rw [dumps] at h
    obtain ⟨parts, hparts, rfl⟩ := map_eq_ok.1 h
    cases members with
    | nil =>
      rw [dumpMembers] at hparts
      cases hparts
      exact ⟨'\x7d'.toNat, [], rfl, by decide⟩
    | cons member members =>
      rw [dumpMembers] at hparts
      obtain ⟨part, hpart, hparts⟩ := bind_eq_ok.1 hparts
      obtain ⟨others, -, hparts⟩ := bind_eq_ok.1 hparts
      cases hparts
      rw [dumpMember] at hpart
      obtain ⟨value, -, rfl⟩ := map_eq_ok.1 hpart
      cases others with
      | nil => exact ⟨'"'.toNat, _, rfl, by decide⟩
      | cons next others =>
        rw [joinParts_cons_cons]
        exact ⟨'"'.toNat, _, rfl, by decide⟩

end

/-- **The bytes of a dict are read back.** -/
theorem loadsBytes_dumpBytes {depth room : Nat} {members : List (PyStr × Json)} {raw : List UInt8}
    (hvalid : (Json.dict members).Valid) (hdumps : dumpBytes depth (.dict members) = .ok raw)
    (hroom : depth ≤ room) : loadsBytes room raw = .ok (.dict members) := by
  obtain ⟨text, htext, -⟩ := bind_eq_ok.1 hdumps
  rw [dumpBytes_eq hvalid htext] at hdumps
  cases hdumps
  have hascii := isAscii_dumps hvalid htext
  obtain ⟨b, s, heq, hb⟩ := dumps_dict htext
  have hutf8 : detectEncoding text = .utf8 := by
    rw [heq]
    exact detectEncoding_ascii (by decide) hb
  unfold loadsBytes decodeBytes
  rw [hascii.toNat_ofNat, hutf8]
  show (decodeBy utf8Pass text.length text >>= loads room) = _
  rw [decodeBy_ascii hascii _ (Nat.le_refl _), ok_bind]
  exact loads_dumps hvalid htext hroom

end PipeWorks.Python
