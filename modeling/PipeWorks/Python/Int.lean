import PipeWorks.Python.Str

/-!
# The integer a text is read as (`int` of Python 3.11)

Digits of any script count, single underscores may stand between them, white space may stand around
the number, and more than 4300 digits are refused.
-/

set_option autoImplicit false

namespace PipeWorks.Python

/-- The zeros of the decimal digits of Unicode 14. -/
def digitZeros : List Nat :=
  [0x30, 0x660, 0x6F0, 0x7C0, 0x966, 0x9E6, 0xA66, 0xAE6, 0xB66, 0xBE6, 0xC66, 0xCE6, 0xD66, 0xDE6,
    0xE50, 0xED0, 0xF20, 0x1040, 0x1090, 0x17E0, 0x1810, 0x1946, 0x19D0, 0x1A80, 0x1A90, 0x1B50,
    0x1BB0, 0x1C40, 0x1C50, 0xA620, 0xA8D0, 0xA900, 0xA9D0, 0xA9F0, 0xAA50, 0xABF0, 0xFF10,
    0x104A0, 0x10D30, 0x11066, 0x110F0, 0x11136, 0x111D0, 0x112F0, 0x11450, 0x114D0, 0x11650,
    0x116C0, 0x11730, 0x118E0, 0x11950, 0x11C50, 0x11D50, 0x11DA0, 0x16A60, 0x16AC0, 0x16B50,
    0x1D7CE, 0x1D7D8, 0x1D7E2, 0x1D7EC, 0x1D7F6, 0x1E140, 0x1E2F0, 0x1E950, 0x1FBF0]

def digit? (c : Char) : Option Nat :=
  (digitZeros.find? fun z => z ≤ c.toNat && c.toNat < z + 10).map (c.toNat - ·)

/-- Digits, with single underscores between them. -/
def digits? : List Char → Option (List Nat)
  | [] => none
  | [c] => (digit? c).map ([·])
  | c :: '_' :: cs => (digit? c).bind fun d => (digits? cs).map (d :: ·)
  | c :: cs => (digit? c).bind fun d => (digits? cs).map (d :: ·)

/-- The value of a number without sign. -/
def natural? (cs : List Char) : Option Nat :=
  (digits? cs).bind fun ds =>
    if ds.length ≤ 4300 then some (ds.foldl (fun n d => 10 * n + d) 0) else none

/-- `int(s)`; `none` stands for `ValueError`. -/
def intOfStr (s : String) : Option Int :=
  match stripChars whiteSpace s.toList with
  | '-' :: cs => (natural? cs).map fun n => -(n : Int)
  | '+' :: cs => (natural? cs).map Int.ofNat
  | cs => (natural? cs).map Int.ofNat

example : intOfStr " -1_0 " = some (-10) ∧ intOfStr "1__0" = none ∧ intOfStr "٣" = some 3 := by
  decide

/-! ## Reading what `str` has written -/

/-- `str(n)`. -/
theorem toList_toString (n : Nat) : (toString (n : Int)).toList = Nat.toDigits 10 n := by
  show n.repr.toList = _
  rw [Nat.repr_eq_ofList_toDigits, String.toList_ofList]

theorem digit?_of_isDigit {c : Char} (h : c.isDigit = true) : digit? c = some (c.toNat - 48) := by
  have hbounds : 48 ≤ c.toNat ∧ c.toNat ≤ 57 := by
    simp only [Char.isDigit, Bool.and_eq_true, decide_eq_true_eq] at h
    exact ⟨UInt32.le_iff_toNat_le.mp h.1, UInt32.le_iff_toNat_le.mp h.2⟩
  unfold digit? digitZeros
  rw [List.find?_cons_of_pos (by simp; omega)]
  rfl

theorem digits?_of_isDigit {cs : List Char} (hne : cs ≠ [])
    (h : ∀ c ∈ cs, c.isDigit = true) : digits? cs = some (cs.map fun c => c.toNat - 48) := by
  induction cs with
  | nil => exact absurd rfl hne
  | cons c cs ih =>
    have hc := digit?_of_isDigit (h c (List.mem_cons_self ..))
    cases cs with
    | nil => simp [digits?, hc]
    | cons d cs =>
      have hrest := ih (List.cons_ne_nil d cs) fun e he => h e (List.mem_cons_of_mem _ he)
      have hd : d ≠ '_' := by
        rintro rfl
        exact absurd (h '_' (by simp)) (by decide)
      simp [digits?, hc, hd, hrest]

/-- A natural number that is not too long is read as it has been written. -/
theorem intOfStr_toString {n : Nat} (h : (Nat.toDigits 10 n).length ≤ 4300) :
    intOfStr (toString (n : Int)) = some n := by
  have hdigit : ∀ c ∈ Nat.toDigits 10 n, c.isDigit = true :=
    fun c => Nat.isDigit_of_mem_toDigits (by decide) (by decide)
  have hspace : ∀ c ∈ Nat.toDigits 10 n, whiteSpace c = false := fun c hc =>
    (Bool.or_eq_false_iff.mp (isSpace_of_isDigit (hdigit c hc))).1
  have hstrip : stripChars whiteSpace (Nat.toDigits 10 n) = Nat.toDigits 10 n :=
    stripChars_eq_self_iff.mpr ⟨fun c hc => hspace c (List.mem_of_head? hc),
      fun c hc => hspace c (List.mem_of_getLast? hc)⟩
  have hnatural : natural? (Nat.toDigits 10 n) = some n := by
    unfold natural?
    rw [digits?_of_isDigit Nat.toDigits_ne_nil hdigit, Option.bind_some, List.length_map,
      if_pos h, List.foldl_map]
    exact congrArg some Nat.ofDigitChars_ten_toDigits
  unfold intOfStr
  rw [toList_toString, hstrip]
  split
  · rename_i cs heq
    exact absurd (hdigit '-' (by rw [heq]; simp)) (by decide)
  · rename_i cs heq
    exact absurd (hdigit '+' (by rw [heq]; simp)) (by decide)
  · rw [hnatural]
    rfl

end PipeWorks.Python
