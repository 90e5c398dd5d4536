import Mathlib.Data.List.Basic
import PipeWorks.Python.Json

/-!
# UTF-8 both ways (`str.encode` and `bytes.decode` with `errors="replace"`)

A text without surrogates is encoded, and decoded to itself.  Decoding never fails: what is no
sequence is replaced.  Neither direction makes an ASCII character out of anything else.
-/

set_option autoImplicit false

namespace PipeWorks.Python

/-- The code points that UTF-16 needs for itself. -/
def isSurrogate (c : Nat) : Bool := 0xD800 ≤ c && c ≤ 0xDFFF

/-- The bytes of a code point. -/
def utf8Bytes (c : Nat) : List Nat :=
  if c < 0x80 then [c]
  else if c < 0x800 then [0xC0 + c / 64, 0x80 + c % 64]
  else if c < 0x10000 then [0xE0 + c / 4096, 0x80 + c / 64 % 64, 0x80 + c % 64]
  else [0xF0 + c / 262144, 0x80 + c / 4096 % 64, 0x80 + c / 64 % 64, 0x80 + c % 64]

/-- `s.encode("utf-8")`; `none` stands for `UnicodeEncodeError`. -/
def encodeUtf8 (s : PyStr) : Option (List Nat) :=
  if s.any isSurrogate then none else some (s.flatMap utf8Bytes)

/-- How many bytes at the head, which is no sequence, are replaced: as many as one could begin
with. -/
def badLength : List Nat → Nat
  | a :: b :: s =>
    if 0xE0 ≤ a ∧ a ≤ 0xEF ∧ isSecondOfThree a b then 2
    else if 0xF0 ≤ a ∧ a ≤ 0xF4 ∧ isSecondOfFour a b then
      match s with
      | c :: _ => if isTail c then 3 else 2
      | [] => 2
    else 1
  | _ => 1

def decodeReplaceWithFuel : Nat → List Nat → PyStr
  | 0, _ | _, [] => []
  | fuel + 1, s@(_ :: _) =>
    match utf8Head s with
    | some (c, rest) => c :: decodeReplaceWithFuel fuel rest
    | none => 0xFFFD :: decodeReplaceWithFuel fuel (s.drop (badLength s))

/-- `raw.decode("utf-8", errors="replace")`. -/
def decodeReplace (raw : List Nat) : PyStr := decodeReplaceWithFuel raw.length raw

variable {s : PyStr} {c x : Nat}

/-- The head of what a code point is encoded to is the code point. -/
theorem utf8Head_utf8Bytes (hc : c ≤ 0x10FFFF) (hsurrogate : isSurrogate c = false)
    (s : List Nat) : utf8Head (utf8Bytes c ++ s) = some (c, s) := by
  have hnot : ¬ (0xD800 ≤ c ∧ c ≤ 0xDFFF) := by
    simpa [isSurrogate] using hsurrogate
  unfold utf8Bytes
  split
  · rename_i h1
    simp only [List.singleton_append, utf8Head, if_pos (show c ≤ 0x7F by omega)]
  · split
    · rename_i h1 h2
      have htail : isTail (0x80 + c % 64) = true := by simp [isTail]; omega
      have hvalue : (0xC0 + c / 64 - 0xC0) * 64 + (0x80 + c % 64 - 0x80) = c := by omega
      simp only [List.cons_append, List.nil_append, utf8Head]
      rw [if_neg (by omega), if_pos (by omega), if_pos htail, hvalue]
    · split
      · rename_i h1 h2 h3
        have htail : isTail (0x80 + c % 64) = true := by simp [isTail]; omega
        have hsecond : isSecondOfThree (0xE0 + c / 4096) (0x80 + c / 64 % 64) = true := by
          unfold isSecondOfThree isTail
          split
          · simp; omega
          · split
            · simp; omega
            · simp; omega
        simp only [List.cons_append, List.nil_append, utf8Head]
        rw [if_neg (by omega), if_neg (by omega), if_pos (by omega), hsecond, htail]
        simp
        omega
      · rename_i h1 h2 h3
        have htail : isTail (0x80 + c % 64) = true := by simp [isTail]; omega
        have hthird : isTail (0x80 + c / 64 % 64) = true := by simp [isTail]; omega
        have hsecond : isSecondOfFour (0xF0 + c / 262144) (0x80 + c / 4096 % 64) = true := by
          unfold isSecondOfFour isTail
          split
          · simp; omega
          · split
            · simp; omega
            · simp; omega
        simp only [List.cons_append, List.nil_append, utf8Head]
        rw [if_neg (by omega), if_neg (by omega), if_neg (by omega), if_pos (by omega), hsecond,
          hthird, htail]
        simp
        omega

theorem utf8Bytes_ne_nil (c : Nat) : utf8Bytes c ≠ [] := by
  unfold utf8Bytes
  split <;> [skip; split <;> [skip; split]] <;> exact List.cons_ne_nil _ _

theorem utf8Bytes_lt (hc : c ≤ 0x10FFFF) : ∀ b ∈ utf8Bytes c, b < 256 := by
  unfold utf8Bytes
  intro b hb
  split at hb
  · simp only [List.mem_singleton] at hb
    omega
  · split at hb
    · simp only [List.mem_cons, List.not_mem_nil, or_false] at hb
      omega
    · split at hb
      · simp only [List.mem_cons, List.not_mem_nil, or_false] at hb
        omega
      · simp only [List.mem_cons, List.not_mem_nil, or_false] at hb
        omega

/-- The bytes of other code points are not ASCII. -/
theorem eq_of_mem_utf8Bytes (hx : x < 0x80) (h : x ∈ utf8Bytes c) : x = c := by
  unfold utf8Bytes at h
  split at h
  · exact List.mem_singleton.1 h
  · split at h
    · simp only [List.mem_cons, List.not_mem_nil, or_false] at h
      omega
    · split at h
      · simp only [List.mem_cons, List.not_mem_nil, or_false] at h
        omega
      · simp only [List.mem_cons, List.not_mem_nil, or_false] at h
        omega

theorem encodeUtf8_eq_some {bs : List Nat} : encodeUtf8 s = some bs ↔
    (∀ c ∈ s, isSurrogate c = false) ∧ bs = s.flatMap utf8Bytes := by
  unfold encodeUtf8
  split
  · rename_i hany
    obtain ⟨c, hc, hsurrogate⟩ := List.any_eq_true.1 hany
    refine iff_of_false (fun h => by cases h) fun h => ?_
    rw [h.1 c hc] at hsurrogate
    cases hsurrogate
  · rename_i hnone
    have hall : ∀ c ∈ s, isSurrogate c = false := by
      intro c hc
      rw [← Bool.not_eq_true]
      exact fun h => hnone (List.any_eq_true.2 ⟨c, hc, h⟩)
    rw [Option.some.injEq, eq_comm]
    exact ⟨fun h => ⟨hall, h⟩, fun h => h.2⟩

/-- **A text is decoded to itself.** -/
theorem decodeReplace_encodeUtf8 {bs : List Nat} (hs : ∀ c ∈ s, c ≤ 0x10FFFF)
    (h : encodeUtf8 s = some bs) : decodeReplace bs = s := by
  obtain ⟨hsurrogate, rfl⟩ := encodeUtf8_eq_some.1 h
  have hall : ∀ fuel, (s.flatMap utf8Bytes).length ≤ fuel →
      decodeReplaceWithFuel fuel (s.flatMap utf8Bytes) = s := by
    clear h
    induction s with
    | nil =>
      intro fuel _
      cases fuel <;> rfl
    | cons c s ih =>
      intro fuel hfuel
      have hlength := List.length_pos_iff.2 (utf8Bytes_ne_nil c)
      rw [List.flatMap_cons, List.length_append] at hfuel
      obtain ⟨fuel, rfl⟩ : ∃ n, fuel = n + 1 := ⟨fuel - 1, by omega⟩
      have hhead := utf8Head_utf8Bytes (hs c (List.mem_cons_self ..))
        (hsurrogate c (List.mem_cons_self ..)) (s.flatMap utf8Bytes)
      have hrest := ih (fun d hd => hs d (List.mem_cons_of_mem c hd))
        (fun d hd => hsurrogate d (List.mem_cons_of_mem c hd)) fuel (by omega)
      rw [List.flatMap_cons]
      cases hbytes : utf8Bytes c ++ s.flatMap utf8Bytes with
      | nil => simp [utf8Bytes_ne_nil] at hbytes
      | cons b bs =>
        rw [hbytes] at hhead
        simp only [decodeReplaceWithFuel, hhead, hrest]
  exact hall _ (Nat.le_refl _)

/-- No three bytes are a longer form of an ASCII character. -/
theorem le_of_isSecondOfThree {a b d : Nat} (ha : 0xE0 ≤ a) (h : isSecondOfThree a b = true) :
    0x80 ≤ ((a - 0xE0) * 64 + (b - 0x80)) * 64 + (d - 0x80) := by
  unfold isSecondOfThree at h
  split at h
  · simp at h
    omega
  · omega

theorem le_of_isSecondOfFour {a b d e : Nat} (ha : 0xF0 ≤ a) (h : isSecondOfFour a b = true) :
    0x80 ≤ (((a - 0xF0) * 64 + (b - 0x80)) * 64 + (d - 0x80)) * 64 + (e - 0x80) := by
  unfold isSecondOfFour at h
  split at h
  · simp at h
    omega
  · omega

/-- What is read at the head lies in the bytes, and an ASCII character is its byte. -/
theorem utf8Head_spec {bs rest : List Nat} (h : utf8Head bs = some (c, rest)) :
    rest <:+ bs ∧ (c < 0x80 → c ∈ bs) := by
  unfold utf8Head at h
  split at h
  · cases h
  · rename_i a s
    split at h
    · cases h
      exact ⟨List.suffix_cons _ _, fun _ => List.mem_cons_self ..⟩
    split at h
    · rename_i htwo
      split at h
      · rename_i b s
        split at h
        · obtain ⟨hc, rfl⟩ := Prod.mk.inj (Option.some.inj h)
          exact ⟨⟨[a, b], rfl⟩, fun hlt => by omega⟩
        · cases h
      · cases h
    split at h
    · rename_i hthree
      split at h
      · rename_i b d s
        split at h
        · rename_i hboth
          obtain ⟨hc, rfl⟩ := Prod.mk.inj (Option.some.inj h)
          have hle := le_of_isSecondOfThree (d := d) hthree.1 (Bool.and_eq_true_iff.1 hboth).1
          exact ⟨⟨[a, b, d], rfl⟩, fun hlt => absurd hlt (Nat.not_lt.2 (hc ▸ hle))⟩
        · cases h
      · cases h
    split at h
    · rename_i hfour
      split at h
      · rename_i b d e s
        split at h
        · rename_i hall
          obtain ⟨hc, rfl⟩ := Prod.mk.inj (Option.some.inj h)
          have hsecond := (Bool.and_eq_true_iff.1 (Bool.and_eq_true_iff.1 hall).1).1
          have hle := le_of_isSecondOfFour (d := d) (e := e) hfour.1 hsecond
          exact ⟨⟨[a, b, d, e], rfl⟩, fun hlt => absurd hlt (Nat.not_lt.2 (hc ▸ hle))⟩
        · cases h
      · cases h
    · cases h

/-- Decoding makes no ASCII character that is not among the bytes. -/
theorem mem_of_mem_decodeReplace {bs : List Nat} (hx : x < 0x80) (h : x ∈ decodeReplace bs) :
    x ∈ bs := by
  have hall : ∀ fuel (bs : List Nat), x ∈ decodeReplaceWithFuel fuel bs → x ∈ bs := by
    intro fuel
    induction fuel with
    | zero =>
      intro bs h
      cases bs <;> cases h
    | succ fuel ih =>
      intro bs h
      cases bs with
      | nil => cases h
      | cons b bs =>
        simp only [decodeReplaceWithFuel] at h
        split at h
        · rename_i c rest hhead
          obtain ⟨hsuffix, hc⟩ := utf8Head_spec hhead
          rcases List.mem_cons.1 h with rfl | h
          · exact hc hx
          · exact hsuffix.subset (ih rest h)
        · rcases List.mem_cons.1 h with rfl | h
          · omega
          · exact (List.drop_suffix _ _).subset (ih _ h)
  exact hall _ bs h

end PipeWorks.Python
