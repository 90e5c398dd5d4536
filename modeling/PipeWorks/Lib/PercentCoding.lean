import Mathlib.Data.List.Basic

/-!
# Percent-encoding

Bytes and characters are numbers.  `encode safe` leaves the bytes that are `safe` and writes the
others as `%XX`; `decode` reads the escapes and leaves everything else.

* `decode_encode` — if `%` is not safe, what has been encoded is read back;
* `mem_encode` — the characters of an encoded text;
* `splitOn_encode` — a safe delimiter splits the encoded text where it splits the bytes.
-/

set_option autoImplicit false

namespace PercentCoding

/-- The character `%`. -/
def percent : ℕ := 37

/-- A digit of `0123456789ABCDEF`. -/
def hexDigit (n : ℕ) : ℕ := if n < 10 then 48 + n else 55 + n

/-- The value of a hexadecimal digit, in either case. -/
def hexValue (c : ℕ) : Option ℕ :=
  if 48 ≤ c ∧ c ≤ 57 then some (c - 48)
  else if 65 ≤ c ∧ c ≤ 70 then some (c - 55)
  else if 97 ≤ c ∧ c ≤ 102 then some (c - 87)
  else none

def encodeByte (safe : ℕ → Bool) (b : ℕ) : List ℕ :=
  if safe b then [b] else [percent, hexDigit (b / 16), hexDigit (b % 16)]

def encode (safe : ℕ → Bool) (bs : List ℕ) : List ℕ := bs.flatMap (encodeByte safe)

/-- A `%` that two digits do not follow stays. -/
def decode : List ℕ → List ℕ
  | 37 :: a :: b :: s =>
    match hexValue a, hexValue b with
    | some high, some low => (16 * high + low) :: decode s
    | _, _ => 37 :: decode (a :: b :: s)
  | c :: s => c :: decode s
  | [] => []

variable {safe : ℕ → Bool} {bs : List ℕ} {x c : ℕ}

theorem hexValue_hexDigit {n : ℕ} (h : n < 16) : hexValue (hexDigit n) = some n := by
  unfold hexValue hexDigit
  by_cases hn : n < 10
  · rw [if_pos hn, if_pos (by omega)]
    simp
  · rw [if_neg hn, if_neg (by omega), if_pos (by omega)]
    simp

theorem decode_cons (hc : c ≠ percent) (s : List ℕ) : decode (c :: s) = c :: decode s := by
  rw [decode]
  rintro a b t rfl -
  exact hc rfl

theorem decode_eq_self (h : percent ∉ bs) : decode bs = bs := by
  induction bs with
  | nil => rfl
  | cons b bs ih =>
    obtain ⟨hb, hbs⟩ := not_or.1 (mt List.mem_cons.2 h)
    rw [decode_cons (Ne.symm hb), ih hbs]

theorem decode_encodeByte {b : ℕ} (hsafe : safe percent = false) (hb : b < 256) (s : List ℕ) :
    decode (encodeByte safe b ++ s) = b :: decode s := by
  unfold encodeByte
  split
  · rename_i hb'
    refine decode_cons ?_ s
    rintro rfl
    rw [hsafe] at hb'
    cases hb'
  · have hhigh := hexValue_hexDigit (n := b / 16) (by omega)
    have hlow := hexValue_hexDigit (n := b % 16) (by omega)
    show decode (37 :: hexDigit (b / 16) :: hexDigit (b % 16) :: s) = _
    simp only [decode, hhigh, hlow]
    rw [Nat.div_add_mod]

/-- **What has been encoded is read back.** -/
theorem decode_encode (hsafe : safe percent = false) (hbytes : ∀ b ∈ bs, b < 256) :
    decode (encode safe bs) = bs := by
  induction bs with
  | nil => rfl
  | cons b bs ih =>
    rw [encode, List.flatMap_cons, decode_encodeByte hsafe (hbytes b (List.mem_cons_self ..))]
    exact congrArg (b :: ·) (ih fun c hc => hbytes c (List.mem_cons_of_mem b hc))

/-- The characters of the escapes of bytes. -/
def isEscape (c : ℕ) : Bool := c == percent || (48 ≤ c && c ≤ 57) || (65 ≤ c && c ≤ 70)

theorem isEscape_hexDigit {n : ℕ} (h : n < 16) : isEscape (hexDigit n) = true := by
  unfold isEscape hexDigit
  by_cases hn : n < 10
  · simp [hn, percent]
    omega
  · simp [hn, percent]
    omega

theorem mem_encodeByte {b : ℕ} (hb : b < 256) (h : c ∈ encodeByte safe b) :
    (c = b ∧ safe b = true) ∨ isEscape c = true := by
  unfold encodeByte at h
  split at h
  · rename_i hsafe
    exact .inl ⟨List.mem_singleton.1 h, hsafe⟩
  · right
    simp only [List.mem_cons, List.not_mem_nil, or_false] at h
    rcases h with rfl | rfl | rfl
    · rfl
    · exact isEscape_hexDigit (by omega)
    · exact isEscape_hexDigit (by omega)

theorem mem_encode (hbytes : ∀ b ∈ bs, b < 256) (h : c ∈ encode safe bs) :
    (c ∈ bs ∧ safe c = true) ∨ isEscape c = true := by
  obtain ⟨b, hb, hc⟩ := List.mem_flatMap.1 h
  rcases mem_encodeByte (hbytes b hb) hc with ⟨rfl, hsafe⟩ | hescape
  · exact .inl ⟨hb, hsafe⟩
  · exact .inr hescape

theorem encode_ne_nil (h : bs ≠ []) : encode safe bs ≠ [] := by
  obtain ⟨b, bs, rfl⟩ := List.exists_cons_of_ne_nil h
  rw [encode, List.flatMap_cons]
  unfold encodeByte
  split <;> simp

/-- A piece without delimiters belongs to the first part. -/
theorem splitOn_append {u : List ℕ} (hu : x ∉ u) (s : List ℕ) :
    (u ++ s).splitOn x = (s.splitOn x).modifyHead (u ++ ·) := by
  induction u with
  | nil =>
    rw [List.nil_append]
    cases s.splitOn x <;> rfl
  | cons a u ih =>
    obtain ⟨ha, hu⟩ := not_or.1 (mt List.mem_cons.2 hu)
    rw [List.cons_append, List.splitOn_cons_eq_if_modifyHead, if_neg (by simpa using Ne.symm ha),
      ih hu]
    cases s.splitOn x <;> rfl

/-- A part is made of what was split, without the delimiter. -/
theorem part_of_mem_splitOn {u : List ℕ} (h : u ∈ bs.splitOn x) : x ∉ u ∧ u ⊆ bs := by
  induction bs generalizing u with
  | nil =>
    rw [List.splitOn_nil, List.mem_singleton] at h
    simp [h]
  | cons b bs ih =>
    rw [List.splitOn_cons_eq_if_modifyHead] at h
    split at h
    · rcases List.mem_cons.1 h with rfl | h
      · simp
      · exact ⟨(ih h).1, List.subset_cons_of_subset b (ih h).2⟩
    · rename_i hb
      cases hparts : bs.splitOn x with
      | nil =>
        rw [hparts] at h
        cases h
      | cons part parts =>
        rw [hparts] at h ih
        rcases List.mem_cons.1 h with rfl | h
        · obtain ⟨hnot, hsub⟩ := ih (List.mem_cons_self ..)
          simp only [beq_iff_eq] at hb
          exact ⟨by simp [hnot, Ne.symm hb], List.cons_subset_cons b hsub⟩
        · obtain ⟨hnot, hsub⟩ := ih (List.mem_cons_of_mem _ h)
          exact ⟨hnot, List.subset_cons_of_subset b hsub⟩

/-- **A safe delimiter** splits the encoded text where it splits the bytes. -/
theorem splitOn_encode (hbytes : ∀ b ∈ bs, b < 256) (hsafe : safe x = true)
    (hx : isEscape x = false) : (encode safe bs).splitOn x = (bs.splitOn x).map (encode safe) := by
  induction bs with
  | nil => rfl
  | cons b bs ih =>
    have ih := ih fun c hc => hbytes c (List.mem_cons_of_mem b hc)
    have hsplit : encode safe (b :: bs) = encodeByte safe b ++ encode safe bs := rfl
    rw [hsplit, List.splitOn_cons_eq_if_modifyHead]
    by_cases hb : b = x
    · subst hb
      rw [encodeByte, if_pos hsafe, List.singleton_append, List.splitOn_cons_eq_if_modifyHead,
        if_pos (by simp), if_pos (by simp), ih, List.map_cons]
      rfl
    · have hnot : x ∉ encodeByte safe b := by
        intro hmem
        rcases mem_encodeByte (hbytes b (List.mem_cons_self ..)) hmem with ⟨rfl, -⟩ | hescape
        · exact hb rfl
        · rw [hx] at hescape
          cases hescape
      rw [splitOn_append hnot, ih, if_neg (by simpa using hb)]
      cases bs.splitOn x with
      | nil => rfl
      | cons part parts => rfl

end PercentCoding
