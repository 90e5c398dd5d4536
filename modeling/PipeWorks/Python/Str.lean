import Mathlib.Data.List.DropRight

/-!
# White space and stripping

The two notions of white space the source depends on: the Unicode property `White_Space`, which
the request model strips by, and the one of `str.isspace`, `str.strip` and `\s` in a pattern,
which has the four separators `1C` to `1F` besides.
-/

set_option autoImplicit false

namespace PipeWorks.Python

/-- The Unicode property `White_Space`. -/
def whiteSpace (c : Char) : Bool :=
  (0x09 ≤ c.toNat && c.toNat ≤ 0x0D) || c.toNat == 0x20 || c.toNat == 0x85 || c.toNat == 0xA0 ||
    c.toNat == 0x1680 || (0x2000 ≤ c.toNat && c.toNat ≤ 0x200A) || c.toNat == 0x2028 ||
    c.toNat == 0x2029 || c.toNat == 0x202F || c.toNat == 0x205F || c.toNat == 0x3000

/-- `str.isspace` of a single character. -/
def isSpace (c : Char) : Bool := whiteSpace c || (0x1C ≤ c.toNat && c.toNat ≤ 0x1F)

theorem isSpace_of_isDigit {c : Char} (h : c.isDigit = true) : isSpace c = false := by
  have hlower : 48 ≤ c.toNat ∧ c.toNat ≤ 57 := by
    simp only [Char.isDigit, Bool.and_eq_true, decide_eq_true_eq] at h
    exact ⟨UInt32.le_iff_toNat_le.mp h.1, UInt32.le_iff_toNat_le.mp h.2⟩
  simp only [isSpace, whiteSpace, Bool.or_eq_false_iff, Bool.and_eq_false_iff, beq_eq_false_iff_ne,
    decide_eq_false_iff_not]
  omega

/-- Remove the characters that satisfy `p` from both ends. -/
def stripChars (p : Char → Bool) (s : List Char) : List Char := (s.dropWhile p).rdropWhile p

/-- `str.strip`. -/
def strip (s : String) : String := String.ofList (stripChars isSpace s.toList)

/-- Stripping by `White_Space`. -/
def trim (s : String) : String := String.ofList (stripChars whiteSpace s.toList)

theorem stripChars_idem (p : Char → Bool) (s : List Char) :
    stripChars p (stripChars p s) = stripChars p s := by
  have hhead : ((s.dropWhile p).rdropWhile p).dropWhile p = (s.dropWhile p).rdropWhile p := by
    cases hu : (s.dropWhile p).rdropWhile p with
    | nil => rfl
    | cons c u =>
      have hprefix := List.rdropWhile_prefix p (s.dropWhile p)
      rw [hu] at hprefix
      obtain ⟨v, hv⟩ := hprefix
      apply List.dropWhile_cons_of_neg
      have hnot := List.dropWhile_get_zero_not p s
      rw [← hv] at hnot
      exact hnot (by simp)
  unfold stripChars
  rw [hhead, List.rdropWhile_idempotent]

/-- A text that stripping leaves alone starts with a character that is not stripped. -/
theorem head_of_stripChars_eq {p : Char → Bool} {c : Char} {s : List Char}
    (h : stripChars p (c :: s) = c :: s) : p c = false := by
  by_contra hp
  rw [Bool.not_eq_false] at hp
  have hshort : (stripChars p (c :: s)).length ≤ s.length := by
    unfold stripChars
    rw [List.dropWhile_cons_of_pos hp]
    exact ((List.rdropWhile_prefix p _).sublist.trans (List.dropWhile_sublist p)).length_le
  rw [h, List.length_cons] at hshort
  omega

/-- Stripping leaves a text alone if neither its first nor its last character is stripped. -/
theorem stripChars_eq_self_iff {p : Char → Bool} {s : List Char} :
    stripChars p s = s ↔
      (∀ c ∈ s.head?, p c = false) ∧ ∀ c ∈ s.getLast?, p c = false := by
  cases s with
  | nil => simp [stripChars]
  | cons a s =>
    have hlast : (a :: s).rdropWhile p = a :: s ↔ ∀ c ∈ (a :: s).getLast?, p c = false := by
      rw [List.rdropWhile_eq_self_iff, List.getLast?_eq_some_getLast (List.cons_ne_nil a s)]
      simp
    constructor
    · intro h
      have hhead := head_of_stripChars_eq h
      unfold stripChars at h
      rw [List.dropWhile_cons_of_neg (by simp [hhead])] at h
      exact ⟨by simpa using hhead, hlast.1 h⟩
    · rintro ⟨hhead, h⟩
      unfold stripChars
      rw [List.dropWhile_cons_of_neg (by simp [hhead a rfl])]
      exact hlast.2 h

/-- A text that stripping leaves alone keeps its ends when only stripped characters go. -/
theorem stripChars_filter {p q : Char → Bool} {s : List Char} (hq : ∀ c, p c = false → q c = true)
    (h : stripChars p s = s) : stripChars p (s.filter q) = s.filter q := by
  rw [stripChars_eq_self_iff] at h ⊢
  have hfind : ∀ {u : List Char} {c : Char}, (∀ d ∈ u.head?, p d = false) →
      c ∈ (u.filter q).head? → p c = false := by
    intro u c hu hc
    cases u with
    | nil => simp at hc
    | cons a u =>
      have ha := hu a rfl
      rw [List.filter_cons_of_pos (hq a ha)] at hc
      cases hc
      exact ha
  constructor
  · exact fun c => hfind h.1
  · intro c hc
    rw [List.getLast?_eq_head?_reverse, ← List.filter_reverse] at hc
    exact hfind (by rw [List.head?_reverse]; exact h.2) hc

theorem stripChars_eq_of_imp {p q : Char → Bool} {s : List Char}
    (hq : ∀ c, p c = false → q c = false) (h : stripChars p s = s) : stripChars q s = s := by
  rw [stripChars_eq_self_iff] at h ⊢
  exact ⟨fun c hc => hq c (h.1 c hc), fun c hc => hq c (h.2 c hc)⟩

theorem stripChars_eq_nil_iff {p : Char → Bool} {s : List Char} :
    stripChars p s = [] ↔ ∀ c ∈ s, p c = true := by
  unfold stripChars
  rw [List.rdropWhile_eq_nil_iff]
  constructor
  · intro h c hc
    rw [← List.takeWhile_append_dropWhile (p := p) (l := s), List.mem_append] at hc
    rcases hc with hc | hc
    · exact List.mem_takeWhile_imp hc
    · exact h c hc
  · exact fun h c hc => h c ((List.dropWhile_sublist p).mem hc)

/-- A text is not blank without some of its stripped characters if it is not blank with them. -/
theorem stripChars_filter_ne_nil {p q : Char → Bool} {s : List Char}
    (hq : ∀ c, p c = false → q c = true) (h : stripChars p s ≠ []) :
    stripChars p (s.filter q) ≠ [] := by
  rw [Ne, stripChars_eq_nil_iff] at h ⊢
  intro hblank
  apply h
  intro c hc
  cases hp : p c with
  | true => rfl
  | false => rw [← hp]; exact hblank c (List.mem_filter.mpr ⟨hc, hq c hp⟩)

end PipeWorks.Python
