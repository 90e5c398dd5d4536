import PipeWorks.Lib.Pattern
import PipeWorks.Python.Str

/-!
# Command lines (`subprocess.list2cmdline`)

`list2cmdline` writes a list of arguments into one line.  An argument with a space or a tab stands
between quotation marks; a quotation mark of the argument itself gets a backslash, and backslashes
in front of either kind of quotation mark are doubled.

The line can be read back: it is what `write` makes of the arguments with their delimiters as
symbols of their own (`list2cmdline_eq`), and `write` is injective.  White space is written as it
is, so that a word and its argument can be looked up before the writing (`follows_write`).
-/

set_option autoImplicit false

namespace PipeWorks.Python

open Words

/-- `needquote`. -/
def needQuote (arg : List Char) : Bool := arg.contains ' ' || arg.contains '\t' || arg.isEmpty

/-- The loop over the characters of an argument; `n` is the length of `bs_buf`. -/
def quoteLoop (quoted : Bool) : Nat → List Char → List Char
  | n, [] => List.replicate n '\\' ++ if quoted then List.replicate n '\\' ++ ['"'] else []
  | n, c :: cs =>
    if c = '\\' then quoteLoop quoted (n + 1) cs
    else if c = '"' then List.replicate (n * 2) '\\' ++ '\\' :: '"' :: quoteLoop quoted 0 cs
    else List.replicate n '\\' ++ c :: quoteLoop quoted 0 cs

/-- One argument in the line. -/
def quoteArg (arg : List Char) : List Char :=
  if needQuote arg then '"' :: quoteLoop true 0 arg else quoteLoop false 0 arg

def list2cmdline (seq : List (List Char)) : List Char :=
  seq.foldl (fun result arg => (if result.isEmpty then [] else result ++ [' ']) ++ quoteArg arg) []

/-! ## Symbols -/

/-- A character of an argument, or a quotation mark around one. -/
inductive Symbol where
  | quote
  | char (c : Char)
  deriving DecidableEq, Repr

def Symbol.isSpace : Symbol → Bool
  | .quote => false
  | .char c => Python.isSpace c

@[simp] theorem Symbol.isSpace_char (c : Char) : (Symbol.char c).isSpace = Python.isSpace c := rfl

/-- Only backslashes are in front of the next quotation mark. -/
def meetsQuote : List Symbol → Bool
  | [] => false
  | .quote :: _ => true
  | .char c :: text => c == '"' || (c == '\\' && meetsQuote text)

def write : List Symbol → List Char
  | [] => []
  | .quote :: text => '"' :: write text
  | .char c :: text =>
    if c = '"' then '\\' :: '"' :: write text
    else if c = '\\' ∧ meetsQuote text = true then '\\' :: '\\' :: write text
    else c :: write text

/-- An argument and its delimiters. -/
def symbols (arg : List Char) : List Symbol :=
  if needQuote arg then .quote :: (arg.map .char ++ [.quote]) else arg.map .char

/-- The arguments with spaces between them. -/
def line : List (List Symbol) → List Symbol
  | [] => []
  | [arg] => arg
  | arg :: args => arg ++ .char ' ' :: line args

theorem line_singleton (arg : List Symbol) : line [arg] = arg := rfl

theorem line_cons (arg next : List Symbol) (args : List (List Symbol)) :
    line (arg :: next :: args) = arg ++ .char ' ' :: line (next :: args) := rfl

/-- A character that is written as it is. -/
def Verbatim (c : Char) : Prop := c ≠ '\\' ∧ c ≠ '"'

theorem verbatim_of_isSpace {c : Char} (h : isSpace c = true) : Verbatim c := by
  constructor <;> rintro rfl <;> revert h <;> decide

/-! ## Writing -/

theorem write_verbatim {c : Char} (hc : Verbatim c) (text : List Symbol) :
    write (.char c :: text) = c :: write text := by
  simp [write, hc.1, hc.2]

theorem meetsQuote_append {c : Char} (hc : Verbatim c) (x y : List Symbol) :
    meetsQuote (x ++ .char c :: y) = meetsQuote x := by
  induction x with
  | nil => simp [meetsQuote, hc.1, hc.2]
  | cons s x ih =>
    cases s with
    | quote => rfl
    | char d => simp [meetsQuote, ih]

theorem write_append {c : Char} (hc : Verbatim c) (x y : List Symbol) :
    write (x ++ .char c :: y) = write x ++ c :: write y := by
  induction x with
  | nil => exact write_verbatim hc y
  | cons s x ih =>
    cases s with
    | quote => simp [write, ih]
    | char d =>
      simp only [List.cons_append, write, ih, meetsQuote_append hc]
      split
      · rfl
      · split <;> rfl

/-- A backslash or a quotation mark is written as one or two characters, none of them verbatim, and
    in the same way if the text is cut off at a character that is verbatim. -/
theorem write_escaped {c e : Char} (hc : Verbatim c) (he : ¬ Verbatim e) (text : List Symbol) :
    ∃ block : List Char, c ∉ block ∧ write (.char e :: text) = block ++ write text ∧
      ∀ x y, text = x ++ .char c :: y → write (.char e :: x) = block ++ write x := by
  simp only [write]
  split
  · refine ⟨['\\', '"'], ?_, rfl, fun _ _ _ => rfl⟩
    simpa using ⟨hc.1, hc.2⟩
  · have hback : e = '\\' := by
      by_contra hne
      exact he ⟨hne, ‹_›⟩
    split
    · rename_i hmeets
      refine ⟨['\\', '\\'], by simpa using hc.1, rfl, fun x y hx => ?_⟩
      rw [hx, meetsQuote_append hc] at hmeets
      rw [if_pos hmeets]
      rfl
    · rename_i hmeets
      refine ⟨[e], by simpa [hback] using hc.1, rfl, fun x y hx => ?_⟩
      rw [hx, meetsQuote_append hc] at hmeets
      rw [if_neg hmeets]
      rfl

/-- What is in front of a verbatim character has been written by itself. -/
theorem write_eq_append {c : Char} (hc : Verbatim c) {text : List Symbol} {u v : List Char}
    (h : write text = u ++ c :: v) :
    ∃ x y, text = x ++ .char c :: y ∧ write x = u ∧ write y = v := by
  induction text generalizing u with
  | nil => simp [write] at h
  | cons s text ih =>
    cases s with
    | quote =>
      cases u with
      | nil =>
        simp only [write, List.nil_append, List.cons.injEq] at h
        exact absurd h.1.symm hc.2
      | cons d u =>
        simp only [write, List.cons_append, List.cons.injEq] at h
        obtain ⟨x, y, rfl, hx, hy⟩ := ih h.2
        exact ⟨.quote :: x, y, rfl, by rw [write, hx, h.1], hy⟩
    | char e =>
      by_cases he : Verbatim e
      · rw [write_verbatim he] at h
        cases u with
        | nil =>
          simp only [List.nil_append, List.cons.injEq] at h
          obtain ⟨rfl, h⟩ := h
          exact ⟨[], text, rfl, rfl, h⟩
        | cons d u =>
          simp only [List.cons_append, List.cons.injEq] at h
          obtain ⟨x, y, rfl, hx, hy⟩ := ih h.2
          exact ⟨.char e :: x, y, rfl, by rw [write_verbatim he, hx, h.1], hy⟩
      · obtain ⟨block, hmem, hwrite, hagain⟩ := write_escaped hc he text
        rw [hwrite] at h
        obtain ⟨u', rfl, hu'⟩ := (append_cons_eq_append_of_not_mem hmem).mp h.symm
        obtain ⟨x, y, rfl, hx, hy⟩ := ih hu'
        exact ⟨.char e :: x, y, rfl, by rw [hagain x y rfl, hx], hy⟩

/-- `meetsQuote`, of a written text. -/
def meetsMark : List Char → Bool
  | [] => false
  | c :: text => c == '"' || (c == '\\' && meetsMark text)

theorem meetsMark_write (text : List Symbol) : meetsMark (write text) = meetsQuote text := by
  induction text with
  | nil => rfl
  | cons s text ih =>
    cases s with
    | quote => simp [write, meetsMark, meetsQuote]
    | char c =>
      simp only [write, meetsQuote]
      split
      · simp [meetsMark, *]
      · split
        · simp [meetsMark, *]
        · simp [meetsMark, ih]

theorem write_eq_nil {text : List Symbol} (h : write text = []) : text = [] := by
  cases text with
  | nil => rfl
  | cons s text =>
    cases s with
    | quote => cases h
    | char c =>
      simp only [write] at h
      split at h
      · cases h
      · split at h <;> cases h

theorem write_injective {x y : List Symbol} (h : write x = write y) : x = y := by
  induction x generalizing y with
  | nil => exact (write_eq_nil h.symm).symm
  | cons s x ih =>
    -- the symbols are told apart by the first two characters, or by what the backslashes meet
    have hx := meetsMark_write x
    cases y with
    | nil => exact write_eq_nil h
    | cons t y =>
      have hy := meetsMark_write y
      cases s <;> cases t <;> simp only [write] at h
      · simp only [List.cons.injEq, true_and] at h
        rw [ih h]
      · grind [meetsMark]
      · grind [meetsMark]
      · grind [meetsMark]

/-! ## The line as symbols -/

/-- Backslashes that have been read and not been written. -/
theorem write_replicate (n : Nat) (text : List Symbol) :
    write (List.replicate n (.char '\\') ++ text) =
      List.replicate (if meetsQuote text then n * 2 else n) '\\' ++ write text := by
  have hmeets : ∀ n, meetsQuote (List.replicate n (.char '\\') ++ text) = meetsQuote text := by
    intro n
    induction n with
    | zero => rfl
    | succ n ih => simp [List.replicate_succ, meetsQuote, ih]
  induction n with
  | zero => simp
  | succ n ih =>
    simp only [List.replicate_succ, List.cons_append, write, hmeets, ih]
    cases meetsQuote text <;> simp [List.replicate_succ, Nat.add_mul]

theorem quoteLoop_eq (quoted : Bool) (n : Nat) (arg : List Char) :
    quoteLoop quoted n arg = write (List.replicate n (.char '\\') ++
      (arg.map .char ++ if quoted then [.quote] else [])) := by
  induction arg generalizing n with
  | nil =>
    rw [write_replicate]
    cases quoted
    · simp [quoteLoop, meetsQuote, write]
    · simp [quoteLoop, meetsQuote, write, Nat.mul_two, ← List.append_assoc]
  | cons c arg ih =>
    simp only [quoteLoop]
    split
    · rename_i hc
      rw [ih, hc, List.replicate_succ']
      simp
    · rw [write_replicate]
      split
      · rename_i hquote
        simp [ih, hquote, meetsQuote, write]
      · rename_i hback hquote
        simp [ih, hquote, hback, meetsQuote, write]

theorem quoteArg_eq (arg : List Char) : quoteArg arg = write (symbols arg) := by
  unfold quoteArg symbols
  split <;> simp [quoteLoop_eq, write]

theorem symbols_ne_nil (arg : List Char) : symbols arg ≠ [] := by
  unfold symbols
  split
  · simp
  · rename_i hquote
    rintro hnil
    simp_all [needQuote]

theorem verbatim_space : Verbatim ' ' := verbatim_of_isSpace (by decide)

theorem list2cmdline_eq (seq : List (List Char)) :
    list2cmdline seq = write (line (seq.map symbols)) := by
  have hne : ∀ arg, quoteArg arg ≠ [] := fun arg h =>
    symbols_ne_nil arg (write_eq_nil (by rw [← quoteArg_eq, h]))
  have hfold : ∀ (seq : List (List Char)) (result : List Symbol), result ≠ [] →
      seq.foldl (fun result arg => (if result.isEmpty then [] else result ++ [' ']) ++ quoteArg arg)
        (write result) = write (line (result :: seq.map symbols)) := by
    intro seq
    induction seq with
    | nil => exact fun result _ => rfl
    | cons arg seq ih =>
      intro result hresult
      have hempty : (write result).isEmpty = false := by
        rw [List.isEmpty_eq_false_iff]
        exact fun h => hresult (write_eq_nil h)
      have hnext : (if (write result).isEmpty then [] else write result ++ [' ']) ++ quoteArg arg =
          write (result ++ .char ' ' :: symbols arg) := by
        rw [hempty, write_append verbatim_space, quoteArg_eq]
        simp
      rw [List.foldl_cons, hnext, ih _ (by simp)]
      cases seq <;> simp [line]
  cases seq with
  | nil => rfl
  | cons arg seq =>
    have hfirst := hfold seq (symbols arg) (symbols_ne_nil arg)
    rw [← quoteArg_eq] at hfirst
    exact hfirst

/-! ## Words in the line -/

/-- A text that begins verbatim has been written by itself. -/
theorem write_eq_cons {c : Char} (hc : Verbatim c) {text : List Symbol} {v : List Char}
    (h : write text = c :: v) : ∃ y, text = .char c :: y ∧ write y = v := by
  obtain ⟨x, y, rfl, hx, hy⟩ := write_eq_append (u := []) hc h
  rw [write_eq_nil hx]
  exact ⟨y, rfl, hy⟩

theorem write_eq_map_append {u v : List Char} (hu : ∀ c ∈ u, Verbatim c) {text : List Symbol}
    (h : write text = u ++ v) : ∃ y, text = u.map .char ++ y ∧ write y = v := by
  induction u generalizing text with
  | nil => exact ⟨text, rfl, h⟩
  | cons c u ih =>
    obtain ⟨y, rfl, hy⟩ := write_eq_cons (hu c List.mem_cons_self) h
    obtain ⟨z, rfl, hz⟩ := ih (fun d hd => hu d (List.mem_cons_of_mem c hd)) hy
    exact ⟨z, rfl, hz⟩

theorem write_map_append {u : List Char} (hu : ∀ c ∈ u, Verbatim c) (y : List Symbol) :
    write (u.map .char ++ y) = u ++ write y := by
  induction u with
  | nil => rfl
  | cons c u ih =>
    rw [List.map_cons, List.cons_append, write_verbatim (hu c List.mem_cons_self),
      ih fun d hd => hu d (List.mem_cons_of_mem c hd)]
    rfl

theorem begins_write {text : List Symbol} :
    Begins isSpace (write text) ↔ Begins Symbol.isSpace text := by
  constructor
  · intro h s hs
    rcases List.eq_nil_or_concat' (write text) with hnil | ⟨u, c, hwrite⟩
    · rw [write_eq_nil hnil] at hs
      cases hs
    · have hc := h c (by simp [hwrite])
      obtain ⟨x, y, rfl, -, hy⟩ := write_eq_append (verbatim_of_isSpace hc) hwrite
      rw [write_eq_nil hy] at hs
      simp only [List.getLast?_append, List.getLast?_singleton, Option.some_or, Option.mem_def,
        Option.some.injEq] at hs
      rw [← hs]
      exact hc
  · intro h
    rcases List.eq_nil_or_concat' text with rfl | ⟨x, s, rfl⟩
    · simp [write, Begins]
    · have hs := h s (by simp)
      cases s with
      | quote => cases hs
      | char c =>
        rw [write_append (verbatim_of_isSpace hs)]
        simpa [Begins, write] using hs

theorem ends_write {text : List Symbol} :
    Ends isSpace (write text) ↔ Ends Symbol.isSpace text := by
  constructor
  · intro h s hs
    cases hwrite : write text with
    | nil =>
      rw [write_eq_nil hwrite] at hs
      cases hs
    | cons c v =>
      have hc := h c (by simp [hwrite])
      obtain ⟨y, rfl, -⟩ := write_eq_cons (verbatim_of_isSpace hc) hwrite
      cases hs
      exact hc
  · intro h
    cases text with
    | nil => simp [write, Ends]
    | cons s text =>
      have hs := h s (by simp)
      cases s with
      | quote => cases hs
      | char c =>
        rw [write_verbatim (verbatim_of_isSpace hs)]
        simpa [Ends] using hs

/-- What stands before white space or the end has been written by itself. -/
theorem write_append_ends {x y : List Symbol} (hy : Ends Symbol.isSpace y) :
    write (x ++ y) = write x ++ write y := by
  cases y with
  | nil => simp [write]
  | cons s y =>
    have hs := hy s (by simp)
    cases s with
    | quote => cases hs
    | char c =>
      have hc := verbatim_of_isSpace (c := c) hs
      rw [write_append hc, write_verbatim hc]

theorem exists_map_of_blank {run : List Symbol} (h : Blank Symbol.isSpace run) :
    ∃ u : List Char, run = u.map .char := by
  induction run with
  | nil => exact ⟨[], rfl⟩
  | cons s run ih =>
    obtain ⟨u, rfl⟩ := ih fun t ht => h t (List.mem_cons_of_mem s ht)
    cases s with
    | quote => exact absurd (h .quote List.mem_cons_self) (by decide)
    | char c => exact ⟨c :: u, rfl⟩

/-- A word and its argument are in the written line where they were before. -/
theorem follows_write {word : List Char} (hword : ∀ c ∈ word, Verbatim c) (hne : word ≠ [])
    (arg text : List Symbol) :
    Follows isSpace word (write arg) (write text) ↔
      Follows Symbol.isSpace (word.map .char) arg text := by
  constructor
  · rintro ⟨pre, run, post, htext, hpre, hrun, hblank, hpost⟩
    obtain ⟨c, v, rfl⟩ := List.exists_cons_of_ne_nil hne
    obtain ⟨x, y, rfl, rfl, hy⟩ := write_eq_append (hword c List.mem_cons_self) htext
    obtain ⟨y, rfl, hrest⟩ :=
      write_eq_map_append (fun d hd => hword d (List.mem_cons_of_mem c hd)) hy
    obtain ⟨y, rfl, hargs⟩ :=
      write_eq_map_append (fun d hd => verbatim_of_isSpace (hblank d hd)) hrest
    obtain ⟨z, rfl, rfl⟩ : ∃ z, y = arg ++ z ∧ write z = post := by
      cases post with
      | nil =>
        rw [List.append_nil] at hargs
        exact ⟨[], by simp [write_injective hargs], rfl⟩
      | cons d post =>
        have hd := verbatim_of_isSpace (hpost d (by simp))
        obtain ⟨a, z, rfl, ha, hz⟩ := write_eq_append hd hargs
        exact ⟨.char d :: z, by rw [write_injective ha], by rw [write_verbatim hd, hz]⟩
    exact ⟨x, run.map .char, z, by simp, begins_write.mp hpre, by simpa using hrun,
      (blank_map Symbol.isSpace_char).mpr hblank, ends_write.mp hpost⟩
  · rintro ⟨pre, run, post, rfl, hpre, hrun, hblank, hpost⟩
    obtain ⟨run, rfl⟩ := exists_map_of_blank hblank
    have hverbatim : ∀ d ∈ run, Verbatim d := fun d hd =>
      verbatim_of_isSpace ((blank_map Symbol.isSpace_char).mp hblank d hd)
    refine ⟨write pre, run, write post, ?_, begins_write.mpr hpre, by simpa using hrun,
      (blank_map Symbol.isSpace_char).mp hblank, ends_write.mpr hpost⟩
    have hpre' : ∀ y, write (pre ++ (word.map .char ++ y)) = write pre ++ (word ++ write y) := by
      intro y
      obtain ⟨c, v, rfl⟩ := List.exists_cons_of_ne_nil hne
      rw [List.map_cons, List.cons_append, write_append (hword c List.mem_cons_self),
        write_map_append fun d hd => hword d (List.mem_cons_of_mem c hd)]
      rfl
    rw [hpre', write_map_append hverbatim, write_append_ends hpost]

end PipeWorks.Python
