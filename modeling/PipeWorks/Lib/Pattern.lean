import Mathlib.Data.List.Basic

/-!
# Patterns, and words in a text

* `Pattern`, `search`: the fragment of regular expressions that has a class before the match, a
  class behind it, literal symbols and repeated classes, with the search by backtracking.
* `Follows space word arg text`: in `text`, `arg` follows the whole word `word` behind white space,
  and white space or the end follows `arg`.  `search_argument_iff` says that this is what the
  pattern `argument` finds.
* `follows_split`: where the text splits at a separator that neither of them has, an occurrence is
  on one side of it or has it between the word and its argument.
-/

set_option autoImplicit false

namespace PipeWorks

namespace Pattern

variable {α : Type} [DecidableEq α]

/-- What a pattern is a sequence of. -/
inductive Item (α : Type) where
  /-- `(?<!p)` -/
  | notBehind (p : α → Bool)
  | symbol (a : α)
  /-- `p+` -/
  | many1 (p : α → Bool)
  /-- `(?=p|$)` -/
  | ahead (p : α → Bool)

/-- `p+` before what `rest` matches. -/
def matchMany1 (p : α → Bool) (rest : Option α → List α → Bool) : List α → Bool
  | [] => false
  | a :: text => p a && (rest (some a) text || matchMany1 p rest text)

/-- The pattern matches at the beginning of `text`, which `before` stands in front of. -/
def matchHere : List (Item α) → Option α → List α → Bool
  | [], _, _ => true
  | .notBehind p :: items, before, text => !before.any p && matchHere items before text
  | .symbol a :: items, _, b :: text => a == b && matchHere items (some b) text
  | .symbol _ :: _, _, [] => false
  | .many1 p :: items, _, text => matchMany1 p (matchHere items) text
  | .ahead p :: items, before, text => text.head?.all p && matchHere items before text

/-- `re.search`, from behind `before` on. -/
def searchFrom (items : List (Item α)) : Option α → List α → Bool
  | before, [] => matchHere items before []
  | before, a :: text => matchHere items before (a :: text) || searchFrom items (some a) text

/-- `re.search`. -/
def search (items : List (Item α)) (text : List α) : Bool := searchFrom items none text

/-- `(?<!\S)word\s+arg(?=\s|$)`. -/
def argument (space : α → Bool) (word arg : List α) : List (Item α) :=
  .notBehind (fun a => !space a) ::
    (word.map .symbol ++ .many1 space :: (arg.map .symbol ++ [.ahead space]))

/-! ## What the search finds -/

omit [DecidableEq α] in
theorem getLast?_cons_or (a : α) (word : List α) (before : Option α) :
    (a :: word).getLast?.or before = word.getLast?.or (some a) := by
  cases h : word.getLast? <;> simp [List.getLast?_cons, h]

theorem matchHere_symbols (items : List (Item α)) (word : List α) (before : Option α)
    (text : List α) :
    matchHere (word.map .symbol ++ items) before text = true ↔
      ∃ rest, text = word ++ rest ∧ matchHere items (word.getLast?.or before) rest = true := by
  induction word generalizing before text with
  | nil => simp
  | cons a word ih =>
    cases text with
    | nil => simp [matchHere]
    | cons b text =>
      simp only [List.map_cons, List.cons_append, matchHere, Bool.and_eq_true, beq_iff_eq, ih,
        getLast?_cons_or, List.cons.injEq]
      constructor
      · rintro ⟨rfl, rest, rfl, hrest⟩
        exact ⟨rest, ⟨rfl, rfl⟩, hrest⟩
      · rintro ⟨rest, ⟨rfl, rfl⟩, hrest⟩
        exact ⟨rfl, rest, rfl, hrest⟩

omit [DecidableEq α] in
theorem matchMany1_iff (p : α → Bool) (rest : Option α → List α → Bool) (text : List α) :
    matchMany1 p rest text = true ↔
      ∃ run more, text = run ++ more ∧ run ≠ [] ∧ (∀ a ∈ run, p a = true) ∧
        rest run.getLast? more = true := by
  induction text with
  | nil => simp [matchMany1]
  | cons a text ih =>
    simp only [matchMany1, Bool.and_eq_true, Bool.or_eq_true, ih]
    constructor
    · rintro ⟨ha, hrest | ⟨run, more, rfl, hrun, hspace, hrest⟩⟩
      · exact ⟨[a], text, rfl, by simp, by simpa using ha, hrest⟩
      · refine ⟨a :: run, more, rfl, by simp, by simpa [ha] using hspace, ?_⟩
        obtain ⟨b, run, rfl⟩ := List.exists_cons_of_ne_nil hrun
        exact hrest
    · rintro ⟨run, more, htext, hrun, hspace, hrest⟩
      obtain ⟨b, run, rfl⟩ := List.exists_cons_of_ne_nil hrun
      simp only [List.cons_append, List.cons.injEq] at htext
      obtain ⟨rfl, rfl⟩ := htext
      refine ⟨hspace a List.mem_cons_self, ?_⟩
      cases run with
      | nil => exact .inl hrest
      | cons c run =>
        exact .inr ⟨c :: run, more, rfl, by simp, fun x hx => hspace x (by simp_all), hrest⟩

theorem searchFrom_iff (items : List (Item α)) (before : Option α) (text : List α) :
    searchFrom items before text = true ↔
      ∃ pre rest, text = pre ++ rest ∧ matchHere items (pre.getLast?.or before) rest = true := by
  induction text generalizing before with
  | nil => simp [searchFrom]
  | cons a text ih =>
    simp only [searchFrom, Bool.or_eq_true, ih]
    constructor
    · rintro (hhere | ⟨pre, rest, rfl, hrest⟩)
      · exact ⟨[], a :: text, rfl, hhere⟩
      · exact ⟨a :: pre, rest, rfl, by rwa [getLast?_cons_or]⟩
    · rintro ⟨pre, rest, htext, hrest⟩
      cases pre with
      | nil =>
        left
        rw [htext]
        exact hrest
      | cons b pre =>
        simp only [List.cons_append, List.cons.injEq] at htext
        obtain ⟨rfl, rfl⟩ := htext
        exact .inr ⟨pre, rest, rfl, by rwa [getLast?_cons_or] at hrest⟩

end Pattern

/-! ## Words in a text -/

namespace Words

variable {α β : Type}

/-- White space or the beginning is in front. -/
def Begins (space : α → Bool) (pre : List α) : Prop := ∀ a ∈ pre.getLast?, space a = true

/-- White space or the end is behind. -/
def Ends (space : α → Bool) (post : List α) : Prop := ∀ a ∈ post.head?, space a = true

def Blank (space : α → Bool) (run : List α) : Prop := ∀ a ∈ run, space a = true

def Follows (space : α → Bool) (word arg text : List α) : Prop :=
  ∃ pre run post, text = pre ++ (word ++ (run ++ (arg ++ post))) ∧ Begins space pre ∧ run ≠ [] ∧
    Blank space run ∧ Ends space post

/-- The same, with white space in front of the word and behind the argument. -/
def FollowsInside (space : α → Bool) (word arg text : List α) : Prop :=
  ∃ pre run post, text = pre ++ (word ++ (run ++ (arg ++ post))) ∧ pre ≠ [] ∧ Begins space pre ∧
    run ≠ [] ∧ Blank space run ∧ post ≠ [] ∧ Ends space post

/-- The text ends with the whole word `word`, up to white space. -/
def Trails (space : α → Bool) (word text : List α) : Prop :=
  ∃ pre run, text = pre ++ (word ++ run) ∧ Begins space pre ∧ Blank space run

/-- The text begins with `arg`, up to white space, and white space or the end follows. -/
def Leads (space : α → Bool) (arg text : List α) : Prop :=
  ∃ run post, text = run ++ (arg ++ post) ∧ Blank space run ∧ Ends space post

variable {space : α → Bool} {word arg text x y : List α} {sep : α}

theorem search_argument_iff [DecidableEq α] :
    Pattern.search (Pattern.argument space word arg) text = true ↔
      Follows space word arg text := by
  have hbegins : ∀ pre : List α,
      (!(pre.getLast?.or none).any fun a => !space a) = true ↔ Begins space pre := by
    intro pre
    cases h : pre.getLast? <;> simp [Begins, h]
  have hends : ∀ post : List α, post.head?.all space = true ↔ Ends space post := by
    intro post
    cases h : post.head? <;> simp [Ends, h]
  simp only [Pattern.search, Pattern.searchFrom_iff, Pattern.argument, Pattern.matchHere,
    Bool.and_eq_true, hbegins, Pattern.matchHere_symbols, Pattern.matchMany1_iff, hends, and_true]
  constructor
  · rintro ⟨pre, _, rfl, hpre, _, rfl, run, _, rfl, hrun, hblank, post, rfl, hpost⟩
    exact ⟨pre, run, post, rfl, hpre, hrun, hblank, hpost⟩
  · rintro ⟨pre, run, post, rfl, hpre, hrun, hblank, hpost⟩
    exact ⟨pre, _, rfl, hpre, _, rfl, run, _, rfl, hrun, hblank, post, rfl, hpost⟩

theorem Begins.append_sep (hsep : space sep = true) {pre : List α} (h : Begins space pre) :
    Begins space (x ++ sep :: pre) := by
  cases pre with
  | nil => simpa [Begins] using hsep
  | cons a pre => simpa [Begins] using h

theorem Begins.of_append_sep {pre : List α} (h : Begins space (x ++ sep :: pre)) :
    Begins space pre := by
  cases pre with
  | nil => simp [Begins]
  | cons a pre => simpa [Begins] using h

theorem Ends.append_sep (hsep : space sep = true) {post : List α} (h : Ends space post) :
    Ends space (post ++ sep :: y) := by
  cases post with
  | nil => simpa [Ends] using hsep
  | cons a post => simpa [Ends] using h

theorem Ends.of_append_sep {post : List α} (h : Ends space (post ++ sep :: y)) :
    Ends space post := by
  cases post with
  | nil => simp [Ends]
  | cons a post => simpa [Ends] using h

theorem Blank.append {a b : List α} (ha : Blank space a) (hb : Blank space b) :
    Blank space (a ++ b) := fun c hc => (List.mem_append.mp hc).elim (ha c) (hb c)

/-- Where a separator of a text is when the text is put together in another way. -/
theorem append_cons_eq_append {a b : List α} :
    x ++ sep :: y = a ++ b ↔
      (∃ a', a = x ++ sep :: a' ∧ y = a' ++ b) ∨ ∃ b', x = a ++ b' ∧ b = b' ++ sep :: y := by
  constructor
  · intro h
    rcases List.append_eq_append_iff.mp h with ⟨a', rfl, hrest⟩ | ⟨b', rfl, rfl⟩
    · cases a' with
      | nil => exact .inr ⟨[], by simp, by simpa using hrest.symm⟩
      | cons c a' =>
        simp only [List.cons_append, List.cons.injEq] at hrest
        obtain ⟨rfl, rfl⟩ := hrest
        exact .inl ⟨a', rfl, rfl⟩
    · exact .inr ⟨b', rfl, rfl⟩
  · rintro (⟨a', rfl, rfl⟩ | ⟨b', rfl, rfl⟩) <;> simp

/-- A part without the separator is on one side of it. -/
theorem append_cons_eq_append_of_not_mem {a b : List α} (ha : sep ∉ a) :
    x ++ sep :: y = a ++ b ↔ ∃ b', x = a ++ b' ∧ b = b' ++ sep :: y := by
  rw [append_cons_eq_append]
  constructor
  · rintro (⟨a', rfl, -⟩ | h)
    · exact absurd (by simp) ha
    · exact h
  · exact .inr

theorem leads_split (hsep : space sep = true) (harg : sep ∉ arg) :
    Leads space arg (x ++ sep :: y) ↔
      Leads space arg x ∨ Blank space x ∧ Leads space arg y := by
  constructor
  · rintro ⟨run, post, htext, hrun, hpost⟩
    rcases append_cons_eq_append.mp htext with ⟨run', rfl, rfl⟩ | ⟨x', rfl, hrest⟩
    · right
      exact ⟨fun a ha => hrun a (by simp [ha]), run', post, rfl,
        fun a ha => hrun a (by simp [ha]), hpost⟩
    · left
      obtain ⟨post', rfl, rfl⟩ := (append_cons_eq_append_of_not_mem harg).mp hrest.symm
      exact ⟨run, post', rfl, hrun, hpost.of_append_sep⟩
  · rintro (⟨run, post, rfl, hrun, hpost⟩ | ⟨hblank, run, post, rfl, hrun, hpost⟩)
    · exact ⟨run, post ++ sep :: y, by simp, hrun, hpost.append_sep hsep⟩
    · refine ⟨x ++ sep :: run, post, by simp, hblank.append fun a ha => ?_, hpost⟩
      rcases List.mem_cons.mp ha with rfl | ha
      · exact hsep
      · exact hrun a ha

theorem follows_split (hsep : space sep = true) (hword : sep ∉ word) (harg : sep ∉ arg) :
    Follows space word arg (x ++ sep :: y) ↔
      Follows space word arg x ∨ Follows space word arg y ∨
        Trails space word x ∧ Leads space arg y := by
  constructor
  · rintro ⟨pre, run, post, htext, hpre, hrun, hblank, hpost⟩
    rcases append_cons_eq_append.mp htext with ⟨pre', rfl, rfl⟩ | ⟨x', rfl, hrest⟩
    · exact .inr (.inl ⟨pre', run, post, rfl, hpre.of_append_sep, hrun, hblank, hpost⟩)
    · obtain ⟨x', rfl, hargs⟩ := (append_cons_eq_append_of_not_mem hword).mp hrest.symm
      rcases append_cons_eq_append.mp hargs.symm with ⟨run', rfl, rfl⟩ | ⟨x', rfl, hpost'⟩
      · right; right
        exact ⟨⟨pre, x', rfl, hpre, fun a ha => hblank a (by simp [ha])⟩,
          run', post, rfl, fun a ha => hblank a (by simp [ha]), hpost⟩
      · left
        obtain ⟨post', rfl, rfl⟩ := (append_cons_eq_append_of_not_mem harg).mp hpost'.symm
        exact ⟨pre, run, post', rfl, hpre, hrun, hblank, hpost.of_append_sep⟩
  · rintro (⟨pre, run, post, rfl, hpre, hrun, hblank, hpost⟩ |
      ⟨pre, run, post, rfl, hpre, hrun, hblank, hpost⟩ |
      ⟨⟨pre, run, rfl, hpre, hblank⟩, run', post, rfl, hblank', hpost⟩)
    · exact ⟨pre, run, post ++ sep :: y, by simp, hpre, hrun, hblank, hpost.append_sep hsep⟩
    · exact ⟨x ++ sep :: pre, run, post, by simp, hpre.append_sep hsep, hrun, hblank, hpost⟩
    · refine ⟨pre, run ++ sep :: run', post, by simp, hpre, by simp, hblank.append ?_, hpost⟩
      intro a ha
      rcases List.mem_cons.mp ha with rfl | ha
      · exact hsep
      · exact hblank' a ha

theorem trails_split (hsep : space sep = true) (hword : sep ∉ word) :
    Trails space word (x ++ sep :: y) ↔
      Trails space word y ∨ Blank space y ∧ Trails space word x := by
  constructor
  · rintro ⟨pre, run, htext, hpre, hblank⟩
    rcases append_cons_eq_append.mp htext with ⟨pre', rfl, rfl⟩ | ⟨x', rfl, hrest⟩
    · exact .inl ⟨pre', run, rfl, hpre.of_append_sep, hblank⟩
    · obtain ⟨x', rfl, rfl⟩ := (append_cons_eq_append_of_not_mem hword).mp hrest.symm
      exact .inr ⟨fun a ha => hblank a (by simp [ha]), pre, x', rfl, hpre,
        fun a ha => hblank a (by simp [ha])⟩
  · rintro (⟨pre, run, rfl, hpre, hblank⟩ | ⟨hy, pre, run, rfl, hpre, hblank⟩)
    · exact ⟨x ++ sep :: pre, run, by simp, hpre.append_sep hsep, hblank⟩
    · refine ⟨pre, run ++ sep :: y, by simp, hpre, hblank.append fun a ha => ?_⟩
      rcases List.mem_cons.mp ha with rfl | ha
      · exact hsep
      · exact hy a ha

/-! ## Texts without white space -/

/-- A text without white space has no argument of a word in it. -/
theorem not_follows (htext : ∀ a ∈ text, space a = false) : ¬ Follows space word arg text := by
  rintro ⟨pre, run, post, rfl, -, hrun, hblank, -⟩
  obtain ⟨a, run, rfl⟩ := List.exists_cons_of_ne_nil hrun
  have hfalse := htext a (by simp)
  rw [hblank a List.mem_cons_self] at hfalse
  cases hfalse

theorem Blank.eq_nil {run : List α} (h : Blank space run) (htext : ∀ a ∈ run, space a = false) :
    run = [] := by
  cases run with
  | nil => rfl
  | cons a run =>
    have hfalse := htext a List.mem_cons_self
    rw [h a List.mem_cons_self] at hfalse
    cases hfalse

theorem trails_iff (htext : ∀ a ∈ text, space a = false) :
    Trails space word text ↔ text = word := by
  constructor
  · rintro ⟨pre, run, rfl, hpre, hblank⟩
    have hrun := hblank.eq_nil fun a ha => htext a (by simp [ha])
    have hnil : pre = [] := by
      by_contra hne
      have hlast := hpre _ (List.getLast?_eq_some_getLast hne)
      rw [htext _ (by simp)] at hlast
      cases hlast
    simp [hrun, hnil]
  · rintro rfl
    exact ⟨[], [], by simp, by simp [Begins], by simp [Blank]⟩

theorem leads_iff (htext : ∀ a ∈ text, space a = false) : Leads space arg text ↔ text = arg := by
  constructor
  · rintro ⟨run, post, rfl, hblank, hpost⟩
    have hrun := hblank.eq_nil fun a ha => htext a (by simp [ha])
    cases post with
    | nil => simp [hrun]
    | cons a post =>
      have hspace := hpost a (by simp)
      rw [htext a (by simp)] at hspace
      cases hspace
  · rintro rfl
    exact ⟨[], [], by simp, by simp [Blank], by simp [Ends]⟩

/-! ## Texts in a larger alphabet -/

section Map

variable {f : α → β} {space' : β → Bool}

theorem blank_map (hspace : ∀ a, space' (f a) = space a) :
    Blank space' (x.map f) ↔ Blank space x := by
  simp [Blank, hspace]

theorem begins_map (hspace : ∀ a, space' (f a) = space a) :
    Begins space' (x.map f) ↔ Begins space x := by
  simp [Begins, hspace]

theorem ends_map (hspace : ∀ a, space' (f a) = space a) :
    Ends space' (x.map f) ↔ Ends space x := by
  simp [Ends, hspace]

/-- What an occurrence in the larger alphabet is made of. -/
theorem exists_parts (hf : Function.Injective f) {pre run post : List β}
    (htext : text.map f = pre ++ (word.map f ++ (run ++ (arg.map f ++ post)))) :
    ∃ pre' run' post', text = pre' ++ (word ++ (run' ++ (arg ++ post'))) ∧
      pre = pre'.map f ∧ run = run'.map f ∧ post = post'.map f := by
  obtain ⟨pre', _, rfl, rfl, hrest₁⟩ := List.map_eq_append_iff.mp htext
  obtain ⟨word', _, rfl, hword, hrest₂⟩ := List.map_eq_append_iff.mp hrest₁
  obtain ⟨run', _, rfl, rfl, hrest₃⟩ := List.map_eq_append_iff.mp hrest₂
  obtain ⟨arg', post', rfl, harg, rfl⟩ := List.map_eq_append_iff.mp hrest₃
  rw [hf.list_map hword, hf.list_map harg]
  exact ⟨pre', run', post', rfl, rfl, rfl, rfl⟩

theorem follows_map (hf : Function.Injective f) (hspace : ∀ a, space' (f a) = space a) :
    Follows space' (word.map f) (arg.map f) (text.map f) ↔ Follows space word arg text := by
  constructor
  · rintro ⟨pre, run, post, htext, hpre, hrun, hblank, hpost⟩
    obtain ⟨pre, run, post, rfl, rfl, rfl, rfl⟩ := exists_parts hf htext
    exact ⟨pre, run, post, rfl, (begins_map hspace).mp hpre, by simpa using hrun,
      (blank_map hspace).mp hblank, (ends_map hspace).mp hpost⟩
  · rintro ⟨pre, run, post, rfl, hpre, hrun, hblank, hpost⟩
    exact ⟨pre.map f, run.map f, post.map f, by simp, (begins_map hspace).mpr hpre,
      by simpa using hrun, (blank_map hspace).mpr hblank, (ends_map hspace).mpr hpost⟩

theorem trails_map (hf : Function.Injective f) (hspace : ∀ a, space' (f a) = space a) :
    Trails space' (word.map f) (text.map f) ↔ Trails space word text := by
  constructor
  · rintro ⟨pre, run, htext, hpre, hblank⟩
    obtain ⟨pre, rest, rfl, rfl, hrest⟩ := List.map_eq_append_iff.mp htext
    obtain ⟨word', run, rfl, hword, rfl⟩ := List.map_eq_append_iff.mp hrest
    rw [hf.list_map hword]
    exact ⟨pre, run, rfl, (begins_map hspace).mp hpre, (blank_map hspace).mp hblank⟩
  · rintro ⟨pre, run, rfl, hpre, hblank⟩
    exact ⟨pre.map f, run.map f, by simp, (begins_map hspace).mpr hpre,
      (blank_map hspace).mpr hblank⟩

theorem leads_map (hf : Function.Injective f) (hspace : ∀ a, space' (f a) = space a) :
    Leads space' (arg.map f) (text.map f) ↔ Leads space arg text := by
  constructor
  · rintro ⟨run, post, htext, hblank, hpost⟩
    obtain ⟨run, _, rfl, rfl, hrest⟩ := List.map_eq_append_iff.mp htext
    obtain ⟨arg', post, rfl, harg, rfl⟩ := List.map_eq_append_iff.mp hrest
    rw [hf.list_map harg]
    exact ⟨run, post, rfl, (blank_map hspace).mp hblank, (ends_map hspace).mp hpost⟩
  · rintro ⟨run, post, rfl, hblank, hpost⟩
    exact ⟨run.map f, post.map f, by simp, (blank_map hspace).mpr hblank,
      (ends_map hspace).mpr hpost⟩

variable {d : β}

/-- Between delimiters that are no white space. -/
theorem follows_delimited (hf : Function.Injective f) (hspace : ∀ a, space' (f a) = space a)
    (hd : ∀ a, f a ≠ d) (hdspace : space' d = false) (hword : word ≠ []) (harg : arg ≠ []) :
    Follows space' (word.map f) (arg.map f) (d :: (text.map f ++ [d])) ↔
      FollowsInside space word arg text := by
  constructor
  · rintro ⟨pre, run, post, htext, hpre, hrun, hblank, hpost⟩
    -- the delimiters are neither of the word nor of its argument
    rcases pre with _ | ⟨d', pre⟩
    · obtain ⟨a, word, rfl⟩ := List.exists_cons_of_ne_nil hword
      simp only [List.nil_append, List.map_cons, List.cons_append, List.cons.injEq] at htext
      exact absurd htext.1.symm (hd a)
    simp only [List.cons_append, List.cons.injEq] at htext
    obtain ⟨rfl, htext⟩ := htext
    rcases List.eq_nil_or_concat' post with rfl | ⟨post, d', rfl⟩
    · have hlast := congrArg List.getLast? htext
      obtain ⟨arg, a, rfl⟩ := (List.eq_nil_or_concat' arg).resolve_left harg
      simp only [List.map_append, List.map_cons, List.map_nil, List.append_nil,
        List.getLast?_append, List.getLast?_singleton, Option.some_or, Option.some.injEq] at hlast
      exact absurd hlast.symm (hd a)
    have hsplit : text.map f ++ [d] =
        (pre ++ (word.map f ++ (run ++ (arg.map f ++ post)))) ++ [d'] := by simpa using htext
    obtain ⟨hinside, hd'⟩ := List.append_inj' hsplit rfl
    simp only [List.cons.injEq, and_true] at hd'
    subst hd'
    obtain ⟨pre, run, post, rfl, rfl, rfl, rfl⟩ := exists_parts hf hinside
    refine ⟨pre, run, post, rfl, ?_, (begins_map hspace).mp (hpre.of_append_sep (x := [])),
      by simpa using hrun, (blank_map hspace).mp hblank, ?_,
      (ends_map hspace).mp hpost.of_append_sep⟩
    · rintro rfl
      have hlast := hpre d (by simp)
      rw [hdspace] at hlast
      cases hlast
    · rintro rfl
      have hhead := hpost d (by simp)
      rw [hdspace] at hhead
      cases hhead
  · rintro ⟨pre, run, post, rfl, hne, hpre, hrun, hblank, hne', hpost⟩
    refine ⟨d :: pre.map f, run.map f, post.map f ++ [d], by simp, ?_, by simpa using hrun,
      (blank_map hspace).mpr hblank, ?_⟩
    · obtain ⟨pre, a, rfl⟩ := (List.eq_nil_or_concat' pre).resolve_left hne
      have ha := hpre a (by simp)
      simpa [Begins, List.getLast?_cons, hspace] using ha
    · obtain ⟨a, post, rfl⟩ := List.exists_cons_of_ne_nil hne'
      have ha := hpost a (by simp)
      simpa [Ends, hspace] using ha

/-- No argument without delimiters leads a text that begins with one. -/
theorem not_leads_delimited (hd : ∀ a, f a ≠ d) (hdspace : space' d = false) (harg : arg ≠ [])
    (y : List β) : ¬ Leads space' (arg.map f) (d :: y) := by
  rintro ⟨run, post, htext, hblank, -⟩
  cases run with
  | nil =>
    obtain ⟨a, arg, rfl⟩ := List.exists_cons_of_ne_nil harg
    simp only [List.nil_append, List.map_cons, List.cons_append, List.cons.injEq] at htext
    exact hd a htext.1.symm
  | cons a run =>
    simp only [List.cons_append, List.cons.injEq] at htext
    have ha := hblank a List.mem_cons_self
    rw [← htext.1, hdspace] at ha
    cases ha

theorem not_trails_delimited (hd : ∀ a, f a ≠ d) (hdspace : space' d = false) (hword : word ≠ [])
    (x : List β) : ¬ Trails space' (word.map f) (x ++ [d]) := by
  rintro ⟨pre, run, htext, -, hblank⟩
  have hlast := congrArg List.getLast? htext
  rcases List.eq_nil_or_concat' run with rfl | ⟨run, a, rfl⟩
  · obtain ⟨word, a, rfl⟩ := (List.eq_nil_or_concat' word).resolve_left hword
    simp only [List.map_append, List.map_cons, List.map_nil, List.append_nil,
      List.getLast?_append, List.getLast?_singleton, Option.some_or, Option.some.injEq] at hlast
    exact hd a hlast.symm
  · simp only [List.getLast?_append, List.getLast?_singleton, Option.some_or,
      Option.some.injEq] at hlast
    have ha := hblank a (by simp)
    rw [← hlast, hdspace] at ha
    cases ha

end Map

end Words

end PipeWorks
