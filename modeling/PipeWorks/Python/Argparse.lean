import Mathlib.Logic.Function.Basic
import PipeWorks.Python.Int

/-!
# Option parsing (`argparse` of Python 3.11)

The parser of a program without positional arguments, whose options take one argument each, and
which has `-h` and `--help`.  First every argument is classified by itself: it is an option, or an
argument for one, or the `--` behind which everything is an argument.  Then the options are
consumed from left to right, each with the argument behind it.

What begins with a dash is an option with few exceptions, so that `parseKnown_pair` has to ask how
the argument behind an option is read.
-/

set_option autoImplicit false

namespace PipeWorks.Python.Argparse

/-! ## Data -/

/-- An attribute of the namespace. -/
inductive Value where
  | str (s : String)
  | int (n : Int)
  /-- the empty list: what is left of an explicit `--` -/
  | empty
  deriving DecidableEq, Repr

/-- `type=`. -/
inductive ArgType where
  | str
  | int
  deriving DecidableEq, Repr

inductive Action where
  | help
  | store (dest : String) (type : ArgType) (required : Bool) (default : Option Value)
  deriving DecidableEq, Repr

/-- `_option_string_actions`, in the order of the calls of `add_argument`. -/
abbrev Options := List (String × Action)

/-- `ArgumentParser()`. -/
def argumentParser : Options := [("-h", .help), ("--help", .help)]

/-- How an argument is classified. -/
inductive Pattern where
  /-- `A` -/
  | argument
  /-- `-` -/
  | dashes
  /-- `O`, with the action of the option, if it is one of the parser's, and the argument after an
      equality sign -/
  | option (action : Option Action) (explicit : Option (List Char))
  deriving DecidableEq, Repr

/-- What has been parsed. -/
structure Parsed where
  values : String → Option Value
  seen : List String
  extras : List String

/-! ## Classification -/

/-- `_option_string_actions.get(name)`. -/
def lookup (options : Options) (name : List Char) : Option Action :=
  (options.find? fun option => option.1.toList = name).map Prod.snd

/-- `arg.split('=', 1)`. -/
def splitEq (arg : List Char) : List Char × Option (List Char) :=
  (arg.takeWhile (· ≠ '='),
    match arg.dropWhile (· ≠ '=') with
    | [] => none
    | _ :: explicit => some explicit)

/-- `_get_option_tuples`. -/
def getOptionTuples (options : Options) : List Char → List Pattern
  | '-' :: '-' :: cs =>
    options.filterMap fun option =>
      if (splitEq ('-' :: '-' :: cs)).1 <+: option.1.toList then
        some (.option (some option.2) (splitEq ('-' :: '-' :: cs)).2)
      else none
  | '-' :: c :: cs =>
    options.filterMap fun option =>
      if option.1.toList = ['-', c] then some (.option (some option.2) (some cs))
      else if '-' :: c :: cs <+: option.1.toList then some (.option (some option.2) none)
      else none
  | _ => []

/-- The pattern `^-\d+$|^-\d*\.\d+$`; `$` matches before a line break at the end, too. -/
def isNegativeNumber : List Char → Bool
  | '-' :: cs =>
    let cs := if cs.getLast? = some '\n' then cs.dropLast else cs
    let number := fun ds : List Char => !ds.isEmpty && ds.all fun d => (digit? d).isSome
    number cs || match cs.dropWhile fun d => (digit? d).isSome with
      | '.' :: fraction => number fraction
      | _ => false
  | _ => false

/-- `_has_negative_number_optionals`. -/
def hasNegativeNumberOptionals (options : Options) : Bool :=
  options.any fun option => isNegativeNumber option.1.toList

/-- `_parse_optional`; `none` if the parser exits. -/
def parseOptional (options : Options) (arg : List Char) : Option Pattern :=
  if arg.head? ≠ some '-' then some .argument
  else match lookup options arg with
  | some action => some (.option (some action) none)
  | none =>
    if arg.length = 1 then some .argument
    else match (splitEq arg).2.bind fun explicit =>
        (lookup options (splitEq arg).1).map fun action => (action, explicit) with
    | some (action, explicit) => some (.option (some action) (some explicit))
    | none =>
      match getOptionTuples options arg with
      | [] =>
        if isNegativeNumber arg && !hasNegativeNumberOptionals options then some .argument
        else if arg.contains ' ' then some .argument
        else some (.option none none)
      | [pattern] => some pattern
      -- the option is ambiguous
      | _ :: _ :: _ => none

/-- The patterns of all arguments. -/
def classify (options : Options) : List String → Option (List Pattern)
  | [] => some []
  | arg :: args =>
    if arg = "--" then some (.dashes :: args.map fun _ => .argument)
    else (parseOptional options arg.toList).bind fun pattern =>
      (classify options args).map fun patterns => pattern :: patterns

/-! ## Consumption -/

/-- `_get_values` for one argument; `none` if the conversion fails. -/
def getValues (type : ArgType) (arg : String) : Option Value :=
  if arg = "--" then some .empty
  else match type with
  | .str => some (.str arg)
  | .int => (intOfStr arg).map .int

def Parsed.set (parsed : Parsed) (dest : String) (value : Value) : Parsed :=
  { parsed with
    values := Function.update parsed.values dest (some value), seen := dest :: parsed.seen }

/-- The loop that consumes the options. -/
def consume : List (String × Pattern) → Parsed → Option Parsed
  | [], parsed => some parsed
  -- `-h` prints the help; if it has an argument, it is an error
  | (_, .option (some .help) _) :: _, _ => none
  | (_, .option (some (.store dest type _ _)) (some explicit)) :: rest, parsed =>
    (getValues type (String.ofList explicit)).bind fun value => consume rest (parsed.set dest value)
  | (_, .option (some (.store dest type _ _)) none) :: (arg, .argument) :: rest, parsed =>
    (getValues type arg).bind fun value => consume rest (parsed.set dest value)
  -- one argument is expected
  | (_, .option (some (.store ..)) none) :: _, _ => none
  | (arg, _) :: rest, parsed => consume rest { parsed with extras := parsed.extras ++ [arg] }

/-- The defaults of the options. -/
def initial (options : Options) : Parsed where
  values := fun name => options.findSome? fun option =>
    match option.2 with
    | .help => none
    | .store dest _ _ default => if dest = name then default else none
  seen := []
  extras := []

/-- `_parse_known_args`, from what has been parsed on. -/
def parseKnown (options : Options) (args : List String) (parsed : Parsed) : Option Parsed :=
  (classify options args).bind fun patterns => consume (args.zip patterns) parsed

/-- No required option is missing. -/
def Parsed.complete (parsed : Parsed) (options : Options) : Bool :=
  options.all fun option =>
    match option.2 with
    | .store dest _ true _ => parsed.seen.contains dest
    | _ => true

/-- `parse_args`; `none` stands for `SystemExit`. -/
def parseArgs (options : Options) (args : List String) : Option (String → Option Value) :=
  (parseKnown options args (initial options)).bind fun parsed =>
    if parsed.complete options && parsed.extras.isEmpty then some parsed.values else none

/-! ## What is read as an argument -/

variable {options : Options} {flag arg dest : String} {args : List String} {type : ArgType}
  {parsed result : Parsed} {name : List Char}

/-- The argument is one for the option in front of it. -/
def ReadAsArgument (options : Options) (arg : String) : Prop :=
  arg ≠ "--" ∧ parseOptional options arg.toList = some .argument

instance (options : Options) (arg : String) : Decidable (ReadAsArgument options arg) :=
  inferInstanceAs (Decidable (_ ∧ _))

/-- What has no dash in front is an argument. -/
theorem readAsArgument_of_head (h : arg.toList.head? ≠ some '-') : ReadAsArgument options arg := by
  refine ⟨?_, by rw [parseOptional, if_pos h]⟩
  rintro rfl
  exact h rfl

theorem lookup_eq_none :
    lookup options name = none ↔ ∀ option ∈ options, option.1.toList ≠ name := by
  simp [lookup]

/-- No option, and no abbreviation of one, is in front of an equality sign or at the end. -/
structure NoOption (options : Options) (name : List Char) : Prop where
  exact : lookup options name = none
  explicit : (splitEq name).2 ≠ none → lookup options (splitEq name).1 = none
  tuples : getOptionTuples options name = []

/-- Two dashes: the search for abbreviations. -/
theorem getOptionTuples_dashes {cs : List Char} :
    getOptionTuples options ('-' :: '-' :: cs) = [] ↔
      ∀ option ∈ options, ¬ (splitEq ('-' :: '-' :: cs)).1 <+: option.1.toList := by
  simp [getOptionTuples, List.filterMap_eq_nil_iff]

/-- One dash: the search for an option of one character, and for abbreviations. -/
theorem getOptionTuples_dash {c : Char} {cs : List Char} (hc : c ≠ '-') :
    getOptionTuples options ('-' :: c :: cs) = [] ↔
      ∀ option ∈ options,
        option.1.toList ≠ ['-', c] ∧ ¬ '-' :: c :: cs <+: option.1.toList := by
  have hsearch : getOptionTuples options ('-' :: c :: cs) =
      options.filterMap fun option =>
        if option.1.toList = ['-', c] then some (.option (some option.2) (some cs))
        else if '-' :: c :: cs <+: option.1.toList then some (.option (some option.2) none)
        else none := by
    unfold getOptionTuples
    split
    · rename_i heq
      cases heq
      exact absurd rfl hc
    · rename_i heq
      cases heq
      rfl
    · rename_i hnot
      exact absurd rfl (hnot c cs)
  rw [hsearch, List.filterMap_eq_nil_iff]
  refine forall_congr' fun option => forall_congr' fun _ => ?_
  split <;> simp_all

theorem ne_argument_of_mem_getOptionTuples {pattern : Pattern}
    (h : pattern ∈ getOptionTuples options name) : pattern ≠ .argument := by
  unfold getOptionTuples at h
  split at h
  · obtain ⟨option, -, hoption⟩ := List.mem_filterMap.mp h
    split at hoption <;> cases hoption
    simp
  · obtain ⟨option, -, hoption⟩ := List.mem_filterMap.mp h
    split at hoption
    · cases hoption
      simp
    · split at hoption <;> cases hoption
      simp
  · cases h

/-- With a dash in front, an argument is a dash by itself, or no option at all, and has a space in
    it or looks like a negative number. -/
theorem parseOptional_eq_argument (hdash : name.head? = some '-') (hlength : name.length ≠ 1) :
    parseOptional options name = some .argument ↔
      NoOption options name ∧
        ((isNegativeNumber name && !hasNegativeNumberOptionals options) = true ∨ ' ' ∈ name) := by
  unfold parseOptional
  rw [if_neg (by simpa using hdash)]
  cases hexact : lookup options name with
  | some action =>
    refine iff_of_false (by simp) fun h => ?_
    have hno := h.1.exact
    rw [hexact] at hno
    cases hno
  | none =>
    rw [if_neg hlength]
    cases hexplicit : (splitEq name).2.bind fun explicit =>
        (lookup options (splitEq name).1).map fun action => (action, explicit) with
    | some found =>
      refine iff_of_false (by simp) fun h => ?_
      obtain ⟨explicit, hsome, hfound⟩ := Option.bind_eq_some_iff.mp hexplicit
      rw [h.1.explicit (by simp [hsome])] at hfound
      cases hfound
    | none =>
      have hnone : (splitEq name).2 ≠ none → lookup options (splitEq name).1 = none := by
        intro hne
        obtain ⟨explicit, hsome⟩ := Option.ne_none_iff_exists'.mp hne
        rw [hsome] at hexplicit
        simpa using hexplicit
      cases htuples : getOptionTuples options name with
      | nil =>
        have hno : NoOption options name := ⟨hexact, hnone, htuples⟩
        by_cases hnumber : (isNegativeNumber name && !hasNegativeNumberOptionals options) = true
        · simp [hno, hnumber]
        · by_cases hspace : ' ' ∈ name <;> simp [hno, hnumber, hspace]
      | cons pattern patterns =>
        have hmem : pattern ∈ getOptionTuples options name := by simp [htuples]
        refine iff_of_false ?_ fun h => ?_
        · cases patterns with
          | nil => simpa using ne_argument_of_mem_getOptionTuples hmem
          | cons _ _ => simp
        · rw [h.1.tuples] at hmem
          cases hmem

/-! ## An option and its argument -/

/-- The option behind which an argument is read. -/
structure Stores (options : Options) (flag dest : String) (type : ArgType) : Prop where
  lookup : ∃ required default, lookup options flag.toList =
    some (.store dest type required default)
  dash : flag.toList.head? = some '-'
  ne : flag ≠ "--"

theorem Stores.parseOptional (h : Stores options flag dest type) :
    ∃ required default, parseOptional options flag.toList =
      some (.option (some (.store dest type required default)) none) := by
  obtain ⟨required, default, hlookup⟩ := h.lookup
  refine ⟨required, default, ?_⟩
  unfold Argparse.parseOptional
  rw [if_neg (by simpa using h.dash), hlookup]

theorem classify_cons (harg : arg ≠ "--") :
    classify options (arg :: args) = (parseOptional options arg.toList).bind fun pattern =>
      (classify options args).map fun patterns => pattern :: patterns := by
  rw [classify, if_neg harg]

theorem getValues_str (h : ReadAsArgument options arg) : getValues .str arg = some (.str arg) := by
  rw [getValues, if_neg h.1]

theorem parseKnown_nil : parseKnown options [] parsed = some parsed := rfl

/-- An option takes the argument behind it, if that is one. -/
theorem parseKnown_pair (h : Stores options flag dest type) :
    parseKnown options (flag :: arg :: args) parsed = some result ↔
      ReadAsArgument options arg ∧ ∃ value, getValues type arg = some value ∧
        parseKnown options args (parsed.set dest value) = some result := by
  obtain ⟨required, default, hflag⟩ := h.parseOptional
  simp only [parseKnown, classify_cons h.ne, hflag, Option.bind_some]
  by_cases hdashes : arg = "--"
  · subst hdashes
    simp [classify, consume, ReadAsArgument]
  rw [classify_cons hdashes]
  cases hparse : parseOptional options arg.toList with
  | none => simp [ReadAsArgument, hparse]
  | some pattern =>
    cases hclassify : classify options args with
    | none => simp
    | some patterns =>
      cases pattern with
      | argument => simp [ReadAsArgument, hparse, hdashes, consume, Option.bind_eq_some_iff]
      | dashes => simp [ReadAsArgument, hparse, consume]
      | option action explicit => simp [ReadAsArgument, hparse, consume]

/-- An option without a type stores the argument as it is. -/
theorem parseKnown_pair_str (h : Stores options flag dest .str) :
    parseKnown options (flag :: arg :: args) parsed = some result ↔
      ReadAsArgument options arg ∧
        parseKnown options args (parsed.set dest (.str arg)) = some result := by
  rw [parseKnown_pair h]
  refine and_congr_right fun harg => ?_
  simp [getValues_str harg]

end PipeWorks.Python.Argparse
