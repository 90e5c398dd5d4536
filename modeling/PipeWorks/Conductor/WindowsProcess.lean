import Mathlib.Data.List.Chain
import Mathlib.Data.List.Infix
import PipeWorks.Conductor.CreateProcess
import PipeWorks.Python.CommandLine
import PipeWorks.Python.Int

/-!
# Which process a control operation reaches

A process is addressed in two ways: by the name of its pipe, which Windows compares without regard
to case, and by a pattern that `WindowsProcessLocator` looks for in the command lines of all
processes.  `separated_iff` says for which other processes both are safe: the upper-case forms of
the ids must differ, and `--process-id` with the id behind it must not stand in the arguments of
the other process in one of the ways of `Mistaken`.
-/

set_option autoImplicit false

namespace PipeWorks.Conductor.WindowsProcess

open PipeWorks.Python Words

/-- `Supervisor._createPipeName`. -/
def createPipeName (processId : String) : String := "\\\\.\\pipe\\pipe-works-stream-" ++ processId

/-- Two names of the same pipe; `upcase` is the case mapping of the system. -/
def SamePipe (upcase : Char → Char) (a b : String) : Prop :=
  a.toList.map upcase = b.toList.map upcase

/-- The `command` of `Supervisor.startProcess`. -/
def command (executable : String) (process : Record) : List String :=
  [executable, "-m", "stream.cli",
    "--process-id", process.id,
    "--input-rtsp-url", process.inputRtspUrl,
    "--input-transport", process.inputTransport,
    "--input-jitter-buffer", toString process.inputJitterBuffer,
    "--output-rtsp-url", process.outputRtspUrl,
    "--output-transport", process.outputTransport]

/-- The command line of the process that `startProcess` creates. -/
def commandLine (executable : String) (process : Record) : List Char :=
  list2cmdline ((command executable process).map String.toList)

def PROCESS_ID : List Char := "--process-id".toList

def STREAM_CLI : List Char := "-m stream.cli".toList

/-- The pattern of `getProcessIds`; `re.escape` makes its argument stand for itself. -/
def pattern (processId : String) : List (Pattern.Item Char) :=
  Pattern.argument isSpace PROCESS_ID (list2cmdline [processId.toList])

/-- An entry of the process listing. -/
structure Entry where
  processId : Nat
  commandLine : Option String
  deriving DecidableEq, Repr

/-- `WindowsProcessLocator.getProcessIds`, on the entries of the listing. -/
def getProcessIds (entries : List Entry) (processId : String) : List Nat :=
  (entries.filter fun entry => entry.commandLine.any fun line =>
    line != "" && decide (STREAM_CLI <:+: line.toList) &&
      Pattern.search (pattern processId) line.toList).map (·.processId)

/-- Operations on `p` do not reach the process `q`, and the process `q` is found by its own id. -/
structure Separated (upcase : Char → Char) (executable : String) (p : String) (q : Record) :
    Prop where
  pipes : ¬ SamePipe upcase (createPipeName p) (createPipeName q.id)
  lines : Pattern.search (pattern p) (commandLine executable q) = false
  own : Pattern.search (pattern q.id) (commandLine executable q) = true

/-- The argument stands in the line without quotation marks: it has neither spaces nor tabs. -/
def Plain (arg : String) : Prop := needQuote arg.toList = false

/-- The arguments that are not fixed, with the option behind them. -/
def freeArguments (executable : String) (q : Record) : List (String × String) :=
  [(executable, "-m"), (q.id, "--input-rtsp-url"), (q.inputRtspUrl, "--input-transport"),
    (q.outputRtspUrl, "--output-transport")]

/-- The ways in which `--process-id` and the id `p` can be read in the arguments of `q`, when `p`
    has neither spaces nor tabs.  White space is the one of patterns here. -/
inductive Mistaken (executable p : String) (q : Record) : Prop where
  /-- the id of `q` begins with `p`, up to white space, and white space follows -/
  | id (hplain : Plain q.id) (h : Leads isSpace p.toList q.id.toList)
  /-- the id of `q` is nothing but white space -/
  | blankId (hplain : Plain q.id) (h : Blank isSpace q.id.toList) (hp : p = "--input-rtsp-url")
  /-- both stand in an argument without quotation marks -/
  | plain (arg next : String) (harg : (arg, next) ∈ freeArguments executable q)
      (hplain : Plain arg) (h : Follows isSpace PROCESS_ID p.toList arg.toList)
  /-- both stand inside of an argument with quotation marks -/
  | quoted (arg next : String) (harg : (arg, next) ∈ freeArguments executable q)
      (hquoted : ¬ Plain arg) (h : FollowsInside isSpace PROCESS_ID p.toList arg.toList)
  /-- an argument ends with `--process-id`, and `p` is the option behind it -/
  | next (arg : String) (harg : (arg, p) ∈ freeArguments executable q) (hplain : Plain arg)
      (h : Trails isSpace PROCESS_ID arg.toList)

variable {upcase : Char → Char} {executable p : String} {q : Record} {arg : List Char}

/-! ## Arguments as symbols -/

theorem char_injective : Function.Injective Symbol.char := fun _ _ h => Symbol.char.inj h

theorem char_ne_quote (c : Char) : Symbol.char c ≠ .quote := by rintro ⟨⟩

theorem symbols_plain (harg : needQuote arg = false) : symbols arg = arg.map .char := by
  simp [symbols, harg]

theorem symbols_quoted (harg : needQuote arg = true) :
    symbols arg = .quote :: (arg.map .char ++ [.quote]) := by
  simp [symbols, harg]

theorem ne_nil_of_plain (harg : needQuote arg = false) : arg ≠ [] := by
  rintro rfl
  cases harg

theorem space_not_mem (harg : needQuote arg = false) : ' ' ∉ arg := by
  simp only [needQuote, Bool.or_eq_false_iff] at harg
  simpa using harg.1.1

/-- The word that is looked up. -/
abbrev option : List Symbol := PROCESS_ID.map .char

theorem space_not_mem_option : Symbol.char ' ' ∉ option := by decide

theorem isSpace_space : Symbol.isSpace (.char ' ') = true := rfl

theorem follows_symbols {id : List Char} (hid : id ≠ []) (arg : List Char) :
    Follows Symbol.isSpace option (id.map .char) (symbols arg) ↔
      needQuote arg = false ∧ Follows isSpace PROCESS_ID id arg ∨
        needQuote arg = true ∧ FollowsInside isSpace PROCESS_ID id arg := by
  cases harg : needQuote arg with
  | false =>
    rw [symbols_plain harg, follows_map char_injective Symbol.isSpace_char]
    simp
  | true =>
    rw [symbols_quoted harg, follows_delimited char_injective Symbol.isSpace_char char_ne_quote rfl
      (by decide) hid]
    simp

theorem trails_symbols (arg : List Char) :
    Trails Symbol.isSpace option (symbols arg) ↔
      needQuote arg = false ∧ Trails isSpace PROCESS_ID arg := by
  cases harg : needQuote arg with
  | false =>
    rw [symbols_plain harg, trails_map char_injective Symbol.isSpace_char]
    simp
  | true =>
    have hnot : ¬ Trails Symbol.isSpace option (.quote :: arg.map .char ++ [.quote]) :=
      not_trails_delimited char_ne_quote rfl (by decide) _
    rw [symbols_quoted harg]
    simpa using hnot

theorem leads_symbols {id : List Char} (hid : id ≠ []) (arg : List Char) :
    Leads Symbol.isSpace (id.map .char) (symbols arg) ↔
      needQuote arg = false ∧ Leads isSpace id arg := by
  cases harg : needQuote arg with
  | false =>
    rw [symbols_plain harg, leads_map char_injective Symbol.isSpace_char]
    simp
  | true =>
    have hnot : ¬ Leads Symbol.isSpace (id.map .char) (.quote :: (arg.map .char ++ [.quote])) :=
      not_leads_delimited char_ne_quote rfl hid _
    rw [symbols_quoted harg]
    simpa using hnot

theorem blank_symbols (arg : List Char) :
    Blank Symbol.isSpace (symbols arg) ↔ needQuote arg = false ∧ Blank isSpace arg := by
  cases harg : needQuote arg with
  | false =>
    rw [symbols_plain harg, blank_map Symbol.isSpace_char]
    simp
  | true =>
    rw [symbols_quoted harg]
    simp [Blank, Symbol.isSpace]

/-- An argument that is one word, as the fixed ones are. -/
structure Word (arg : List Char) : Prop where
  ne_nil : arg ≠ []
  spaceless : ∀ c ∈ arg, isSpace c = false

instance (arg : List Char) : Decidable (Word arg) :=
  have := List.decidableBAll (fun c => isSpace c = false) arg
  decidable_of_iff (arg ≠ [] ∧ ∀ c ∈ arg, isSpace c = false)
    ⟨fun h => ⟨h.1, h.2⟩, fun h => ⟨h.1, h.2⟩⟩

theorem Word.plain (h : Word arg) : needQuote arg = false := by
  simp only [needQuote, Bool.or_eq_false_iff, List.contains_eq_mem, decide_eq_false_iff_not,
    List.isEmpty_eq_false_iff]
  refine ⟨⟨fun hmem => ?_, fun hmem => ?_⟩, h.ne_nil⟩ <;>
    exact absurd (h.spaceless _ hmem) (by decide)

theorem Word.follows (h : Word arg) {id : List Char} (hid : id ≠ []) :
    ¬ Follows Symbol.isSpace option (id.map .char) (symbols arg) := by
  rw [follows_symbols hid, h.plain]
  simpa using not_follows h.spaceless

theorem Word.trails (h : Word arg) :
    Trails Symbol.isSpace option (symbols arg) ↔ arg = PROCESS_ID := by
  rw [trails_symbols, h.plain, trails_iff h.spaceless]
  simp

theorem Word.leads (h : Word arg) {id : List Char} (hid : id ≠ []) :
    Leads Symbol.isSpace (id.map .char) (symbols arg) ↔ arg = id := by
  rw [leads_symbols hid, h.plain, leads_iff h.spaceless]
  simp

theorem Word.blank (h : Word arg) : ¬ Blank Symbol.isSpace (symbols arg) := by
  rw [blank_symbols]
  rintro ⟨-, hblank⟩
  exact h.ne_nil (hblank.eq_nil h.spaceless)

/-- A word that is not the one that is looked up. -/
structure OtherWord (arg : List Char) : Prop extends Word arg where
  ne_option : arg ≠ PROCESS_ID

instance (arg : List Char) : Decidable (OtherWord arg) :=
  decidable_of_iff (Word arg ∧ arg ≠ PROCESS_ID) ⟨fun h => ⟨h.1, h.2⟩, fun h => ⟨h.1, h.2⟩⟩

theorem OtherWord.trails (h : OtherWord arg) : ¬ Trails Symbol.isSpace option (symbols arg) := by
  rw [h.toWord.trails]
  exact h.ne_option

/-- A number that is not negative is one word. -/
theorem word_toString {i : Int} (h : 0 ≤ i) : OtherWord (toString i).toList := by
  obtain ⟨n, rfl⟩ := Int.eq_ofNat_of_zero_le h
  have hdigits := toList_toString n
  have hdigit : ∀ c ∈ (toString (n : Int)).toList, c.isDigit = true := by
    rw [hdigits]
    exact fun c => Nat.isDigit_of_mem_toDigits (by decide) (by decide)
  refine ⟨⟨?_, fun c hc => isSpace_of_isDigit (hdigit c hc)⟩, fun hid => ?_⟩
  · rw [hdigits]
    exact Nat.toDigits_ne_nil
  · exact absurd (hdigit '-' (by rw [hid]; decide)) (by decide)

/-! ## The command line -/

theorem commandLine_eq (executable : String) (q : Record) :
    commandLine executable q =
      write (line ((command executable q).map fun arg => symbols arg.toList)) := by
  rw [commandLine, list2cmdline_eq, List.map_map]
  rfl

theorem verbatim_process_id : ∀ c ∈ PROCESS_ID, Verbatim c := by
  have hall : PROCESS_ID.all (fun c => c != '\\' && c != '"') = true := by decide
  intro c hc
  simpa [Verbatim] using List.all_eq_true.mp hall c hc

theorem search_pattern_iff (executable p : String) (q : Record) :
    Pattern.search (pattern p) (commandLine executable q) = true ↔
      Follows Symbol.isSpace option (symbols p.toList)
        (line ((command executable q).map fun arg => symbols arg.toList)) := by
  have hpattern : list2cmdline [p.toList] = write (symbols p.toList) := list2cmdline_eq _
  rw [pattern, search_argument_iff, commandLine_eq, hpattern,
    follows_write verbatim_process_id (by decide)]

theorem word_transport {transport : String} (h : transport ∈ ["tcp", "udp"]) :
    OtherWord transport.toList := by
  simp only [List.mem_cons, List.not_mem_nil, or_false] at h
  rcases h with rfl | rfl <;> decide

/-- The values of the fixed vocabulary are single words. -/
theorem words (hq : q.checks = true) :
    OtherWord q.inputTransport.toList ∧ OtherWord (toString q.inputJitterBuffer).toList ∧
      OtherWord q.outputTransport.toList := by
  simp only [Record.checks, Bool.and_eq_true, decide_eq_true_eq] at hq
  obtain ⟨⟨⟨⟨⟨⟨⟨⟨⟨⟨⟨hinput, hjitter⟩, houtput⟩, -⟩, -⟩, -⟩, -⟩, -⟩, -⟩, -⟩, -⟩, -⟩ := hq
  exact ⟨word_transport (by simpa using hinput), word_toString hjitter,
    word_transport (by simpa using houtput)⟩

/-- The own id is found. -/
theorem own_found (executable : String) (q : Record) :
    Pattern.search (pattern q.id) (commandLine executable q) = true := by
  rw [search_pattern_iff]
  refine ⟨symbols executable.toList ++ .char ' ' :: (symbols "-m".toList ++ .char ' ' ::
      (symbols "stream.cli".toList ++ [.char ' '])), [.char ' '],
    .char ' ' :: line (((command executable q).drop 5).map fun arg => symbols arg.toList),
    ?_, ?_, by simp, ?_, ?_⟩
  · simp [command, line]
    decide
  · simp [Begins, List.getLast?_append, List.getLast?_cons]
    decide
  · simp [Blank]
    decide
  · simp [Ends]
    decide

/-- Every started process passes the first test of the locator. -/
theorem streamCli_infix (executable : String) (q : Record) :
    STREAM_CLI <:+: commandLine executable q := by
  have hm : write (symbols "-m".toList) = "-m".toList := by decide
  have hcli : write (symbols "stream.cli".toList) = "stream.cli".toList := by decide
  have hjoin : STREAM_CLI = "-m".toList ++ ' ' :: "stream.cli".toList := by decide
  refine ⟨write (symbols executable.toList) ++ [' '],
    ' ' :: write (line (((command executable q).drop 3).map fun arg => symbols arg.toList)), ?_⟩
  rw [commandLine_eq, hjoin]
  simp only [command, List.map_cons, List.map_nil, line, write_append verbatim_space, hm, hcli,
    List.drop_succ_cons, List.drop_zero, List.append_assoc, List.cons_append, List.nil_append]

/-- What the locator tests, of a started process. -/
theorem getProcessIds_singleton (executable p : String) (q : Record) (pid : Nat) :
    getProcessIds [⟨pid, some (String.ofList (commandLine executable q))⟩] p =
      if Pattern.search (pattern p) (commandLine executable q) then [pid] else [] := by
  have hinfix := streamCli_infix executable q
  have hne : String.ofList (commandLine executable q) ≠ "" := by
    intro hnil
    have hchars := congrArg String.toList hnil
    rw [String.toList_ofList] at hchars
    rw [hchars] at hinfix
    exact absurd hinfix (by decide)
  unfold getProcessIds
  rw [List.filter_cons, List.filter_nil, Option.any_some, String.toList_ofList,
    decide_eq_true hinfix, bne_iff_ne.mpr hne, Bool.true_and, Bool.true_and]
  split <;> rfl

/-! ## Ids without spaces and tabs -/

/-- The ways in which `--process-id` and `id` are read from an argument and the word behind it. -/
inductive ReadFrom (id arg next : List Char) : Prop where
  | plain (hplain : needQuote arg = false) (h : Follows isSpace PROCESS_ID id arg)
  | quoted (hquoted : needQuote arg = true) (h : FollowsInside isSpace PROCESS_ID id arg)
  | next (hplain : needQuote arg = false) (h : Trails isSpace PROCESS_ID arg) (hnext : next = id)

section

variable {id next : List Char} {text : List Symbol} {args : List (List Symbol)}

theorem space_not_mem_map (hid : needQuote id = false) :
    Symbol.char ' ' ∉ id.map Symbol.char := by
  simpa using space_not_mem hid

theorem leads_line (hid : needQuote id = false) (arg : List Char) :
    Leads Symbol.isSpace (id.map .char) (line (symbols arg :: text :: args)) ↔
      needQuote arg = false ∧ Leads isSpace id arg ∨
        (needQuote arg = false ∧ Blank isSpace arg) ∧
          Leads Symbol.isSpace (id.map .char) (line (text :: args)) := by
  rw [line_cons, leads_split isSpace_space (space_not_mem_map hid),
    leads_symbols (ne_nil_of_plain hid), blank_symbols]

theorem Word.leads_line (h : Word next) (hid : needQuote id = false) :
    Leads Symbol.isSpace (id.map .char) (line (symbols next :: text :: args)) ↔ next = id := by
  rw [line_cons, leads_split isSpace_space (space_not_mem_map hid), h.leads (ne_nil_of_plain hid)]
  simp [h.blank]

/-- Behind a word that is not the option stands what is read. -/
theorem OtherWord.follows_line (h : OtherWord arg) (hid : needQuote id = false) :
    Follows Symbol.isSpace option (id.map .char) (line (symbols arg :: text :: args)) ↔
      Follows Symbol.isSpace option (id.map .char) (line (text :: args)) := by
  rw [line_cons, follows_split isSpace_space space_not_mem_option (space_not_mem_map hid)]
  simp [h.follows (ne_nil_of_plain hid), h.trails]

/-- Behind the option the id stands at once, or further on. -/
theorem follows_line_option (hid : needQuote id = false) :
    Follows Symbol.isSpace option (id.map .char) (line (symbols PROCESS_ID :: text :: args)) ↔
      Follows Symbol.isSpace option (id.map .char) (line (text :: args)) ∨
        Leads Symbol.isSpace (id.map .char) (line (text :: args)) := by
  have hword : Word PROCESS_ID := by decide
  rw [line_cons, follows_split isSpace_space space_not_mem_option (space_not_mem_map hid)]
  simp [hword.follows (ne_nil_of_plain hid), hword.trails]

theorem readFrom_iff :
    ReadFrom id arg next ↔
      (needQuote arg = false ∧ Follows isSpace PROCESS_ID id arg ∨
        needQuote arg = true ∧ FollowsInside isSpace PROCESS_ID id arg) ∨
          (needQuote arg = false ∧ Trails isSpace PROCESS_ID arg) ∧ next = id := by
  constructor
  · rintro (⟨hplain, h⟩ | ⟨hquoted, h⟩ | ⟨hplain, h, hnext⟩)
    · exact .inl (.inl ⟨hplain, h⟩)
    · exact .inl (.inr ⟨hquoted, h⟩)
    · exact .inr ⟨⟨hplain, h⟩, hnext⟩
  · rintro ((⟨hplain, h⟩ | ⟨hquoted, h⟩) | ⟨⟨hplain, h⟩, hnext⟩)
    · exact .plain hplain h
    · exact .quoted hquoted h
    · exact .next hplain h hnext

/-- An argument that is not fixed, with a fixed word behind it. -/
theorem follows_line_free (hid : needQuote id = false) (arg : List Char) (hnext : Word next) :
    Follows Symbol.isSpace option (id.map .char)
        (line (symbols arg :: symbols next :: text :: args)) ↔
      ReadFrom id arg next ∨
        Follows Symbol.isSpace option (id.map .char) (line (symbols next :: text :: args)) := by
  rw [line_cons, follows_split isSpace_space space_not_mem_option (space_not_mem_map hid),
    follows_symbols (ne_nil_of_plain hid), trails_symbols, hnext.leads_line hid, readFrom_iff]
  exact or_assoc.symm.trans or_right_comm

end

/-- `Mistaken`, argument by argument. -/
theorem mistaken_iff :
    Mistaken executable p q ↔
      (∃ a ∈ freeArguments executable q, ReadFrom p.toList a.1.toList a.2.toList) ∨
        needQuote q.id.toList = false ∧ Leads isSpace p.toList q.id.toList ∨
          (needQuote q.id.toList = false ∧ Blank isSpace q.id.toList) ∧
            "--input-rtsp-url" = p := by
  constructor
  · rintro (⟨hplain, h⟩ | ⟨hplain, h, hp⟩ | ⟨arg, next, harg, hplain, h⟩ |
      ⟨arg, next, harg, hquoted, h⟩ | ⟨arg, harg, hplain, h⟩)
    · exact .inr (.inl ⟨hplain, h⟩)
    · exact .inr (.inr ⟨⟨hplain, h⟩, hp.symm⟩)
    · exact .inl ⟨_, harg, .plain hplain h⟩
    · exact .inl ⟨_, harg, .quoted (by simpa [Plain] using hquoted) h⟩
    · exact .inl ⟨_, harg, .next hplain h rfl⟩
  · rintro (⟨⟨arg, next⟩, harg, ⟨hplain, h⟩ | ⟨hquoted, h⟩ | ⟨hplain, h, hnext⟩⟩ | ⟨hplain, h⟩ |
      ⟨⟨hplain, h⟩, hp⟩)
    · exact .plain arg next harg hplain h
    · exact .quoted arg next harg (by simp [Plain, hquoted]) h
    · exact .next arg (String.toList_inj.mp hnext ▸ harg) hplain h
    · exact .id hplain h
    · exact .blankId hplain h hp.symm

theorem follows_line_of_plain (hp : needQuote p.toList = false) (hq : q.checks = true) :
    Follows Symbol.isSpace option (symbols p.toList)
        (line ((command executable q).map fun arg => symbols arg.toList)) ↔
      Mistaken executable p q := by
  obtain ⟨hin, hjitter, hout⟩ := words hq
  have hm : OtherWord "-m".toList := by decide
  have hcli : OtherWord "stream.cli".toList := by decide
  have hurl : OtherWord "--input-rtsp-url".toList := by decide
  have htransport : OtherWord "--input-transport".toList := by decide
  have hbuffer : OtherWord "--input-jitter-buffer".toList := by decide
  have hurl' : OtherWord "--output-rtsp-url".toList := by decide
  have htransport' : OtherWord "--output-transport".toList := by decide
  have hfound : "--process-id".toList = PROCESS_ID := rfl
  rw [symbols_plain hp, mistaken_iff]
  simp only [command, freeArguments, List.map_cons, List.map_nil, hfound,
    follows_line_free hp executable.toList hm.toWord, hm.follows_line hp, hcli.follows_line hp,
    follows_line_option hp, follows_line_free hp q.id.toList hurl.toWord,
    leads_line hp q.id.toList, hurl.toWord.leads_line hp, hurl.follows_line hp,
    follows_line_free hp q.inputRtspUrl.toList htransport.toWord, htransport.follows_line hp,
    hin.follows_line hp, hbuffer.follows_line hp, hjitter.follows_line hp, hurl'.follows_line hp,
    follows_line_free hp q.outputRtspUrl.toList htransport'.toWord, htransport'.follows_line hp,
    line_singleton, hout.follows (ne_nil_of_plain hp), String.toList_inj, List.exists_mem_cons_iff,
    List.not_mem_nil, false_and, exists_false, or_false, or_assoc]

/-! ## Ids with spaces or tabs -/

/-- The arguments with a space behind each of them. -/
def lead (args : List (List Char)) : List Symbol :=
  args.flatMap fun arg => symbols arg ++ [.char ' ']

theorem quote_not_mem_map (arg : List Char) : Symbol.quote ∉ arg.map Symbol.char := by simp

/-- Quotation marks around a text that does not begin with a space are the ones of an argument, or
    stand behind it: what follows the closing one of an argument begins with a space. -/
theorem quoted_split {id arg : List Char} {c : Char} {before after rest : List Symbol}
    (hc : c ≠ ' ') (hhead : ∀ s ∈ rest.head?, s = .char ' ')
    (h : symbols arg ++ rest = before ++ .quote :: ((c :: id).map .char ++ .quote :: after)) :
    (arg = c :: id ∧ before = []) ∨
      ∃ b, before = symbols arg ++ b ∧
        rest = b ++ .quote :: ((c :: id).map .char ++ .quote :: after) := by
  cases harg : needQuote arg with
  | false =>
    rw [symbols_plain harg] at h ⊢
    obtain ⟨b, hbefore, hb⟩ :=
      (append_cons_eq_append_of_not_mem (quote_not_mem_map arg)).mp h.symm
    exact .inr ⟨b, hbefore, hb⟩
  | true =>
    rw [symbols_quoted harg] at h ⊢
    cases before with
    | nil =>
      -- the opening mark: the argument up to the closing one is the text
      simp only [List.cons_append, List.nil_append, List.append_assoc, List.cons.injEq,
        true_and] at h
      obtain ⟨b, hb, hafter⟩ :=
        (append_cons_eq_append_of_not_mem (quote_not_mem_map (c :: id))).mp h
      cases b with
      | nil =>
        rw [List.append_nil] at hb
        exact .inl ⟨char_injective.list_map hb, rfl⟩
      | cons s b =>
        simp only [List.cons_append, List.cons.injEq] at hafter
        exact absurd (by simp [hb, hafter.1]) (quote_not_mem_map arg)
    | cons s before =>
      simp only [List.cons_append, List.append_assoc, List.cons.injEq] at h
      obtain ⟨rfl, h⟩ := h
      obtain ⟨b, rfl, hb⟩ := (append_cons_eq_append_of_not_mem (quote_not_mem_map arg)).mp h.symm
      cases b with
      | nil =>
        -- the closing mark: a space or the end is behind it
        simp only [List.nil_append, List.cons.injEq, true_and] at hb
        have hspace := hhead (.char c) (by simp [hb])
        exact absurd (Symbol.char.inj hspace) hc
      | cons s b =>
        simp only [List.nil_append, List.cons_append, List.cons.injEq] at hb
        exact .inr ⟨b, by simp [← hb.1], hb.2⟩

/-- By induction on the arguments, each of which is passed whole. -/
theorem quoted_argument {id : List Char} {c : Char} {args : List (List Char)}
    {before after : List Symbol} (hc : c ≠ ' ')
    (h : line (args.map symbols) =
      before ++ .quote :: ((c :: id).map .char ++ .quote :: after)) :
    ∃ front back, args = front ++ (c :: id) :: back ∧ before = lead front := by
  induction args generalizing before with
  | nil => simp [line] at h
  | cons arg args ih =>
    cases args with
    | nil =>
      have h : symbols arg ++ [] =
          before ++ .quote :: ((c :: id).map .char ++ .quote :: after) := by
        rw [List.append_nil]
        exact h
      obtain ⟨rfl, rfl⟩ | ⟨b, -, hb⟩ := quoted_split hc (by simp) h
      · exact ⟨[], [], rfl, rfl⟩
      · simp at hb
    | cons arg' args =>
      obtain ⟨rfl, rfl⟩ | ⟨b, rfl, hb⟩ := quoted_split hc (by simp) h
      · exact ⟨[], _, rfl, rfl⟩
      · cases b with
        | nil =>
          simp only [List.nil_append, List.cons.injEq] at hb
          exact absurd hb.1 (char_ne_quote _)
        | cons s b =>
          simp only [List.cons_append, List.cons.injEq] at hb
          obtain ⟨rfl, hb⟩ := hb
          obtain ⟨front, back, hargs, rfl⟩ := ih hb
          exact ⟨arg :: front, back, by rw [hargs, List.cons_append], by simp [lead]⟩

theorem not_trails_nil : ¬ Trails Symbol.isSpace option [] := by
  rintro ⟨pre, run, htext, -⟩
  obtain ⟨-, hrest⟩ := List.append_eq_nil_iff.mp htext.symm
  exact absurd (List.append_eq_nil_iff.mp hrest).1 (by decide)

/-- The word in front of an argument is the argument before it. -/
theorem trails_lead {front : List (List Char)} {arg : List Char} (harg : Word arg)
    (h : Trails Symbol.isSpace option (lead (front ++ [arg]))) : arg = PROCESS_ID := by
  have hblank : ¬ Blank Symbol.isSpace (symbols arg ++ [.char ' ']) := fun hblank =>
    harg.blank fun s hs => hblank s (List.mem_append_left _ hs)
  have harg' : Trails Symbol.isSpace option (symbols arg ++ [.char ' ']) := by
    rcases List.eq_nil_or_concat' front with rfl | ⟨front, arg', rfl⟩
    · simpa [lead] using h
    · have hlead : lead (front ++ [arg'] ++ [arg]) =
          (lead front ++ symbols arg') ++ .char ' ' :: (symbols arg ++ [.char ' ']) := by
        simp [lead]
      rw [hlead, trails_split isSpace_space space_not_mem_option] at h
      exact h.resolve_right fun h => hblank h.1
  rw [trails_split isSpace_space space_not_mem_option] at harg'
  exact harg.trails.mp (harg'.resolve_left not_trails_nil).2

/-- Only the id stands behind `--process-id`, and only words stand in front of arguments with
    quotation marks. -/
theorem command_chain (executable : String) (hq : q.checks = true) :
    ((command executable q).map String.toList).IsChain fun arg next =>
      needQuote next = true → Word arg ∧ (arg = PROCESS_ID → next = q.id.toList) := by
  obtain ⟨hin, hjitter, hout⟩ := words hq
  have hplain : ∀ {arg next : List Char}, Word next → needQuote next = true →
      Word arg ∧ (arg = PROCESS_ID → next = q.id.toList) := by
    intro arg next hnext hquote
    rw [hnext.plain] at hquote
    cases hquote
  have hother : ∀ {arg next : List Char}, OtherWord arg → needQuote next = true →
      Word arg ∧ (arg = PROCESS_ID → next = q.id.toList) :=
    fun harg _ => ⟨harg.toWord, fun h => absurd h harg.ne_option⟩
  simp only [command, List.map_cons, List.map_nil, List.isChain_cons_cons]
  exact ⟨hplain (by decide), hplain (by decide), hplain (by decide),
    fun _ => ⟨by decide, fun _ => trivial⟩, hplain (by decide), hother (by decide),
    hplain (by decide), hother (by decide), hplain (by decide), hother (by decide),
    hplain (by decide), hother (by decide), hplain (by decide), hother (by decide), .singleton _⟩

theorem not_follows_line_of_quoted (hp : needQuote p.toList = true)
    (hhead : ∀ c ∈ p.toList.head?, c ≠ ' ') (hne : p ≠ "") (hq : q.checks = true)
    (hother : p ≠ q.id) :
    ¬ Follows Symbol.isSpace option (symbols p.toList)
      (line ((command executable q).map fun arg => symbols arg.toList)) := by
  rintro ⟨pre, run, post, htext, hpre, -, hblank, -⟩
  obtain ⟨c, id, hid⟩ : ∃ c id, p.toList = c :: id :=
    List.exists_cons_of_ne_nil (by simpa using hne)
  have hmap : (command executable q).map (fun arg => symbols arg.toList) =
      ((command executable q).map String.toList).map symbols := by
    rw [List.map_map]
    rfl
  have hquotes : line (((command executable q).map String.toList).map symbols) =
      (pre ++ (option ++ run)) ++ .quote :: ((c :: id).map .char ++ .quote :: post) := by
    rw [← hmap, htext, symbols_quoted hp, hid]
    simp
  obtain ⟨front, back, hargs, hlead⟩ := quoted_argument (hhead c (by simp [hid])) hquotes
  have htrails : Trails Symbol.isSpace option (lead front) :=
    hlead ▸ ⟨pre, run, rfl, hpre, hblank⟩
  rcases List.eq_nil_or_concat' front with rfl | ⟨front, arg, rfl⟩
  · exact not_trails_nil htrails
  · have hchain := command_chain executable hq
    rw [hargs, List.append_assoc, List.isChain_append] at hchain
    obtain ⟨harg, hnext⟩ := (List.isChain_cons_cons.mp hchain.2.1).1 (hid ▸ hp)
    have hfound := hnext (trails_lead harg htrails)
    exact hother (String.toList_inj.mp (hid.trans hfound))

/-! ## Both addresses -/

theorem samePipe_iff (upcase : Char → Char) (p q : String) :
    SamePipe upcase (createPipeName p) (createPipeName q) ↔
      p.toList.map upcase = q.toList.map upcase := by
  unfold SamePipe createPipeName
  rw [String.toList_append, String.toList_append, List.map_append, List.map_append]
  exact List.append_right_inj _

/-- **When operations on `p` do not reach `q`**, whatever the arguments of `q` are: exactly when the
    upper-case forms of the two ids differ, and `p` has a space or a tab or cannot be read in the
    arguments of `q`. -/
theorem separated_iff (upcase : Char → Char) (executable : String) (p : NonEmptyStr) (q : Record)
    (hq : q.checks = true) (hne : p.1 ≠ q.id) :
    Separated upcase executable p.1 q ↔
      p.1.toList.map upcase ≠ q.id.toList.map upcase ∧
        (Plain p.1 → ¬ Mistaken executable p.1 q) := by
  have hlines : Pattern.search (pattern p.1) (commandLine executable q) = false ↔
      (Plain p.1 → ¬ Mistaken executable p.1 q) := by
    rw [← Bool.not_eq_true, search_pattern_iff]
    cases hp : needQuote p.1.toList with
    | false =>
      rw [follows_line_of_plain hp hq]
      simp [Plain, hp]
    | true =>
      have hhead : ∀ c ∈ p.1.toList.head?, c ≠ ' ' := by
        intro c hc
        obtain ⟨id, hid⟩ := List.head?_eq_some_iff.mp hc
        have htrim := congrArg String.toList p.2.1
        rw [trim, String.toList_ofList, hid] at htrim
        rintro rfl
        exact absurd (head_of_stripChars_eq htrim) (by decide)
      simp [Plain, hp, not_follows_line_of_quoted hp hhead p.2.2 hq hne]
  rw [← hlines, ne_eq, ← samePipe_iff upcase p.1 q.id]
  exact ⟨fun h => ⟨h.pipes, h.lines⟩, fun h => ⟨h.1, h.2, own_found executable q⟩⟩

def pythonw : String := "C:\\Python\\pythonw.exe"

/-- A definition with the given id. -/
def definition (id : String) : Record :=
  { id := id
    inputRtspUrl := "rtsp://camera/in"
    inputTransport := "tcp"
    inputJitterBuffer := 30
    outputRtspUrl := "rtsp://server/out"
    outputTransport := "tcp"
    metadataEnabled := 0
    metadataModulePath := some ""
    inferenceEnabled := 0
    inferenceGpuid := 0
    inferenceIntervalFrames := 3
    inferenceInputFormat := "native"
    inferenceFrameType := "pytorch"
    inferenceModulePath := some ""
    postprocessEnabled := 0
    postprocessModulePath := some ""
    desiredState := "running"
    sequence := 0 }

theorem separated_iff_cam_dock :
    Separated Char.toUpper pythonw "cam" (definition "dock") ↔
      "cam".toList.map Char.toUpper ≠ "dock".toList.map Char.toUpper ∧
        (Plain "cam" → ¬ Mistaken pythonw "cam" (definition "dock")) :=
  separated_iff Char.toUpper pythonw ⟨"cam", by decide⟩ (definition "dock") (by decide) (by decide)

/-- Two names that differ in case only, and a name that continues another one behind an ideographic
    space: in both cases the operations on `cam` reach the other process. -/
theorem cam_not_separated :
    ¬ Separated Char.toUpper pythonw "cam" (definition "Cam") ∧
      ¬ Separated Char.toUpper pythonw "cam" (definition "cam\u3000dock") := by
  constructor
  · intro h
    exact h.pipes (by unfold SamePipe; decide)
  · intro h
    have hfound : Pattern.search (pattern "cam")
        (commandLine pythonw (definition "cam\u3000dock")) = true := by decide
    rw [h.lines] at hfound
    cases hfound

end PipeWorks.Conductor.WindowsProcess
