import PipeWorks.Conductor.WindowsProcess
import PipeWorks.Python.Argparse

/-!
# The arguments of a stream process (`parse_args` of `stream/args.py`)

`Supervisor.startProcess` hands the definition of a process to the stream process as options with
an argument each.  The id and the URLs are free texts, and `argparse` takes most texts with a dash
in front for options.  `roundTrips_iff` says which definitions arrive.
-/

set_option autoImplicit false

namespace PipeWorks.Stream.Args

open PipeWorks.Python PipeWorks.Python.Argparse
open PipeWorks.Conductor (Record fitsInteger)
open PipeWorks.Conductor.WindowsProcess (command definition pythonw)

/-! ## The code -/

/-- The options of `parse_args`. -/
def options : Options :=
  argumentParser ++
    [("--process-id", .store "process_id" .str true none),
      ("--input-rtsp-url", .store "input_rtsp_url" .str true none),
      ("--input-transport", .store "input_transport" .str true none),
      ("--input-jitter-buffer", .store "input_jitter_buffer" .int false (some (.int 30))),
      ("--output-rtsp-url", .store "output_rtsp_url" .str true none),
      ("--output-transport", .store "output_transport" .str true none)]

/-- `parse_args`, on the arguments behind `-m stream.cli`; `none` stands for `SystemExit`. -/
def parseArgs (command : List String) : Option (String → Option Value) :=
  Argparse.parseArgs options (command.drop 3)

/-! ## The property and the condition -/

/-- The namespace holds what the definition says. -/
structure Holds (values : String → Option Value) (process : Record) : Prop where
  processId : values "process_id" = some (.str process.id)
  inputRtspUrl : values "input_rtsp_url" = some (.str process.inputRtspUrl)
  inputTransport : values "input_transport" = some (.str process.inputTransport)
  inputJitterBuffer : values "input_jitter_buffer" = some (.int process.inputJitterBuffer)
  outputRtspUrl : values "output_rtsp_url" = some (.str process.outputRtspUrl)
  outputTransport : values "output_transport" = some (.str process.outputTransport)

/-- The stream process reads the definition it has been started for. -/
def RoundTrips (executable : String) (process : Record) : Prop :=
  ∃ values, parseArgs (command executable process) = some values ∧ Holds values process

/-- The text has no dash in front, or is nothing but a dash.  Or it has a space in it or is a
    negative number, does not begin with `-h`, and does not begin with two dashes and, up to an
    equality sign, the beginning of an option. -/
def Passes (arg : String) : Prop :=
  match arg.toList with
  | '-' :: c :: cs =>
    (isNegativeNumber ('-' :: c :: cs) = true ∨ ' ' ∈ '-' :: c :: cs) ∧
      if c = '-' then ∀ option ∈ options, ¬ (splitEq ('-' :: c :: cs)).1 <+: option.1.toList
      else c ≠ 'h'
  | _ => True

/-! ## Free texts -/

/-- The options are `-h`, and others that begin with two dashes. -/
theorem toList_option : ∀ option ∈ options,
    option.1.toList = ['-', 'h'] ∨ option.1.toList.take 2 = ['-', '-'] := by
  decide

theorem hasNegativeNumberOptionals_options : hasNegativeNumberOptionals options = false := by
  decide

theorem splitEq_prefix (name : List Char) : (splitEq name).1 <+: name := List.takeWhile_prefix _

/-- With two dashes in front, an abbreviation is looked for, and the option itself is one. -/
theorem noOption_dashes {cs : List Char} :
    NoOption options ('-' :: '-' :: cs) ↔
      ∀ option ∈ options, ¬ (splitEq ('-' :: '-' :: cs)).1 <+: option.1.toList := by
  constructor
  · exact fun h => getOptionTuples_dashes.mp h.tuples
  · intro h
    refine ⟨lookup_eq_none.mpr ?_, fun _ => lookup_eq_none.mpr ?_, getOptionTuples_dashes.mpr h⟩
    · intro option hoption heq
      exact h option hoption (heq ▸ splitEq_prefix _)
    · intro option hoption heq
      exact h option hoption (heq ▸ List.prefix_refl _)

/-- No option begins with one dash and another character than `h`. -/
theorem not_prefix_option {c : Char} (hdash : c ≠ '-') (hhelp : c ≠ 'h') (cs : List Char) :
    ∀ option ∈ options, ¬ '-' :: c :: cs <+: option.1.toList := by
  rintro option hoption ⟨rest, hrest⟩
  rcases toList_option option hoption with h | h
  · rw [h] at hrest
    simp [hhelp] at hrest
  · rw [← hrest] at h
    simp [hdash] at h

/-- With one dash in front, only `-h` can be an option, whatever is behind it. -/
theorem noOption_dash {c : Char} {cs : List Char} (hc : c ≠ '-') :
    NoOption options ('-' :: c :: cs) ↔ c ≠ 'h' := by
  constructor
  · rintro h rfl
    exact ((getOptionTuples_dash hc).mp h.tuples ("-h", .help) (by decide)).1 rfl
  · intro hh
    have hprefix := not_prefix_option hc hh
    refine ⟨lookup_eq_none.mpr ?_, fun _ => lookup_eq_none.mpr ?_,
      (getOptionTuples_dash hc).mpr ?_⟩
    · intro option hoption heq
      exact hprefix cs option hoption (heq ▸ List.prefix_refl _)
    · intro option hoption heq
      by_cases hsign : c = '='
      · subst hsign
        rcases toList_option option hoption with h | h <;> simp [heq, splitEq] at h
      · have hname : option.1.toList = '-' :: c :: cs.takeWhile (· ≠ '=') := by
          simp [heq, splitEq, hsign]
        exact hprefix (cs.takeWhile (· ≠ '=')) option hoption (hname ▸ List.prefix_refl _)
    · intro option hoption
      refine ⟨fun heq => ?_, hprefix cs option hoption⟩
      exact hprefix [] option hoption (heq ▸ List.prefix_refl _)

/-- **What can stand behind an option.** -/
theorem readAsArgument_iff {arg : String} : ReadAsArgument options arg ↔ Passes arg := by
  unfold Passes
  split
  · rename_i c cs harg
    unfold ReadAsArgument
    rw [harg, parseOptional_eq_argument rfl (by simp), hasNegativeNumberOptionals_options]
    simp only [Bool.not_false, Bool.and_true]
    by_cases hc : c = '-'
    · subst hc
      rw [noOption_dashes, if_pos rfl]
      constructor
      · rintro ⟨-, hno, hread⟩
        exact ⟨hread, hno⟩
      · rintro ⟨hread, hno⟩
        refine ⟨?_, hno, hread⟩
        rintro rfl
        cases harg
        exact absurd hread (by decide)
    · rw [noOption_dash hc, if_neg hc]
      constructor
      · rintro ⟨-, hh, hread⟩
        exact ⟨hread, hh⟩
      · rintro ⟨hread, hh⟩
        refine ⟨?_, hh, hread⟩
        rintro rfl
        cases harg
        exact hc rfl
  · rename_i hshort
    refine iff_of_true ?_ trivial
    by_cases hdash : arg = "-"
    · subst hdash
      decide
    · apply readAsArgument_of_head
      intro hhead
      cases harg : arg.toList with
      | nil => simp [harg] at hhead
      | cons c cs =>
        rw [harg] at hhead
        cases hhead
        cases cs with
        | nil => exact hdash (String.toList_inj.mp harg)
        | cons d cs => exact hshort d cs harg

/-! ## The definition of a process -/

/-- What has been parsed when every argument has been read. -/
def received (process : Record) (jitterBuffer : Value) : Parsed :=
  (((((initial options).set "process_id" (.str process.id)).set
    "input_rtsp_url" (.str process.inputRtspUrl)).set
    "input_transport" (.str process.inputTransport)).set
    "input_jitter_buffer" jitterBuffer).set
    "output_rtsp_url" (.str process.outputRtspUrl) |>.set
    "output_transport" (.str process.outputTransport)

theorem parseArgs_eq_some {executable : String} {process : Record}
    {values : String → Option Value} :
    parseArgs (command executable process) = some values ↔
      ReadAsArgument options process.id ∧ ReadAsArgument options process.inputRtspUrl ∧
      ReadAsArgument options process.inputTransport ∧
      ReadAsArgument options (toString process.inputJitterBuffer) ∧
      ∃ jitterBuffer, getValues .int (toString process.inputJitterBuffer) = some jitterBuffer ∧
        ReadAsArgument options process.outputRtspUrl ∧
        ReadAsArgument options process.outputTransport ∧
        (received process jitterBuffer).values = values := by
  have hid : Stores options "--process-id" "process_id" .str :=
    ⟨⟨_, _, rfl⟩, rfl, by decide⟩
  have hinput : Stores options "--input-rtsp-url" "input_rtsp_url" .str :=
    ⟨⟨_, _, rfl⟩, rfl, by decide⟩
  have hinputTransport : Stores options "--input-transport" "input_transport" .str :=
    ⟨⟨_, _, rfl⟩, rfl, by decide⟩
  have hjitter : Stores options "--input-jitter-buffer" "input_jitter_buffer" .int :=
    ⟨⟨_, _, rfl⟩, rfl, by decide⟩
  have houtput : Stores options "--output-rtsp-url" "output_rtsp_url" .str :=
    ⟨⟨_, _, rfl⟩, rfl, by decide⟩
  have houtputTransport : Stores options "--output-transport" "output_transport" .str :=
    ⟨⟨_, _, rfl⟩, rfl, by decide⟩
  have hend : ∀ jitterBuffer parsed, received process jitterBuffer = parsed →
      (if parsed.complete options && parsed.extras.isEmpty then some parsed.values else none) =
        some (received process jitterBuffer).values := by
    rintro jitterBuffer parsed rfl
    rfl
  unfold parseArgs Argparse.parseArgs
  simp only [Option.bind_eq_some_iff, command, List.drop_succ_cons, List.drop_zero,
    parseKnown_pair_str hid, parseKnown_pair_str hinput, parseKnown_pair_str hinputTransport,
    parseKnown_pair hjitter, parseKnown_pair_str houtput, parseKnown_pair_str houtputTransport,
    parseKnown_nil]
  constructor
  · rintro ⟨parsed, ⟨h1, h2, h3, h4, jitterBuffer, hvalue, h5, h6, hparsed⟩, hreturn⟩
    rw [hend jitterBuffer parsed (Option.some.inj hparsed)] at hreturn
    exact ⟨h1, h2, h3, h4, jitterBuffer, hvalue, h5, h6, Option.some.inj hreturn⟩
  · rintro ⟨h1, h2, h3, h4, jitterBuffer, hvalue, h5, h6, rfl⟩
    exact ⟨received process jitterBuffer, ⟨h1, h2, h3, h4, jitterBuffer, hvalue, h5, h6, rfl⟩,
      hend jitterBuffer _ rfl⟩

/-- The transports are never taken for options. -/
theorem readAsArgument_transport {transport : String} (h : transport ∈ ["tcp", "udp"]) :
    ReadAsArgument options transport := by
  apply readAsArgument_of_head
  simp only [List.mem_cons, List.not_mem_nil, or_false] at h
  rcases h with rfl | rfl <;> decide

/-- A number that is not negative is read as it has been written. -/
theorem getValues_toString {i : Int} (hnonneg : 0 ≤ i) (hfits : fitsInteger i = true) :
    ReadAsArgument options (toString i) ∧ getValues .int (toString i) = some (.int i) := by
  obtain ⟨n, rfl⟩ := Int.eq_ofNat_of_zero_le hnonneg
  have hhead : (toString (n : Int)).toList.head? ≠ some '-' := by
    intro h
    rw [toList_toString] at h
    exact absurd (Nat.isDigit_of_mem_toDigits (by decide) (by decide) (List.mem_of_head? h))
      (by decide)
  have hread : ReadAsArgument options (toString (n : Int)) := readAsArgument_of_head hhead
  have hlength : (Nat.toDigits 10 n).length ≤ 20 := by
    rw [Nat.length_toDigits_le_iff (by decide) (by decide)]
    simp only [fitsInteger, Bool.and_eq_true, decide_eq_true_eq] at hfits
    omega
  refine ⟨hread, ?_⟩
  simp only [getValues, if_neg hread.1, intOfStr_toString (hlength.trans (by decide))]
  rfl

/-- **The arguments of a stream process.**  A process that can be stored is read back by the
    stream process exactly when its id and its URLs are not taken for options. -/
theorem roundTrips_iff (executable : String) (process : Record) (hchecks : process.checks = true)
    (hfits : fitsInteger process.inputJitterBuffer = true) :
    RoundTrips executable process ↔
      Passes process.id ∧ Passes process.inputRtspUrl ∧ Passes process.outputRtspUrl := by
  have htransports : process.inputTransport ∈ ["tcp", "udp"] ∧
      process.outputTransport ∈ ["tcp", "udp"] ∧ 0 ≤ process.inputJitterBuffer := by
    simp only [Record.checks, Bool.and_eq_true, List.contains_iff_mem, decide_eq_true_eq]
      at hchecks
    tauto
  obtain ⟨hinput, houtput, hnonneg⟩ := htransports
  obtain ⟨hread, hvalue⟩ := getValues_toString hnonneg hfits
  unfold RoundTrips
  simp only [parseArgs_eq_some, readAsArgument_transport hinput, readAsArgument_transport houtput,
    hread, hvalue, ← readAsArgument_iff, true_and]
  constructor
  · rintro ⟨values, ⟨hid, hinputUrl, jitterBuffer, -, houtputUrl, -⟩, -⟩
    exact ⟨hid, hinputUrl, houtputUrl⟩
  · rintro ⟨hid, hinputUrl, houtputUrl⟩
    exact ⟨_, ⟨hid, hinputUrl, _, rfl, houtputUrl, rfl⟩, ⟨rfl, rfl, rfl, rfl, rfl, rfl⟩⟩

theorem roundTrips_iff_cam :
    RoundTrips pythonw (definition "cam") ↔
      Passes "cam" ∧ Passes "rtsp://camera/in" ∧ Passes "rtsp://server/out" :=
  roundTrips_iff pythonw (definition "cam") (by decide) (by decide)

/-- The id `-cam` is taken for an option that the stream process does not know, so that
    `--process-id` has no argument. -/
theorem dashed_id_not_read : ¬ RoundTrips pythonw (definition "-cam") := by
  rintro ⟨values, hvalues, -⟩
  have hexits : parseArgs (command pythonw (definition "-cam")) = none := rfl
  rw [hexits] at hvalues
  cases hvalues

end PipeWorks.Stream.Args
