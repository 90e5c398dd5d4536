import PipeWorks.Lib.Fails
import PipeWorks.Python.JsonDumps

/-!
# `json.loads` after `json.dumps`

Every value that `json.dumps` writes is read back (`loads_dumps`), also from its bytes
(`loads_dumpBytes`).  `Reads` says of a scanner, a value and a text what the scanners of the values
around it rely on: the text begins as a value does, and is read as the value, whatever stands behind
it.
-/

set_option autoImplicit false

namespace PipeWorks.Python

open Fails (bind_eq_ok map_eq_ok ok_bind)

/-! ## Values -/

/-- The first character of a value. -/
def StartsValue (text : PyStr) : Prop :=
  ∃ c s, text = c :: s ∧ isWhitespace c = false ∧ c ≠ ']'.toNat ∧ c ≠ '\x7d'.toNat ∧ c ≠ 0xFEFF

def IsAscii (s : PyStr) : Prop := ∀ c ∈ s, c < 0x80

instance (s : PyStr) : Decidable (IsAscii s) := inferInstanceAs (Decidable (∀ c ∈ s, c < 0x80))

/-- `scan` reads the text, in front of whatever may stand behind it, as the value. -/
structure Reads (scan : PyStr → Except PyError (Json × PyStr)) (value : Json) (text : PyStr) :
    Prop where
  ascii : IsAscii text
  starts : StartsValue text
  scan : ∀ rest, Ends rest → scan (text ++ rest) = .ok (value, rest)

/-- The same of a member of a dict. -/
def ReadsMember (scan : PyStr → Except PyError (Json × PyStr)) (member : PyStr × Json)
    (part : PyStr) : Prop :=
  ∃ text, part = encodeString member.1 ++ pyStr ": " ++ text ∧ IsText member.1 ∧
    Reads scan member.2 text

section

variable {scan : PyStr → Except PyError (Json × PyStr)} {value : Json} {text part rest : PyStr}
  {parts : List PyStr}

theorem IsAscii.append {s t : PyStr} (hs : IsAscii s) (ht : IsAscii t) : IsAscii (s ++ t) :=
  fun c hc => (List.mem_append.mp hc).elim (hs c) (ht c)

theorem IsAscii.isText {s : PyStr} (h : IsAscii s) : IsText s where
  points := fun c hc => Nat.le_of_lt (Nat.lt_trans (h c hc) (by decide))
  unpaired := by
    rw [List.isChain_iff_forall_rel_of_append_cons_cons]
    rintro c d before after rfl ⟨hhigh, -⟩
    have hc := h c (List.mem_append_right _ (List.mem_cons_self ..))
    rw [isHigh, Bool.and_eq_true, decide_eq_true_eq] at hhigh
    omega

theorem isAscii_escapeUnit {u : Nat} (hu : u < 0x10000) : IsAscii (escapeUnit u) := by
  have hhex : ∀ d, d < 16 → hexChar d < 0x80 := by decide
  intro c hc
  simp only [escapeUnit, List.mem_cons, List.not_mem_nil, or_false] at hc
  obtain rfl | rfl | rfl | rfl | rfl | rfl := hc
  · decide
  · decide
  · exact hhex _ (by omega)
  · exact hhex _ (by omega)
  · exact hhex _ (by omega)
  · exact hhex _ (by omega)

theorem isAscii_escapeChar {c : Nat} (hc : c ≤ 0x10FFFF) : IsAscii (escapeChar c) := by
  unfold escapeChar
  split
  · rename_i e he
    intro x hx
    obtain rfl | hx := List.mem_cons.mp hx
    · decide
    · rw [List.mem_singleton.mp hx]
      exact (shortEscape_spec he).2.2
  · split
    · intro x hx
      rw [List.mem_singleton.mp hx]
      omega
    · split
      · exact isAscii_escapeUnit (by assumption)
      · exact (isAscii_escapeUnit (by omega)).append (isAscii_escapeUnit (by omega))

theorem isAscii_encodeString {s : PyStr} (h : IsText s) : IsAscii (encodeString s) := by
  refine IsAscii.append (fun x hx => ?_) (fun x hx => ?_)
  · obtain rfl | hx := List.mem_cons.mp hx
    · decide
    · obtain ⟨c, hc, hx⟩ := List.mem_flatMap.mp hx
      exact isAscii_escapeChar (h.points c hc) x hx
  · rw [List.mem_singleton.mp hx]
    decide

theorem isAscii_digits {digits : PyStr} (h : ∀ c ∈ digits, isDigit c = true) : IsAscii digits := by
  intro c hc
  have hdigit := isDigit_iff.mp (h c hc)
  omega

theorem IsPart.isAscii {mark fraction : PyStr} (h : IsPart mark fraction) (hmark : IsAscii mark) :
    IsAscii fraction := by
  obtain rfl | ⟨digits, rfl, -, hdigits⟩ := h
  · exact fun c hc => by cases hc
  · exact hmark.append (isAscii_digits hdigits)

theorem StartsValue.skipWhitespace (h : StartsValue text) (rest : PyStr) :
    skipWhitespace (text ++ rest) = text ++ rest := by
  obtain ⟨c, s, rfl, hspace, -⟩ := h
  exact List.dropWhile_cons_of_neg (by simp [hspace])

theorem StartsValue.length_pos (h : StartsValue text) : 0 < text.length := by
  obtain ⟨c, s, rfl, -⟩ := h
  exact Nat.zero_lt_succ _

theorem startsValue_encodeString (s : PyStr) : StartsValue (encodeString s) :=
  ⟨_, _, rfl, by decide, by decide, by decide, by decide⟩

theorem joinParts_cons_cons (part next : PyStr) (parts : List PyStr) :
    joinParts (part :: next :: parts) = part ++ pyStr ", " ++ joinParts (next :: parts) :=
  List.intercalate_cons_cons

theorem startsValue_joinParts (h : StartsValue part) (parts : List PyStr) :
    StartsValue (joinParts (part :: parts)) := by
  obtain ⟨c, s, rfl, hc⟩ := h
  cases parts with
  | nil => exact ⟨c, s, List.append_nil _, hc⟩
  | cons next parts =>
    rw [joinParts_cons_cons]
    exact ⟨c, _, rfl, hc⟩

theorem length_le_joinParts {α : Type} {R : α → PyStr → Prop}
    (hR : ∀ x part, R x part → StartsValue part) {items : List α} (h : List.Forall₂ R items parts) :
    items.length ≤ (joinParts parts).length := by
  induction h with
  | nil => exact Nat.le_refl _
  | @cons item part items parts hitem hitems ih =>
    have hpos := (hR item part hitem).length_pos
    cases hitems with
    | nil =>
      rw [joinParts, List.intercalate_singleton]
      exact hpos
    | cons hnext hitems =>
      rw [joinParts_cons_cons, List.length_append, List.length_append]
      rw [List.length_cons]
      omega

theorem isAscii_brackets {c d : Nat} (h : IsAscii text) (hc : c < 0x80) (hd : d < 0x80) :
    IsAscii (c :: text ++ [d]) := by
  intro x hx
  obtain rfl | hx := List.mem_cons.mp hx
  · exact hc
  · exact (h.append fun y hy => List.mem_singleton.mp hy ▸ hd) x hx

theorem isAscii_joinParts {α : Type} {R : α → PyStr → Prop}
    (hR : ∀ x part, R x part → IsAscii part) {items : List α} (h : List.Forall₂ R items parts) :
    IsAscii (joinParts parts) := by
  induction h with
  | nil => exact fun c hc => by cases hc
  | @cons item part items parts hitem hitems ih =>
    cases hitems with
    | nil =>
      rw [joinParts, List.intercalate_singleton]
      exact hR item part hitem
    | cons hnext hitems =>
      rw [joinParts_cons_cons]
      exact ((hR item part hitem).append (by decide)).append ih

/-! ### Lists -/

theorem ends_bracket (rest : PyStr) : Ends (']'.toNat :: rest) := by
  intro c hc
  exact .inr (.inl (Option.some.inj hc).symm)

theorem ends_comma (rest : PyStr) : Ends (pyStr ", " ++ rest) := by
  intro c hc
  exact .inl (Option.some.inj hc).symm

theorem ends_brace (rest : PyStr) : Ends ('\x7d'.toNat :: rest) := by
  intro c hc
  exact .inr (.inr (Option.some.inj hc).symm)

/-- Behind a comma and a space the next value begins. -/
theorem skipWhitespace_comma (h : StartsValue text) (rest : PyStr) :
    skipWhitespace (pyStr ", " ++ (text ++ rest)) = ','.toNat :: ' '.toNat :: (text ++ rest) ∧
      skipWhitespace (' '.toNat :: (text ++ rest)) = text ++ rest :=
  ⟨rfl, h.skipWhitespace rest⟩

theorem scanItems_joinParts {items : List Json} (h : List.Forall₂ (Reads scan) items parts)
    (hne : items ≠ []) (fuel : Nat) (hfuel : items.length ≤ fuel) (rest : PyStr) :
    scanItems scan fuel (joinParts parts ++ ']'.toNat :: rest) = .ok (items, rest) := by
  induction h generalizing fuel with
  | nil => exact absurd rfl hne
  | @cons item part items parts hitem hitems ih =>
    obtain ⟨fuel, rfl⟩ : ∃ n, fuel = n + 1 := ⟨fuel - 1, by simp at hfuel; omega⟩
    cases hitems with
    | nil =>
      have hscan := hitem.scan (']'.toNat :: rest) (ends_bracket rest)
      simp only [joinParts, List.intercalate_singleton, scanItems, hscan]
      rfl
    | @cons next nextPart items parts hnext hitems =>
      have hrest := ih (List.cons_ne_nil _ _) fuel (by simpa using hfuel)
      have hscan := hitem.scan _ (ends_comma (joinParts (nextPart :: parts) ++ ']'.toNat :: rest))
      obtain ⟨hcomma, hspace⟩ := skipWhitespace_comma
        (startsValue_joinParts hnext.starts parts) (']'.toNat :: rest)
      rw [joinParts_cons_cons, List.append_assoc, List.append_assoc, scanItems, hscan]
      simp only [bind, Except.bind, hcomma, hspace, hrest]
      rfl

theorem scanList_joinParts {items : List Json} (h : List.Forall₂ (Reads scan) items parts)
    (rest : PyStr) :
    scanList scan (joinParts parts ++ ']'.toNat :: rest) = .ok (.list items, rest) := by
  have hlength := length_le_joinParts (fun _ _ hread => hread.starts) h
  have hfuel : items.length ≤ (joinParts parts ++ ']'.toNat :: rest).length := by
    rw [List.length_append]
    omega
  have hscan := fun hne => scanItems_joinParts h hne _ hfuel rest
  cases h with
  | nil => rfl
  | @cons item part items parts hitem hitems =>
    have hstarts := startsValue_joinParts hitem.starts parts
    have hskip := hstarts.skipWhitespace (']'.toNat :: rest)
    obtain ⟨c, s, heq, -, hbracket, -, -⟩ := hstarts
    unfold scanList
    rw [hskip]
    rw [heq, List.cons_append] at hscan ⊢
    simp only [if_neg hbracket, hscan (List.cons_ne_nil _ _), bind, Except.bind]

/-! ### Dicts -/

theorem scanMember_part {member : PyStr × Json} (h : ReadsMember scan member part)
    (hrest : Ends rest) : scanMember scan (part ++ rest) = .ok (member, rest) := by
  obtain ⟨text, rfl, hkey, hvalue⟩ := h
  have hstring := scanString_encodeString hkey
    (length_lt_flatMap_escapeChar member.1 (pyStr ": " ++ (text ++ rest)))
    (pyStr ": " ++ (text ++ rest))
  have hspace : skipWhitespace (' '.toNat :: (text ++ rest)) = text ++ rest :=
    hvalue.starts.skipWhitespace rest
  have hsplit : encodeString member.1 ++ pyStr ": " ++ text ++ rest = '"'.toNat ::
      (member.1.flatMap escapeChar ++ '"'.toNat :: (pyStr ": " ++ (text ++ rest))) := by
    simp only [encodeString, List.append_assoc, List.cons_append, List.nil_append]
  rw [hsplit, scanMember, if_pos rfl, hstring]
  have hcolon : skipWhitespace (pyStr ": " ++ (text ++ rest)) =
      ':'.toNat :: ' '.toNat :: (text ++ rest) := rfl
  simp only [bind, Except.bind, hcolon, hspace, hvalue.scan rest hrest]
  rfl

theorem startsValue_member {member : PyStr × Json} (h : ReadsMember scan member part) :
    StartsValue part := by
  obtain ⟨text, rfl, -⟩ := h
  exact ⟨_, _, rfl, by decide, by decide, by decide, by decide⟩

theorem isAscii_member {member : PyStr × Json} (h : ReadsMember scan member part) :
    IsAscii part := by
  obtain ⟨text, rfl, hkey, hvalue⟩ := h
  exact ((isAscii_encodeString hkey).append (by decide)).append hvalue.ascii

theorem setItem_of_not_mem {key : PyStr} {members : List (PyStr × Json)}
    (h : key ∉ members.map Prod.fst) (value : Json) :
    setItem key value members = members ++ [(key, value)] := by
  induction members with
  | nil => rfl
  | cons member members ih =>
    rw [List.map_cons, List.mem_cons, not_or] at h
    rw [setItem, if_neg fun heq => h.1 heq.symm, ih h.2]
    rfl

theorem scanMembers_joinParts {members : List (PyStr × Json)}
    (h : List.Forall₂ (ReadsMember scan) members parts) (hne : members ≠ []) (fuel : Nat)
    (hfuel : members.length ≤ fuel) (before : List (PyStr × Json))
    (hnodup : ((before ++ members).map Prod.fst).Nodup) (rest : PyStr) :
    scanMembers scan fuel before (joinParts parts ++ '\x7d'.toNat :: rest) =
      .ok (before ++ members, rest) := by
  induction h generalizing fuel before with
  | nil => exact absurd rfl hne
  | @cons member part members parts hmember hmembers ih =>
    obtain ⟨fuel, rfl⟩ : ∃ n, fuel = n + 1 := ⟨fuel - 1, by simp at hfuel; omega⟩
    have hset : setItem member.1 member.2 before = before ++ [member] := by
      refine setItem_of_not_mem (fun hmem => ?_) member.2
      rw [List.map_append, List.map_cons] at hnodup
      exact (List.nodup_append.mp hnodup).2.2 _ hmem _ (List.mem_cons_self ..) rfl
    cases hmembers with
    | nil =>
      have hscan := scanMember_part hmember (ends_brace rest)
      simp only [joinParts, List.intercalate_singleton, scanMembers, hscan, ← hset]
      rfl
    | @cons next nextPart members parts hnext hmembers =>
      have hrest := ih (List.cons_ne_nil _ _) fuel (by simpa using hfuel) (before ++ [member])
        (by simpa using hnodup)
      have hscan := scanMember_part hmember
        (ends_comma (joinParts (nextPart :: parts) ++ '\x7d'.toNat :: rest))
      obtain ⟨hcomma, hspace⟩ := skipWhitespace_comma
        (startsValue_joinParts (startsValue_member hnext) parts) ('\x7d'.toNat :: rest)
      rw [joinParts_cons_cons, List.append_assoc, List.append_assoc, scanMembers, hscan]
      simp only [bind, Except.bind, hcomma, hspace, hset]
      rw [if_neg (by decide), if_pos trivial, hrest, List.append_assoc]
      rfl

theorem scanDict_joinParts {members : List (PyStr × Json)}
    (h : List.Forall₂ (ReadsMember scan) members parts) (hnodup : (members.map Prod.fst).Nodup)
    (rest : PyStr) :
    scanDict scan (joinParts parts ++ '\x7d'.toNat :: rest) = .ok (.dict members, rest) := by
  have hlength := length_le_joinParts (fun _ _ hread => startsValue_member hread) h
  have hfuel : members.length ≤ (joinParts parts ++ '\x7d'.toNat :: rest).length := by
    rw [List.length_append]
    omega
  have hscan := fun hne => scanMembers_joinParts h hne _ hfuel [] hnodup rest
  cases h with
  | nil => rfl
  | @cons member part members parts hmember hmembers =>
    have hstarts := startsValue_joinParts (startsValue_member hmember) parts
    have hskip := hstarts.skipWhitespace ('\x7d'.toNat :: rest)
    obtain ⟨c, s, heq, -, -, hbrace, -⟩ := hstarts
    unfold scanDict
    rw [hskip]
    rw [heq, List.cons_append] at hscan ⊢
    simp only [if_neg hbrace, hscan (List.cons_ne_nil _ _), bind, Except.bind, List.nil_append]

end

/-! ### Every value -/

section

variable {dict list : PyStr → Except PyError (Json × PyStr)} {digits text rest : PyStr}

theorem reads_constant {value : Json} (h : (text, value) ∈ constants) :
    Reads (scanValue dict list) value text := by
  simp only [constants, List.mem_cons, Prod.mk.injEq, List.not_mem_nil, or_false] at h
  obtain ⟨rfl, rfl⟩ | ⟨rfl, rfl⟩ | ⟨rfl, rfl⟩ | ⟨rfl, rfl⟩ | ⟨rfl, rfl⟩ | ⟨rfl, rfl⟩ := h <;>
    exact ⟨by decide, ⟨_, _, rfl, by decide, by decide, by decide, by decide⟩, fun _ _ => rfl⟩

theorem reads_string (h : IsText text) :
    Reads (scanValue dict list) (.str text) (encodeString text) where
  ascii := isAscii_encodeString h
  starts := startsValue_encodeString text
  scan := by
    intro rest hrest
    have hscan := scanString_encodeString h (length_lt_flatMap_escapeChar text rest) rest
    have hsplit : encodeString text ++ rest =
        '"'.toNat :: (text.flatMap escapeChar ++ '"'.toNat :: rest) := by
      simp only [encodeString, List.append_assoc, List.cons_append, List.nil_append]
    rw [hsplit, scanValue, if_pos rfl, hscan]
    rfl

/-- No constant begins as a number does. -/
theorem scanConstant_digit {d : Nat} (hd : isDigit d = true) (s : PyStr) :
    scanConstant (d :: s) = none ∧ scanConstant ('-'.toNat :: d :: s) = none := by
  obtain ⟨hlow, hhigh⟩ := isDigit_iff.mp hd
  have hletter : ∀ c, 57 < c → (c == d) = false := fun c hc => by
    rw [beq_eq_false_iff_ne]
    omega
  have hminus : (45 == d) = false := by
    rw [beq_eq_false_iff_ne]
    omega
  constructor
  · simp [scanConstant, constants, pyStr, List.find?, List.isPrefixOf, hletter, hminus]
  · simp [scanConstant, constants, pyStr, List.find?, List.isPrefixOf, hletter]

theorem scanValue_number (h : IsInteger digits) (negative : Bool) (s : PyStr) :
    scanValue dict list ((if negative then ['-'.toNat] else []) ++ digits ++ s) =
      scanUnsigned negative (digits ++ s) := by
  obtain ⟨d, ds, rfl⟩ := List.exists_cons_of_ne_nil h.ne_nil
  have hd := h.digit d (List.mem_cons_self ..)
  obtain ⟨hplain, hminus⟩ := scanConstant_digit hd (ds ++ s)
  obtain ⟨hlow, hhigh⟩ := isDigit_iff.mp hd
  cases negative with
  | true =>
    show scanValue dict list ('-'.toNat :: d :: (ds ++ s)) = _
    rw [scanValue, if_neg (by decide), if_neg (by decide), if_neg (by decide), hminus]
    rfl
  | false =>
    have hne : ∀ c : Nat, c < 48 ∨ 57 < c → d ≠ c := by omega
    show scanValue dict list (d :: (ds ++ s)) = _
    rw [scanValue, if_neg (hne _ (by decide)), if_neg (hne _ (by decide)),
      if_neg (hne _ (by decide)), hplain]
    dsimp only
    rw [scanNumber, if_neg (hne _ (by decide))]
    rfl

theorem isAscii_number (h : IsInteger digits) (negative : Bool) :
    IsAscii ((if negative then ['-'.toNat] else []) ++ digits) := by
  refine IsAscii.append ?_ (isAscii_digits h.digit)
  cases negative <;> decide

theorem startsValue_number (h : IsInteger digits) (negative : Bool) (s : PyStr) :
    StartsValue ((if negative then ['-'.toNat] else []) ++ digits ++ s) := by
  cases negative with
  | true => exact ⟨_, _, rfl, by decide, by decide, by decide, by decide⟩
  | false =>
    obtain ⟨d, ds, rfl⟩ := List.exists_cons_of_ne_nil h.ne_nil
    obtain ⟨hlow, hhigh⟩ := isDigit_iff.mp (h.digit d (List.mem_cons_self ..))
    have hne : ∀ c : Nat, c < 48 ∨ 57 < c → d ≠ c := by omega
    refine ⟨d, _, rfl, ?_, hne _ (by decide), hne _ (by decide), hne _ (by decide)⟩
    simp only [isWhitespace, Bool.or_eq_false_iff, beq_eq_false_iff_ne]
    exact ⟨⟨⟨hne _ (by decide), hne _ (by decide)⟩, hne _ (by decide)⟩, hne _ (by decide)⟩

theorem reads_int {i : Int} (h : reprInt i = .ok text) :
    Reads (scanValue dict list) (.int i) text := by
  have hinteger := isInteger_toDigits i.natAbs
  unfold reprInt at h
  dsimp only at h
  split at h
  · cases h
  · rename_i hfits
    have htext : text = (if decide (i < 0) = true then ['-'.toNat] else []) ++
        (Nat.toDigits 10 i.natAbs).map Char.toNat ++ [] := by
      rw [← Except.ok.inj h, List.append_nil]
      by_cases hneg : i < 0 <;> simp [hneg]
    have hvalue : (if decide (i < 0) then -(i.natAbs : Int) else (i.natAbs : Int)) = i := by
      split
      · rename_i hneg
        have := of_decide_eq_true hneg
        omega
      · rename_i hneg
        have : ¬ i < 0 := fun hi => hneg (decide_eq_true hi)
        omega
    rw [htext]
    refine ⟨?_, startsValue_number hinteger _ _, fun rest hrest => ?_⟩
    · exact (isAscii_number hinteger _).append fun c hc => by cases hc
    have hscan := scanUnsigned_append (decide (i < 0)) hinteger
      (.inl rfl : IsPart ['.'.toNat] []) (.inl rfl) (.inl rfl : IsPart ['e'.toNat] []) hrest
    rw [List.append_assoc, List.nil_append, scanValue_number hinteger]
    rw [List.nil_append, List.nil_append] at hscan
    rw [hscan, if_pos (List.append_nil []), if_neg hfits, ofDigits_toDigits, hvalue]

theorem reads_float {literal : PyStr} (h : IsFloat literal) :
    Reads (scanValue dict list) (.float literal) literal := by
  cases h with
  | constant h => exact reads_constant h
  | @number digits fraction exponent sign negative hsign hdigits hfraction hexponent hsome =>
    rw [List.append_assoc _ fraction exponent]
    have hmark : IsAscii ('e'.toNat :: sign) := by
      obtain rfl | rfl | rfl := hsign <;> decide
    refine ⟨?_, startsValue_number hdigits negative _, fun rest hrest => ?_⟩
    · exact (isAscii_number hdigits negative).append
        ((hfraction.isAscii (by decide)).append (hexponent.isAscii hmark))
    rw [List.append_assoc _ _ rest, List.append_assoc fraction, scanValue_number hdigits,
      scanUnsigned_append negative hdigits hfraction hsign hexponent hrest, if_neg hsome,
      List.append_assoc _ fraction]

theorem reads_scanOnce {value : Json} (h : ∀ dict list, Reads (scanValue dict list) value text)
    (room : Nat) : Reads (scanOnce room) value text := by
  obtain ⟨hascii, hstarts, -⟩ := h (fun _ => .ok (value, [])) fun _ => .ok (value, [])
  cases room with
  | zero => exact ⟨hascii, hstarts, (h _ _).scan⟩
  | succ room => exact ⟨hascii, hstarts, (h _ _).scan⟩

end

mutual

theorem reads_dumps : ∀ (value : Json) (depth room : Nat) (text : PyStr), value.Valid →
    dumps depth value = .ok text → depth ≤ room → Reads (scanOnce room) value text
  | .null, depth, room, text, _, hdumps, _ => by
    rw [dumps] at hdumps
    cases hdumps
    exact reads_scanOnce (fun _ _ => reads_constant (by simp [constants])) room
  | .bool true, depth, room, text, _, hdumps, _ => by
    rw [dumps] at hdumps
    cases hdumps
    exact reads_scanOnce (fun _ _ => reads_constant (by simp [constants])) room
  | .bool false, depth, room, text, _, hdumps, _ => by
    rw [dumps] at hdumps
    cases hdumps
    exact reads_scanOnce (fun _ _ => reads_constant (by simp [constants])) room
  | .int i, depth, room, text, _, hdumps, _ => by
    rw [dumps] at hdumps
    exact reads_scanOnce (fun _ _ => reads_int hdumps) room
  | .float literal, depth, room, text, hvalid, hdumps, _ => by
    rw [dumps] at hdumps
    cases hdumps
    rw [Json.Valid] at hvalid
    exact reads_scanOnce (fun _ _ => reads_float hvalid) room
  | .str s, depth, room, text, hvalid, hdumps, _ => by
    rw [dumps] at hdumps
    cases hdumps
    rw [Json.Valid] at hvalid
    exact reads_scanOnce (fun _ _ => reads_string hvalid) room
  | .list items, 0, room, text, _, hdumps, _ => by
    rw [dumps] at hdumps
    cases hdumps
  | .list items, depth + 1, 0, text, _, _, hroom => absurd hroom (Nat.not_succ_le_zero _)
  | .list items, depth + 1, room + 1, text, hvalid, hdumps, hroom => by
    rw [dumps] at hdumps
    rw [Json.Valid] at hvalid
    obtain ⟨parts, hparts, rfl⟩ := map_eq_ok.1 hdumps
    have hread := reads_dumpItems items depth room parts hvalid hparts
      (Nat.le_of_succ_le_succ hroom)
    refine ⟨?_, ⟨_, _, rfl, by decide, by decide, by decide, by decide⟩, fun rest _ => ?_⟩
    · exact isAscii_brackets (isAscii_joinParts (fun _ _ h => h.ascii) hread) (by decide)
        (by decide)
    rw [List.append_assoc, List.singleton_append]
    exact scanList_joinParts hread rest
  | .dict members, 0, room, text, _, hdumps, _ => by
    rw [dumps] at hdumps
    cases hdumps
  | .dict members, depth + 1, 0, text, _, _, hroom => absurd hroom (Nat.not_succ_le_zero _)
  | .dict members, depth + 1, room + 1, text, hvalid, hdumps, hroom => by
    rw [dumps] at hdumps
    rw [Json.Valid] at hvalid
    obtain ⟨parts, hparts, rfl⟩ := map_eq_ok.1 hdumps
    have hread := reads_dumpMembers members depth room parts hvalid.2 hparts
      (Nat.le_of_succ_le_succ hroom)
    refine ⟨?_, ⟨_, _, rfl, by decide, by decide, by decide, by decide⟩, fun rest _ => ?_⟩
    · exact isAscii_brackets (isAscii_joinParts (fun _ _ h => isAscii_member h) hread) (by decide)
        (by decide)
    rw [List.append_assoc, List.singleton_append]
    exact scanDict_joinParts hread hvalid.1 rest

theorem reads_dumpItems : ∀ (items : List Json) (depth room : Nat) (parts : List PyStr),
    ValidItems items → dumpItems depth items = .ok parts → depth ≤ room →
      List.Forall₂ (Reads (scanOnce room)) items parts
  | [], depth, room, parts, _, hdumps, _ => by
    rw [dumpItems] at hdumps
    cases hdumps
    exact .nil
  | item :: items, depth, room, parts, hvalid, hdumps, hroom => by
    rw [dumpItems] at hdumps
    rw [ValidItems] at hvalid
    obtain ⟨part, hpart, hrest⟩ := bind_eq_ok.1 hdumps
    obtain ⟨parts, hparts, ⟨⟩⟩ := bind_eq_ok.1 hrest
    exact .cons (reads_dumps item depth room part hvalid.1 hpart hroom)
      (reads_dumpItems items depth room _ hvalid.2 hparts hroom)

theorem reads_dumpMembers : ∀ (members : List (PyStr × Json)) (depth room : Nat)
    (parts : List PyStr), ValidMembers members → dumpMembers depth members = .ok parts →
      depth ≤ room → List.Forall₂ (ReadsMember (scanOnce room)) members parts
  | [], depth, room, parts, _, hdumps, _ => by
    rw [dumpMembers] at hdumps
    cases hdumps
    exact .nil
  | member :: members, depth, room, parts, hvalid, hdumps, hroom => by
    rw [dumpMembers] at hdumps
    rw [ValidMembers] at hvalid
    obtain ⟨part, hpart, hrest⟩ := bind_eq_ok.1 hdumps
    obtain ⟨parts, hparts, ⟨⟩⟩ := bind_eq_ok.1 hrest
    exact .cons (reads_dumpMember member depth room part hvalid.1 hpart hroom)
      (reads_dumpMembers members depth room _ hvalid.2 hparts hroom)

theorem reads_dumpMember : ∀ (member : PyStr × Json) (depth room : Nat) (part : PyStr),
    ValidMember member → dumpMember depth member = .ok part → depth ≤ room →
      ReadsMember (scanOnce room) member part
  | (key, value), depth, room, part, hvalid, hdumps, hroom => by
    rw [dumpMember] at hdumps
    rw [ValidMember] at hvalid
    obtain ⟨text, htext, rfl⟩ := map_eq_ok.1 hdumps
    exact ⟨text, rfl, hvalid.1, reads_dumps value depth room text hvalid.2 htext hroom⟩

end

section

variable {value : Json} {depth room : Nat} {text : PyStr}

/-- What is written is ASCII. -/
theorem isAscii_dumps (hvalid : value.Valid) (hdumps : dumps depth value = .ok text) :
    IsAscii text :=
  (reads_dumps value depth depth text hvalid hdumps (Nat.le_refl _)).ascii

/-- **What is written is read back**, by an interpreter that leaves as much room for nested
containers. -/
theorem loads_dumps (hvalid : value.Valid) (hdumps : dumps depth value = .ok text)
    (hroom : depth ≤ room) : loads room text = .ok value := by
  obtain ⟨-, hstarts, hscan⟩ := reads_dumps value depth room text hvalid hdumps hroom
  have hskip := hstarts.skipWhitespace []
  have hvalue := hscan [] fun c hc => by cases hc
  rw [List.append_nil] at hskip hvalue
  obtain ⟨c, s, rfl, -, -, -, hmark⟩ := hstarts
  unfold loads
  rw [if_neg (by simpa using hmark), hskip, hvalue]
  rfl

/-! ### As bytes -/

theorem IsAscii.toNat_ofNat (h : IsAscii text) :
    (text.map UInt8.ofNat).map UInt8.toNat = text := by
  rw [List.map_map]
  refine (List.map_congr_left fun c hc => ?_).trans (List.map_id text)
  exact UInt8.toNat_ofNat_of_lt (Nat.lt_trans (h c hc) (by decide))

theorem decodeUtf8_ascii (h : IsAscii text) : decodeUtf8 (text.map UInt8.ofNat) = .ok text := by
  have hall : ∀ fuel, text.length ≤ fuel → decodeWithFuel fuel text = .ok text := by
    induction text with
    | nil =>
      intro fuel _
      cases fuel <;> rfl
    | cons c s ih =>
      intro fuel hfuel
      obtain ⟨fuel, rfl⟩ : ∃ n, fuel = n + 1 := ⟨fuel - 1, by simp at hfuel; omega⟩
      have hc : c ≤ 0x7F := by
        have := h c (List.mem_cons_self ..)
        omega
      have hrest := ih (fun d hd => h d (List.mem_cons_of_mem c hd)) fuel (by simpa using hfuel)
      simp only [decodeWithFuel, utf8Head, if_pos hc, hrest]
      rfl
  unfold decodeUtf8
  rw [h.toNat_ofNat, List.length_map]
  exact hall _ (Nat.le_refl _)

theorem encodeUtf8_ascii (h : IsAscii text) : encodeUtf8 text = some text := by
  rw [encodeUtf8_eq_some]
  constructor
  · intro c hc
    have hlow := h c hc
    rw [isSurrogate, Bool.and_eq_false_iff]
    exact .inl (decide_eq_false (by omega))
  · induction text with
    | nil => rfl
    | cons c s ih =>
      rw [List.flatMap_cons, ← ih fun d hd => h d (List.mem_cons_of_mem c hd), utf8Bytes,
        if_pos (h c (List.mem_cons_self ..)), List.singleton_append]

/-- `json.dumps(value).encode("utf-8")`. -/
def dumpBytes (depth : Nat) (value : Json) : Except PyError (List UInt8) :=
  dumps depth value >>= fun text =>
    match encodeUtf8 text with
    | some bytes => .ok (bytes.map UInt8.ofNat)
    | none => .error (.other "UnicodeEncodeError")

theorem dumpBytes_eq (hvalid : value.Valid) (hdumps : dumps depth value = .ok text) :
    dumpBytes depth value = .ok (text.map UInt8.ofNat) := by
  rw [dumpBytes, hdumps, ok_bind, encodeUtf8_ascii (isAscii_dumps hvalid hdumps)]

/-- **The bytes of a value are decoded to the value.** -/
theorem loads_dumpBytes {raw : List UInt8} (hvalid : value.Valid)
    (hdumps : dumpBytes depth value = .ok raw) (hroom : depth ≤ room) :
    (decodeUtf8 raw >>= loads room) = .ok value := by
  obtain ⟨text, htext, -⟩ := bind_eq_ok.1 hdumps
  rw [dumpBytes_eq hvalid htext] at hdumps
  cases hdumps
  rw [decodeUtf8_ascii (isAscii_dumps hvalid htext), ok_bind]
  exact loads_dumps hvalid htext hroom

end

/-! ## Without containers -/

/-- Neither a list nor a dict. -/
def Json.IsScalar : Json → Prop
  | .list _ | .dict _ => False
  | _ => True

theorem dumps_scalar {value : Json} (h : value.IsScalar) (depth : Nat) :
    dumps depth value = dumps 0 value := by
  cases value with
  | list items => exact h.elim
  | dict members => exact h.elim
  | bool b => cases b <;> rw [dumps, dumps]
  | _ => rw [dumps, dumps]

/-- A dict of scalars is written in whatever room there is. -/
theorem dumpMembers_scalar {members : List (PyStr × Json)}
    (h : ∀ member ∈ members, member.2.IsScalar) (depth : Nat) :
    dumpMembers depth members = dumpMembers 0 members := by
  induction members with
  | nil => rw [dumpMembers, dumpMembers]
  | cons member members ih =>
    have hmember : dumpMember depth member = dumpMember 0 member := by
      rw [dumpMember, dumpMember, dumps_scalar (h member (List.mem_cons_self ..))]
    rw [dumpMembers, dumpMembers, hmember, ih fun m hm => h m (List.mem_cons_of_mem _ hm)]

theorem dumpBytes_scalars {depth : Nat} {members : List (PyStr × Json)} {raw : List UInt8}
    (h : ∀ member ∈ members, member.2.IsScalar)
    (hdumps : dumpBytes depth (.dict members) = .ok raw) :
    dumpBytes 1 (.dict members) = .ok raw := by
  cases depth with
  | zero =>
    unfold dumpBytes at hdumps
    rw [dumps] at hdumps
    cases hdumps
  | succ depth =>
    rw [← hdumps, dumpBytes, dumpBytes, dumps, dumps, dumpMembers_scalar h depth]

end PipeWorks.Python
