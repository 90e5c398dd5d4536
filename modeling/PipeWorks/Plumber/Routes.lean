import Mathlib.Data.List.DropRight
import PipeWorks.Lib.PercentCoding
import PipeWorks.Python.Str
import PipeWorks.Python.Utf8

/-!
# The URLs of a pipeline (`PipelineManager.start`, `do_GET`, `do_POST`, `index.html`)

The name of a pipeline is percent-encoded into the path of a request, which `urlparse`, `split` and
`unquote` take apart again.  `index.html` uses `encodeURIComponent`; the statistics URL of a child
process is made with `quote`, which leaves slashes alone.

`routesBack_iff`: the paths of a pipeline lead back to it exactly if its name has no slash and no
surrogate.  `slash_not_routed` is a name with a slash.
-/

set_option autoImplicit false

namespace PipeWorks.Plumber.Routes

open PipeWorks.Python PercentCoding

/-! ## Encoding -/

def isAlnum (c : Nat) : Bool :=
  ('0'.toNat ≤ c && c ≤ '9'.toNat) || ('A'.toNat ≤ c && c ≤ 'Z'.toNat) ||
    ('a'.toNat ≤ c && c ≤ 'z'.toNat)

/-- What `quote` leaves alone, with its default `safe="/"`. -/
def quoteSafe (c : Nat) : Bool := isAlnum c || (pyStr "_.-~/").contains c

/-- What `encodeURIComponent` leaves alone. -/
def componentSafe (c : Nat) : Bool := isAlnum c || (pyStr "-_.!~*'()").contains c

/-- `quote(name)`; `none` stands for `UnicodeEncodeError`. -/
def quote (name : PyStr) : Option PyStr := (encodeUtf8 name).map (encode quoteSafe)

/-- The code points of a text in JavaScript: a pair of surrogates is one. -/
def joinPairs : PyStr → PyStr
  | high :: low :: s =>
    if 0xD800 ≤ high ∧ high ≤ 0xDBFF ∧ 0xDC00 ≤ low ∧ low ≤ 0xDFFF then
      (0x10000 + (high - 0xD800) * 0x400 + (low - 0xDC00)) :: joinPairs s
    else high :: joinPairs (low :: s)
  | s => s

/-- `encodeURIComponent(name)`; `none` stands for `URIError`. -/
def encodeURIComponent (name : PyStr) : Option PyStr :=
  (encodeUtf8 (joinPairs name)).map (encode componentSafe)

/-! ## Decoding -/

/-- The runs of ASCII characters of a text, unquoted; the others stay. -/
def unquoteRuns (run : PyStr) : PyStr → PyStr
  | [] => decodeReplace (decode run)
  | c :: s =>
    if c < 0x80 then unquoteRuns (run ++ [c]) s
    else decodeReplace (decode run) ++ c :: unquoteRuns [] s

/-- `unquote(string)`. -/
def unquote (s : PyStr) : PyStr := if s.contains percent then unquoteRuns [] s else s

/-- `_splitparams`: what follows the last slash ends at a semicolon. -/
def splitParams (url : PyStr) : PyStr :=
  url.rdropWhile (· != '/'.toNat) ++ (url.rtakeWhile (· != '/'.toNat)).takeWhile (· != ';'.toNat)

/-- `urlparse(target).path`, for a request target that starts with a single slash and so has neither
a scheme nor an authority. -/
def urlPath (target : PyStr) : PyStr :=
  let url := (target.dropWhile (· ≤ 0x20)).filter fun c => c != 9 && c != 10 && c != 13
  splitParams ((url.takeWhile (· != '#'.toNat)).takeWhile (· != '?'.toNat))

/-! ## The handlers -/

inductive PostRoute where
  | startAll
  | recordStatistics (name : PyStr)
  | start (name : PyStr)
  | stop (name : PyStr)
  | notFound
  deriving DecidableEq, Repr

/-- `[unquote(part) for part in urlparse(self.path).path.split("/") if part]`. -/
def partsOf (target : PyStr) : List PyStr :=
  (((urlPath target).splitOn '/'.toNat).filter (· ≠ [])).map unquote

/-- The method `do_POST` calls. -/
def doPost (target : PyStr) : PostRoute :=
  match partsOf target with
  | [api, pipelines, action] =>
    if api = pyStr "api" ∧ pipelines = pyStr "pipelines" ∧ action = pyStr "start-all" then .startAll
    else .notFound
  | [api, pipelines, name, action] =>
    if api = pyStr "api" ∧ pipelines = pyStr "pipelines" then
      if action = pyStr "statistics" then .recordStatistics name
      else if action = pyStr "start" then .start name
      else if action = pyStr "stop" then .stop name
      else .notFound
    else .notFound
  | _ => .notFound

inductive GetRoute where
  | indexPage
  | list
  | status (name : PyStr)
  | notFound
  deriving DecidableEq, Repr

/-- The method `do_GET` calls. -/
def doGet (target : PyStr) : GetRoute :=
  let path := urlPath target
  if path = pyStr "/" then .indexPage
  else if path = pyStr "/api/pipelines" then .list
  else if (pyStr "/api/pipelines/").isPrefixOf path then
    .status (unquote (path.drop (pyStr "/api/pipelines/").length))
  else .notFound

/-! ## The paths -/

/-- The path that asks for the status of a pipeline. -/
def statusPath (encoded : PyStr) : PyStr := pyStr "/api/pipelines/" ++ encoded

def actionPath (encoded : PyStr) (action : String) : PyStr :=
  statusPath encoded ++ '/'.toNat :: pyStr action

/-- A name that `_load_definitions` accepts. -/
structure Name where
  text : PyStr
  codePoints : ∀ c ∈ text, c ≤ 0x10FFFF
  nonempty : text ≠ []
  stripped : (∀ c ∈ text.head?, isSpace (Char.ofNat c) = false) ∧
    ∀ c ∈ text.getLast?, isSpace (Char.ofNat c) = false

/-- The paths made of a name lead to the calls for this name. -/
structure RoutesBack (name : PyStr) : Prop where
  statistics : ∃ q, quote name = some q ∧
    doPost (actionPath q "statistics") = .recordStatistics name
  actions : ∃ q, encodeURIComponent name = some q ∧
    doPost (actionPath q "start") = .start name ∧ doPost (actionPath q "stop") = .stop name ∧
    doGet (statusPath q) = .status name

/-! ## Encoded texts -/

variable {safe : Nat → Bool} {bs s q : List Nat} {x : Nat}

/-- A character that means nothing in a path. -/
def isPlain (c : Nat) : Bool :=
  0x20 < c && c < 0x80 && c != '#'.toNat && c != '?'.toNat && c != ';'.toNat

/-- The safe characters are plain, and `%` is not one. -/
structure Usable (safe : Nat → Bool) : Prop where
  plain : ∀ c, safe c = true → isPlain c = true
  percent : safe percent = false

theorem isPlain_of_isEscape (h : isEscape x = true) : isPlain x = true := by
  simp [isEscape, percent] at h
  simp [isPlain]
  omega

theorem isPlain_of_isAlnum (h : isAlnum x = true) : isPlain x = true := by
  simp [isAlnum] at h
  simp [isPlain]
  omega

theorem usable_quoteSafe : Usable quoteSafe := by
  refine ⟨fun c hc => ?_, by decide⟩
  rcases Bool.or_eq_true_iff.1 hc with hc | hc
  · exact isPlain_of_isAlnum hc
  · have hall : ∀ d ∈ pyStr "_.-~/", isPlain d = true := by decide
    exact hall c (List.contains_iff_mem.1 hc)

theorem usable_componentSafe : Usable componentSafe := by
  refine ⟨fun c hc => ?_, by decide⟩
  rcases Bool.or_eq_true_iff.1 hc with hc | hc
  · exact isPlain_of_isAlnum hc
  · have hall : ∀ d ∈ pyStr "-_.!~*'()", isPlain d = true := by decide
    exact hall c (List.contains_iff_mem.1 hc)

theorem lt_of_isPlain (h : isPlain x = true) : 0x20 < x ∧ x < 0x80 := by
  simp [isPlain] at h
  omega

/-- Plain characters are left to the path. -/
theorem urlPath_plain (h : ∀ c ∈ s, isPlain c = true) : urlPath s = s := by
  have hkept : ∀ c ∈ s, (c ≤ 0x20) = False ∧ (c != '#'.toNat) = true ∧ (c != '?'.toNat) = true ∧
      (c != ';'.toNat) = true := by
    intro c hc
    have hplain := h c hc
    simp only [isPlain, Bool.and_eq_true, decide_eq_true_eq] at hplain
    exact ⟨by simpa using hplain.1.1.1.1, hplain.1.1.2, hplain.1.2, hplain.2⟩
  have hdrop : s.dropWhile (· ≤ 0x20) = s := by
    cases s with
    | nil => rfl
    | cons c s =>
      rw [List.dropWhile_cons_of_neg]
      simpa using (hkept c (List.mem_cons_self ..)).1
  have hfilter : (s.filter fun c => c != 9 && c != 10 && c != 13) = s := by
    rw [List.filter_eq_self]
    intro c hc
    have hlt := (lt_of_isPlain (h c hc)).1
    simp
    omega
  have htake : (s.takeWhile (· != '#'.toNat)).takeWhile (· != '?'.toNat) = s := by
    rw [List.takeWhile_eq_self_iff.2 fun c hc => (hkept c hc).2.1,
      List.takeWhile_eq_self_iff.2 fun c hc => (hkept c hc).2.2.1]
  have hlast : (s.rtakeWhile (· != '/'.toNat)).takeWhile (· != ';'.toNat) =
      s.rtakeWhile (· != '/'.toNat) :=
    List.takeWhile_eq_self_iff.2 fun c hc =>
      (hkept c ((List.rtakeWhile_suffix _ s).subset hc)).2.2.2
  have hjoin : s.rdropWhile (· != '/'.toNat) ++ s.rtakeWhile (· != '/'.toNat) = s := by
    rw [List.rdropWhile, List.rtakeWhile, ← List.reverse_append, List.takeWhile_append_dropWhile,
      List.reverse_reverse]
  simp only [urlPath, splitParams, hdrop, hfilter, htake, hlast, hjoin]

theorem encode_plain (husable : Usable safe) (hbytes : ∀ b ∈ bs, b < 256) :
    ∀ c ∈ encode safe bs, isPlain c = true := by
  intro c hc
  rcases mem_encode hbytes hc with ⟨-, hsafe⟩ | hescape
  · exact husable.plain c hsafe
  · exact isPlain_of_isEscape hescape

/-! ## Decoded texts -/

theorem unquoteRuns_ascii (h : ∀ c ∈ s, c < 0x80) (run : PyStr) :
    unquoteRuns run s = decodeReplace (decode (run ++ s)) := by
  induction s generalizing run with
  | nil => rw [List.append_nil, unquoteRuns]
  | cons c s ih =>
    rw [unquoteRuns, if_pos (h c (List.mem_cons_self ..)),
      ih (fun d hd => h d (List.mem_cons_of_mem c hd)), List.append_assoc, List.singleton_append]

theorem decodeReplace_ascii (h : ∀ c ∈ s, c < 0x80) : decodeReplace s = s := by
  have hsurrogate : ∀ c ∈ s, isSurrogate c = false := by
    intro c hc
    have := h c hc
    simp [isSurrogate]
    omega
  have hbytes : s.flatMap utf8Bytes = s := by
    clear hsurrogate
    induction s with
    | nil => rfl
    | cons c s ih =>
      rw [List.flatMap_cons, ih fun d hd => h d (List.mem_cons_of_mem c hd), utf8Bytes,
        if_pos (h c (List.mem_cons_self ..)), List.singleton_append]
  refine decodeReplace_encodeUtf8 (fun c hc => ?_) (encodeUtf8_eq_some.2 ⟨hsurrogate, hbytes.symm⟩)
  have := h c hc
  omega

theorem unquote_ascii (h : ∀ c ∈ s, c < 0x80) : unquote s = decodeReplace (decode s) := by
  unfold unquote
  split
  · rw [unquoteRuns_ascii h, List.nil_append]
  · rename_i hnone
    rw [decode_eq_self fun hmem => hnone (List.contains_iff_mem.2 hmem), decodeReplace_ascii h]

theorem unquote_encode (husable : Usable safe) (hbytes : ∀ b ∈ bs, b < 256) :
    unquote (encode safe bs) = decodeReplace bs := by
  rw [unquote_ascii fun c hc => (lt_of_isPlain (encode_plain husable hbytes c hc)).2,
    decode_encode husable.percent hbytes]

/-! ## The parts of a path -/

/-- The words that stand for an action. -/
def actions : List String := ["statistics", "start", "stop"]

theorem action_spec {action : String} (h : action ∈ actions) :
    (∀ c ∈ pyStr action, isPlain c = true) ∧ '/'.toNat ∉ pyStr action ∧ pyStr action ≠ [] ∧
      unquote (pyStr action) = pyStr action := by
  simp only [actions, List.mem_cons, List.not_mem_nil, or_false] at h
  rcases h with rfl | rfl | rfl <;> decide

theorem partsOf_actionPath (hq : ∀ c ∈ q, isPlain c = true) {action : String}
    (ha : action ∈ actions) :
    partsOf (actionPath q action) = pyStr "api" :: pyStr "pipelines" ::
      (((q.splitOn '/'.toNat).filter (· ≠ [])).map unquote ++ [pyStr action]) := by
  obtain ⟨hplain, hslash, hne, hunquote⟩ := action_spec ha
  have hpath : urlPath (actionPath q action) = actionPath q action := by
    refine urlPath_plain fun c hc => ?_
    have hprefix : ∀ c ∈ pyStr "/api/pipelines/", isPlain c = true := by decide
    simp only [actionPath, statusPath, List.mem_append, List.mem_cons] at hc
    rcases hc with (hc | hc) | rfl | hc
    · exact hprefix c hc
    · exact hq c hc
    · rfl
    · exact hplain c hc
  have hshape : actionPath q action = [] ++ '/'.toNat :: (pyStr "api" ++ '/'.toNat ::
      (pyStr "pipelines" ++ '/'.toNat :: (q ++ '/'.toNat :: pyStr action))) := by
    simp [actionPath, statusPath, pyStr]
  have hsplit : (actionPath q action).splitOn '/'.toNat =
      [] :: pyStr "api" :: pyStr "pipelines" :: (q.splitOn '/'.toNat ++ [pyStr action]) := by
    rw [hshape, List.splitOn_append_cons_self_of_not_mem (by simp),
      List.splitOn_append_cons_self_of_not_mem (by decide),
      List.splitOn_append_cons_self_of_not_mem (by decide), List.splitOn_append_cons_self,
      List.splitOn_eq_singleton hslash]
  have hfilter : ([] :: pyStr "api" :: pyStr "pipelines" ::
      (q.splitOn '/'.toNat ++ [pyStr action])).filter (· ≠ []) = pyStr "api" ::
        pyStr "pipelines" :: ((q.splitOn '/'.toNat).filter (· ≠ []) ++ [pyStr action]) := by
    rw [List.filter_cons_of_neg (by simp), List.filter_cons_of_pos (by decide),
      List.filter_cons_of_pos (by decide), List.filter_append,
      List.filter_cons_of_pos (by simpa using hne), List.filter_nil]
  have hapi : unquote (pyStr "api") = pyStr "api" := by decide
  have hpipelines : unquote (pyStr "pipelines") = pyStr "pipelines" := by decide
  rw [partsOf, hpath, hsplit, hfilter, List.map_cons, List.map_cons, List.map_append, hapi,
    hpipelines, List.map_cons, hunquote, List.map_nil]

/-- Without slashes there is one part between. -/
theorem partsOf_actionPath_of_not_mem (hq : ∀ c ∈ q, isPlain c = true) (hne : q ≠ [])
    (hslash : '/'.toNat ∉ q) {action : String} (ha : action ∈ actions) :
    partsOf (actionPath q action) =
      [pyStr "api", pyStr "pipelines", unquote q, pyStr action] := by
  have hfilter : [q].filter (· ≠ []) = [q] := List.filter_cons_of_pos (by simpa using hne)
  rw [partsOf_actionPath hq ha, List.splitOn_eq_singleton hslash, hfilter]
  rfl

/-- What `do_POST` is asked to record is about a part of the path. -/
theorem partsOf_of_doPost {target name : PyStr} (h : doPost target = .recordStatistics name) :
    partsOf target = [pyStr "api", pyStr "pipelines", name, pyStr "statistics"] := by
  unfold doPost at h
  split at h
  · split at h <;> cases h
  · rename_i api pipelines part action hparts
    split at h
    · rename_i hbase
      split at h
      · rename_i haction
        cases h
        rw [hparts, hbase.1, hbase.2, haction]
      · split at h
        · cases h
        · split at h <;> cases h
    · cases h
  · cases h

theorem doGet_statusPath (hq : ∀ c ∈ q, isPlain c = true) :
    doGet (statusPath q) = .status (unquote q) := by
  have hpath : urlPath (statusPath q) = statusPath q := by
    refine urlPath_plain fun c hc => ?_
    have hbase : ∀ c ∈ pyStr "/api/pipelines/", isPlain c = true := by decide
    rcases List.mem_append.1 hc with hc | hc
    · exact hbase c hc
    · exact hq c hc
  have hlength : (statusPath q).length = 15 + q.length := by
    rw [statusPath, List.length_append]
    rfl
  have hprefix : (pyStr "/api/pipelines/").isPrefixOf (statusPath q) = true :=
    List.isPrefixOf_iff_prefix.2 (List.prefix_append _ _)
  have hroot : statusPath q ≠ pyStr "/" := by
    intro heq
    rw [heq] at hlength
    have : (pyStr "/").length = 1 := rfl
    omega
  have hlist : statusPath q ≠ pyStr "/api/pipelines" := by
    intro heq
    rw [heq] at hlength
    have : (pyStr "/api/pipelines").length = 14 := rfl
    omega
  simp only [doGet, hpath, if_neg hroot, if_neg hlist, hprefix, if_true]
  rw [statusPath, List.drop_left]

/-! ## Names -/

theorem name_bytes {name : PyStr} (hpoints : ∀ c ∈ name, c ≤ 0x10FFFF) :
    ∀ b ∈ name.flatMap utf8Bytes, b < 256 := by
  intro b hb
  obtain ⟨c, hc, hb⟩ := List.mem_flatMap.1 hb
  exact utf8Bytes_lt (hpoints c hc) b hb

theorem joinPairs_cons {c : Nat} (h : isSurrogate c = false) (s : PyStr) :
    joinPairs (c :: s) = c :: joinPairs s := by
  cases s with
  | nil => rfl
  | cons low s =>
    simp [isSurrogate] at h
    rw [joinPairs, if_neg (by omega)]

theorem joinPairs_eq_self (h : ∀ c ∈ s, isSurrogate c = false) : joinPairs s = s := by
  induction s with
  | nil => rfl
  | cons c s ih =>
    rw [joinPairs_cons (h c (List.mem_cons_self ..)),
      ih fun d hd => h d (List.mem_cons_of_mem c hd)]

/-- The bytes of a name hold a slash only if the name does. -/
theorem slash_mem_of_mem_bytes {name : PyStr} (h : '/'.toNat ∈ name.flatMap utf8Bytes) :
    '/'.toNat ∈ name := by
  obtain ⟨c, hc, hslash⟩ := List.mem_flatMap.1 h
  rw [eq_of_mem_utf8Bytes (by decide) hslash]
  exact hc

theorem unquote_encodedName {name : PyStr} (husable : Usable safe)
    (hpoints : ∀ c ∈ name, c ≤ 0x10FFFF) (hsurrogate : ∀ c ∈ name, isSurrogate c = false) :
    unquote (encode safe (name.flatMap utf8Bytes)) = name := by
  rw [unquote_encode husable (name_bytes hpoints),
    decodeReplace_encodeUtf8 hpoints (encodeUtf8_eq_some.2 ⟨hsurrogate, rfl⟩)]

theorem slash_not_mem_encode {name : PyStr} (hpoints : ∀ c ∈ name, c ≤ 0x10FFFF)
    (h : '/'.toNat ∉ name ∨ safe '/'.toNat = false) :
    '/'.toNat ∉ encode safe (name.flatMap utf8Bytes) := by
  intro hmem
  rcases mem_encode (name_bytes hpoints) hmem with ⟨hbytes, hsafe⟩ | hescape
  · rcases h with h | h
    · exact h (slash_mem_of_mem_bytes hbytes)
    · rw [h] at hsafe
      cases hsafe
  · cases hescape

theorem encode_name_ne_nil {name : PyStr} (hne : name ≠ []) :
    encode safe (name.flatMap utf8Bytes) ≠ [] := by
  refine encode_ne_nil ?_
  obtain ⟨c, name, rfl⟩ := List.exists_cons_of_ne_nil hne
  simp [utf8Bytes_ne_nil]

/-- **No part of the statistics URL has a slash.** -/
theorem slash_not_mem_parts {part : PyStr} (hbytes : ∀ b ∈ bs, b < 256)
    (h : part ∈ partsOf (actionPath (encode quoteSafe bs) "statistics")) : '/'.toNat ∉ part := by
  have hstatistics : "statistics" ∈ actions := by decide
  rw [partsOf_actionPath (encode_plain usable_quoteSafe hbytes) hstatistics,
    splitOn_encode hbytes (by decide) (by decide)] at h
  rcases List.mem_cons.1 h with rfl | h
  · decide
  rcases List.mem_cons.1 h with rfl | h
  · decide
  rcases List.mem_append.1 h with h | h
  · obtain ⟨u, hu, rfl⟩ := List.mem_map.1 h
    obtain ⟨raw, hraw, rfl⟩ := List.mem_map.1 (List.mem_of_mem_filter hu)
    obtain ⟨hnot, hsub⟩ := part_of_mem_splitOn hraw
    rw [unquote_encode usable_quoteSafe fun b hb => hbytes b (hsub hb)]
    exact fun hslash => hnot (mem_of_mem_decodeReplace (by decide) hslash)
  · rw [List.mem_singleton.1 h]
    decide

/-! ## The round trip -/

/-- An encoding that leaves no slash in the name keeps it in one part. -/
theorem partsOf_encodedName (husable : Usable safe) (name : Name)
    (hsurrogate : ∀ c ∈ name.text, isSurrogate c = false)
    (hslash : '/'.toNat ∉ name.text ∨ safe '/'.toNat = false) {action : String}
    (ha : action ∈ actions) :
    partsOf (actionPath (encode safe (name.text.flatMap utf8Bytes)) action) =
      [pyStr "api", pyStr "pipelines", name.text, pyStr action] := by
  have hplain := encode_plain husable (name_bytes name.codePoints)
  rw [partsOf_actionPath_of_not_mem hplain (encode_name_ne_nil name.nonempty)
    (slash_not_mem_encode name.codePoints hslash) ha,
    unquote_encodedName husable name.codePoints hsurrogate]

/-- The paths of `index.html` lead back to every name it can encode. -/
theorem actions_lead_back (name : Name) (hsurrogate : ∀ c ∈ name.text, isSurrogate c = false) :
    ∃ q, encodeURIComponent name.text = some q ∧
      doPost (actionPath q "start") = .start name.text ∧
      doPost (actionPath q "stop") = .stop name.text ∧
      doGet (statusPath q) = .status name.text := by
  have hkept : componentSafe '/'.toNat = false := by decide
  have hplain := encode_plain usable_componentSafe (name_bytes name.codePoints)
  have hparts := fun (action : String) (ha : action ∈ actions) =>
    partsOf_encodedName usable_componentSafe name hsurrogate (.inr hkept) ha
  refine ⟨encode componentSafe (name.text.flatMap utf8Bytes), ?_, ?_, ?_, ?_⟩
  · rw [encodeURIComponent, joinPairs_eq_self hsurrogate, encodeUtf8_eq_some.2 ⟨hsurrogate, rfl⟩]
    rfl
  · rw [doPost, hparts "start" (by decide)]
    rfl
  · rw [doPost, hparts "stop" (by decide)]
    rfl
  · rw [doGet_statusPath hplain,
      unquote_encodedName usable_componentSafe name.codePoints hsurrogate]

theorem statistics_leads_back (name : Name) (hslash : '/'.toNat ∉ name.text)
    (hsurrogate : ∀ c ∈ name.text, isSurrogate c = false) :
    ∃ q, quote name.text = some q ∧
      doPost (actionPath q "statistics") = .recordStatistics name.text := by
  refine ⟨encode quoteSafe (name.text.flatMap utf8Bytes), ?_, ?_⟩
  · rw [quote, encodeUtf8_eq_some.2 ⟨hsurrogate, rfl⟩]
    rfl
  · rw [doPost, partsOf_encodedName usable_quoteSafe name hsurrogate (.inl hslash) (by decide)]
    rfl

/-- **The paths of a pipeline lead back to it** exactly if its name has no slash and no
surrogate. -/
theorem routesBack_iff (name : Name) : RoutesBack name.text ↔
    '/'.toNat ∉ name.text ∧ ∀ c ∈ name.text, isSurrogate c = false := by
  constructor
  · rintro ⟨⟨q, hquote, hpost⟩, -⟩
    obtain ⟨bs, hutf8, rfl⟩ := Option.map_eq_some_iff.1 hquote
    obtain ⟨hsurrogate, rfl⟩ := encodeUtf8_eq_some.1 hutf8
    refine ⟨slash_not_mem_parts (name_bytes name.codePoints) ?_, hsurrogate⟩
    rw [partsOf_of_doPost hpost]
    simp
  · rintro ⟨hslash, hsurrogate⟩
    exact ⟨statistics_leads_back name hslash hsurrogate, actions_lead_back name hsurrogate⟩

/-- `quote` leaves the slash of the name in the URL. -/
theorem slash_not_routed : ¬ ∀ name : Name, RoutesBack name.text := by
  intro h
  obtain ⟨⟨q, hquote, hpost⟩, -⟩ :=
    h ⟨pyStr "a/b", by decide, by decide, by decide, by decide⟩
  have hq : quote (pyStr "a/b") = some (pyStr "a/b") := by decide
  rw [hq] at hquote
  cases hquote
  have hnot : doPost (actionPath (pyStr "a/b") "statistics") = .notFound := by decide
  rw [hnot] at hpost
  cases hpost

end PipeWorks.Plumber.Routes
