import PipeWorks.Plumber.Handler

/-!
# What the HTTP server can send (`_send_json` of `plumber/cli.py`)

* `Sized`: what the manager keeps can be written by `json.dumps`; with `Books.Kept`, every status
  can be sent (`status_sendable`), and is read back from what has been sent (`sendJson_payload`);
* `perform_ok`, `perform_error`: what a section returns and raises.
-/

set_option autoImplicit false

namespace PipeWorks.Plumber.Handler

open StepSystem PipeWorks.Python Routes Fails

/-! ## What can be written -/

theorem isText_pyStr (s : String) : IsText (pyStr s) := by
  have hscalar : ∀ c ∈ pyStr s, c ≤ 0x10FFFF ∧ isHigh c = false := by
    intro c hc
    obtain ⟨x, -, rfl⟩ := List.mem_map.1 hc
    have hvalid : x.toNat.isValidChar := x.valid
    simp only [Nat.isValidChar] at hvalid
    simp only [isHigh, Bool.and_eq_false_iff, decide_eq_false_iff_not]
    omega
  refine ⟨fun c hc => (hscalar c hc).1, ?_⟩
  refine List.Pairwise.isChain (List.pairwise_of_forall_mem_list fun c hc d _ hboth => ?_)
  rw [(hscalar c hc).2] at hboth
  cases hboth.1

/-- Every number of a status has a bounded size. -/
structure Sized (host : Host) (b : Books) : Prop where
  exits : ∀ child ∈ b.manager.children, ∀ code ∈ child.exitCode, Fits code
  statistics : ∀ name v, b.statistics name = some v → Writable host.depth v

/-- A status that `_send_json` can send. -/
structure Sendable (host : Host) (st : StatusDict) : Prop where
  valid : (statusPayload host st).Valid
  writable : ∀ depth, Writable (depth + 2) (statusPayload host st)

variable {host : Host} {defs : Definitions} {b : Books} {name : String} {v : Json}

theorem fits_lt : 2 ^ 32 ≤ 10 ^ maxStrDigits :=
  Nat.le_trans (by decide : 2 ^ 32 ≤ 10 ^ 10) (Nat.pow_le_pow_right (by decide) (by decide))

theorem writable_natCast {n depth : Nat} (h : n < 2 ^ 32) : Writable depth (.int n) := by
  rw [writable_int, Int.natAbs_natCast]
  exact Nat.lt_of_lt_of_le h fits_lt

theorem writable_code {code : Int} {depth : Nat} (h : Fits code) : Writable depth (.int code) := by
  rw [writable_int]
  exact Nat.lt_of_lt_of_le h fits_lt

theorem isText_required {key : PyStr} (h : key ∈ required) : IsText key := by
  refine IsAscii.isText ?_
  have hall : ∀ key ∈ required, IsAscii key := by decide
  exact hall key h

/-- A report that is accepted is flat, and made of texts and numbers. -/
theorem isSnapshot_members {members : List (PyStr × Json)} (h : IsSnapshot members) :
    ∀ m ∈ members, m.2.IsScalar ∧ m.2.Valid ∧ IsText m.1 := by
  intro m hm
  have hkey : m.1 ∈ required := (h.exact_keys m.1).1 (List.mem_map_of_mem hm)
  have hvalue : m.2.IsScalar ∧ m.2.Valid := by
    rcases List.mem_append.1 hkey with hcounter | hstatus
    · obtain ⟨n, hn⟩ := h.counts m hm hcounter
      rw [hn]
      exact ⟨trivial, trivial⟩
    · rcases h.states m hm hstatus with heq | heq
      · rw [heq]
        exact ⟨trivial, isText_pyStr _⟩
      · rw [heq]
        exact ⟨trivial, isText_pyStr _⟩
  exact ⟨hvalue.1, hvalue.2, isText_required hkey⟩

theorem validMembers_of_forall {members : List (PyStr × Json)}
    (h : ∀ m ∈ members, IsText m.1 ∧ m.2.Valid) : ValidMembers members := by
  induction members with
  | nil => trivial
  | cons m members ih =>
    obtain ⟨key, value⟩ := m
    exact ⟨h _ (List.mem_cons_self ..), ih fun m hm => h m (List.mem_cons_of_mem _ hm)⟩

theorem valid_report (hdistinct : Distinct v) (hwf : WellFormed v) : v.Valid := by
  obtain ⟨members, rfl, hsnapshot⟩ := hwf
  refine ⟨hdistinct, validMembers_of_forall fun m hm => ?_⟩
  obtain ⟨-, hvalid, htext⟩ := isSnapshot_members hsnapshot m hm
  exact ⟨htext, hvalid⟩

/-- It takes up one level of nesting only. -/
theorem writable_report (hwf : WellFormed v) (h : Writable host.depth v) (depth : Nat) :
    Writable (depth + 1) v := by
  obtain ⟨members, rfl, hsnapshot⟩ := hwf
  obtain ⟨room, hroom⟩ : ∃ room, host.depth = room + 1 :=
    ⟨host.depth - 1, by have := host.deep; omega⟩
  obtain ⟨text, htext⟩ := h
  rw [hroom, dumps] at htext
  refine ⟨text, ?_⟩
  rw [dumps, ← htext]
  have hflat := fun m hm => (isSnapshot_members hsnapshot m hm).1
  rw [dumpMembers_scalar hflat depth, dumpMembers_scalar hflat room]

theorem exitCode_fits (h : Sized host b) {code : Int}
    (hcode : (b.manager.classify name).2 = some code) : Fits code := by
  unfold Manager.classify at hcode
  split at hcode
  · cases hcode
  · split at hcode
    · cases hcode
    · obtain ⟨child, hchild, hcode⟩ := Option.bind_eq_some_iff.1 hcode
      exact h.exits child (List.mem_of_getElem? hchild) code hcode

theorem valid_optional (i : Option Int) : (optional i).Valid := by
  cases i <;> trivial

theorem writable_emptyDict (host : Host) : Writable host.depth emptyDict := by
  obtain ⟨depth, hdepth⟩ : ∃ depth, host.depth = depth + 1 :=
    ⟨host.depth - 1, by have := host.deep; omega⟩
  rw [hdepth]
  refine writable_dict fun m hm => ?_
  have hvalues : ∀ m ∈ required.zip [Json.int 0, .int 0, .int 0, .int 0, .int 0,
      statusJson .disconnected, statusJson .disconnected],
      m.2 = .int 0 ∨ m.2 = statusJson .disconnected := by
    intro m hm
    simp only [required, counters, statuses, List.cons_append, List.nil_append, List.zip_cons_cons,
      List.zip_nil_left, List.mem_cons, List.not_mem_nil, or_false] at hm
    rcases hm with rfl | rfl | rfl | rfl | rfl | rfl | rfl <;> simp
  rcases hvalues m hm with heq | heq
  · rw [heq]
    exact writable_natCast (n := 0) (by decide)
  · rw [heq]
    exact writable_str _

/-- The statistics of a status. -/
theorem status_report (hkept : b.Kept) (hsized : Sized host b) (name : String) :
    let v := (b.statistics name).getD emptyDict
    Distinct v ∧ WellFormed v ∧ Writable host.depth v := by
  cases hv : b.statistics name with
  | some v =>
    obtain ⟨hdistinct, hwf⟩ := hkept.wellFormed name v hv
    exact ⟨hdistinct, hwf, hsized.statistics name v hv⟩
  | none =>
    exact ⟨distinct_toJson emptyStatistics, wellFormed_toJson emptyStatistics,
      writable_emptyDict host⟩

/-- **Every status can be sent.** -/
theorem status_sendable (hkept : b.Kept) (hsized : Sized host b) {st : StatusDict}
    (h : b.status defs name = .ok st) : Sendable host st := by
  obtain ⟨hdistinct, hwf, hwritable⟩ := status_report hkept hsized name
  unfold Books.status at h
  split at h
  · cases h
  · cases h
    constructor
    · have hkeys : (["name", "state", "pid", "exit_code", "config", "statistics"].map
          pyStr).Nodup := by decide
      refine ⟨hkeys, validMembers_of_forall fun m hm => ?_⟩
      simp only [List.mem_cons, List.not_mem_nil, or_false] at hm
      rcases hm with rfl | rfl | rfl | rfl | rfl | rfl
      · exact ⟨isText_pyStr _, isText_pyStr _⟩
      · exact ⟨isText_pyStr _, isText_pyStr _⟩
      · exact ⟨isText_pyStr _, valid_optional _⟩
      · exact ⟨isText_pyStr _, valid_optional _⟩
      · exact ⟨isText_pyStr _, isText_pyStr _⟩
      · exact ⟨isText_pyStr _, valid_report hdistinct hwf⟩
    · intro depth
      refine writable_dict fun m hm => ?_
      simp only [List.mem_cons, List.not_mem_nil, or_false] at hm
      rcases hm with rfl | rfl | rfl | rfl | rfl | rfl
      · exact writable_str _
      · exact writable_str _
      · cases b.manager.processes name with
        | none => exact writable_null
        | some n => exact writable_natCast (host.pid_lt n)
      · cases hcode : (b.manager.classify name).2 with
        | none => exact writable_null
        | some code => exact writable_code (exitCode_fits hsized hcode)
      · exact writable_str _
      · exact writable_report hwf hwritable depth

/-! ## What a section does -/

/-- The pipelines whose status a section returns. -/
def sectionNames (defs : Definitions) : Section → List String
  | .list => defs.sorted
  | .status name | .start name | .stop name | .recordStatistics name _ => [name]

/-- What creating or terminating a child has raised. -/
def Raises (answer : Answer) (e : PyError) : Prop :=
  answer.startRaises = some e ∨ answer.reaping = .error e

section Sections

variable {answer : Answer} {c : Section}

theorem start_cases (b : Books) (defs : Definitions) (answer : Answer) (name : String) :
    defs.get name = none ∧ b.start defs answer name = (b, .error .keyError) ∨
    ∃ d, defs.get name = some d ∧
      (b.start defs answer name = (b, b.status defs name) ∨
        (∃ e, answer.startRaises = some e ∧ b.start defs answer name = (b, .error e)) ∨
        b.start defs answer name = (b.register d, (b.register d).status defs name)) := by
  unfold Books.start
  cases hd : defs.get name with
  | none => exact .inl ⟨rfl, rfl⟩
  | some d =>
    refine .inr ⟨d, rfl, ?_⟩
    dsimp only
    split
    · exact .inl rfl
    · cases hraises : answer.startRaises with
      | some e => exact .inr (.inl ⟨e, rfl, rfl⟩)
      | none => exact .inr (.inr rfl)

theorem stop_raises {m : Manager} {d : PipelineDefinition} {e : PyError}
    (hd : defs.get name = some d) (h : (m.stop defs answer name).2 = .error e) :
    answer.reaping = .error e := by
  have hstatus : ∀ m : Manager, m.status defs name ≠ .error e := by
    intro m hst
    unfold Manager.status at hst
    rw [hd] at hst
    cases hst
  unfold Manager.stop at h
  rw [hd] at h
  dsimp only at h
  split at h
  · rename_i e' _ hreaping
    cases h
    exact hreaping
  · exact absurd h (hstatus _)
  · exact absurd h (hstatus _)

theorem stop_cases (b : Books) (defs : Definitions) (answer : Answer) (name : String) :
    defs.get name = none ∧ b.stop defs answer name = (b, .error .keyError) ∨
    (∃ d, defs.get name = some d) ∧
      ((∃ e, answer.reaping = .error e ∧ (b.stop defs answer name).2 = .error e) ∨
        (b.stop defs answer name).2 = (b.stop defs answer name).1.status defs name) := by
  cases hd : defs.get name with
  | none =>
    refine .inl ⟨rfl, ?_⟩
    unfold Books.stop Manager.stop
    rw [hd]
  | some d =>
    refine .inr ⟨⟨d, rfl⟩, ?_⟩
    unfold Books.stop
    cases houtcome : (b.manager.stop defs answer name).2 with
    | error e =>
      refine .inl ⟨e, stop_raises hd houtcome, ?_⟩
      dsimp only
      rw [houtcome]
    | ok st =>
      right
      dsimp only
      rw [houtcome]

/-- What a section returns are the statuses right after it. -/
theorem perform_ok (hc : c.Posted) {statuses : List StatusDict}
    (h : (perform host defs answer b c).2 = .ok statuses) :
    (sectionNames defs c).mapM ((perform host defs answer b c).1.status defs) = .ok statuses ∧
      ∀ name v, c = .recordStatistics name v → WellFormed v := by
  have hone : ∀ {x : Books × Except PyError StatusDict} {name : String},
      x.2 = x.1.status defs name → x.2.map ([·]) = .ok statuses →
        [name].mapM (x.1.status defs) = .ok statuses := by
    intro x name hx hmap
    rw [hx] at hmap
    obtain ⟨st, hst, rfl⟩ := map_eq_ok.1 hmap
    rw [List.mapM_cons, List.mapM_nil, hst]
    rfl
  have hnot : ∀ {x : Except PyError StatusDict} {e : PyError}, x = .error e →
      x.map ([·]) ≠ .ok statuses := by
    rintro x e rfl hmap
    cases hmap
  cases c with
  | list => exact ⟨h, nofun⟩
  | status name => exact ⟨hone (x := (b, b.status defs name)) rfl h, nofun⟩
  | start name =>
    refine ⟨?_, nofun⟩
    rcases start_cases b defs answer name with ⟨-, heq⟩ | ⟨d, -, heq | ⟨e, -, heq⟩ | heq⟩
    · exact absurd h (hnot (congrArg Prod.snd heq))
    · exact hone (x := b.start defs answer name) (by rw [heq]) h
    · exact absurd h (hnot (congrArg Prod.snd heq))
    · exact hone (x := b.start defs answer name) (by rw [heq]) h
  | stop name =>
    refine ⟨?_, nofun⟩
    rcases stop_cases b defs answer name with ⟨-, heq⟩ | ⟨-, ⟨e, -, heq⟩ | heq⟩
    · exact absurd h (hnot (congrArg Prod.snd heq))
    · exact absurd h (hnot heq)
    · exact hone (x := b.stop defs answer name) heq h
  | recordStatistics name v =>
    rcases b.recordStatistics_cases defs host.order name hc with
      ⟨-, heq⟩ | ⟨-, ⟨-, heq⟩ | ⟨hwf, heq⟩⟩
    · exact absurd h (hnot (congrArg Prod.snd heq))
    · exact absurd h (hnot (congrArg Prod.snd heq))
    · refine ⟨hone (x := b.recordStatistics defs host.order name v) (by rw [heq]) h,
        fun name' v' heq' => ?_⟩
      cases heq'
      exact hwf

/-- What a section raises: for a pipeline there is none of, for a report that is malformed, or what
the outside has raised. -/
theorem perform_error (hc : c.Posted) {e : PyError}
    (h : (perform host defs answer b c).2 = .error e) :
    (e = .keyError ∧ (perform host defs answer b c).1 = b ∧
        ∃ name, name ∉ defs.names ∧ sectionNames defs c = [name] ∧ c ≠ .list) ∨
      (e = .valueError ∧ (perform host defs answer b c).1 = b ∧
        ∃ name v, c = .recordStatistics name v ∧ name ∈ defs.names ∧ ¬ WellFormed v) ∨
      Raises answer e ∧ ∃ name, c = .start name ∨ c = .stop name := by
  have herror : ∀ {x : Except PyError StatusDict}, x.map ([·]) = .error e → x = .error e := by
    intro x hx
    cases x with
    | error e' =>
      cases hx
      rfl
    | ok st => cases hx
  have hstatus : ∀ {b : Books} {name : String} {d : PipelineDefinition},
      defs.get name = some d → b.status defs name ≠ .error e := by
    intro b name d hd hst
    obtain ⟨st, hok, -⟩ := Books.status_eq (b := b) hd
    rw [hok] at hst
    cases hst
  cases c with
  | list =>
    obtain ⟨statuses, hok⟩ : ∃ statuses, b.list defs = .ok statuses := by
      refine exists_mapM_eq_ok fun name hname => ?_
      have hname := (List.mem_insertionSort _).1 hname
      cases hd : defs.get name with
      | none => exact absurd hname (Definitions.get_eq_none.1 hd)
      | some d =>
        obtain ⟨st, hst, -⟩ := Books.status_eq (b := b) hd
        exact ⟨st, hst⟩
    rw [perform, hok] at h
    cases h
  | status name =>
    cases hd : defs.get name with
    | none =>
      have hst := herror h
      unfold Books.status at hst
      rw [hd] at hst
      cases hst
      exact .inl ⟨rfl, rfl, name, Definitions.get_eq_none.1 hd, rfl, nofun⟩
    | some d => exact absurd (herror h) (hstatus hd)
  | start name =>
    have hst : (b.start defs answer name).2 = .error e := herror h
    rcases start_cases b defs answer name with ⟨hd, heq⟩ | ⟨d, hd, heq | ⟨e', hraises, heq⟩ | heq⟩
    · rw [heq] at hst
      cases hst
      exact .inl ⟨rfl, congrArg Prod.fst heq, name, Definitions.get_eq_none.1 hd, rfl, nofun⟩
    · rw [heq] at hst
      exact absurd hst (hstatus hd)
    · rw [heq] at hst
      cases hst
      exact .inr (.inr ⟨.inl hraises, name, .inl rfl⟩)
    · rw [heq] at hst
      exact absurd hst (hstatus hd)
  | stop name =>
    have hst : (b.stop defs answer name).2 = .error e := herror h
    rcases stop_cases b defs answer name with ⟨hd, heq⟩ | ⟨⟨d, hd⟩, ⟨e', hraises, heq⟩ | heq⟩
    · rw [heq] at hst
      cases hst
      exact .inl ⟨rfl, congrArg Prod.fst heq, name, Definitions.get_eq_none.1 hd, rfl, nofun⟩
    · rw [heq] at hst
      cases hst
      exact .inr (.inr ⟨.inr hraises, name, .inr rfl⟩)
    · rw [heq] at hst
      exact absurd hst (hstatus hd)
  | recordStatistics name v =>
    have hst : (b.recordStatistics defs host.order name v).2 = .error e := herror h
    rcases b.recordStatistics_cases defs host.order name hc with
      ⟨hd, heq⟩ | ⟨⟨d, hd⟩, ⟨hwf, heq⟩ | ⟨-, heq⟩⟩
    · rw [heq] at hst
      cases hst
      exact .inl ⟨rfl, congrArg Prod.fst heq, name, Definitions.get_eq_none.1 hd, rfl, nofun⟩
    · rw [heq] at hst
      cases hst
      exact .inr (.inl ⟨rfl, congrArg Prod.fst heq, name, v, rfl, Definitions.mem_names hd, hwf⟩)
    · rw [heq] at hst
      exact absurd hst (hstatus hd)

/-- The reports of a call can be written. -/
def ReportsWritable (host : Host) (sections : List Section) : Prop :=
  ∀ name v, .recordStatistics name v ∈ sections → Writable host.depth v

theorem Sized.withManager (h : Sized host b) {m : Manager}
    (hm : ∀ child ∈ m.children, ∀ code ∈ child.exitCode, Fits code) :
    Sized host { b with manager := m } := ⟨hm, h.statistics⟩

theorem fits_childExit {m : Manager} (h : ∀ child ∈ m.children, ∀ code ∈ child.exitCode, Fits code)
    (pid : Nat) {code : Int} (hcode : Fits code) :
    ∀ child ∈ (m.childExit pid code).children, ∀ code ∈ child.exitCode, Fits code := by
  intro child hchild
  obtain ⟨n, hn⟩ := List.getElem?_of_mem hchild
  simp only [Manager.childExit, List.getElem?_modify] at hn
  obtain ⟨before, hbefore, rfl⟩ := Option.map_eq_some_iff.1 hn
  split
  · intro code' hcode'
    obtain rfl : code = code' := Option.some.inj hcode'
    exact hcode
  · exact h before (List.mem_of_getElem? hbefore)

theorem sized_update (h : Sized host b) (name : String) (hv : Writable host.depth v) (m : Manager)
    (hm : ∀ child ∈ m.children, ∀ code ∈ child.exitCode, Fits code) :
    Sized host ⟨m, Function.update b.statistics name (some v)⟩ := by
  refine ⟨hm, fun n w hw => ?_⟩
  by_cases hn : n = name
  · subst hn
    obtain rfl : v = w := by simpa using hw
    exact hv
  · exact h.statistics n w (by simpa [Function.update_of_ne hn] using hw)

/-- A section keeps the sizes. -/
theorem perform_sized (h : Sized host b) (hfits : AnswerFits answer) (hc : c.Posted)
    (hwritable : ReportsWritable host [c]) : Sized host (perform host defs answer b c).1 := by
  cases c with
  | list => exact h
  | status name => exact h
  | start name =>
    show Sized host (b.start defs answer name).1
    rcases start_cases b defs answer name with ⟨-, heq⟩ | ⟨d, -, heq | ⟨e, -, heq⟩ | heq⟩
    · rw [heq]
      exact h
    · rw [heq]
      exact h
    · rw [heq]
      exact h
    · rw [heq]
      refine sized_update h d.name (writable_emptyDict host) _ fun child hchild code hcode => ?_
      rcases List.mem_append.1 hchild with hchild | hchild
      · exact h.exits child hchild code hcode
      · obtain rfl := List.mem_singleton.1 hchild
        cases hcode
  | stop name =>
    have hmanager : (b.stop defs answer name).1 =
        { b with manager := (b.manager.stop defs answer name).1 } := by
      unfold Books.stop
      dsimp only
      split <;> rfl
    show Sized host (b.stop defs answer name).1
    rw [hmanager]
    refine h.withManager ?_
    rcases b.manager.stop_cases defs answer name with
      ⟨-, heq⟩ | ⟨-, ⟨heq, -⟩ | ⟨pid, code, -, hreaping, heq⟩⟩
    · rw [heq]
      exact h.exits
    · rw [heq]
      exact h.exits
    · rw [heq]
      refine fits_childExit h.exits pid (hfits code ?_)
      rw [hreaping]
      rfl
  | recordStatistics name v =>
    show Sized host (b.recordStatistics defs host.order name v).1
    rcases b.recordStatistics_cases defs host.order name hc with
      ⟨-, heq⟩ | ⟨-, ⟨-, heq⟩ | ⟨-, heq⟩⟩
    · rw [heq]
      exact h
    · rw [heq]
      exact h
    · rw [heq]
      refine sized_update h name (hwritable name v (List.mem_singleton_self _)) _ ?_
      unfold Manager.recordStatistics
      split
      · exact h.exits
      · split
        · exact h.exits
        · exact h.exits

end Sections

/-! ## What is sent -/

/-- A JSON response with this status and this payload. -/
structure Carries (host : Host) (r : Response) (status : Nat) (payload : Json) : Prop where
  status : r.status = status
  contentType : r.contentType = "application/json; charset=utf-8"
  contentLength : r.contentLength = toString r.body.length
  decoded : (decodeUtf8 r.body >>= loads host.depth) = .ok payload

theorem sendJson_carries {status : Nat} {payload : Json} (hvalid : payload.Valid)
    (hwritable : Writable host.depth payload) :
    ∃ r, sendJson host status payload = .ok r ∧ Carries host r status payload := by
  obtain ⟨raw, hraw⟩ := hwritable.dumpBytes hvalid
  refine ⟨_, map_eq_ok.2 ⟨raw, hraw, rfl⟩, rfl, rfl, rfl, ?_⟩
  exact loads_dumpBytes hvalid hraw (Nat.le_refl _)

theorem validItems_of_forall {items : List Json} (h : ∀ item ∈ items, item.Valid) :
    ValidItems items := by
  induction items with
  | nil => trivial
  | cons item items ih =>
    exact ⟨h item (List.mem_cons_self ..), ih fun i hi => h i (List.mem_cons_of_mem _ hi)⟩

theorem sendJson_payload (host : Host) (r : Request) {statuses : List StatusDict}
    (h : ∀ st ∈ statuses, Sendable host st) :
    ∃ response, sendJson host 200 (payload host r statuses) = .ok response ∧
      Carries host response 200 (payload host r statuses) := by
  obtain ⟨depth, hdepth⟩ : ∃ depth, host.depth = depth + 3 :=
    ⟨host.depth - 3, by have := host.deep; omega⟩
  have hlist : (Json.list (statuses.map (statusPayload host))).Valid ∧
      Writable host.depth (.list (statuses.map (statusPayload host))) := by
    constructor
    · refine validItems_of_forall fun item hitem => ?_
      obtain ⟨st, hst, rfl⟩ := List.mem_map.1 hitem
      exact (h st hst).valid
    · rw [hdepth]
      refine writable_list fun item hitem => ?_
      obtain ⟨st, hst, rfl⟩ := List.mem_map.1 hitem
      exact (h st hst).writable depth
  refine sendJson_carries ?_ ?_
  · unfold payload
    split
    all_goals first | exact hlist.1 | exact (h _ (List.mem_singleton_self _)).valid
  · unfold payload
    split
    all_goals first
      | exact hlist.2
      | exact hdepth ▸ (h _ (List.mem_singleton_self _)).writable (depth + 1)

end PipeWorks.Plumber.Handler
