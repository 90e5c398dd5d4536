import PipeWorks.Plumber.Loading
import PipeWorks.Plumber.Serving

/-!
# From a pipeline process to whoever polls (`nvidia_pipe/cli.py` and `plumber/cli.py`)

`send_frame_statistics` posts a snapshot to the URL that `start` has handed to the process.  The
handler leads it to the pipeline (`posts_handle`), the manager records it, and from then on it is
what the pipeline's status shows.

`report_served`: until the pipeline is started again or reports again, everybody who asks after the
report has been recorded is answered with it, whatever the other requests and the children do.
-/

set_option autoImplicit false

namespace PipeWorks.Plumber.Handler

open StepSystem PipeWorks.Python Routes Fails
open Loading (Named Loaded)
open NvidiaPipe.FrameStatistics (Globals assign frameStatistics frameStatistics_eq)

/-! ## The request of `send_frame_statistics` -/

/-- The path of the URL that `start` hands to a child. -/
def statisticsPath (name : String) : Option PyStr :=
  (quote (pyStr name)).map (actionPath · "statistics")

/-- A snapshot as it arrives.  In the process that sends it, the recursion limit leaves room for
`depth` nested containers. -/
structure Posts (name : String) (snapshot : Json) (depth : Nat) (http : HttpRequest) : Prop where
  method : http.method = .post
  path : statisticsPath name = some http.target.path
  body : dumpBytes depth snapshot = .ok http.body
  contentLength : http.contentLength = some (toString http.body.length)
  size : http.body.length < 2 ^ 63
  arrives : http.readRaises = none

variable {host : Host} {defs : Definitions} {name : String} {v : Json} {http : HttpRequest}

theorem text_pyStr (s : String) : text (pyStr s) = s := by
  unfold text pyStr
  rw [List.map_map]
  have hid : Char.ofNat ∘ Char.toNat = id := funext Char.ofNat_toNat
  rw [hid, List.map_id, String.ofList_toList]

/-- A name that has been loaded, as the paths have it. -/
def routesName (d : Named) : Routes.Name where
  text := pyStr d.definition.name
  codePoints := (isText_pyStr _).1
  nonempty := by
    intro hnil
    refine d.nonempty (String.toList_eq_nil_iff.1 ?_)
    exact List.map_eq_nil_iff.1 hnil
  stripped := by
    have hstrip : stripChars isSpace d.definition.name.toList = d.definition.name.toList := by
      have h := congrArg String.toList d.stripped
      rwa [strip, String.toList_ofList] at h
    obtain ⟨hhead, hlast⟩ := stripChars_eq_self_iff.1 hstrip
    constructor
    · intro c hc
      rw [pyStr, List.head?_map] at hc
      obtain ⟨x, hx, rfl⟩ := Option.map_eq_some_iff.1 hc
      rw [Char.ofNat_toNat]
      exact hhead x hx
    · intro c hc
      rw [pyStr, List.getLast?_map] at hc
      obtain ⟨x, hx, rfl⟩ := Option.map_eq_some_iff.1 hc
      rw [Char.ofNat_toNat]
      exact hlast x hx

theorem isSurrogate_pyStr (s : String) : ∀ c ∈ pyStr s, isSurrogate c = false := by
  intro c hc
  obtain ⟨x, -, rfl⟩ := List.mem_map.1 hc
  have hvalid : x.toNat.isValidChar := x.valid
  simp only [Nat.isValidChar] at hvalid
  simp only [isSurrogate, Bool.and_eq_false_iff, decide_eq_false_iff_not]
  omega

/-- The route is that of the pipeline. -/
theorem posts_route {depth : Nat} (d : Named) (hslash : '/'.toNat ∉ pyStr d.definition.name)
    (h : Posts d.definition.name v depth http) :
    http.route = .post (.recordStatistics (pyStr d.definition.name)) := by
  obtain ⟨q, hq, hpost⟩ := statistics_leads_back (routesName d) hslash (isSurrogate_pyStr _)
  have hpath := h.path
  unfold statisticsPath at hpath
  rw [show quote (pyStr d.definition.name) = some q from hq, Option.map_some] at hpath
  unfold HttpRequest.route
  rw [h.method, ← Option.some.inj hpath]
  exact congrArg Route.post hpost

theorem posts_length {depth : Nat} (h : Posts name v depth http) :
    http.length = .ok (http.body.length : Int) := by
  have hshort : (Nat.toDigits 10 http.body.length).length ≤ 19 := by
    rw [Nat.length_toDigits_le_iff (by decide) (by decide)]
    exact Nat.lt_trans h.size (by decide)
  have hread : intOfStr (toString http.body.length) = some (http.body.length : Int) :=
    intOfStr_toString (Nat.le_trans hshort (by decide))
  unfold HttpRequest.length
  rw [h.contentLength, Option.getD_some, hread]

theorem posts_read {depth : Nat} (h : Posts name v depth http) :
    http.read http.body.length = .ok http.body := by
  have hsize := h.size
  have hfits : ¬ ((http.body.length : Int) < -2 ^ 63 ∨ 2 ^ 63 ≤ (http.body.length : Int)) := by
    omega
  unfold HttpRequest.read
  rw [if_neg hfits, if_neg (by omega), h.arrives]
  dsimp only
  rw [if_neg (by omega), Int.toNat_natCast, List.take_length]

/-- A well-formed snapshot is read back. -/
theorem posts_statistics {depth : Nat} (hdistinct : Distinct v) (hwf : WellFormed v)
    (h : Posts name v depth http) : http.statistics host = .ok v := by
  have hvalid := valid_report hdistinct hwf
  obtain ⟨members, rfl, hsnapshot⟩ := hwf
  have hscalars := fun m hm => (isSnapshot_members hsnapshot m hm).1
  have hroom : 1 ≤ host.depth := Nat.le_trans (by decide) host.deep
  unfold HttpRequest.statistics
  rw [posts_length h, ok_bind, posts_read h, ok_bind]
  exact loadsBytes_dumpBytes hvalid (dumpBytes_scalars hscalars h.body) hroom

/-- **The post is led to the pipeline, as it has been sent.** -/
theorem posts_handle {depth : Nat} (d : Named) (hslash : '/'.toNat ∉ pyStr d.definition.name)
    (hdistinct : Distinct v) (hwf : WellFormed v) (h : Posts d.definition.name v depth http) :
    http.handle host = .call (.recordStatistics d.definition.name v) := by
  unfold HttpRequest.handle
  rw [posts_route d hslash h]
  dsimp only
  rw [posts_statistics hdistinct hwf h, text_pyStr]

/-! ## The statistics of one pipeline -/

/-- The section assigns to the statistics of `name`. -/
def assigns (name : String) : Section → Bool
  | .start n | .recordStatistics n _ => n == name
  | .list | .status _ | .stop _ => false

variable {b : Books} {answer : Answer} {c : Section}

theorem perform_statistics (hc : c.Posted) (h : assigns name c = false) :
    (perform host defs answer b c).1.statistics name = b.statistics name := by
  have hother : ∀ {n : String}, (n == name) = false → ∀ w,
      Function.update b.statistics n (some w) name = b.statistics name := by
    intro n hn w
    exact Function.update_of_ne (fun heq => by rw [heq, beq_self_eq_true] at hn; cases hn) _ _
  cases c with
  | list => rfl
  | status n => rfl
  | start n =>
    show (b.start defs answer n).1.statistics name = _
    rcases start_cases b defs answer n with ⟨-, heq⟩ | ⟨d, hd, heq | ⟨e, -, heq⟩ | heq⟩
    · rw [heq]
    · rw [heq]
    · rw [heq]
    · rw [heq]
      refine hother ?_ emptyDict
      rw [Definitions.get_name hd]
      exact h
  | stop n =>
    show (b.stop defs answer n).1.statistics name = _
    unfold Books.stop
    dsimp only
    split <;> rfl
  | recordStatistics n w =>
    show (b.recordStatistics defs host.order n w).1.statistics name = _
    rcases b.recordStatistics_cases defs host.order n hc with
      ⟨-, heq⟩ | ⟨-, ⟨-, heq⟩ | ⟨-, heq⟩⟩
    · rw [heq]
    · rw [heq]
    · rw [heq]
      exact hother h w

theorem status_fields {st : StatusDict} (h : b.status defs name = .ok st) :
    st.name = name ∧ st.statistics = (b.statistics name).getD emptyDict := by
  unfold Books.status at h
  split at h
  · cases h
  · cases h
    exact ⟨rfl, rfl⟩

/-- The statuses that a section returns show the statistics. -/
theorem shown_of_perform (hc : c.Posted) (hname : name ∈ sectionNames defs c)
    (hv : (perform host defs answer b c).1.statistics name = some v) {statuses : List StatusDict}
    (h : (perform host defs answer b c).2 = .ok statuses) :
    (∃ st ∈ statuses, st.name = name) ∧
      ∀ st ∈ statuses, st.name = name → st.statistics = v := by
  obtain ⟨hmap, -⟩ := perform_ok hc h
  constructor
  · obtain ⟨st, hst, hok⟩ := exists_mem_of_mapM_eq_ok hmap name hname
    exact ⟨st, hst, (status_fields hok).1⟩
  · intro st hst heq
    obtain ⟨n, -, hok⟩ := mem_of_mapM_eq_ok hmap st hst
    obtain ⟨hn, hstatistics⟩ := status_fields hok
    rw [hstatistics, ← hn, heq, hv, Option.getD_some]

/-- Asking does not fail. -/
theorem perform_poll (host : Host) (answer : Answer) (b : Books) (hname : name ∈ defs.names)
    (hc : c = .list ∨ c = .status name) :
    ∃ statuses, (perform host defs answer b c).2 = .ok statuses := by
  have hposted : c.Posted := by rcases hc with rfl | rfl <;> trivial
  cases h : (perform host defs answer b c).2 with
  | ok statuses => exact ⟨statuses, rfl⟩
  | error e =>
    rcases perform_error hposted h with ⟨-, -, n, hn, hnames, hlist⟩ | ⟨-, -, n, w, hrecord, -, -⟩ |
      ⟨-, n, hstart⟩
    · rcases hc with rfl | rfl
      · exact absurd rfl hlist
      · cases hnames
        exact absurd hname hn
    · rcases hc with rfl | rfl <;> cases hrecord
    · rcases hc with rfl | rfl <;> rcases hstart with hstart | hstart <;> cases hstart

/-! ## The answers -/

/-- Somebody asks for the status of the pipeline, or for those of all. -/
def Route.Polls (name : String) (route : Route) : Prop :=
  route = .get .list ∨ route = .get (.status (pyStr name))

/-- The response has the pipeline's status, with these statistics. -/
def ShowsReport (host : Host) (name : String) (v : Json) (r : Request) (response : Response) :
    Prop :=
  ∃ statuses, Carries host response 200 (payload host r statuses) ∧
    (∃ st ∈ statuses, st.name = name) ∧ ∀ st ∈ statuses, st.name = name → st.statistics = v

theorem Route.Polls.section (hpolls : http.route.Polls name) (defs : Definitions) {r : Request}
    (h : http.handle host = .call r) :
    ∃ c, (c = .list ∨ c = .status name) ∧ r.sections defs = [c] := by
  unfold HttpRequest.handle at h
  rcases hpolls with hroute | hroute
  · rw [hroute] at h
    cases h
    exact ⟨.list, .inl rfl, rfl⟩
  · rw [hroute] at h
    cases h
    exact ⟨.status name, .inr rfl, congrArg (fun n => [Section.status n]) (text_pyStr name)⟩

variable {s t : Server} {l : Label} {call : Call} {work : Work}

/-- A call of one section, when it takes the lock. -/
theorem Underway.single {r : Request} {trace : List Moment} {c' : Section}
    (h : Underway host defs r trace work) (hr : r.sections defs = [c'])
    (hhead : work.rest.head? = some c) : c = c' ∧ work.rest.tail = [] ∧ work.returned = [] := by
  obtain ⟨rest, returned⟩ := work
  cases rest with
  | nil => cases hhead
  | cons a rest =>
    obtain rfl : a = c := Option.some.inj hhead
    obtain ⟨hsections, ⟨statuses, hshows, hreturned⟩, -⟩ := h
    rw [hr] at hsections
    rcases List.append_eq_singleton_iff.1 hsections with ⟨htrace, hone⟩ | ⟨-, hnone⟩
    · cases hone
      rw [List.map_eq_nil_iff.1 htrace] at hshows
      cases hshows
      exact ⟨rfl, rfl, hreturned⟩
    · cases hnone

/-- **A call of one section is answered with what the section has returned.** -/
theorem Next.answers (h : Next host defs call work c answer b) (hclient : call.client = some http)
    {c' : Section} (hone : call.request.sections defs = [c']) (hname : name ∈ sectionNames defs c)
    {statuses : List StatusDict} (hresult : (perform host defs answer b c).2 = .ok statuses)
    (hv : (perform host defs answer b c).1.statistics name = some v) :
    ∃ r, (call.after host work.rest.tail work.returned ⟨c, answer, b⟩
        (perform host defs answer b c).2).stage = .sending r ∧
      ShowsReport host name v call.request r := by
  obtain ⟨-, htail, hreturned⟩ := (h.base.underway http hclient work h.stage).single hone h.head
  obtain ⟨r, hrespond, hr⟩ := respond_ok host call.request
    (sendable_of_perform h.kept h.sized h.posted hresult)
  refine ⟨r, ?_, statuses, hr, shown_of_perform h.posted hname hv hresult⟩
  rw [hresult, htail, hreturned]
  show (Call.finish host _ (.ok statuses)).stage = _
  unfold Call.finish
  dsimp only
  rw [hclient]
  dsimp only
  rw [hrespond]
  rfl

/-! ## Along a run -/

/-- The section that a label runs. -/
def Server.section? (s : Server) : Label → Option Section
  | .run i _ => do
    let call ← s.calls[i]?
    let work ← call.stage.work?
    work.rest.head?
  | _ => none

/-- The pipeline is neither started nor reported on. -/
def LeavesAlone (name : String) (s : Server) (l : Label) : Prop :=
  ∀ c ∈ s.section? l, assigns name c = false

instance (s : Server) (l : Label) : Decidable (LeavesAlone name s l) :=
  inferInstanceAs (Decidable (∀ c ∈ s.section? l, assigns name c = false))

/-- The report is answered, and so is every poll among the calls from `n` on. -/
def Server.Serves (host : Host) (name : String) (v : Json) (i n : Nat) (s : Server) : Prop :=
  ∀ k call http, s.calls[k]? = some call → call.client = some http →
    k = i ∨ n ≤ k ∧ http.route.Polls name →
      (∀ r, call.stage = .ended (.answered r) → ShowsReport host name v call.request r) ∧
        ∀ e, call.stage = .ended (.raised e) → e.isInstance .osError = true

/-- The report has been recorded by the call at `i`, when there were `n` calls. -/
structure Recorded (host : Host) (defs : Definitions) (name : String) (v : Json) (i n : Nat)
    (s : Server) : Prop where
  base : Base host defs s
  statistics : s.books.statistics name = some v
  reported : i < n
  calls_le : n ≤ s.calls.length
  answers : ∀ k call http, s.calls[k]? = some call → call.client = some http →
    k = i ∨ n ≤ k ∧ http.route.Polls name →
      call.stage.Meets (ShowsReport host name v call.request)
        (fun e => e.isInstance .osError = true) (k ≠ i)

variable {i n : Nat}

theorem Recorded.serves (h : Recorded host defs name v i n s) : s.Serves host name v i n := by
  intro k call http hcall hclient hk
  have hmeets := h.answers k call http hcall hclient hk
  constructor
  · intro r hr
    rw [hr] at hmeets
    exact hmeets
  · intro e he
    rw [he] at hmeets
    exact hmeets

theorem calls_length_le (h : step host defs s l = some t) : s.calls.length ≤ t.calls.length := by
  cases l with
  | startAll =>
    cases h
    exact List.length_append ▸ Nat.le_add_right ..
  | stopAll =>
    cases h
    exact List.length_append ▸ Nat.le_add_right ..
  | accept http =>
    cases h
    unfold Server.accept
    split
    · exact List.length_append ▸ Nat.le_add_right ..
    · exact Nat.le_refl _
    · exact Nat.le_refl _
  | run i answer =>
    obtain ⟨call, work, c, -, -, -, -, rfl⟩ := step_run h
    exact Nat.le_of_eq List.length_set.symm
  | readIndexPage i result =>
    obtain ⟨other, -, -, rfl⟩ := step_readIndexPage h
    exact Nat.le_refl _
  | send i raises =>
    obtain ⟨call, stage, -, -, rfl⟩ := step_send h
    exact Nat.le_of_eq List.length_set.symm
  | sendOther i raises =>
    obtain ⟨other, stage, -, -, rfl⟩ := step_sendOther h
    exact Nat.le_refl _
  | exit pid code =>
    obtain ⟨-, -, rfl⟩ := step_exit h
    exact Nat.le_refl _

theorem section_of_run (hcall : s.calls[i]? = some call) (hstage : call.stage = .working work)
    (hhead : work.rest.head? = some c) : s.section? (.run i answer) = some c := by
  have hwork : call.stage.work? = some work := by
    rw [hstage]
    rfl
  unfold Server.section?
  dsimp only
  rw [hcall, Option.bind_eq_bind, Option.bind_some, hwork]
  exact hhead

/-- Only the sections that assign to them change the statistics. -/
theorem step_statistics (h : Base host defs s) (hquiet : LeavesAlone name s l)
    (ht : step host defs s l = some t) : t.books.statistics name = s.books.statistics name := by
  rcases books_of_step ht with hsame |
    ⟨i, call, work, c, answer, hcall, rfl, hstage, hhead, hfits, hbooks⟩ | ⟨pid, code, -, hbooks⟩
  · rw [hsame]
  · have hnext := h.next (step_good h.good ht) hbooks hcall hstage hhead hfits
    rw [hbooks]
    exact perform_statistics hnext.posted (hquiet c (section_of_run hcall hstage hhead))
  · rw [hbooks]

theorem goOn_same (call : Call) (rest : List Section) (returned : List StatusDict) :
    (call.goOn host rest returned).client = call.client ∧
      (call.goOn host rest returned).request = call.request := by
  cases rest <;> exact ⟨rfl, rfl⟩

theorem after_same (call : Call) (rest : List Section) (returned : List StatusDict)
    (moment : Moment) (result : Except PyError (List StatusDict)) :
    (call.after host rest returned moment result).client = call.client ∧
      (call.after host rest returned moment result).request = call.request := by
  cases result with
  | error e => exact ⟨rfl, rfl⟩
  | ok statuses => exact goOn_same _ _ _

theorem step_recorded (hname : name ∈ defs.names) (h : Recorded host defs name v i n s)
    (hquiet : LeavesAlone name s l) (ht : step host defs s l = some t) :
    Recorded host defs name v i n t := by
  have hstatistics := (step_statistics h.base hquiet ht).trans h.statistics
  refine ⟨step_base h.base ht, hstatistics, h.reported,
    Nat.le_trans h.calls_le (calls_length_le ht), fun k call' http hk hclient hwatched => ?_⟩
  rcases calls_of_step ht hk with hsame | ⟨client, r, hnew, hclients, -, rfl⟩ |
    ⟨call, work, c, answer, hcall, rfl, hstage, hhead, hfits, rfl⟩ |
    ⟨call, stage, raises, hcall, hsend, rfl⟩
  · exact h.answers k call' http hsame hclient hwatched
  · have hne : k ≠ i := by
      have hi := h.reported
      have hn := h.calls_le
      omega
    rw [Call.enter, (goOn_same ..).1] at hclient
    have hpolls := (hwatched.resolve_left hne).2
    obtain ⟨c, -, hone⟩ := hpolls.section defs (hclients http hclient).2
    unfold Call.enter
    rw [hone]
    exact hne
  · rw [(after_same ..).1] at hclient
    have hne : k ≠ i := by
      have hmeets := h.answers k call http hcall hclient hwatched
      rw [hstage] at hmeets
      exact hmeets
    have hnext := h.base.next (step_good h.base.good ht) (run_books ht hcall hstage hhead) hcall
      hstage hhead hfits
    have hhandled := hnext.base.handled http hclient
    obtain ⟨c', hc', hone⟩ := (hwatched.resolve_left hne).2.section defs hhandled
    obtain ⟨rfl, -, -⟩ := (hnext.base.underway http hclient work hstage).single hone hhead
    obtain ⟨statuses, hresult⟩ := perform_poll host answer s.books hname hc'
    rw [run_books ht hcall hstage hhead] at hstatistics
    have hmem : name ∈ sectionNames defs c := by
      rcases hc' with rfl | rfl
      · exact (List.mem_insertionSort _).2 hname
      · exact List.mem_singleton_self _
    obtain ⟨r, hr, hshows⟩ := hnext.answers hclient hone hmem hresult hstatistics
    rw [hr, (after_same ..).2]
    exact hshows
  · exact (h.answers k call http hcall hclient hwatched).send hsend fun e he => he

/-- The step that records the report. -/
theorem recorded_of_step (h : Base host defs s) (hname : name ∈ defs.names)
    (hdistinct : Distinct v) (hwf : WellFormed v)
    (hhandle : http.handle host = .call (.recordStatistics name v))
    (hcall : s.calls[i]? = some call) (hclient : call.client = some http)
    (ht : step host defs s (.run i answer) = some t) :
    Recorded host defs name v i t.calls.length t := by
  obtain ⟨call', work, c, hcall', hstage, hhead, hfits, heq⟩ := step_run ht
  obtain rfl := Option.some.inj (hcall.symm.trans hcall')
  have hbooks := run_books ht hcall hstage hhead
  have hnext := h.next (step_good h.good ht) hbooks hcall hstage hhead hfits
  have hrequest : call.request = .recordStatistics name v := by
    have hhandled := (hnext.base.handled http hclient).symm.trans hhandle
    injection hhandled
  have hone : call.request.sections defs = [.recordStatistics name v] := by
    rw [hrequest]
    rfl
  obtain ⟨rfl, -, -⟩ := (hnext.base.underway http hclient work hstage).single hone hhead
  rcases s.books.recordStatistics_cases defs host.order name hdistinct with
    ⟨hnone, -⟩ | ⟨⟨d, hd⟩, ⟨hnot, -⟩ | ⟨-, hrecord⟩⟩
  · exact absurd hname (Definitions.get_eq_none.1 hnone)
  · exact absurd hwf hnot
  obtain ⟨st, hst, -⟩ := Books.status_eq (b := s.books.setStatistics defs name v) hd
  have hresult : (perform host defs answer s.books (.recordStatistics name v)).2 = .ok [st] := by
    rw [perform, hrecord, hst]
    rfl
  have hstatistics : (perform host defs answer s.books
      (.recordStatistics name v)).1.statistics name = some v := by
    rw [perform, hrecord]
    exact Function.update_self ..
  obtain ⟨r, hr, hshows⟩ := hnext.answers hclient hone (List.mem_singleton_self _) hresult
    hstatistics
  have hlt : i < t.calls.length :=
    Nat.lt_of_lt_of_le (List.getElem?_eq_some_iff.1 hcall).1 (calls_length_le ht)
  refine ⟨step_base h ht, hbooks ▸ hstatistics, hlt, Nat.le_refl _, ?_⟩
  intro k call' http' hk hclient' hwatched
  rcases hwatched with rfl | ⟨hle, -⟩
  · have hset : t.calls[k]? = some (call.after host work.rest.tail work.returned
        ⟨.recordStatistics name v, answer, s.books⟩
        (perform host defs answer s.books (.recordStatistics name v)).2) := by
      rw [heq]
      exact List.getElem?_set_self (List.getElem?_eq_some_iff.1 hcall).1
    obtain rfl := Option.some.inj (hk.symm.trans hset)
    rw [hr, (after_same ..).2]
    exact hshows
  · rw [List.getElem?_eq_none hle] at hk
    cases hk

/-- **What a pipeline reports is what is shown.**  The snapshot that a pipeline process has posted
is handed to the manager as it has been read.  Once it is recorded, its response and those to
whoever asks later show this snapshot, until the pipeline is started again or reports again,
whatever else the clients and the children do. -/
theorem report_served (host : Host) (loaded : Loaded) {d : Named} (hd : d ∈ loaded.entries)
    (hslash : '/'.toNat ∉ pyStr d.definition.name) {reads : PyStr → Globals}
    (hreads : ∀ key, Reaches assign Globals.init (reads key)) (sender : Option RtspStatus)
    {depth : Nat} {http : HttpRequest}
    (hposts : Posts d.definition.name (frameStatistics reads sender) depth http)
    {before : List Label} {s t : Server}
    (hrun : run (step host loaded.definitions) .init before = some s) {i : Nat} {call : Call}
    (hcall : s.calls[i]? = some call) (hclient : call.client = some http) {answer : Answer}
    (hstep : step host loaded.definitions s (.run i answer) = some t) {labels : List Label}
    (hquiet : StepsMeet (step host loaded.definitions) (LeavesAlone d.definition.name) t labels) :
    http.handle host = .call (.recordStatistics d.definition.name (frameStatistics reads sender)) ∧
      Always (step host loaded.definitions) (Server.Serves host d.definition.name
        (frameStatistics reads sender) i t.calls.length) t labels := by
  have hbase : Base host loaded.definitions s :=
    run_invariant (fun _ _ _ hb ht => step_base hb ht) (base_init host _) hrun
  have hname : d.definition.name ∈ loaded.definitions.names :=
    List.mem_map_of_mem (List.mem_map_of_mem hd)
  obtain ⟨snapshot, hsnapshot⟩ := frameStatistics_eq hreads sender
  have hdistinct : Distinct (frameStatistics reads sender) := hsnapshot ▸ distinct_toJson snapshot
  have hwf : WellFormed (frameStatistics reads sender) := hsnapshot ▸ wellFormed_toJson snapshot
  have hhandle : http.handle host =
      .call (.recordStatistics d.definition.name (frameStatistics reads sender)) :=
    posts_handle d hslash hdistinct hwf hposts
  have hrecorded := recorded_of_step hbase hname hdistinct hwf hhandle hcall hclient hstep
  exact ⟨hhandle, always_of_stepsMeet (fun _ h => h.serves)
    (fun _ _ _ h hl ht => step_recorded hname h hl ht) hrecorded hquiet⟩

def camera : Named := ⟨⟨"camera", "camera.yml"⟩, by decide, by decide⟩

def firstSnapshot : Json := frameStatistics (fun _ => Globals.init) none

def firstReport : HttpRequest :=
  let body := (dumpBytes 1 firstSnapshot).toOption.getD []
  ⟨.post, cameraStatistics, some (toString body.length), body, none⟩

set_option maxRecDepth 10000 in
theorem posts_firstReport : Posts "camera" firstSnapshot 1 firstReport where
  method := rfl
  path := by decide +kernel
  body := by decide +kernel
  contentLength := rfl
  size := by decide +kernel
  arrives := rfl

def oneCamera : Loaded := ⟨[camera], List.nodup_singleton _⟩

/-- After the report the status is asked for. -/
def pollLater : List Label :=
  [.accept ⟨.get, cameraTarget, none, [], none⟩, .run 1 .smooth, .send 1 none, .send 0 none]

/-- The first report of a process has arrived. -/
def reporting : Server := Server.init.accept smallHost oneCamera.definitions firstReport

set_option maxRecDepth 10000 in
theorem pollLater_runs : (step smallHost oneCamera.definitions reporting (.run 0 .smooth)).any
    (fun t => (run (step smallHost oneCamera.definitions) t pollLater).map
        (fun u => u.calls.map fun call => call.stage.status?) = some [some 200, some 200] ∧
      StepsMeet (step smallHost oneCamera.definitions) (LeavesAlone "camera") t pollLater) =
    true := by
  decide +kernel

/-- The report is recorded, and the poll is answered with it. -/
theorem report_served_later : ∃ t,
    (run (step smallHost oneCamera.definitions) t pollLater).map
      (fun u => u.calls.map fun call => call.stage.status?) = some [some 200, some 200] ∧
    Always (step smallHost oneCamera.definitions)
      (Server.Serves smallHost "camera" firstSnapshot 0 t.calls.length) t pollLater := by
  obtain ⟨t, hstep, hruns⟩ := (Option.any_eq_true _ _).1 pollLater_runs
  obtain ⟨hanswered, hquiet⟩ := of_decide_eq_true hruns
  have hreads : ∀ key : PyStr, Reaches assign Globals.init Globals.init := fun _ => ⟨[], rfl⟩
  have hcall : ∃ call, reporting.calls[0]? = some call ∧ call.client = some firstReport := by
    have hdistinct : Distinct firstSnapshot := distinct_toJson emptyStatistics
    have hwf : WellFormed firstSnapshot := wellFormed_toJson emptyStatistics
    have hhandle : firstReport.handle smallHost =
        .call (.recordStatistics "camera" firstSnapshot) :=
      posts_handle camera (by decide) hdistinct hwf posts_firstReport
    unfold reporting Server.accept
    rw [hhandle]
    exact ⟨_, rfl, (goOn_same ..).1⟩
  obtain ⟨call, hcall, hclient⟩ := hcall
  have hrun : run (step smallHost oneCamera.definitions) .init [.accept firstReport] =
      some reporting := rfl
  exact ⟨t, hanswered, (report_served smallHost oneCamera (List.mem_singleton_self _) (by decide)
    hreads none posts_firstReport hrun hcall hclient hstep hquiet).2⟩

end PipeWorks.Plumber.Handler
