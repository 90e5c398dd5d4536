import PipeWorks.NvidiaPipe.Receive

/-!
# What the jitter buffer does with the packets of a connection

`Connection.Inv` ties the locals of a connection to the packets that arrived on it: what has
been yielded together with what the heap holds is the annotated accepted packets, and the heap
holds `min bufferSize` of them.  `step_connections` says that a step touches no connection but
the current one, so the invariant holds of every connection of every run
(`run_connections_inv`).

The heap is a local of the `try` block: what it holds when the connection ends is dropped.
`deliversAll_iff` says when that matters.
-/

set_option autoImplicit false

namespace PipeWorks.NvidiaPipe.Receive

open StepSystem PopMin PipeWorks.Python

/-! ## The packets a connection should hand on -/

def accepted (ps : List DemuxPacket) : List StampedPacket := ps.filterMap DemuxPacket.stamped?

/-- The accepted packets as handed on; each is compared with its accepted predecessor. -/
def annotated (v : VideoStream) (codec : CudaVideoCodec) :
    Option Int → List StampedPacket → List ReceivedPacket
  | _, [] => []
  | previousPts, p :: ps =>
    receivedPacket v codec previousPts p :: annotated v codec (some p.pts) ps

/-- The timestamp that a packet arriving after `ps` is compared with. -/
def lastPts : Option Int → List StampedPacket → Option Int
  | previousPts, [] => previousPts
  | _, p :: ps => lastPts (some p.pts) ps

theorem annotated_snoc (v : VideoStream) (codec : CudaVideoCodec) (p : StampedPacket) :
    ∀ (previousPts : Option Int) (ps : List StampedPacket),
      annotated v codec previousPts (ps ++ [p]) =
        annotated v codec previousPts ps ++ [receivedPacket v codec (lastPts previousPts ps) p]
  | _, [] => rfl
  | _, q :: ps => by
    simp only [List.cons_append, annotated, annotated_snoc v codec p (some q.pts) ps, lastPts]

theorem lastPts_snoc (p : StampedPacket) :
    ∀ (previousPts : Option Int) (ps : List StampedPacket),
      lastPts previousPts (ps ++ [p]) = some p.pts
  | _, [] => rfl
  | _, q :: ps => lastPts_snoc p (some q.pts) ps

theorem annotated_length (v : VideoStream) (codec : CudaVideoCodec) :
    ∀ (previousPts : Option Int) (ps : List StampedPacket),
      (annotated v codec previousPts ps).length = ps.length
  | _, [] => rfl
  | _, p :: ps => by simp [annotated, annotated_length v codec (some p.pts) ps]

/-- Everything the connection has to hand on. -/
def Connection.expected (c : Connection) : List ReceivedPacket :=
  annotated c.inputStream c.codec none (accepted c.arrived)

/-- What the heap holds, as packets. -/
def Connection.held (c : Connection) : List ReceivedPacket := c.jitterPackets.map (·.2.2)

/-! ## One connection -/

structure Connection.Inv (bufferSize : Nat) (c : Connection) : Prop where
  previousPts : c.previousPts = lastPts none (accepted c.arrived)
  content : (c.yielded ++ c.held).Perm c.expected
  held_length : c.jitterPackets.length = min bufferSize (accepted c.arrived).length

/-- `deliver` writes only the heap and the output. -/
theorem deliver_frame (n : Nat) (c : Connection) (r : ReceivedPacket) :
    (c.deliver n r).inputStream = c.inputStream ∧ (c.deliver n r).codec = c.codec ∧
      (c.deliver n r).previousPts = c.previousPts ∧ (c.deliver n r).arrived = c.arrived := by
  unfold Connection.deliver
  split
  · exact ⟨rfl, rfl, rfl, rfl⟩
  · simp only
    split
    · split <;> exact ⟨rfl, rfl, rfl, rfl⟩
    · exact ⟨rfl, rfl, rfl, rfl⟩

/-- **One delivery**: the packet joins what is yielded or held, and at most `n` are held. -/
theorem deliver_spec {n : Nat} {c : Connection} (r : ReceivedPacket)
    (hheld : c.jitterPackets.length ≤ n) :
    ((c.deliver n r).yielded ++ (c.deliver n r).held).Perm (c.yielded ++ c.held ++ [r]) ∧
      (c.deliver n r).jitterPackets.length = min n (c.jitterPackets.length + 1) := by
  unfold Connection.deliver
  split
  · rename_i hn
    subst hn
    have hnil : c.jitterPackets = [] := List.length_eq_zero_iff.mp (by omega)
    simp [Connection.held, hnil]
  · simp only
    split
    · rename_i hfull
      split
      · rename_i entry rest hpop
        have hperm := (popMin_perm hpop).map (·.2.2)
        have hlen := popMin_length hpop
        simp only [List.map_append, List.map_cons, List.map_nil] at hperm
        simp only [List.length_append, List.length_cons, List.length_nil] at hfull hlen
        refine ⟨?_, by simp only; omega⟩
        simp only [Connection.held, List.append_assoc]
        exact (hperm.symm.append_left c.yielded)
      · rename_i hnone
        exact absurd (popMin_none hnone) (by simp)
    · rename_i hroom
      simp only [List.length_append, List.length_cons, List.length_nil] at hroom ⊢
      exact ⟨by simp [Connection.held], by omega⟩

theorem onPacket_frame (n : Nat) (c : Connection) (p : DemuxPacket) :
    (c.onPacket n p).inputStream = c.inputStream ∧ (c.onPacket n p).codec = c.codec ∧
      (c.onPacket n p).arrived = c.arrived ++ [p] := by
  unfold Connection.onPacket
  split
  · exact ⟨rfl, rfl, rfl⟩
  · unfold Connection.accept
    obtain ⟨hv, hcodec, _, harr⟩ := deliver_frame n
      { c with arrived := c.arrived ++ [p], previousPts := some _ } _
    exact ⟨hv, hcodec, harr⟩

theorem start_inv (n : Nat) (v : VideoStream) (codec : CudaVideoCodec) :
    (Connection.start v codec).Inv n :=
  ⟨rfl, List.Perm.refl _, (Nat.min_zero n).symm⟩

/-- A demuxed packet preserves the invariant. -/
theorem onPacket_inv {n : Nat} {c : Connection} (p : DemuxPacket) (h : c.Inv n) :
    (c.onPacket n p).Inv n := by
  unfold Connection.onPacket
  split
  · rename_i hp
    have harr : accepted (c.arrived ++ [p]) = accepted c.arrived := by simp [accepted, hp]
    refine ⟨?_, ?_, ?_⟩
    · simpa only [harr] using h.previousPts
    · simpa only [Connection.expected, Connection.held, harr] using h.content
    · simpa only [harr] using h.held_length
  · rename_i q hp
    have harr : accepted (c.arrived ++ [p]) = accepted c.arrived ++ [q] := by
      simp [accepted, hp]
    simp only [Connection.accept]
    generalize hr : receivedPacket c.inputStream c.codec c.previousPts q = r
    obtain ⟨hv, hcodec, hprev, harrived⟩ := deliver_frame n
      { c with arrived := c.arrived ++ [p], previousPts := some q.pts } r
    obtain ⟨hcontent, hlen⟩ := deliver_spec (n := n)
      (c := { c with arrived := c.arrived ++ [p], previousPts := some q.pts }) r
      (by have := h.held_length; simp only; omega)
    refine ⟨?_, ?_, ?_⟩
    · rw [hprev, harrived, harr, lastPts_snoc]
    · apply hcontent.trans
      rw [Connection.expected, hv, hcodec, harrived, harr, annotated_snoc, ← h.previousPts, hr]
      exact h.content.append_right [r]
    · have := h.held_length
      rw [hlen, harrived, harr, List.length_append, List.length_singleton]
      simp only
      omega

/-- What a connection still holds at its end is missing from what it has yielded. -/
theorem yielded_perm_expected_iff {n : Nat} {c : Connection} (h : c.Inv n) :
    c.yielded.Perm c.expected ↔ n = 0 ∨ accepted c.arrived = [] := by
  have hlen := h.content.length_eq
  have hheld := h.held_length
  simp only [List.length_append, Connection.held, List.length_map] at hlen
  constructor
  · intro hp
    have := hp.length_eq
    rcases Nat.eq_zero_or_pos n with hn | hn
    · exact Or.inl hn
    · exact Or.inr (List.length_eq_zero_iff.mp (by omega))
  · intro hor
    have hnil : c.jitterPackets = [] := by
      apply List.length_eq_zero_iff.mp
      rcases hor with hn | hn
      · omega
      · rw [hn, List.length_nil] at hheld
        omega
    simpa [Connection.held, hnil] using h.content

/-! ## Runs -/

/-- The connections of a state: those left behind and the current one. -/
def State.connections (s : State) : List Connection :=
  s.finished ++ match s.phase with
    | .demuxing c => [c]
    | _ => []

theorem leave_connections (s : State) (e : PyError) : (s.leave e).connections = s.finished := by
  by_cases h : handled e = true
  · simp [leave_of_handled h, State.connections]
  · simp [leave_of_not_handled h, State.connections]

theorem finish_leave_connections (s : State) (c : Connection) (e : PyError) :
    ∀ c' ∈ ((s.leave e).finish c).connections, c' ∈ s.finished ∨ c' = c := by
  intro c' hc'
  by_cases h : handled e = true
  · simpa [leave_of_handled h, State.finish, State.connections] using hc'
  · left
    simpa [leave_of_not_handled h, State.finish, State.connections] using hc'

theorem inspect_connections (s : State) (video : List VideoStream) :
    ∀ c' ∈ (inspect s video).connections, c' ∈ s.finished ∨
      ∃ v codec, v.codec = some codec ∧ c' = Connection.start v codec := by
  intro c' hc'
  unfold inspect at hc'
  split at hc'
  · exact Or.inl (by rwa [leave_connections] at hc')
  · rename_i v _
    split at hc'
    · exact Or.inl (by rwa [leave_connections] at hc')
    · rename_i codec hcodec
      simp only [State.connections, List.mem_append, List.mem_singleton] at hc'
      exact hc'.imp_right fun hc => ⟨v, codec, hcodec, hc⟩

/-- **A step touches no connection but the current one**: every connection after it was there
    before, is new, or is the current one after a packet. -/
theorem step_connections {n : Nat} {s t : State} {e : Event} (h : step n s e = some t) :
    ∀ c' ∈ t.connections, c' ∈ s.connections ∨
      (∃ v codec, v.codec = some codec ∧ c' = Connection.start v codec) ∨
      ∃ c ∈ s.connections, ∃ p, c' = c.onPacket n p := by
  have hsub : ∀ c' ∈ s.finished, c' ∈ s.connections := fun c' hc' =>
    List.mem_append_left _ hc'
  intro c' hc'
  unfold step at h
  split at h <;> cases h
  · -- `av.open` raised
    rw [leave_connections] at hc'
    exact Or.inl (hsub c' hc')
  · exact Or.inl (hsub c' (by simpa [State.connections] using hc'))
  · rcases inspect_connections s _ c' hc' with hc' | hnew
    · exact Or.inl (hsub c' hc')
    · exact Or.inr (Or.inl hnew)
  · rename_i c p now hphase
    have hcur : c ∈ s.connections := by simp [State.connections, hphase]
    cases p with
    | none => exact Or.inl hc'
    | some p =>
      simp only [onPacket, State.connections, (state_onPacket_frame ..).1, List.mem_append,
        List.mem_singleton] at hc'
      rcases hc' with hc' | rfl
      · exact Or.inl (hsub c' hc')
      · exact Or.inr (Or.inr ⟨c, hcur, p, rfl⟩)
  · rename_i c hphase
    simp only [State.finish, State.connections, List.mem_append, List.mem_singleton,
      List.append_nil] at hc'
    rcases hc' with hc' | rfl
    · exact Or.inl (hsub c' hc')
    · exact Or.inl (by simp [State.connections, hphase])
  · rename_i c x hphase
    rcases finish_leave_connections s c x c' hc' with hc' | rfl
    · exact Or.inl (hsub c' hc')
    · exact Or.inl (by simp [State.connections, hphase])
  · exact Or.inl (hsub c' (by simpa [State.connections] using hc'))

theorem step_connections_inv {n : Nat} {s t : State} {e : Event}
    (hs : ∀ c ∈ s.connections, c.Inv n) (ht : step n s e = some t) :
    ∀ c ∈ t.connections, c.Inv n := by
  intro c' hc'
  rcases step_connections ht c' hc' with hc' | ⟨v, codec, _, rfl⟩ | ⟨c, hc, p, rfl⟩
  · exact hs c' hc'
  · exact start_inv n v codec
  · exact onPacket_inv p (hs c hc)

theorem init_connections (now : Int) : (State.init now).connections = [] := rfl

/-- Every connection of every run satisfies the invariant. -/
theorem run_connections_inv {n : Nat} {now : Int} {script : List Event} {s : State}
    (h : run (step n) (State.init now) script = some s) : ∀ c ∈ s.connections, c.Inv n :=
  run_invariant (I := fun s => ∀ c ∈ s.connections, c.Inv n)
    (fun _ _ _ hs ht => step_connections_inv hs ht)
    (fun c hc => by simp [init_connections] at hc) h

/-! ## The buffered path against the direct path

The outside world drives the loop in the same way whatever the buffer size: `erase` forgets
what the buffer determines, and a step under any buffer size is the erased step. -/

def Connection.erase (c : Connection) : Connection :=
  { c with jitterPackets := [], jitterSequence := 0, yielded := [] }

def Phase.erase : Phase → Phase
  | .demuxing c => .demuxing c.erase
  | phase => phase

def State.erase (s : State) : State :=
  { s with phase := s.phase.erase, finished := s.finished.map Connection.erase }

theorem deliver_erase (n : Nat) (c : Connection) (r : ReceivedPacket) :
    (c.deliver n r).erase = c.erase := by
  obtain ⟨hv, hcodec, hprev, harr⟩ := deliver_frame n c r
  simp only [Connection.erase, hv, hcodec, hprev, harr]

theorem onPacket_erase (n m : Nat) (c : Connection) (p : DemuxPacket) :
    (c.onPacket n p).erase = (c.erase.onPacket m p).erase := by
  unfold Connection.onPacket
  split
  · rfl
  · simp only [Connection.accept, deliver_erase]
    rfl

theorem leave_erase (s : State) (e : PyError) : (s.leave e).erase = (s.erase.leave e).erase := by
  by_cases h : handled e = true
  · simp [leave_of_handled h, State.erase, Phase.erase, Connection.erase, Function.comp_def]
  · simp [leave_of_not_handled h, State.erase, Phase.erase, Connection.erase, Function.comp_def]

theorem finish_leave_erase (s : State) (c : Connection) (e : PyError) :
    ((s.leave e).finish c).erase = ((s.erase.leave e).finish c.erase).erase := by
  by_cases h : handled e = true
  · simp [leave_of_handled h, State.finish, State.erase, Phase.erase, Connection.erase,
      Function.comp_def]
  · simp [leave_of_not_handled h, State.finish, State.erase, Phase.erase, Connection.erase,
      Function.comp_def]

theorem inspect_erase (s : State) (video : List VideoStream) :
    (inspect s video).erase = (inspect s.erase video).erase := by
  unfold inspect
  split
  · exact leave_erase s _
  · split
    · exact leave_erase s _
    · simp [State.erase, Phase.erase, Connection.erase, Function.comp_def]

theorem countAnomaly_erase (s : State) (b : Bool) :
    s.erase.countAnomaly b = (s.countAnomaly b).erase := by
  cases b <;> rfl

theorem reportAnomalies_erase (s : State) (now : Int) :
    s.erase.reportAnomalies now = (s.reportAnomalies now).erase := by
  by_cases hdue : now ≥ s.nextTimestampAnomalyLogAt
  · by_cases hcount : s.timestampAnomalyCount = 0
    · simp [State.reportAnomalies, State.erase, hdue, hcount]
    · simp [State.reportAnomalies, State.erase, hdue, hcount]
  · simp [State.reportAnomalies, State.erase, hdue]

theorem state_onPacket_erase (s : State) (previousPts : Option Int) (now : Int)
    (p : DemuxPacket) :
    s.erase.onPacket previousPts now p = (s.onPacket previousPts now p).erase := by
  unfold State.onPacket
  split
  · rfl
  · rw [countAnomaly_erase, reportAnomalies_erase]

theorem connection_erase_erase (c : Connection) : c.erase.erase = c.erase := rfl

theorem state_erase_erase (s : State) : s.erase.erase = s.erase := by
  simp only [State.erase, List.map_map, Function.comp_def, connection_erase_erase]
  congr 1
  cases s.phase <;> rfl

/-- Erasing commutes with every step, whatever the two buffer sizes. -/
theorem step_erase (n m : Nat) (s : State) (e : Event) :
    (step n s e).map State.erase = (step m s.erase e).map State.erase := by
  have hphase : s.erase.phase = s.phase.erase := rfl
  unfold step
  rw [hphase]
  cases hp : s.phase with
  | connecting =>
    cases e with
    | openRaises x => simp only [Phase.erase, Option.map_some, leave_erase s x]
    | opens video =>
      simp [Phase.erase, State.erase, Function.comp_def, connection_erase_erase]
    | _ => rfl
  | inspecting video =>
    cases e with
    | inspect => simp only [Phase.erase, Option.map_some, inspect_erase s video]
    | _ => rfl
  | demuxing c =>
    cases e with
    | packet p now =>
      cases p with
      | none => simp only [Phase.erase, onPacket, Option.map_some, state_erase_erase]
      | some p =>
        simp only [Phase.erase, onPacket, Option.map_some]
        have hprev : c.erase.previousPts = c.previousPts := rfl
        rw [hprev, state_onPacket_erase]
        simp only [State.erase, Phase.erase, List.map_map, Function.comp_def,
          connection_erase_erase, ← onPacket_erase n m c p]
    | endOfStream =>
      simp [Phase.erase, State.finish, State.erase, Function.comp_def, connection_erase_erase]
    | demuxRaises x => simp only [Phase.erase, Option.map_some, finish_leave_erase s c x]
    | _ => rfl
  | waiting =>
    cases e with
    | wake => simp [Phase.erase, State.erase, Function.comp_def, connection_erase_erase]
    | _ => rfl
  | raised x => rfl

/-- **The same script drives the buffered and the direct path alike.** -/
theorem run_erase (n m : Nat) :
    ∀ (script : List Event) (s s' : State), s.erase = s'.erase →
      (run (step n) s script).map State.erase = (run (step m) s' script).map State.erase := by
  intro script
  induction script with
  | nil =>
    intro s s' h
    simp [h]
  | cons e script ih =>
    intro s s' h
    have hstep : (step n s e).map State.erase = (step m s' e).map State.erase := by
      rw [step_erase n m s e, step_erase m m s' e, h]
    simp only [run]
    cases hs : step n s e with
    | none =>
      cases hs' : step m s' e with
      | none => rfl
      | some t' => simp [hs, hs'] at hstep
    | some t =>
      cases hs' : step m s' e with
      | none => simp [hs, hs'] at hstep
      | some t' =>
        rw [hs, hs'] at hstep
        exact ih t t' (Option.some.inj hstep)

/-- Corresponding connections of the two paths had the same packets to hand on. -/
theorem expected_of_erase {c c' : Connection} (h : c.erase = c'.erase) :
    c.expected = c'.expected := by
  have hv : c.erase.inputStream = c'.erase.inputStream := by rw [h]
  have hcodec : c.erase.codec = c'.erase.codec := by rw [h]
  have harr : c.erase.arrived = c'.erase.arrived := by rw [h]
  simp only [Connection.erase] at hv hcodec harr
  simp only [Connection.expected, hv, hcodec, harr]

/-- Under buffer size `n` the script makes `receive` yield, for every connection it has left for
    another attempt, the packets it yields without a buffer: all that carry both timestamps. -/
def DeliversAll (n : Nat) (now : Int) (script : List Event) : Prop :=
  ∀ s, run (step n) (State.init now) script = some s →
    ∃ s₀, run (step 0) (State.init now) script = some s₀ ∧
      List.Forall₂ (fun c c₀ => c.yielded.Perm c₀.yielded ∧ c₀.yielded.Perm c.expected)
        s.finished s₀.finished

/-- **When the jitter buffer loses nothing**: exactly when there is no buffer, or no connection
    left for another attempt had delivered a packet with both timestamps.  A connection that
    ends leaves what its heap still holds behind. -/
theorem deliversAll_iff (n : Nat) (now : Int) (script : List Event) :
    DeliversAll n now script ↔
      n = 0 ∨ ∀ s, run (step n) (State.init now) script = some s →
        ∀ c ∈ s.finished, accepted c.arrived = [] := by
  have hmem : ∀ {s : State} {c : Connection}, c ∈ s.finished → c ∈ s.connections :=
    fun hc => List.mem_append_left _ hc
  constructor
  · intro h
    apply Classical.or_iff_not_imp_left.mpr
    intro hn s hs c hc
    obtain ⟨s₀, -, hall⟩ := h s hs
    obtain ⟨hlen, hget⟩ := List.forall₂_iff_get.mp hall
    obtain ⟨i, rfl⟩ := List.get_of_mem hc
    obtain ⟨hyield, hexp⟩ := hget i.1 i.2 (hlen ▸ i.2)
    have hinv := run_connections_inv hs _ (hmem hc)
    exact ((yielded_perm_expected_iff hinv).mp (hyield.trans hexp)).resolve_left hn
  · intro h s hs
    have herase := run_erase n 0 script (State.init now) (State.init now) rfl
    rw [hs, Option.map_some] at herase
    obtain ⟨s₀, hs₀, hst⟩ := Option.map_eq_some_iff.mp herase.symm
    refine ⟨s₀, hs₀, ?_⟩
    have hfin : s₀.finished.map Connection.erase = s.finished.map Connection.erase :=
      congrArg State.finished hst
    have hlen : s.finished.length = s₀.finished.length := by
      simpa using (congrArg List.length hfin).symm
    refine List.forall₂_iff_get.mpr ⟨hlen, fun i hi hi₀ => ?_⟩
    have hc := List.get_mem s.finished ⟨i, hi⟩
    have hc₀ := List.get_mem s₀.finished ⟨i, hi₀⟩
    have hsame : (s.finished.get ⟨i, hi⟩).erase = (s₀.finished.get ⟨i, hi₀⟩).erase := by
      have := congrArg (·[i]?) hfin
      simpa [List.getElem?_map, List.getElem?_eq_getElem hi, List.getElem?_eq_getElem hi₀]
        using this.symm
    have hy₀ := (yielded_perm_expected_iff (run_connections_inv hs₀ _ (hmem hc₀))).mpr
      (Or.inl rfl)
    rw [← expected_of_erase hsame] at hy₀
    have hy := (yielded_perm_expected_iff (run_connections_inv hs _ (hmem hc))).mpr
      (h.imp_right fun hnone => hnone s hs _ hc)
    exact ⟨hy.trans hy₀.symm, hy₀⟩

/-- One packet, then the stream ends: with a buffer of one packet it is never handed on. -/
def lostTailScript : List Event :=
  [.opens [⟨"h264", 640, 360, some 30, 1⟩], .inspect,
    .packet (some ⟨[1], some 10, some 10, some 4, true⟩) 0, .endOfStream]

theorem lostTail_not_deliversAll : ¬ DeliversAll 1 0 lostTailScript := by
  intro h
  obtain ⟨s₀, hs₀, hall⟩ := h _ rfl
  cases hs₀
  rcases hall with _ | ⟨⟨hy, _⟩, _⟩
  exact absurd hy.length_eq (by decide)

end PipeWorks.NvidiaPipe.Receive
