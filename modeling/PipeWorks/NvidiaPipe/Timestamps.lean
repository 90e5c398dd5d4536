import Mathlib.Algebra.GroupWithZero.Nat
import PipeWorks.NvidiaPipe.JitterBuffer

/-!
# Timestamps: durations and anomalies

A received packet lasts until its successor is due, so `receive` writes into every accepted packet
the time that has passed since the accepted packet before it, on the same connection; when that is
not positive, it counts an anomaly twice, for the periodic warning (`timestamp_anomaly_count`,
which the warning resets) and for the statistics (`out_of_order_frame_count`, which lasts).

`always_annotates`: in every state of every run, whatever ends the connections and whenever the
warnings come, the packets carry these durations and neither counter has lost or invented an
anomaly.
-/

set_option autoImplicit false

namespace PipeWorks.NvidiaPipe.Receive

open StepSystem PipeWorks.Python

/-! ## The property -/

/-- `receive`, with the connections that have ended, the one an uncaught exception has ended
    included. -/
structure Recorded where
  receive : State
  /-- history -/
  past : List Connection
  deriving DecidableEq, Repr

def Phase.connection? : Phase → Option Connection
  | .demuxing c => some c
  | _ => none

/-- A connection that is not continued has ended. -/
def ended (before after : Phase) : List Connection :=
  if after.connection?.isSome then [] else before.connection?.toList

def recordedStep (bufferSize : Nat) (r : Recorded) (e : Event) : Option Recorded :=
  (step bufferSize r.receive e).map fun t => ⟨t, r.past ++ ended r.receive.phase t.phase⟩

/-- The generator starts with a counter that other runs may have left at `count`. -/
def Recorded.init (now : Int) (count : Nat) : Recorded :=
  ⟨{ State.init now with outOfOrderFrameCount := count }, []⟩

def Recorded.connections (r : Recorded) : List Connection :=
  r.past ++ r.receive.phase.connection?.toList

/-- `rs` are the packets made from the accepted packets `ps`, one for each. -/
structure AnnotatedAs (ps : List StampedPacket) (rs : List ReceivedPacket) : Prop where
  length : rs.length = ps.length
  content : ∀ (k : Nat) p r, ps[k]? = some p → rs[k]? = some r →
    r.packetData.pts = p.pts ∧ r.packetData.dts = p.dts ∧ r.packetData.key = p.isKeyframe ∧
      r.bitstreamBuffer = p.data ++ [0]
  /-- the first packet keeps its duration -/
  first : ∀ p r, ps[0]? = some p → rs[0]? = some r → r.packetData.duration = p.duration
  /-- every other one lasts since its predecessor -/
  next : ∀ (k : Nat) q p r, ps[k]? = some q → ps[k + 1]? = some p → rs[k + 1]? = some r →
    r.packetData.duration = some (max 0 (p.pts - q.pts))

/-- How many packets do not come after their predecessor. -/
def anomalies (ps : List StampedPacket) : Nat :=
  (ps.zip ps.tail).countP fun pair => decide (pair.2.pts ≤ pair.1.pts)

/-- Durations and counters, seen in one state of a run that began at `count`. -/
structure Annotates (count : Nat) (r : Recorded) : Prop where
  /-- what a connection has handed on or still holds are its accepted packets, annotated -/
  durations : ∀ c ∈ r.connections, ∃ rs, AnnotatedAs (accepted c.arrived) rs ∧
    (c.yielded ++ c.held).Perm rs
  counted : r.receive.outOfOrderFrameCount =
    count + (r.connections.map fun c => anomalies (accepted c.arrived)).sum
  /-- reported or still pending -/
  reported : count = 0 → r.receive.outOfOrderFrameCount =
    r.receive.anomalyReports.sum + r.receive.timestampAnomalyCount

/-! ## Durations -/

theorem lastPts_take (k : Nat) (q : StampedPacket) :
    ∀ (previousPts : Option Int) (ps : List StampedPacket), ps[k]? = some q →
      lastPts previousPts (ps.take (k + 1)) = some q.pts := by
  intro previousPts ps hq
  rw [List.take_add_one, hq, Option.toList_some, lastPts_snoc]

/-- The packet made from the `k`-th accepted one. -/
theorem annotated_getElem? (v : VideoStream) (codec : CudaVideoCodec) (p : StampedPacket) :
    ∀ (previousPts : Option Int) (ps : List StampedPacket) (k : Nat), ps[k]? = some p →
      (annotated v codec previousPts ps)[k]? =
        some (receivedPacket v codec (lastPts previousPts (ps.take k)) p)
  | _, [], k, h => by cases h
  | _, q :: ps, 0, h => by
    cases h
    rfl
  | _, q :: ps, k + 1, h => annotated_getElem? v codec p (some q.pts) ps k h

theorem annotated_annotatedAs (v : VideoStream) (codec : CudaVideoCodec)
    (ps : List StampedPacket) : AnnotatedAs ps (annotated v codec none ps) where
  length := annotated_length v codec none ps
  content := fun k p r hp hr => by
    rw [annotated_getElem? v codec p none ps k hp] at hr
    cases hr
    exact ⟨rfl, rfl, rfl, rfl⟩
  first := fun p r hp hr => by
    rw [annotated_getElem? v codec p none ps 0 hp] at hr
    cases hr
    rfl
  next := fun k q p r hq hp hr => by
    rw [annotated_getElem? v codec p none ps (k + 1) hp, lastPts_take k q none ps hq] at hr
    cases hr
    rfl

/-! ## Anomalies -/

/-- **What the loop asks of a packet** is whether it adds an anomaly. -/
theorem anomalies_snoc (q : StampedPacket) :
    ∀ ps : List StampedPacket,
      anomalies (ps ++ [q]) = anomalies ps + (isAnomaly (lastPts none ps) q).toNat
  | [] => rfl
  | [p] => by
    have hiff : q.pts - p.pts ≤ 0 ↔ q.pts ≤ p.pts := by omega
    by_cases h : q.pts ≤ p.pts <;> simp [anomalies, isAnomaly, lastPts, hiff, h]
  | p :: p' :: ps => by
    have ih := anomalies_snoc q (p' :: ps)
    have hlast : lastPts none (p :: p' :: ps) = lastPts none (p' :: ps) := rfl
    have hcons : ∀ rest : List StampedPacket, anomalies (p :: p' :: rest) =
        anomalies (p' :: rest) + if p'.pts ≤ p.pts then 1 else 0 := fun rest => by
      simp [anomalies, List.countP_cons]
    rw [hlast, List.cons_append, List.cons_append, hcons, hcons]
    rw [List.cons_append] at ih
    omega

/-- A demuxed packet adds the anomaly the loop counts for it. -/
theorem anomalies_onPacket {n : Nat} {c : Connection} (h : c.Inv n) (p : DemuxPacket) :
    anomalies (accepted (c.onPacket n p).arrived) = anomalies (accepted c.arrived) +
      match p.stamped? with
      | none => 0
      | some q => (isAnomaly c.previousPts q).toNat := by
  rw [(onPacket_frame n c p).2.2, h.previousPts]
  cases hp : p.stamped? with
  | none => simp [accepted, hp]
  | some q =>
    have harr : accepted (c.arrived ++ [p]) = accepted c.arrived ++ [q] := by simp [accepted, hp]
    rw [harr, anomalies_snoc]

/-! ## Counters -/

/-- The anomalies that have been reported or are pending. -/
def State.noticed (s : State) : Nat := s.anomalyReports.sum + s.timestampAnomalyCount

/-- The two counts of anomalies. -/
def State.counts (s : State) : Nat × Nat := (s.outOfOrderFrameCount, s.noticed)

@[simp] theorem leave_counts (s : State) (e : PyError) : (s.leave e).counts = s.counts := by
  unfold State.leave
  split <;> rfl

@[simp] theorem finish_counts (s : State) (c : Connection) : (s.finish c).counts = s.counts := by
  unfold State.finish
  split <;> rfl

@[simp] theorem inspect_counts (s : State) (video : List VideoStream) :
    (inspect s video).counts = s.counts := by
  unfold inspect
  split
  · exact leave_counts s _
  · split
    · exact leave_counts s _
    · rfl

/-- A warning moves the pending anomalies over to the reported ones. -/
@[simp] theorem reportAnomalies_counts (s : State) (now : Int) :
    (s.reportAnomalies now).counts = s.counts := by
  unfold State.reportAnomalies
  split
  · simp only
    split
    · rfl
    · simp [State.counts, State.noticed]
  · rfl

theorem countAnomaly_counts (s : State) (b : Bool) :
    (s.countAnomaly b).counts = (s.counts.1 + b.toNat, s.counts.2 + b.toNat) := by
  cases b
  · rfl
  · simp [State.countAnomaly, State.counts, State.noticed, Nat.add_assoc]

theorem state_onPacket_counts (s : State) (previousPts : Option Int) (now : Int)
    (p : DemuxPacket) :
    (s.onPacket previousPts now p).counts =
      (s.counts.1 + (match p.stamped? with
        | none => 0
        | some q => (isAnomaly previousPts q).toNat),
      s.counts.2 + (match p.stamped? with
        | none => 0
        | some q => (isAnomaly previousPts q).toNat)) := by
  unfold State.onPacket
  cases p.stamped? with
  | none => rfl
  | some q => rw [reportAnomalies_counts, countAnomaly_counts]

/-! ## Steps -/

theorem leave_connection? (s : State) (e : PyError) : (s.leave e).phase.connection? = none := by
  unfold State.leave
  split <;> rfl

/-- Where no connection is current after a step, its connections were there before. -/
theorem connections_of_none {s t : State} {past : List Connection}
    (h : t.phase.connection? = none) :
    Recorded.connections ⟨t, past ++ ended s.phase t.phase⟩ = Recorded.connections ⟨s, past⟩ := by
  simp only [Recorded.connections, ended, h]
  simp

/-- Where a connection is current after a step, none has ended. -/
theorem connections_of_some {s t : State} {past : List Connection} {c : Connection}
    (h : t.phase.connection? = some c) :
    Recorded.connections ⟨t, past ++ ended s.phase t.phase⟩ = past ++ [c] := by
  simp only [Recorded.connections, ended, h]
  simp

/-- **A step, for the counters**: it handles a packet, or counts nothing and at most begins a
    connection. -/
theorem recordedStep_cases {n : Nat} {r r' : Recorded} {e : Event}
    (h : recordedStep n r e = some r') :
    (r'.receive.counts = r.receive.counts ∧ (r'.connections = r.connections ∨
      ∃ v codec, r'.connections = r.connections ++ [Connection.start v codec])) ∨
    ∃ c p now, r.connections = r.past ++ [c] ∧
      r'.connections = r.past ++ [c.onPacket n p] ∧
      r'.receive.counts = (r.receive.onPacket c.previousPts now p).counts := by
  obtain ⟨t, ht, rfl⟩ := Option.map_eq_some_iff.mp h
  obtain ⟨s, past⟩ := r
  simp only at ht
  unfold step at ht
  split at ht <;> cases ht
  · exact Or.inl ⟨leave_counts s _, Or.inl (connections_of_none (leave_connection? s _))⟩
  · exact Or.inl ⟨rfl, Or.inl (connections_of_none rfl)⟩
  · rename_i video hphase
    refine Or.inl ⟨inspect_counts s video, ?_⟩
    have hbefore : Recorded.connections ⟨s, past⟩ = past := by
      simp [Recorded.connections, hphase, Phase.connection?]
    unfold inspect
    split
    · exact Or.inl (connections_of_none (leave_connection? s _))
    split
    · exact Or.inl (connections_of_none (leave_connection? s _))
    · exact Or.inr ⟨_, _, by rw [connections_of_some rfl, hbefore]⟩
  · rename_i c p now hphase
    have hcurrent : s.phase.connection? = some c := by rw [hphase]; rfl
    have hbefore : Recorded.connections ⟨s, past⟩ = past ++ [c] := by
      simp [Recorded.connections, hcurrent]
    cases p with
    | none => exact Or.inl ⟨rfl, Or.inl ((connections_of_some hcurrent).trans hbefore.symm)⟩
    | some p => exact Or.inr ⟨c, p, now, hbefore, connections_of_some rfl, rfl⟩
  · exact Or.inl ⟨finish_counts _ _, Or.inl (connections_of_none (by rw [finish_phase]; rfl))⟩
  · rename_i c x hphase
    have hnone : ((s.leave x).finish c).phase.connection? = none := by
      rw [finish_phase, leave_connection?]
    exact Or.inl ⟨by simp only [finish_counts, leave_counts], Or.inl (connections_of_none hnone)⟩
  · exact Or.inl ⟨rfl, Or.inl (connections_of_none rfl)⟩

/-- What the anomalies of the connections amount to. -/
def Recorded.anomalies (r : Recorded) : Nat :=
  (r.connections.map fun c => Receive.anomalies (accepted c.arrived)).sum

structure Counts (n count : Nat) (r : Recorded) : Prop where
  connections : ∀ c ∈ r.connections, c.Inv n
  counts : r.receive.counts = (count + r.anomalies, r.anomalies)

theorem init_counts (n count : Nat) (now : Int) : Counts n count (Recorded.init now count) :=
  ⟨fun _ hc => (by cases hc), rfl⟩

theorem step_counts {n count : Nat} {r r' : Recorded} {e : Event} (h : Counts n count r)
    (hst : recordedStep n r e = some r') : Counts n count r' := by
  rcases recordedStep_cases hst with ⟨hcounts, hconn | ⟨v, codec, hconn⟩⟩ |
    ⟨c, p, now, hbefore, hafter, hcounts⟩
  · refine ⟨fun c hc => h.connections c (hconn ▸ hc), ?_⟩
    rw [hcounts, h.counts, Recorded.anomalies, Recorded.anomalies, hconn]
  · refine ⟨fun c hc => ?_, ?_⟩
    · rw [hconn] at hc
      rcases List.mem_append.mp hc with hc | hc
      · exact h.connections c hc
      · rw [List.mem_singleton.mp hc]
        exact start_inv n v codec
    · -- a new connection has no anomaly yet
      have hstart : anomalies (accepted (Connection.start v codec).arrived) = 0 := rfl
      rw [hcounts, h.counts, Recorded.anomalies, Recorded.anomalies, hconn]
      simp [hstart]
  · have hc : c.Inv n := h.connections c (by simp [hbefore])
    refine ⟨fun c' hc' => ?_, ?_⟩
    · rw [hafter] at hc'
      rcases List.mem_append.mp hc' with hc' | hc'
      · exact h.connections c' (by rw [hbefore]; exact List.mem_append_left _ hc')
      · rw [List.mem_singleton.mp hc']
        exact onPacket_inv p hc
    · have hsum : r'.anomalies = r.anomalies + (match p.stamped? with
          | none => 0
          | some q => (isAnomaly c.previousPts q).toNat) := by
        simp only [Recorded.anomalies, hbefore, hafter, List.map_append, List.map_cons,
          List.map_nil, List.sum_append, List.sum_singleton]
        rw [anomalies_onPacket hc p, Nat.add_assoc]
      rw [hcounts, state_onPacket_counts, h.counts, hsum, Nat.add_assoc]

/-! ## Whole runs -/

theorem Counts.annotates {n count : Nat} {r : Recorded} (h : Counts n count r) :
    Annotates count r where
  durations := fun c hc =>
    ⟨c.expected, annotated_annotatedAs c.inputStream c.codec _, (h.connections c hc).content⟩
  counted := congrArg Prod.fst h.counts
  reported := fun hzero => by
    have hcount : r.receive.outOfOrderFrameCount = count + r.anomalies :=
      congrArg Prod.fst h.counts
    have hnoticed : r.receive.noticed = r.anomalies := congrArg Prod.snd h.counts
    rw [State.noticed] at hnoticed
    omega

/-- **Durations and anomaly counts are right** in every state of every run, for every buffer size,
    whatever the connections deliver, whatever ends them and whenever the clock makes a warning
    due. -/
theorem always_annotates (bufferSize count : Nat) (now : Int) (script : List Event) :
    Always (recordedStep bufferSize) (Annotates count) (Recorded.init now count) script :=
  always_of_invariant (fun _ h => h.annotates) (fun _ _ _ h hst => step_counts h hst)
    (init_counts bufferSize count now)

end PipeWorks.NvidiaPipe.Receive
