import Mathlib.Data.Prod.Lex
import PipeWorks.Lib.Heapq
import PipeWorks.Lib.Reorder
import PipeWorks.NvidiaPipe.JitterBuffer

/-!
# The order in which the jitter buffer hands packets on

A heap entry is compared by its timestamp, then by its sequence number.  What a connection yields
and holds is what `Reorder.release` does with the entries of its packets (`Connection.Buffered`),
so packets that are displaced by at most the size of the buffer leave in order.

`deliverHeapq` is the same loop over the operations of `heapq`, with a comparison that fails when it
gets to the received packets.  `heapqRun_release`: it never does, and the heap holds what the
connection holds.
-/

set_option autoImplicit false

namespace PipeWorks.NvidiaPipe.Receive

open StepSystem PopMin Reorder Heapq

/-! ## Entries -/

/-- What two entries are compared by. -/
def JitterEntry.key (e : JitterEntry) : Int ×ₗ Nat := toLex (e.1, e.2.1)

/-- The entries pushed for these packets. -/
def entries (rs : List ReceivedPacket) : List JitterEntry :=
  rs.zipIdx.map fun r => (r.1.packetData.pts, r.2, r.1)

theorem key_lt_iff {a b : JitterEntry} :
    JitterEntry.key a < JitterEntry.key b ↔ a.1 < b.1 ∨ a.1 = b.1 ∧ a.2.1 < b.2.1 :=
  Prod.Lex.toLex_lt_toLex

theorem jitterEntry_lt :
    JitterEntry.lt = fun a b => decide (JitterEntry.key a < JitterEntry.key b) := by
  funext a b
  simp [JitterEntry.lt, key_lt_iff, Bool.beq_eq_decide_eq]

theorem entries_append (rs : List ReceivedPacket) (r : ReceivedPacket) :
    entries (rs ++ [r]) = entries rs ++ [(r.packetData.pts, rs.length, r)] := by
  simp [entries, List.zipIdx_append]

theorem entries_pts (rs : List ReceivedPacket) :
    (entries rs).map (·.1) = rs.map (·.packetData.pts) := by
  have hfst := congrArg (List.map fun r : ReceivedPacket => r.packetData.pts)
    (List.zipIdx_map_fst 0 rs)
  rw [List.map_map] at hfst
  rw [entries, List.map_map]
  exact hfst

/-- Sequence numbers increase. -/
theorem entries_sequence (rs : List ReceivedPacket) :
    (entries rs).Pairwise fun a b => a.2.1 < b.2.1 := by
  have hsnd := List.zipIdx_map_snd 0 rs
  have hrange : (rs.zipIdx.map Prod.snd).Pairwise (· < ·) := by
    rw [hsnd]
    exact List.pairwise_lt_range'
  rw [entries, List.pairwise_map]
  exact List.pairwise_map.1 hrange

theorem entries_nodup (rs : List ReceivedPacket) : ((entries rs).map JitterEntry.key).Nodup := by
  rw [List.Nodup, List.pairwise_map]
  refine (entries_sequence rs).imp fun {a b} hlt heq => ?_
  have hsequence : a.2.1 = b.2.1 := congrArg (fun k : Int ×ₗ Nat => (ofLex k).2) heq
  omega

theorem mem_entries {rs : List ReceivedPacket} {e : JitterEntry} (h : e ∈ entries rs) :
    (e.2.2, e.2.1) ∈ rs.zipIdx ∧ e.1 = e.2.2.packetData.pts := by
  obtain ⟨r, hr, rfl⟩ := List.mem_map.1 h
  exact ⟨hr, rfl⟩

/-- Among the entries before one, those with a larger key are those with a larger timestamp. -/
theorem displaced_entries {n : ℕ} {rs : List ReceivedPacket} {ps : List StampedPacket}
    (hpts : rs.map (·.packetData.pts) = ps.map (·.pts))
    (h : Displaced StampedPacket.pts n ps) : Displaced JitterEntry.key n (entries rs) := by
  intro pre e post hsplit
  have hmap : ps.map (·.pts) = pre.map (·.1) ++ e.1 :: post.map (·.1) := by
    rw [← hpts, ← entries_pts, hsplit, List.map_append, List.map_cons]
  obtain ⟨pre', rest, rfl, hpre, hrest⟩ := List.map_eq_append_iff.1 hmap
  obtain ⟨p, post', rfl, hp, -⟩ := List.map_eq_cons_iff.1 hrest
  have hearlier : ∀ y ∈ pre, y.2.1 < e.2.1 := by
    have hsequence := entries_sequence rs
    rw [hsplit] at hsequence
    exact fun y hy => (List.pairwise_append.1 hsequence).2.2 y hy e (List.mem_cons_self ..)
  calc pre.countP (fun y => decide (JitterEntry.key e < JitterEntry.key y))
      = pre.countP (fun y => decide (e.1 < y.1)) := by
        refine List.countP_congr fun y hy => ?_
        have := hearlier y hy
        simp only [decide_eq_true_iff, key_lt_iff]
        omega
    _ = (pre.map (·.1)).countP (fun t => decide (e.1 < t)) := by
        rw [List.countP_map]
        rfl
    _ = pre'.countP (fun y => decide (p.pts < y.pts)) := by
        rw [← hpre, List.countP_map, hp]
        rfl
    _ ≤ n := h pre' p post' rfl

/-! ## A connection -/

variable {n : ℕ}

/-- What a connection yields and holds is what leaves and stays in the buffer. -/
structure Connection.Buffered (n : ℕ) (c : Connection) : Prop where
  sequence : c.jitterSequence = c.expected.length
  yielded : c.yielded = (release JitterEntry.key n (entries c.expected)).released.map (·.2.2)
  held : c.jitterPackets = (release JitterEntry.key n (entries c.expected)).held

/-- One delivery is one arrival. -/
theorem deliver_push (hn : 0 < n) {c : Connection} {b : Buffer JitterEntry} (r : ReceivedPacket)
    (hyielded : c.yielded = b.released.map (·.2.2)) (hheld : c.jitterPackets = b.held) :
    (c.deliver n r).jitterSequence = c.jitterSequence + 1 ∧
      (c.deliver n r).yielded =
        (push JitterEntry.key n b (r.packetData.pts, c.jitterSequence, r)).released.map (·.2.2) ∧
      (c.deliver n r).jitterPackets =
        (push JitterEntry.key n b (r.packetData.pts, c.jitterSequence, r)).held := by
  unfold Connection.deliver push
  rw [if_neg (Nat.ne_of_gt hn), hheld, jitterEntry_lt]
  simp only
  split
  · split
    · rename_i m rest hpop
      rw [hpop]
      simp [hyielded]
    · rename_i hnone
      rw [hnone]
      exact ⟨rfl, hyielded, rfl⟩
  · exact ⟨rfl, hyielded, rfl⟩

theorem start_buffered (v : VideoStream) (codec : CudaVideoCodec) :
    (Connection.start v codec).Buffered n :=
  ⟨rfl, rfl, rfl⟩

theorem onPacket_buffered (hn : 0 < n) {c : Connection} (p : DemuxPacket) (hinv : c.Inv n)
    (h : c.Buffered n) : (c.onPacket n p).Buffered n := by
  unfold Connection.onPacket
  split
  · rename_i hp
    have hexpected : Connection.expected { c with arrived := c.arrived ++ [p] } = c.expected := by
      simp [Connection.expected, accepted, hp]
    exact ⟨by rw [hexpected]; exact h.sequence, by rw [hexpected]; exact h.yielded,
      by rw [hexpected]; exact h.held⟩
  · rename_i q hp
    simp only [Connection.accept]
    generalize hr : receivedPacket c.inputStream c.codec c.previousPts q = r
    obtain ⟨hv, hcodec, -, harrived⟩ := deliver_frame n
      { c with arrived := c.arrived ++ [p], previousPts := some q.pts } r
    obtain ⟨hsequence, hyielded, hheld⟩ := deliver_push hn
      (c := { c with arrived := c.arrived ++ [p], previousPts := some q.pts })
      (b := release JitterEntry.key n (entries c.expected)) r h.yielded h.held
    have hexpected : Connection.expected (Connection.deliver n
        { c with arrived := c.arrived ++ [p], previousPts := some q.pts } r) =
          c.expected ++ [r] := by
      have haccepted : accepted (c.arrived ++ [p]) = accepted c.arrived ++ [q] := by
        simp [accepted, hp]
      rw [Connection.expected, hv, hcodec, harrived, haccepted, annotated_snoc,
        ← hinv.previousPts, hr, Connection.expected]
    have hentry : (r.packetData.pts, c.jitterSequence, r) =
        (r.packetData.pts, c.expected.length, r) := by rw [h.sequence]
    refine ⟨?_, ?_, ?_⟩
    · rw [hsequence, hexpected, List.length_append, h.sequence, List.length_singleton]
    · rw [hyielded, hexpected, entries_append, release_append, ← hentry]
    · rw [hheld, hexpected, entries_append, release_append, ← hentry]

/-- Every connection of every run satisfies both invariants. -/
theorem run_connections_buffered (hn : 0 < n) {now : Int} {script : List Event} {s : State}
    (h : run (step n) (State.init now) script = some s) :
    ∀ c ∈ s.connections, c.Inv n ∧ c.Buffered n := by
  refine run_invariant (I := fun s => ∀ c ∈ s.connections, c.Inv n ∧ c.Buffered n) ?_
    (fun c hc => by simp [init_connections] at hc) h
  intro s e t hs ht c' hc'
  rcases step_connections ht c' hc' with hc' | ⟨v, codec, -, rfl⟩ | ⟨c, hc, p, rfl⟩
  · exact hs c' hc'
  · exact ⟨start_inv n v codec, start_buffered v codec⟩
  · exact ⟨onPacket_inv p (hs c hc).1, onPacket_buffered hn p (hs c hc).1 (hs c hc).2⟩

theorem expected_pts (c : Connection) :
    c.expected.map (·.packetData.pts) = (accepted c.arrived).map (·.pts) := by
  have hall : ∀ (previousPts : Option Int) (ps : List StampedPacket),
      (annotated c.inputStream c.codec previousPts ps).map (·.packetData.pts) =
        ps.map (·.pts) := by
    intro previousPts ps
    induction ps generalizing previousPts with
    | nil => rfl
    | cons p ps ih =>
      rw [annotated, List.map_cons, List.map_cons, ih]
      rfl
  exact hall none (accepted c.arrived)

/-! ## The operations of `heapq` -/

/-- Tuple comparison of two entries; `none` if it gets to the received packets. -/
def JitterEntry.compare (a b : JitterEntry) : Option Bool :=
  if a.1 ≠ b.1 then some (decide (a.1 < b.1))
  else if a.2.1 ≠ b.2.1 then some (decide (a.2.1 < b.2.1))
  else none

/-- The heap, the next sequence number and what has been yielded. -/
structure HeapqBuffer where
  jitterPackets : List JitterEntry
  jitterSequence : Nat
  yielded : List ReceivedPacket

/-- A received packet goes through the heap. -/
def deliverHeapq (bufferSize : Nat) (b : HeapqBuffer) (r : ReceivedPacket) : Option HeapqBuffer :=
  (heappush JitterEntry.compare b.jitterPackets (r.packetData.pts, b.jitterSequence, r)).bind
    fun heap =>
      if heap.length > bufferSize then
        (heappop JitterEntry.compare heap).map fun popped =>
          ⟨popped.2, b.jitterSequence + 1, b.yielded ++ [popped.1.2.2]⟩
      else some ⟨heap, b.jitterSequence + 1, b.yielded⟩

def heapqRun (bufferSize : Nat) (rs : List ReceivedPacket) : Option HeapqBuffer :=
  rs.foldlM (deliverHeapq bufferSize) ⟨[], 0, []⟩

/-- The order of the keys. -/
def JitterEntry.le (a b : JitterEntry) : Prop := JitterEntry.key a ≤ JitterEntry.key b

theorem compare_decided {a b : JitterEntry} (hne : JitterEntry.key a ≠ JitterEntry.key b) :
    Decided JitterEntry.compare JitterEntry.le a b := by
  have hcompare :
      JitterEntry.compare a b = some (decide (JitterEntry.key a < JitterEntry.key b)) := by
    have hne' : ¬ (a.1 = b.1 ∧ a.2.1 = b.2.1) := by
      rintro ⟨hpts, hsequence⟩
      exact hne (by rw [JitterEntry.key, JitterEntry.key, hpts, hsequence])
    unfold JitterEntry.compare
    simp only [key_lt_iff]
    split
    · simp_all
    · split
      · simp_all
      · simp_all
  refine ⟨_, hcompare, ?_⟩
  by_cases hlt : JitterEntry.key a < JitterEntry.key b
  · rw [decide_eq_true hlt, if_pos rfl]
    exact le_of_lt hlt
  · rw [decide_eq_false hlt, if_neg Bool.false_ne_true]
    exact not_lt.1 hlt

/-- Entries with different keys can be compared. -/
theorem comparable_of_nodup {es : List JitterEntry} (h : (es.map JitterEntry.key).Nodup) :
    Comparable JitterEntry.compare JitterEntry.le es := by
  rw [List.Nodup, List.pairwise_map] at h
  exact h.imp fun hne => ⟨compare_decided hne, compare_decided (Ne.symm hne)⟩

/-- The heap holds the entries that the buffer holds. -/
structure Holds (b : HeapqBuffer) (rs : List ReceivedPacket) (buffer : Buffer JitterEntry) :
    Prop where
  sequence : b.jitterSequence = rs.length
  yielded : b.yielded = buffer.released.map (·.2.2)
  held : b.jitterPackets.Perm buffer.held
  heap : IsHeap JitterEntry.le b.jitterPackets

theorem entryLe_refl (a : JitterEntry) : JitterEntry.le a a := le_refl (JitterEntry.key a)

theorem entryLe_trans (a b c : JitterEntry) (hab : JitterEntry.le a b) (hbc : JitterEntry.le b c) :
    JitterEntry.le a c :=
  le_trans (a := JitterEntry.key a) hab hbc

/-- The entries held, with the one that arrives, have different keys. -/
theorem held_comparable (rs : List ReceivedPacket) (r : ReceivedPacket) :
    (((release JitterEntry.key n (entries rs)).held ++ [(r.packetData.pts, rs.length, r)]).map
      JitterEntry.key).Nodup := by
  have hall : ((release JitterEntry.key n (entries rs)).released ++
      ((release JitterEntry.key n (entries rs)).held ++ [(r.packetData.pts, rs.length, r)])).Perm
        (entries (rs ++ [r])) := by
    rw [entries_append, ← List.append_assoc]
    exact (release_perm JitterEntry.key n (entries rs)).append_right _
  have hnodup := (hall.map JitterEntry.key).nodup_iff.2 (entries_nodup (rs ++ [r]))
  rw [List.map_append] at hnodup
  exact List.Nodup.of_append_right hnodup

/-- The least of entries with different keys is the same one, however it is found. -/
theorem least_unique {es rest rest' : List JitterEntry} {m m' : JitterEntry}
    (hnodup : (es.map JitterEntry.key).Nodup) (hperm : es.Perm (m :: rest))
    (hmin : ∀ y ∈ es, JitterEntry.key m ≤ JitterEntry.key y) (hperm' : es.Perm (m' :: rest'))
    (hmin' : ∀ y ∈ es, JitterEntry.key m' ≤ JitterEntry.key y) : m = m' ∧ rest.Perm rest' := by
  have hm : m ∈ es := hperm.symm.subset (List.mem_cons_self ..)
  have hm' : m' ∈ es := hperm'.symm.subset (List.mem_cons_self ..)
  have heq : m = m' :=
    List.inj_on_of_nodup_map hnodup hm hm' (le_antisymm (hmin m' hm') (hmin' m hm))
  subst heq
  exact ⟨rfl, List.Perm.cons_inv (hperm.symm.trans hperm')⟩

/-- A packet goes through the heap as it does through the buffer, and no comparison fails. -/
theorem deliverHeapq_holds {b : HeapqBuffer} {rs : List ReceivedPacket} (r : ReceivedPacket)
    (h : Holds b rs (release JitterEntry.key n (entries rs))) :
    ∃ b', deliverHeapq n b r = some b' ∧
      Holds b' (rs ++ [r]) (release JitterEntry.key n (entries (rs ++ [r]))) := by
  have hnodup := held_comparable (n := n) rs r
  have hpushed : (b.jitterPackets ++ [(r.packetData.pts, b.jitterSequence, r)]).Perm
      ((release JitterEntry.key n (entries rs)).held ++ [(r.packetData.pts, rs.length, r)]) := by
    rw [h.sequence]
    exact h.held.append_right _
  obtain ⟨heap, hpush, hperm, hheap⟩ := heappush_spec entryLe_trans
    (comparable_of_nodup ((hpushed.map JitterEntry.key).nodup_iff.2 hnodup)) h.heap
  have hsame := hperm.trans hpushed
  have hlength := hsame.length_eq
  rw [List.length_append, List.length_singleton] at hlength
  have hsequence : b.jitterSequence + 1 = (rs ++ [r]).length := by
    rw [List.length_append, List.length_singleton, h.sequence]
  rw [entries_append, release_append]
  rcases push_cases JitterEntry.key n (release JitterEntry.key n (entries rs))
    (r.packetData.pts, rs.length, r) with ⟨hroom, heq⟩ | ⟨m, rest, hfull, heq, hperm', hmin⟩
  · refine ⟨⟨heap, b.jitterSequence + 1, b.yielded⟩, ?_, ?_⟩
    · rw [deliverHeapq, hpush, Option.bind_some, if_neg (by omega)]
    · rw [heq]
      exact ⟨hsequence, h.yielded, hsame, hheap⟩
  · have hne : heap ≠ [] := by
      rintro rfl
      simp at hlength
    obtain ⟨m', rest', hpop, hperm'', hheap', hmin'⟩ := heappop_spec entryLe_refl entryLe_trans hne
      (comparable_of_nodup ((hsame.map JitterEntry.key).nodup_iff.2 hnodup)) hheap
    obtain ⟨rfl, hrest⟩ := least_unique hnodup hperm' hmin (hsame.symm.trans hperm'')
      fun y hy => hmin' y (hsame.symm.subset hy)
    refine ⟨⟨rest', b.jitterSequence + 1, b.yielded ++ [m.2.2]⟩, ?_, ?_⟩
    · rw [deliverHeapq, hpush, Option.bind_some, if_pos (by omega), hpop]
      rfl
    · rw [heq]
      refine ⟨hsequence, ?_, hrest.symm, hheap'⟩
      rw [h.yielded, List.map_append, List.map_singleton]

/-- **No comparison gets to the received packets**, and the heap does what the buffer does. -/
theorem heapqRun_release (rs : List ReceivedPacket) :
    ∃ b, heapqRun n rs = some b ∧ Holds b rs (release JitterEntry.key n (entries rs)) := by
  induction rs using List.reverseRecOn with
  | nil => exact ⟨_, rfl, rfl, rfl, List.Perm.refl _, fun j hj a b ha => by cases ha⟩
  | append_singleton rs r ih =>
    obtain ⟨b, hb, hholds⟩ := ih
    obtain ⟨b', hb', hholds'⟩ := deliverHeapq_holds r hholds
    refine ⟨b', ?_, hholds'⟩
    have hrun : rs.foldlM (deliverHeapq n) ⟨[], 0, []⟩ = some b := hb
    rw [heapqRun, List.foldlM_append, hrun]
    simp [hb']

/-! ## The order -/

/-- The packets are in the order of their timestamps, those with the same one as they arrived. -/
def InOrder (c : Connection) : Prop :=
  ∃ order : List (ReceivedPacket × ℕ), order.map Prod.fst = c.yielded ∧
    (∀ r ∈ order, r ∈ c.expected.zipIdx) ∧
    order.Pairwise fun r q => r.1.packetData.pts < q.1.packetData.pts ∨
      r.1.packetData.pts = q.1.packetData.pts ∧ r.2 < q.2

theorem inOrder_of_displaced {c : Connection} (h : c.Buffered n)
    (hdisplaced : Displaced StampedPacket.pts n (accepted c.arrived)) : InOrder c := by
  have hsorted := release_sorted (entries_nodup c.expected)
    (displaced_entries (expected_pts c) hdisplaced)
  have hmem : ∀ e ∈ (release JitterEntry.key n (entries c.expected)).released,
      e ∈ entries c.expected :=
    fun e he =>
      (release_perm JitterEntry.key n (entries c.expected)).subset (List.mem_append_left _ he)
  refine ⟨(release JitterEntry.key n (entries c.expected)).released.map fun e => (e.2.2, e.2.1),
    ?_, ?_, ?_⟩
  · rw [h.yielded, List.map_map]
    rfl
  · intro r hr
    obtain ⟨e, he, rfl⟩ := List.mem_map.1 hr
    exact (mem_entries (hmem e he)).1
  · rw [List.pairwise_map]
    refine hsorted.imp_of_mem fun {a b} ha hb hlt => ?_
    rw [← (mem_entries (hmem a ha)).2, ← (mem_entries (hmem b hb)).2]
    exact key_lt_iff.1 hlt

/-- **The jitter buffer**: of `k` accepted packets `k - n` have been yielded and the others are
held, the operations of `heapq` succeed and do the same, and packets displaced by at most `n` are
yielded in order. -/
theorem jitter_buffer_orders (hn : 0 < n) {now : Int} {script : List Event} {s : State}
    (h : run (step n) (State.init now) script = some s) :
    ∀ c ∈ s.connections,
      c.yielded.length = (accepted c.arrived).length - n ∧
      (c.yielded ++ c.held).Perm c.expected ∧
      (∃ b, heapqRun n c.expected = some b ∧ b.yielded = c.yielded ∧
        b.jitterPackets.Perm c.jitterPackets) ∧
      (Displaced StampedPacket.pts n (accepted c.arrived) → InOrder c) := by
  intro c hc
  obtain ⟨hinv, hbuffered⟩ := run_connections_buffered hn h c hc
  obtain ⟨b, hrun, hholds⟩ := heapqRun_release (n := n) c.expected
  refine ⟨?_, hinv.content, ⟨b, hrun, ?_, ?_⟩, inOrder_of_displaced hbuffered⟩
  · have hlength := hinv.content.length_eq
    have hheld := hinv.held_length
    rw [List.length_append, Connection.held, List.length_map, Connection.expected,
      annotated_length] at hlength
    omega
  · rw [hholds.yielded, hbuffered.yielded]
  · rw [hbuffered.held]
    exact hholds.held

/-- Three packets of which the last two have changed places. -/
def swappedScript : List Event :=
  [.opens [⟨"h264", 640, 360, some 30, 1⟩], .inspect,
    .packet (some ⟨[1], some 0, some 0, some 1, true⟩) 0,
    .packet (some ⟨[3], some 2, some 1, some 1, false⟩) 0,
    .packet (some ⟨[2], some 1, some 2, some 1, false⟩) 0]

/-- A buffer of one packet puts them in order. -/
theorem swapped_inOrder :
    ∃ s, run (step 1) (State.init 0) swappedScript = some s ∧
      ∃ c ∈ s.connections, c.yielded.length = 2 ∧ InOrder c := by
  refine ⟨_, rfl, _, List.mem_singleton_self _, ?_⟩
  have hrun : run (step 1) (State.init 0) swappedScript = some _ := rfl
  obtain ⟨hlength, -, -, horder⟩ :=
    jitter_buffer_orders Nat.one_pos hrun _ (List.mem_singleton_self _)
  refine ⟨hlength, horder ?_⟩
  rintro (_ | ⟨a, _ | ⟨b, _ | ⟨d, pre⟩⟩⟩) p post hsplit
  · exact Nat.zero_le _
  · exact List.countP_le_length
  · cases hsplit
    decide
  · have hthree := congrArg List.length hsplit
    simp only [List.length_append, List.length_cons] at hthree
    have : 3 = _ := hthree
    omega

end PipeWorks.NvidiaPipe.Receive
