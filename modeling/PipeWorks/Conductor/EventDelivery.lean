import PipeWorks.Conductor.EventBroker

/-!
# What a subscriber observes

`Served` ties the queue of a subscriber to the history of its process: what was put into the
queue, followed by what is still on its way (the rest of the replay, the callbacks of the loop,
the event that `publish` is scheduling), is what the subscriber is owed, each event once.

`event_delivery`: in every reachable state of the broker a subscriber has read a subsequence of the
last `m` events before its subscription followed by the events after it, in publication order;
an event is missing only if `m` newer ones were queued; and the replay never raises `QueueFull`.
-/

set_option autoImplicit false

namespace PipeWorks.Conductor

open StepSystem

variable {α : Type} {m : Nat} {s t : State α} {id id' : Nat} {sub : Subscriber α} {p : String}
  {e : Event α}

/-! ## What is owed and what is on its way -/

/-- The last `m` events before the subscription, then all events after it. -/
def State.due (m : Nat) (s : State α) (sub : Subscriber α) : List (Event α) :=
  ((s.published sub.process).take sub.since).rtake m ++ (s.published sub.process).drop sub.since

/-- How many events of its process had been published when the subscriber left, or by now. -/
def State.horizon (s : State α) (sub : Subscriber α) : Nat :=
  sub.until?.getD (s.published sub.process).length

/-- The events that are due and were published before the subscriber left. -/
def State.owed (m : Nat) (s : State α) (sub : Subscriber α) : List (Event α) :=
  ((s.published sub.process).take sub.since).rtake m ++
    ((s.published sub.process).take (s.horizon sub)).drop sub.since

def State.replayOf (s : State α) (id : Nat) : List (Event α) :=
  match s.replaying with
  | none => []
  | some (id', rest) => if id' = id then rest else []

def State.callbacksOf (s : State α) (id : Nat) : List (Event α) :=
  (s.callbacks.filter fun c => c.1 == id).map Prod.snd

def State.publishingOf (s : State α) (id : Nat) (processId : String) : List (Event α) :=
  match s.publishing processId with
  | none => []
  | some (e, rest) => if id ∈ rest then [e] else []

/-- The events on their way to a subscriber, in the order they will arrive. -/
def State.transit (s : State α) (id : Nat) (sub : Subscriber α) : List (Event α) :=
  s.replayOf id ++ s.callbacksOf id ++ s.publishingOf id sub.process

theorem transit_eq (hreplay : t.replayOf id = s.replayOf id)
    (hcallbacks : t.callbacksOf id = s.callbacksOf id)
    (hpublishing : t.publishingOf id sub.process = s.publishingOf id sub.process) :
    t.transit id sub = s.transit id sub := by
  unfold State.transit
  rw [hreplay, hcallbacks, hpublishing]

/-! ## The invariant -/

structure Served (m : Nat) (s : State α) (id : Nat) (sub : Subscriber α) : Prop where
  sound : sub.queue.Sound m
  split : sub.queue.inserted ++ s.transit id sub = s.owed m sub
  since_le : sub.since ≤ s.horizon sub
  horizon_le : s.horizon sub ≤ (s.published sub.process).length
  registered : id ∈ s.subscribers sub.process ↔ sub.until? = none
  room : ∀ rest, s.replaying = some (id, rest) → sub.queue.inserted.length + rest.length ≤ m

structure Good (m : Nat) (s : State α) : Prop where
  served : ∀ (id : Nat) (sub : Subscriber α), s.queues[id]? = some sub → Served m s id sub
  history : ∀ p, s.history p = (s.published p).rtake m
  numbered : ∀ p, (s.published p).map Event.number = List.range (s.published p).length
  loop : ∀ p id, id ∈ s.subscribers p → s.loop = true
  members : ∀ p id, id ∈ s.subscribers p →
    ∃ sub : Subscriber α, s.queues[id]? = some sub ∧ sub.process = p
  nodup : ∀ p, (s.subscribers p).Nodup
  scheduling : ∀ p e rest, s.publishing p = some (e, rest) → rest.Nodup ∧
    ∀ id ∈ rest, ∃ sub : Subscriber α, s.queues[id]? = some sub ∧ sub.process = p
  callbacks : ∀ c ∈ s.callbacks, c.1 < s.queues.length
  replaying : ∀ id rest, s.replaying = some (id, rest) → id < s.queues.length
  neverFull : s.queueFull = false

theorem good_init (m : Nat) : Good m (State.init : State α) where
  served := fun _ _ h => by cases h
  history := fun _ => by simp [State.init]
  numbered := fun _ => rfl
  loop := fun _ _ h => by cases h
  members := fun _ _ h => by cases h
  nodup := fun _ => List.nodup_nil
  scheduling := fun _ _ _ h => by cases h
  callbacks := fun _ h => by cases h
  replaying := fun _ _ h => by cases h
  neverFull := rfl

/-- A step that does not concern the subscriber. -/
theorem Served.frame (h : Served m s id sub)
    (hpub : t.published sub.process = s.published sub.process)
    (hreg : id ∈ t.subscribers sub.process ↔ id ∈ s.subscribers sub.process)
    (htransit : t.transit id sub = s.transit id sub)
    (hroom : ∀ rest, t.replaying = some (id, rest) → s.replaying = some (id, rest)) :
    Served m t id sub := by
  have hhorizon : t.horizon sub = s.horizon sub := by
    unfold State.horizon
    rw [hpub]
  have howed : t.owed m sub = s.owed m sub := by
    unfold State.owed
    rw [hhorizon, hpub]
  refine ⟨h.sound, ?_, ?_, ?_, hreg.trans h.registered,
    fun rest hrest => h.room rest (hroom rest hrest)⟩
  · rw [htransit, howed]
    exact h.split
  · rw [hhorizon]
    exact h.since_le
  · rw [hhorizon, hpub]
    exact h.horizon_le

theorem Served.lt (hsub : s.queues[id]? = some sub) : id < s.queues.length :=
  (List.getElem?_eq_some_iff.mp hsub).1

/-! ## Replacing a queue -/

theorem getElem?_setQueue_self (hsub : s.queues[id]? = some sub) (q : EvictingQueue (Event α)) :
    (s.setQueue id q).queues[id]? = some { sub with queue := q } := by
  simp [State.setQueue, hsub]

theorem getElem?_setQueue_ne (hne : id ≠ id') (q : EvictingQueue (Event α)) :
    (s.setQueue id q).queues[id']? = s.queues[id']? := by
  simp [State.setQueue, hne]

/-- A modification that keeps the process of every queue. -/
theorem exists_process_modify (f : Subscriber α → Subscriber α)
    (hf : ∀ sub, (f sub).process = sub.process) (i : Nat)
    (h : ∃ sub : Subscriber α, s.queues[id]? = some sub ∧ sub.process = p) :
    ∃ sub : Subscriber α, (s.queues.modify i f)[id]? = some sub ∧ sub.process = p := by
  obtain ⟨sub, hsub, hp⟩ := h
  by_cases hi : i = id
  · subst hi
    exact ⟨f sub, by simp [hsub], (hf sub).trans hp⟩
  · exact ⟨sub, by simp [hi, hsub], hp⟩

/-- Putting into one queue what was on its way to it first. -/
theorem Good.put {q : EvictingQueue (Event α)} (h : Good m s) (hsub : s.queues[id]? = some sub)
    (hq : q.Sound m) (hins : q.inserted = sub.queue.inserted ++ [e])
    (hqueues : t.queues = (s.setQueue id q).queues) (hpub : t.published = s.published)
    (hsubs : t.subscribers = s.subscribers)
    (htransit : ∀ sub, s.transit id sub = e :: t.transit id sub)
    (hother : ∀ id' sub, id' ≠ id → t.transit id' sub = s.transit id' sub)
    (hroom : ∀ id' rest, t.replaying = some (id', rest) →
      id' = id ∧ s.replaying = some (id, e :: rest)) :
    ∀ (id' : Nat) (sub' : Subscriber α), t.queues[id']? = some sub' → Served m t id' sub' := by
  intro id' sub' hsub'
  rw [hqueues] at hsub'
  by_cases hid : id = id'
  · subst hid
    rw [getElem?_setQueue_self hsub] at hsub'
    cases hsub'
    have hold := h.served id sub hsub
    have hhorizon : t.horizon { sub with queue := q } = s.horizon sub := by
      show sub.until?.getD (t.published sub.process).length = _
      rw [hpub]
      rfl
    refine ⟨hq, ?_, ?_, ?_, ?_, ?_⟩
    · have howed : t.owed m { sub with queue := q } = s.owed m sub := by
        unfold State.owed
        rw [hhorizon, hpub]
      rw [howed, ← hold.split, htransit sub]
      show q.inserted ++ t.transit id sub = _
      rw [hins, List.append_assoc]
      rfl
    · rw [hhorizon]
      exact hold.since_le
    · rw [hhorizon, hpub]
      exact hold.horizon_le
    · rw [hsubs]
      exact hold.registered
    · intro rest hrest
      have hroom' := hold.room _ (hroom id rest hrest).2
      show q.inserted.length + rest.length ≤ m
      rw [hins]
      simp only [List.length_append, List.length_cons, List.length_nil] at hroom' ⊢
      omega
  · rw [getElem?_setQueue_ne hid] at hsub'
    refine (h.served id' sub' hsub').frame (by rw [hpub]) (by rw [hsubs])
      (hother id' sub' (Ne.symm hid)) fun rest hrest => ?_
    exact absurd (hroom id' rest hrest).1 (Ne.symm hid)

/-- What remains of `Good` when only queues, callbacks and the replay have changed. -/
theorem Good.of_served {f : Subscriber α → Subscriber α} {i : Nat} (h : Good m s)
    (hserved : ∀ (id : Nat) (sub : Subscriber α), t.queues[id]? = some sub → Served m t id sub)
    (hqueues : t.queues = s.queues.modify i f) (hf : ∀ sub, (f sub).process = sub.process)
    (hsame : t.published = s.published ∧ t.history = s.history ∧ t.subscribers = s.subscribers ∧
      t.publishing = s.publishing ∧ t.loop = s.loop)
    (hcallbacks : ∀ c ∈ t.callbacks, c ∈ s.callbacks)
    (hreplaying : ∀ id rest, t.replaying = some (id, rest) → id < s.queues.length)
    (hfull : t.queueFull = false) : Good m t := by
  obtain ⟨hpub, hhist, hsubs, hpublishing, hloop⟩ := hsame
  have hlen : t.queues.length = s.queues.length := by rw [hqueues, List.length_modify]
  refine ⟨hserved, ?_, ?_, ?_, ?_, ?_, ?_, ?_, ?_, hfull⟩
  · rw [hhist, hpub]
    exact h.history
  · rw [hpub]
    exact h.numbered
  · rw [hsubs, hloop]
    exact h.loop
  · rw [hsubs, hqueues]
    exact fun p id hid => exists_process_modify f hf i (h.members p id hid)
  · rw [hsubs]
    exact h.nodup
  · rw [hpublishing, hqueues]
    intro p e rest hpe
    obtain ⟨hnodup, hmem⟩ := h.scheduling p e rest hpe
    exact ⟨hnodup, fun id hid => exists_process_modify f hf i (hmem id hid)⟩
  · rw [hlen]
    exact fun c hc => h.callbacks c (hcallbacks c hc)
  · rw [hlen]
    exact hreplaying

/-! ## The steps -/

theorem replayOf_idle (hidle : s.replaying = none) (id : Nat) : s.replayOf id = [] := by
  unfold State.replayOf
  rw [hidle]

theorem replayOf_replaying {rest : List (Event α)} (hrep : s.replaying = some (id, rest))
    (id' : Nat) : s.replayOf id' = if id = id' then rest else [] := by
  unfold State.replayOf
  rw [hrep]

theorem callbacksOf_fresh (h : Good m s) : s.callbacksOf s.queues.length = [] := by
  unfold State.callbacksOf
  rw [List.map_eq_nil_iff, List.filter_eq_nil_iff]
  intro c hc heq
  have hlt := h.callbacks c hc
  rw [eq_of_beq heq] at hlt
  exact absurd hlt (Nat.lt_irrefl _)

theorem publishingOf_fresh (h : Good m s) (p : String) :
    s.publishingOf s.queues.length p = [] := by
  unfold State.publishingOf
  split
  · rfl
  · rename_i e rest hpe
    apply if_neg
    intro hmem
    obtain ⟨sub, hsub, -⟩ := (h.scheduling p e rest hpe).2 _ hmem
    exact absurd (Served.lt hsub) (Nat.lt_irrefl _)

theorem getElem?_subscribe (hlt : id < s.queues.length) :
    (s.subscribe p).queues[id]? = s.queues[id]? :=
  List.getElem?_append_left hlt

theorem getElem?_subscribe_self :
    (s.subscribe p).queues[s.queues.length]? =
      some ⟨p, .empty, (s.published p).length, none⟩ := by
  simp [State.subscribe]

theorem length_subscribe : (s.subscribe p).queues.length = s.queues.length + 1 := by
  simp [State.subscribe]

theorem exists_process_subscribe {q : String}
    (h : ∃ sub : Subscriber α, s.queues[id]? = some sub ∧ sub.process = q) :
    ∃ sub : Subscriber α, (s.subscribe p).queues[id]? = some sub ∧ sub.process = q := by
  obtain ⟨sub, hsub, hq⟩ := h
  exact ⟨sub, (getElem?_subscribe (Served.lt hsub)).trans hsub, hq⟩

theorem mem_subscribers_subscribe {q : String} :
    id ∈ (s.subscribe p).subscribers q ↔
      id ∈ s.subscribers q ∨ q = p ∧ id = s.queues.length := by
  by_cases hq : q = p
  · subst hq
    simp [State.subscribe]
  · simp [State.subscribe, hq]

/-- A new subscriber does not concern those there are. -/
theorem Served.subscribe (h : Served m s id sub) (hidle : s.replaying = none)
    (hlt : id < s.queues.length) (p : String) : Served m (s.subscribe p) id sub := by
  have hne : ¬ s.queues.length = id := by omega
  refine h.frame rfl ?_ ?_ ?_
  · rw [mem_subscribers_subscribe]
    exact ⟨fun hin => hin.resolve_right fun heq => hne heq.2.symm, .inl⟩
  · have hreplay : (s.subscribe p).replayOf id = s.replayOf id := by
      rw [replayOf_idle hidle]
      exact if_neg hne
    exact transit_eq hreplay rfl rfl
  · intro rest hrest
    cases hrest
    exact absurd rfl hne

/-- The new one is owed the history, which is being replayed. -/
theorem Good.served_subscribe (h : Good m s) (p : String) :
    Served m (s.subscribe p) s.queues.length ⟨p, .empty, (s.published p).length, none⟩ := by
  refine ⟨EvictingQueue.sound_empty m, ?_, Nat.le_refl _, Nat.le_refl _, ?_, ?_⟩
  · have hreplay : (s.subscribe p).replayOf s.queues.length = s.history p := if_pos rfl
    show [] ++ ((s.subscribe p).replayOf s.queues.length ++ s.callbacksOf s.queues.length ++
      s.publishingOf s.queues.length p) = _
    rw [hreplay, callbacksOf_fresh h, publishingOf_fresh h, h.history p]
    show _ = ((s.published p).take (s.published p).length).rtake m ++
      ((s.published p).take (s.published p).length).drop (s.published p).length
    simp
  · rw [mem_subscribers_subscribe]
    simp
  · intro rest hrest
    cases hrest
    rw [h.history p]
    show 0 + ((s.published p).rtake m).length ≤ m
    simp [List.rtake]
    omega

theorem Good.nodup_subscribe (h : Good m s) (p q : String) :
    ((s.subscribe p).subscribers q).Nodup := by
  by_cases hq : q = p
  · subst hq
    have hsubs : (s.subscribe q).subscribers q = s.subscribers q ++ [s.queues.length] := by
      simp [State.subscribe]
    rw [hsubs, List.nodup_append]
    refine ⟨h.nodup q, List.nodup_singleton _, ?_⟩
    rintro a ha b hb rfl
    rw [List.mem_singleton.mp hb] at ha
    obtain ⟨sub, hsub, -⟩ := h.members q _ ha
    exact absurd (Served.lt hsub) (Nat.lt_irrefl _)
  · have hsubs : (s.subscribe p).subscribers q = s.subscribers q := by
      simp [State.subscribe, hq]
    rw [hsubs]
    exact h.nodup q

theorem Good.subscribe (h : Good m s) (hidle : s.replaying = none) (p : String) :
    Good m (s.subscribe p) := by
  refine ⟨?_, h.history, h.numbered, fun _ _ _ => rfl, ?_, h.nodup_subscribe p, ?_, ?_, ?_,
    h.neverFull⟩
  · intro id sub hsub
    by_cases hlt : id < s.queues.length
    · rw [getElem?_subscribe hlt] at hsub
      exact (h.served id sub hsub).subscribe hidle hlt p
    · have hid : id = s.queues.length := by
        have hlt' := (List.getElem?_eq_some_iff.mp hsub).1
        rw [length_subscribe] at hlt'
        omega
      subst hid
      rw [getElem?_subscribe_self] at hsub
      cases hsub
      exact h.served_subscribe p
  · intro q id hin
    rcases mem_subscribers_subscribe.mp hin with hin | ⟨rfl, rfl⟩
    · exact exists_process_subscribe (h.members q id hin)
    · exact ⟨_, getElem?_subscribe_self, rfl⟩
  · intro q e rest hpe
    obtain ⟨hnodup, hin⟩ := h.scheduling q e rest hpe
    exact ⟨hnodup, fun id hid => exists_process_subscribe (hin id hid)⟩
  · intro c hc
    have hlt := h.callbacks c hc
    rw [length_subscribe]
    omega
  · intro id rest hrest
    cases hrest
    rw [length_subscribe]
    omega

theorem Good.replay {rest : List (Event α)} (h : Good m s) (hm : 0 < m)
    (hrep : s.replaying = some (id, rest)) : Good m (s.replay m id rest) := by
  obtain ⟨sub, hsub⟩ : ∃ sub, s.queues[id]? = some sub :=
    ⟨_, List.getElem?_eq_getElem (h.replaying id rest hrep)⟩
  have hserved := h.served id sub hsub
  cases rest with
  | nil =>
    have hreplay : ∀ id', s.replayOf id' = [] := by
      intro id'
      rw [replayOf_replaying hrep, ite_self]
    refine ⟨?_, h.history, h.numbered, h.loop, h.members, h.nodup, h.scheduling, h.callbacks,
      fun _ _ hr => (by cases hr), h.neverFull⟩
    intro id' sub' hsub'
    exact (h.served id' sub' hsub').frame rfl Iff.rfl (transit_eq (hreplay id').symm rfl rfl)
      fun _ hr => by cases hr
  | cons e rest =>
    have hroom := hserved.room _ hrep
    rw [List.length_cons] at hroom
    obtain ⟨q, hq⟩ := hserved.sound.putNowait_isSome (by omega) e
    have hput : s.replay m id (e :: rest) =
        { s.setQueue id q with replaying := some (id, rest) } := by
      unfold State.replay
      dsimp only
      rw [hsub, Option.bind_some, hq]
    have hins : q.inserted = sub.queue.inserted ++ [e] := by
      rw [(EvictingQueue.putNowait_eq_some hq).2]
    rw [hput]
    refine h.of_served (i := id) (f := fun sub => { sub with queue := q }) ?_ rfl (fun _ => rfl)
      ⟨rfl, rfl, rfl, rfl, rfl⟩ (fun _ hc => hc) ?_ h.neverFull
    · refine h.put hsub (hserved.sound.putNowait hm hq) hins rfl rfl rfl ?_ ?_ ?_
      · intro sub
        show s.replayOf id ++ s.callbacksOf id ++ s.publishingOf id sub.process = _
        rw [replayOf_replaying hrep, if_pos rfl]
        show _ = e :: (State.replayOf _ id ++ s.callbacksOf id ++ s.publishingOf id sub.process)
        rw [replayOf_replaying rfl, if_pos rfl]
        rfl
      · intro id' sub hne
        refine transit_eq ?_ rfl rfl
        rw [replayOf_replaying hrep, replayOf_replaying rfl, if_neg (Ne.symm hne),
          if_neg (Ne.symm hne)]
      · intro id' rest' hr
        cases hr
        exact ⟨rfl, hrep⟩
    · intro id' rest' hr
      cases hr
      exact h.replaying _ _ hrep

theorem Good.callback {callbacks : List (Nat × Event α)} (h : Good m s) (hm : 0 < m)
    (hidle : s.replaying = none) (hcb : s.callbacks = (id, e) :: callbacks) :
    Good m { s.putLatest m id e with callbacks := callbacks } := by
  obtain ⟨sub, hsub⟩ : ∃ sub, s.queues[id]? = some sub :=
    ⟨_, List.getElem?_eq_getElem (h.callbacks (id, e) (by rw [hcb]; exact List.mem_cons_self ..))⟩
  have hserved := h.served id sub hsub
  have hput : s.putLatest m id e = s.setQueue id (sub.queue.putLatest m e) := by
    unfold State.putLatest
    rw [hsub]
  rw [hput]
  have hcallbacks : ∀ id', s.callbacksOf id' =
      if id = id' then e :: (callbacks.filter fun c => c.1 == id').map Prod.snd
      else (callbacks.filter fun c => c.1 == id').map Prod.snd := by
    intro id'
    unfold State.callbacksOf
    rw [hcb, List.filter_cons]
    by_cases hid : id = id'
    · simp [hid]
    · simp [hid]
  refine h.of_served (i := id) (f := fun sub' => { sub' with queue := sub.queue.putLatest m e })
    ?_ rfl (fun _ => rfl) ⟨rfl, rfl, rfl, rfl, rfl⟩ ?_ ?_ h.neverFull
  · refine h.put hsub (hserved.sound.putLatest hm e)
      (EvictingQueue.inserted_putLatest m sub.queue e) rfl rfl rfl ?_ ?_ ?_
    · intro sub
      show s.replayOf id ++ s.callbacksOf id ++ s.publishingOf id sub.process =
        e :: (s.replayOf id ++ (callbacks.filter fun c => c.1 == id).map Prod.snd ++
          s.publishingOf id sub.process)
      rw [hcallbacks, if_pos rfl, replayOf_idle hidle]
      rfl
    · intro id' sub hne
      refine transit_eq rfl ?_ rfl
      rw [hcallbacks, if_neg (Ne.symm hne)]
      rfl
    · intro id' rest hr
      have hr : s.replaying = some (id', rest) := hr
      rw [hidle] at hr
      cases hr
  · intro c hc
    rw [hcb]
    exact List.mem_cons_of_mem _ hc
  · intro id' rest hr
    have hr : s.replaying = some (id', rest) := hr
    rw [hidle] at hr
    cases hr

theorem Good.read {q : EvictingQueue (Event α)} (h : Good m s) (hidle : s.replaying = none)
    (hsub : s.queues[id]? = some sub) (hget : sub.queue.getNowait = some (e, q)) :
    Good m (s.setQueue id q) := by
  have hins : q.inserted = sub.queue.inserted := by
    obtain ⟨items, -, rfl⟩ := EvictingQueue.getNowait_eq_some hget
    rfl
  refine h.of_served (i := id) (f := fun sub => { sub with queue := q }) ?_ rfl (fun _ => rfl)
    ⟨rfl, rfl, rfl, rfl, rfl⟩ (fun _ hc => hc) h.replaying h.neverFull
  intro id' sub' hsub'
  by_cases hid : id = id'
  · subst hid
    rw [getElem?_setQueue_self hsub] at hsub'
    cases hsub'
    have hold := h.served id sub hsub
    refine ⟨hold.sound.getNowait hget, ?_, hold.since_le, hold.horizon_le, hold.registered, ?_⟩
    · show q.inserted ++ s.transit id sub = s.owed m sub
      rw [hins]
      exact hold.split
    · intro rest hr
      have hr : s.replaying = some (id, rest) := hr
      rw [hidle] at hr
      cases hr
  · rw [getElem?_setQueue_ne hid] at hsub'
    exact (h.served id' sub' hsub').frame rfl Iff.rfl rfl fun _ hr => hr

theorem subscribers_unsubscribe :
    (s.unsubscribe id sub).subscribers sub.process = (s.subscribers sub.process).erase id := by
  simp [State.unsubscribe]

theorem subscribers_unsubscribe_ne {q : String} (hq : q ≠ sub.process) :
    (s.unsubscribe id sub).subscribers q = s.subscribers q := by
  simp [State.unsubscribe, hq]

theorem mem_of_mem_unsubscribe {q : String}
    (hin : id' ∈ (s.unsubscribe id sub).subscribers q) : id' ∈ s.subscribers q := by
  by_cases hq : q = sub.process
  · subst hq
    rw [subscribers_unsubscribe] at hin
    exact List.mem_of_mem_erase hin
  · rwa [subscribers_unsubscribe_ne hq] at hin

/-- What has been published stays owed, and nothing will be added. -/
theorem Served.unsubscribe_self (h : Good m s) (hold : Served m s id sub)
    (hhere : sub.until? = none) :
    Served m (s.unsubscribe id sub) id
      { sub with until? := some (s.published sub.process).length } := by
  have hhorizon : s.horizon sub = (s.published sub.process).length := by
    unfold State.horizon
    rw [hhere]
    rfl
  refine ⟨hold.sound, ?_, ?_, Nat.le_refl _, ?_, hold.room⟩
  · have howed : (s.unsubscribe id sub).owed m
        { sub with until? := some (s.published sub.process).length } = s.owed m sub := by
      unfold State.owed
      rw [hhorizon]
      rfl
    rw [howed]
    exact hold.split
  · rw [← hhorizon]
    exact hold.since_le
  · have hgone : id ∉ (s.subscribers sub.process).erase id := by
      rw [(h.nodup sub.process).mem_erase_iff]
      exact fun hin => hin.1 rfl
    show id ∈ (s.unsubscribe id sub).subscribers sub.process ↔ _
    rw [subscribers_unsubscribe]
    simpa using hgone

theorem Served.unsubscribe_ne {sub' : Subscriber α} (hold : Served m s id' sub')
    (hid : id ≠ id') : Served m (s.unsubscribe id sub) id' sub' := by
  refine hold.frame rfl ⟨mem_of_mem_unsubscribe, fun hin => ?_⟩ rfl fun _ hr => hr
  by_cases hq : sub'.process = sub.process
  · rw [hq] at hin ⊢
    rw [subscribers_unsubscribe]
    exact (List.mem_erase_of_ne (Ne.symm hid)).mpr hin
  · rwa [subscribers_unsubscribe_ne hq]

theorem Good.unsubscribe (h : Good m s) (hsub : s.queues[id]? = some sub)
    (hhere : sub.until? = none) : Good m (s.unsubscribe id sub) := by
  have hprocess : ∀ {q : String} {id' : Nat},
      (∃ sub : Subscriber α, s.queues[id']? = some sub ∧ sub.process = q) →
      ∃ sub : Subscriber α, (s.unsubscribe id sub).queues[id']? = some sub ∧ sub.process = q :=
    exists_process_modify
      (fun sub => { sub with until? := some (s.published sub.process).length }) (fun _ => rfl) id
  have hlen : (s.unsubscribe id sub).queues.length = s.queues.length := by
    simp [State.unsubscribe]
  refine ⟨?_, h.history, h.numbered, fun q id' hin => h.loop q id' (mem_of_mem_unsubscribe hin),
    fun q id' hin => hprocess (h.members q id' (mem_of_mem_unsubscribe hin)), ?_, ?_, ?_, ?_,
    h.neverFull⟩
  · intro id' sub' hsub'
    by_cases hid : id = id'
    · subst hid
      have hnew : (s.unsubscribe id sub).queues[id]? =
          some { sub with until? := some (s.published sub.process).length } := by
        simp [State.unsubscribe, hsub]
      rw [hnew] at hsub'
      cases hsub'
      exact (h.served id sub hsub).unsubscribe_self h hhere
    · have hsame : (s.unsubscribe id sub).queues[id']? = s.queues[id']? := by
        simp [State.unsubscribe, hid]
      rw [hsame] at hsub'
      exact (h.served id' sub' hsub').unsubscribe_ne hid
  · intro q
    by_cases hq : q = sub.process
    · subst hq
      rw [subscribers_unsubscribe]
      exact (h.nodup _).erase id
    · rw [subscribers_unsubscribe_ne hq]
      exact h.nodup q
  · intro q e rest hpe
    obtain ⟨hnodup, hin⟩ := h.scheduling q e rest hpe
    exact ⟨hnodup, fun id' hid' => hprocess (hin id' hid')⟩
  · rw [hlen]
    exact h.callbacks
  · rw [hlen]
    exact h.replaying

theorem published_publish :
    (s.publish m p e).published p = s.published p ++ [e] := by
  simp [State.publish]

theorem published_publish_ne {q : String} (hq : q ≠ p) :
    (s.publish m p e).published q = s.published q := by
  simp [State.publish, hq]

theorem publishing_publish :
    (s.publish m p e).publishing p =
      if !s.loop || (s.subscribers p).isEmpty then none else some (e, s.subscribers p) := by
  simp [State.publish]

theorem publishing_publish_ne {q : String} (hq : q ≠ p) :
    (s.publish m p e).publishing q = s.publishing q := by
  simp [State.publish, hq]

/-- The event is on its way to every subscriber, and to nobody else. -/
theorem publishingOf_publish (h : Good m s) (id : Nat) :
    (s.publish m p e).publishingOf id p = if id ∈ s.subscribers p then [e] else [] := by
  unfold State.publishingOf
  rw [publishing_publish]
  by_cases hin : id ∈ s.subscribers p
  · have hne : (s.subscribers p).isEmpty = false := by
      rw [List.isEmpty_eq_false_iff]
      exact List.ne_nil_of_mem hin
    rw [h.loop p id hin, hne]
    rfl
  · rw [if_neg hin]
    split
    · rfl
    · rename_i e' rest hsome
      split at hsome
      · cases hsome
      · cases hsome
        exact if_neg hin

theorem transit_publish (h : Good m s) (hidle : s.publishing sub.process = none) :
    (s.publish m sub.process e).transit id sub =
      s.transit id sub ++ if id ∈ s.subscribers sub.process then [e] else [] := by
  have hbefore : s.publishingOf id sub.process = [] := by
    unfold State.publishingOf
    rw [hidle]
  show s.replayOf id ++ s.callbacksOf id ++
      (s.publish m sub.process e).publishingOf id sub.process =
    s.replayOf id ++ s.callbacksOf id ++ s.publishingOf id sub.process ++ _
  rw [publishingOf_publish h, hbefore, List.append_nil]

/-- Still subscribed: the event is owed, and `publish` has taken the subscriber down. -/
theorem Served.publish_subscribed (h : Good m s) (hold : Served m s id sub)
    (hidle : s.publishing sub.process = none) (hhere : sub.until? = none) :
    Served m (s.publish m sub.process e) id sub := by
  have hin : id ∈ s.subscribers sub.process := hold.registered.mpr hhere
  have hsince : sub.since ≤ (s.published sub.process).length :=
    Nat.le_trans hold.since_le hold.horizon_le
  have hhorizon : s.horizon sub = (s.published sub.process).length := by
    unfold State.horizon
    rw [hhere]
    rfl
  have hhorizon' : (s.publish m sub.process e).horizon sub =
      (s.published sub.process).length + 1 := by
    unfold State.horizon
    rw [hhere, published_publish]
    simp
  refine ⟨hold.sound, ?_, by omega, by rw [published_publish]; simp; omega, hold.registered,
    hold.room⟩
  have hall : (s.published sub.process ++ [e]).take ((s.published sub.process).length + 1) =
      s.published sub.process ++ [e] := List.take_of_length_le (by simp)
  rw [transit_publish h hidle, if_pos hin, ← List.append_assoc, hold.split]
  unfold State.owed
  rw [hhorizon, hhorizon', published_publish, List.take_append_of_le_length hsince, hall,
    List.take_length, List.drop_append_of_le_length hsince, List.append_assoc]

/-- Gone: the event is not owed, and the snapshot does not contain the queue. -/
theorem Served.publish_gone {u : Nat} (h : Good m s) (hold : Served m s id sub)
    (hidle : s.publishing sub.process = none) (hleft : sub.until? = some u) :
    Served m (s.publish m sub.process e) id sub := by
  have hnot : id ∉ s.subscribers sub.process := by
    intro hin
    rw [hold.registered.mp hin] at hleft
    cases hleft
  have hsince : sub.since ≤ (s.published sub.process).length :=
    Nat.le_trans hold.since_le hold.horizon_le
  have hhorizon : (s.publish m sub.process e).horizon sub = s.horizon sub := by
    unfold State.horizon
    rw [hleft]
    rfl
  have hle := hold.horizon_le
  refine ⟨hold.sound, ?_, by rw [hhorizon]; exact hold.since_le,
    by rw [hhorizon, published_publish]; simp; omega, hold.registered, hold.room⟩
  rw [transit_publish h hidle, if_neg hnot, List.append_nil, hold.split]
  unfold State.owed
  rw [hhorizon, published_publish, List.take_append_of_le_length hsince,
    List.take_append_of_le_length hle]

theorem Served.publish (h : Good m s) (hold : Served m s id sub)
    (hidle : s.publishing p = none) : Served m (s.publish m p e) id sub := by
  by_cases hp : sub.process = p
  · subst hp
    cases hleft : sub.until? with
    | none => exact hold.publish_subscribed h hidle hleft
    | some u => exact hold.publish_gone h hidle hleft
  · refine hold.frame (published_publish_ne hp) Iff.rfl ?_ fun _ hr => hr
    refine transit_eq rfl rfl ?_
    unfold State.publishingOf
    rw [publishing_publish_ne hp]

theorem Good.publish (h : Good m s) (hidle : s.publishing p = none)
    (he : e.number = (s.published p).length) : Good m (s.publish m p e) := by
  refine ⟨fun id sub hsub => (h.served id sub hsub).publish h hidle, ?_, ?_, h.loop, h.members,
    h.nodup, ?_, h.callbacks, h.replaying, h.neverFull⟩
  · intro q
    by_cases hq : q = p
    · subst hq
      have hhist : (s.publish m q e).history q = (s.history q ++ [e]).rtake m := by
        simp [State.publish]
      rw [hhist, published_publish, h.history q, EvictingQueue.append_rtake]
    · have hhist : (s.publish m p e).history q = s.history q := by simp [State.publish, hq]
      rw [hhist, published_publish_ne hq]
      exact h.history q
  · intro q
    by_cases hq : q = p
    · subst hq
      rw [published_publish, List.map_append, h.numbered q, List.length_append]
      simp [List.range_succ, he]
    · rw [published_publish_ne hq]
      exact h.numbered q
  · intro q e' rest hpe
    by_cases hq : q = p
    · subst hq
      rw [publishing_publish] at hpe
      split at hpe
      · cases hpe
      · cases hpe
        exact ⟨h.nodup q, fun id hid => h.members q id hid⟩
    · rw [publishing_publish_ne hq] at hpe
      exact h.scheduling q e' rest hpe

theorem publishing_schedule {rest : List Nat} :
    (s.schedule p id e rest).publishing p =
      if (rest.erase id).isEmpty then none else some (e, rest.erase id) := by
  simp [State.schedule]

theorem publishing_schedule_ne {rest : List Nat} {q : String} (hq : q ≠ p) :
    (s.schedule p id e rest).publishing q = s.publishing q := by
  simp [State.schedule, hq]

theorem publishingOf_schedule {rest : List Nat} (id' : Nat) :
    (s.schedule p id e rest).publishingOf id' p = if id' ∈ rest.erase id then [e] else [] := by
  unfold State.publishingOf
  rw [publishing_schedule]
  by_cases hempty : (rest.erase id).isEmpty
  · rw [if_pos hempty, List.isEmpty_iff.mp hempty]
    rfl
  · rw [if_neg hempty]

theorem callbacksOf_schedule {rest : List Nat} (id' : Nat) :
    (s.schedule p id e rest).callbacksOf id' =
      s.callbacksOf id' ++ if id = id' then [e] else [] := by
  show ((s.callbacks ++ [(id, e)]).filter fun c => c.1 == id').map Prod.snd = _
  rw [List.filter_append, List.map_append]
  by_cases heq : id = id' <;> simp [State.callbacksOf, heq]

/-- The event moves from the loop of `publish` to the callbacks. -/
theorem transit_schedule {rest : List Nat} (h : Good m s)
    (hpe : s.publishing p = some (e, rest)) (hid : id ∈ rest)
    (hsub : s.queues[id']? = some sub) :
    (s.schedule p id e rest).transit id' sub = s.transit id' sub := by
  obtain ⟨hnodup, hmem⟩ := h.scheduling p e rest hpe
  obtain ⟨sub₀, hsub₀, hp₀⟩ := hmem id hid
  show s.replayOf id' ++ (s.schedule p id e rest).callbacksOf id' ++
      (s.schedule p id e rest).publishingOf id' sub.process =
    s.replayOf id' ++ s.callbacksOf id' ++ s.publishingOf id' sub.process
  rw [callbacksOf_schedule]
  by_cases hq : sub.process = p
  · have hold : s.publishingOf id' p = if id' ∈ rest then [e] else [] := by
      unfold State.publishingOf
      rw [hpe]
    rw [hq, publishingOf_schedule, hold]
    by_cases heq : id = id'
    · subst heq
      have hgone : id ∉ rest.erase id := by
        rw [hnodup.mem_erase_iff]
        exact fun hin => hin.1 rfl
      rw [if_pos rfl, if_neg hgone, if_pos hid, List.append_nil, List.append_assoc]
    · rw [if_neg heq, List.append_nil]
      congr 1
      exact if_congr (List.mem_erase_of_ne (Ne.symm heq)) rfl rfl
  · -- the scheduled queue belongs to another process
    have heq : id ≠ id' := by
      rintro rfl
      have heq : sub₀ = sub := Option.some.inj (hsub₀.symm.trans hsub)
      rw [← heq] at hq
      exact hq hp₀
    rw [if_neg heq, List.append_nil]
    unfold State.publishingOf
    rw [publishing_schedule_ne hq]

theorem Good.schedule {rest : List Nat} (h : Good m s) (hpe : s.publishing p = some (e, rest))
    (hid : id ∈ rest) : Good m (s.schedule p id e rest) := by
  obtain ⟨hnodup, hmem⟩ := h.scheduling p e rest hpe
  refine ⟨?_, h.history, h.numbered, h.loop, h.members, h.nodup, ?_, ?_, h.replaying, h.neverFull⟩
  · intro id' sub' hsub'
    exact (h.served id' sub' hsub').frame rfl Iff.rfl (transit_schedule h hpe hid hsub')
      fun _ hr => hr
  · intro q e' rest' hq'
    by_cases hq : q = p
    · subst hq
      rw [publishing_schedule] at hq'
      split at hq'
      · cases hq'
      · cases hq'
        exact ⟨hnodup.erase id, fun id' hin => hmem id' (List.mem_of_mem_erase hin)⟩
    · rw [publishing_schedule_ne hq] at hq'
      exact h.scheduling q e' rest' hq'
  · intro c hc
    rcases List.mem_append.mp hc with hold | hnew
    · exact h.callbacks c hold
    · obtain ⟨sub, hsub, -⟩ := hmem id hid
      rw [List.mem_singleton.mp hnew]
      exact Served.lt hsub

theorem Good.preserved {l : Label α} (hm : 0 < m) (h : Good m s) (hstep : step m s l = some t) :
    Good m t := by
  cases l with
  | subscribe p =>
    unfold step at hstep
    dsimp only at hstep
    split at hstep
    · rename_i hidle
      cases hstep
      exact h.subscribe (Option.isNone_iff_eq_none.mp hidle) p
    · cases hstep
  | replay =>
    obtain ⟨⟨id, rest⟩, hrep, rfl⟩ := Option.map_eq_some_iff.mp hstep
    exact h.replay hm hrep
  | unsubscribe id =>
    unfold step at hstep
    dsimp only at hstep
    split at hstep
    · obtain ⟨sub, hsub, rfl⟩ := Option.map_eq_some_iff.mp hstep
      obtain ⟨hsub, hhere⟩ := Option.filter_eq_some_iff.mp hsub
      exact h.unsubscribe hsub (Option.isNone_iff_eq_none.mp hhere)
    · cases hstep
  | publish processId payload =>
    cases processId with
    | none =>
      cases hstep
      exact h
    | some p =>
      unfold step at hstep
      dsimp only at hstep
      split at hstep
      · rename_i hidle
        cases hstep
        exact h.publish (Option.isNone_iff_eq_none.mp hidle) rfl
      · cases hstep
  | schedule p id =>
    unfold step at hstep
    dsimp only at hstep
    split at hstep
    · cases hstep
    · rename_i e rest hpe
      split at hstep
      · rename_i hid
        cases hstep
        exact h.schedule hpe hid
      · cases hstep
  | callback =>
    unfold step at hstep
    dsimp only at hstep
    split at hstep
    · rename_i id e callbacks hidle hcb
      cases hstep
      exact h.callback hm hidle hcb
    · cases hstep
  | read id =>
    unfold step at hstep
    dsimp only at hstep
    split at hstep
    · rename_i hidle
      obtain ⟨⟨e, q⟩, hget, rfl⟩ := Option.map_eq_some_iff.mp hstep
      obtain ⟨sub, hsub, hget⟩ := Option.bind_eq_some_iff.mp hget
      exact h.read (Option.isNone_iff_eq_none.mp hidle) hsub hget
    · cases hstep

/-! ## What the subscribers observe -/

/-- What the subscribers observe. -/
structure Delivers (m : Nat) (s : State α) : Prop where
  /-- the replay has never raised -/
  neverFull : s.queueFull = false
  /-- read in publication order, without duplicates, and nothing else -/
  subsequence : ∀ (id : Nat) (sub : Subscriber α), s.queues[id]? = some sub →
    sub.queue.taken.Sublist (s.due m sub) ∧
      (s.due m sub).Pairwise fun e e' => e.number < e'.number
  /-- who has not unsubscribed is owed everything that is due, the others all but an end of it -/
  owed : ∀ (id : Nat) (sub : Subscriber α), s.queues[id]? = some sub →
    s.owed m sub <+: s.due m sub ∧ (sub.until? = none → s.owed m sub = s.due m sub)
  /-- what is missing was pushed out by `m` newer events -/
  missing : ∀ (id : Nat) (sub : Subscriber α), s.queues[id]? = some sub →
    ∀ e ∈ s.owed m sub, e ∉ sub.queue.taken → e ∉ sub.queue.items → e ∉ s.transit id sub →
      m ≤ (sub.queue.inserted.filter fun e' => e.number < e'.number).length

theorem owed_initial (m : Nat) (s : State α) (sub : Subscriber α) :
    s.owed m sub <+: s.due m sub := by
  unfold State.owed State.due
  rw [List.prefix_append_right_inj, List.drop_take]
  exact List.take_prefix _ _

theorem owed_eq_due (m : Nat) (s : State α) {sub : Subscriber α} (hhere : sub.until? = none) :
    s.owed m sub = s.due m sub := by
  unfold State.owed State.due State.horizon
  rw [hhere, Option.getD_none, List.take_length]

theorem Good.due_pairwise (h : Good m s) (sub : Subscriber α) :
    (s.due m sub).Pairwise fun e e' => e.number < e'.number := by
  have hall : (s.published sub.process).Pairwise fun e e' => e.number < e'.number := by
    have hrange := List.pairwise_lt_range (n := (s.published sub.process).length)
    rw [← h.numbered sub.process, List.pairwise_map] at hrange
    exact hrange
  apply List.Pairwise.sublist _ hall
  have htail : (((s.published sub.process).take sub.since).rtake m).Sublist
      ((s.published sub.process).take sub.since) := List.drop_sublist _ _
  have hsplit := htail.append (List.Sublist.refl ((s.published sub.process).drop sub.since))
  rwa [List.take_append_drop] at hsplit

/-- What was put into the queue is the beginning of what is due. -/
theorem Good.inserted_due (h : Good m s) (hsub : s.queues[id]? = some sub) :
    sub.queue.inserted <+: s.due m sub := by
  have howed : sub.queue.inserted <+: s.owed m sub := by
    rw [← (h.served id sub hsub).split]
    exact List.prefix_append _ _
  exact howed.trans (owed_initial m s sub)

/-- Everything behind a position of the queue is newer. -/
theorem Good.newer_behind (h : Good m s) (hsub : s.queues[id]? = some sub) {i : Nat}
    (hi : sub.queue.inserted[i]? = some e) :
    ∀ e' ∈ sub.queue.inserted.drop (i + 1), e.number < e'.number := by
  have hdrop : sub.queue.inserted.drop i = e :: sub.queue.inserted.drop (i + 1) := by
    obtain ⟨hlt, hget⟩ := List.getElem?_eq_some_iff.mp hi
    rw [List.drop_eq_getElem_cons hlt, hget]
  have hordered := (h.due_pairwise sub).sublist (h.inserted_due hsub).sublist
  have hpair := hordered.sublist (List.drop_sublist i _)
  rw [hdrop, List.pairwise_cons] at hpair
  exact hpair.1

theorem Good.delivers (h : Good m s) : Delivers m s := by
  refine ⟨h.neverFull, ?_, fun _ sub _ => ⟨owed_initial m s sub, owed_eq_due m s⟩, ?_⟩
  · intro id sub hsub
    exact ⟨(h.served id sub hsub).sound.taken_sublist.trans (h.inserted_due hsub).sublist,
      h.due_pairwise sub⟩
  · intro id sub hsub e howed htaken hitems htransit
    have hserved := h.served id sub hsub
    have hmem : e ∈ sub.queue.inserted := by
      rw [← hserved.split] at howed
      exact (List.mem_append.mp howed).resolve_right htransit
    obtain ⟨i, hi⟩ := List.mem_iff_getElem?.mp hmem
    have hnewer := hserved.sound.missing hi htaken hitems
    have hbehind : ∀ e' ∈ sub.queue.inserted.drop (i + 1),
        decide (e.number < e'.number) = true :=
      fun e' he' => decide_eq_true (h.newer_behind hsub hi e' he')
    have hsub := (List.drop_sublist (i + 1) sub.queue.inserted).filter
      fun e' => decide (e.number < e'.number)
    rw [List.filter_eq_self.mpr hbehind] at hsub
    have hlen := hsub.length_le
    rw [List.length_drop] at hlen
    omega

/-- **Exactly-once, in-order delivery**, for every interleaving of publishers, subscribers,
    callbacks and readers. -/
theorem event_delivery (hm : 1 ≤ m) (labels : List (Label α)) :
    Always (step m) (Delivers m) State.init labels :=
  always_of_invariant (fun _ h => Good.delivers h)
    (fun _ _ _ h hstep => Good.preserved hm h hstep) (good_init m)

def aroundSubscription : List (Label Nat) :=
  [.publish (some "camera") 7, .subscribe "camera", .publish (some "camera") 8, .replay,
    .schedule "camera" 0, .replay, .callback, .read 0]

/-- A subscription between two events: the first is replayed, the second one pushes it out. -/
theorem delivers_around_subscription :
    (run (step 1) State.init aroundSubscription).map
      (fun s => s.queues.map fun sub => sub.queue.taken.map Event.payload) = some [[8]] ∧
    Always (step 1) (Delivers 1) State.init aroundSubscription :=
  ⟨rfl, event_delivery (Nat.le_refl 1) _⟩

end PipeWorks.Conductor
