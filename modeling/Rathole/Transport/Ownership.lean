import Rathole.Transport.Listener

/-!
# One task per channel id

`on_packet` looks a sender up, or makes a stream, under the lock of
`active_streams`, and uses the sender when the lock is free again; a task
takes its entry out under the same lock, some time after it has left its loop.
Here these are separate events and any packet may arrive at any time, whoever
sent it. `ListenerPacketRuntime.Owned` ties the entries to the tasks that
still have their cleanup before them.

A task's branch for a packet has no check on the channel id of its own:
`handle_incoming` would make a second stream for a foreign one. Here it runs
without the guard of `Endpoint.step`, and `recv_is_step` shows that the guard
never fails.
-/

namespace Rathole

namespace Listener

/-- The block of `on_packet` under the lock: the listener, the sender found
or made, and what the listener answers itself. -/
def senderFor (l : Listener) (pkt : IncomingPacket) (now : Instant) :
    Listener × Option ℕ × List Datagram :=
  match l.activeStreams.lookup pkt.header.channelId with
  | some i => (l, some i, [])
  | none =>
      if pkt.header.packetKind = .streamOpen then
        (l.spawn pkt.header.channelId pkt.src now, some l.tasks.length, [])
      else
        (l, none, [⟨⟨pkt.header.channelId, .streamClose, 0, 0, 0⟩, [], pkt.src⟩])

/-- `on_packet` is that block followed by the `try_send`. -/
theorem onPacket_eq (l : Listener) (pkt : IncomingPacket) (now : Instant) :
    l.onPacket pkt now =
      (match (l.senderFor pkt now).2.1 with
        | some i => (l.senderFor pkt now).1.send i pkt
        | none => (l.senderFor pkt now).1,
      (l.senderFor pkt now).2.2) := by
  unfold onPacket senderFor
  cases l.activeStreams.lookup pkt.header.channelId with
  | some i => rfl
  | none =>
      dsimp only
      split <;> rfl

/-- The task `i` serves `sid` and has its cleanup still to do. -/
def Owner (l : Listener) (sid : UInt32) (i : ℕ) : Prop :=
  ∃ t, l.tasks[i]? = some t ∧ t.streamId = sid ∧ t.cleaned = false

end Listener

/-- A listener, and the sender with which `on_packet` has left the lock. -/
structure ListenerPacketRuntime where
  listener : Listener
  sending : Option (ℕ × IncomingPacket)

namespace ListenerPacketRuntime

inductive Event where
  /-- A packet arrives; the receive loop is not busy with another one. -/
  | arrive (pkt : IncomingPacket) (now : Instant)
  | trySend
  | recv (i : ℕ) (now : Instant)
  | task (i : ℕ) (op : Op)
  /-- A task leaves its loop, for whatever reason. -/
  | stop (i : ℕ)
  | cleanup (i : ℕ)
  | accept (i : ℕ)
deriving DecidableEq

def init : ListenerPacketRuntime := ⟨⟨∅, [], [], []⟩, none⟩

def putTask (r : ListenerPacketRuntime) (i : ℕ) (t : StreamTask) :
    ListenerPacketRuntime :=
  { r with listener := { r.listener with tasks := r.listener.tasks.set i t } }

/-- The `packet_rx` branch: whatever packet is next, it is handled. -/
def taskRecv (t : StreamTask) (now : Instant) : Option StreamTask :=
  match t.packets with
  | [] => none
  | pkt :: rest =>
      if t.endpoint.stream.running then
        some { t with
          endpoint := { t.endpoint with
            stream := { t.endpoint.stream with
              inner := (t.endpoint.stream.inner.handleIncoming pkt now).1 } }
          packets := rest }
      else none

def step (r : ListenerPacketRuntime) : Event → Option ListenerPacketRuntime
  | .arrive pkt now =>
      match r.sending with
      | some _ => none
      | none => some
          { listener := (r.listener.senderFor pkt now).1
            sending := (r.listener.senderFor pkt now).2.1.map (·, pkt) }
  | .trySend =>
      r.sending.map (fun s => ⟨r.listener.send s.1 s.2, none⟩)
  | .recv i now =>
      (r.listener.tasks[i]?).bind (fun t =>
        (taskRecv t now).map (r.putTask i))
  | .task i op =>
      if op.isIncoming then none
      else (r.listener.tasks[i]?).bind (fun t =>
        (t.endpoint.step op).map (fun q =>
          r.putTask i { t with endpoint := q.1 }))
  | .stop i =>
      (r.listener.tasks[i]?).bind (fun t =>
        if t.endpoint.stream.running then
          some (r.putTask i { t with
            endpoint := { t.endpoint with
              stream := t.endpoint.stream.endTask.1 } })
        else none)
  | .cleanup i =>
      (r.listener.tasks[i]?).bind (fun t =>
        if t.endpoint.stream.running = false ∧ t.cleaned = false then
          some { r with listener := r.listener.cleanup i t }
        else none)
  | .accept i =>
      if i ∈ r.listener.incoming then
        some { r with listener := { r.listener with
          incoming := r.listener.incoming.erase i
          accepted := r.listener.accepted ++ [i] } }
      else none

/-- The packet an event moves on, if it moves one. -/
def carried (r : ListenerPacketRuntime) : Event → Option IncomingPacket
  | .arrive pkt _ => some pkt
  | .trySend => r.sending.map Prod.snd
  | .recv i _ => (r.listener.tasks[i]?).bind (fun t => t.packets.head?)
  | _ => none

/-! ## The invariant -/

/-- A task of the listener: one stream, under its own id, and packets for no
other. -/
structure TaskOk (t : StreamTask) : Prop where
  wf : t.endpoint.WF
  dest : t.endpoint.dest = none
  packets : ∀ pkt ∈ t.packets, pkt.header.channelId = t.streamId

structure Owned (r : ListenerPacketRuntime) : Prop where
  entry : ∀ sid i, r.listener.activeStreams.lookup sid = some i ↔
    r.listener.Owner sid i
  tasks : ∀ t ∈ r.listener.tasks, TaskOk t
  sending : ∀ i pkt, r.sending = some (i, pkt) →
    r.listener.ids[i]? = some pkt.header.channelId

/-! ## What an event can do -/

inductive Shape (r : ListenerPacketRuntime) :
    Event → ListenerPacketRuntime → Prop where
  | found {pkt : IncomingPacket} {now : Instant} {i : ℕ}
      (hi : r.listener.activeStreams.lookup pkt.header.channelId = some i) :
      Shape r (.arrive pkt now) { r with sending := some (i, pkt) }
  | spawned {pkt : IncomingPacket} {now : Instant}
      (hnone : r.listener.activeStreams.lookup pkt.header.channelId = none) :
      Shape r (.arrive pkt now)
        ⟨r.listener.spawn pkt.header.channelId pkt.src now,
          some (r.listener.tasks.length, pkt)⟩
  | refused {pkt : IncomingPacket} {now : Instant} :
      Shape r (.arrive pkt now) { r with sending := none }
  | sent {i : ℕ} {pkt : IncomingPacket} (hs : r.sending = some (i, pkt)) :
      Shape r .trySend ⟨r.listener.send i pkt, none⟩
  | handled {i : ℕ} {now : Instant} {t t' : StreamTask}
      (ht : r.listener.tasks[i]? = some t) (ht' : taskRecv t now = some t') :
      Shape r (.recv i now) (r.putTask i t')
  | ran {i : ℕ} {op : Op} {t : StreamTask} {q : Endpoint × Output}
      (ht : r.listener.tasks[i]? = some t)
      (hq : t.endpoint.step op = some q) :
      Shape r (.task i op) (r.putTask i { t with endpoint := q.1 })
  | stopped {i : ℕ} {t : StreamTask} (ht : r.listener.tasks[i]? = some t) :
      Shape r (.stop i) (r.putTask i { t with
        endpoint := { t.endpoint with
          stream := t.endpoint.stream.endTask.1 } })
  | cleaned {i : ℕ} {t : StreamTask} (ht : r.listener.tasks[i]? = some t)
      (hclean : t.cleaned = false) :
      Shape r (.cleanup i) { r with listener := r.listener.cleanup i t }
  | accepted {i : ℕ} :
      Shape r (.accept i) { r with listener := { r.listener with
        incoming := r.listener.incoming.erase i
        accepted := r.listener.accepted ++ [i] } }

theorem shape_step {r r' : ListenerPacketRuntime} {a : Event}
    (hs : r.step a = some r') : r.Shape a r' := by
  cases a with
  | arrive pkt now =>
      simp only [step] at hs
      split at hs
      · cases hs
      · cases hs
        unfold Listener.senderFor
        cases hi : r.listener.activeStreams.lookup pkt.header.channelId with
        | some i => exact .found hi
        | none =>
            dsimp only
            split
            · exact .spawned hi
            · exact .refused
  | trySend =>
      obtain ⟨s, hsend, rfl⟩ := Option.map_eq_some_iff.mp hs
      exact .sent hsend
  | recv i now =>
      obtain ⟨t, ht, hs⟩ := Option.bind_eq_some_iff.mp hs
      obtain ⟨t', ht', rfl⟩ := Option.map_eq_some_iff.mp hs
      exact .handled ht ht'
  | task i op =>
      simp only [step] at hs
      split at hs
      · cases hs
      · obtain ⟨t, ht, hs⟩ := Option.bind_eq_some_iff.mp hs
        obtain ⟨q, hq, rfl⟩ := Option.map_eq_some_iff.mp hs
        exact .ran ht hq
  | stop i =>
      obtain ⟨t, ht, hs⟩ := Option.bind_eq_some_iff.mp hs
      split at hs
      · cases hs
        exact .stopped ht
      · cases hs
  | cleanup i =>
      obtain ⟨t, ht, hs⟩ := Option.bind_eq_some_iff.mp hs
      split at hs
      · rename_i hcond
        cases hs
        exact .cleaned ht hcond.2
      · cases hs
  | accept i =>
      simp only [step] at hs
      split at hs
      · cases hs
        exact .accepted
      · cases hs

/-! ## Tasks keep to their own stream -/

/-- The guard of `Endpoint.step` on a packet never fails behind a listener. -/
theorem recv_is_step {t t' : StreamTask} {now : Instant} (h : TaskOk t)
    (hs : taskRecv t now = some t') :
    ∃ pkt q, t.packets.head? = some pkt ∧
      pkt.header.channelId = t.streamId ∧
      t.endpoint.step (.incoming pkt now) = some q ∧
      t' = { t with endpoint := q.1, packets := t.packets.tail } := by
  unfold taskRecv at hs
  cases hp : t.packets with
  | nil =>
      rw [hp] at hs
      cases hs
  | cons pkt rest =>
      rw [hp] at hs
      dsimp only at hs
      split at hs
      · rename_i hrun
        cases hs
        have hid : pkt.header.channelId = t.streamId := by
          apply h.packets
          rw [hp]
          exact List.mem_cons_self
        have hroute : t.endpoint.routes pkt = true := by
          unfold Endpoint.routes
          rw [h.dest]
          simpa [StreamTask.streamId] using hid
        have hstep : t.endpoint.step (.incoming pkt now) = some _ :=
          if_pos ⟨hrun, hroute⟩
        exact ⟨pkt, _, rfl, hid, hstep, rfl⟩
      · cases hs

/-- **Step lemma** for a task that takes a step of its own. -/
theorem TaskOk.step {t : StreamTask} {op : Op} {q : Endpoint × Output}
    (h : TaskOk t) (hs : t.endpoint.step op = some q)
    {packets : List IncomingPacket} (hsub : packets ⊆ t.packets) :
    TaskOk { t with endpoint := q.1, packets := packets } := by
  obtain ⟨hid, hdest⟩ := Endpoint.step_streamId h.wf hs
  refine ⟨(Endpoint.wf_step h.wf hs).1, hdest.trans h.dest, ?_⟩
  intro pkt hpkt
  exact (h.packets pkt (hsub hpkt)).trans hid.symm

theorem TaskOk.stop {t : StreamTask} (h : TaskOk t) :
    TaskOk { t with endpoint := { t.endpoint with
      stream := t.endpoint.stream.endTask.1 } } := by
  refine ⟨?_, h.dest, h.packets⟩
  have hold : t.endpoint.stream.inner.HoldsAt t.endpoint.stream.streamId
      t.endpoint.st := h.wf
  have hnew : Endpoint.Holds { t.endpoint with
      stream := t.endpoint.stream.endTask.1 } t.endpoint.st.unparked := by
    unfold UdpStream.endTask
    rw [UdpStreamInner.HoldsAt.closeAndWake hold]
    exact UdpStreamInner.HoldsAt.setStream hold _
  exact hnew.wf

theorem TaskOk.trySend {t : StreamTask} (h : TaskOk t) {pkt : IncomingPacket}
    (hid : pkt.header.channelId = t.streamId) : TaskOk (t.trySend pkt) := by
  unfold StreamTask.trySend
  split
  · refine ⟨h.wf, h.dest, ?_⟩
    intro p hp
    rcases List.mem_append.mp hp with hold | hnew
    · exact h.packets p hold
    · rw [List.mem_singleton.mp hnew]
      exact hid
  · exact h

theorem taskOk_accepting (sid : UInt32) (src : SocketAddr) (now : Instant) :
    TaskOk ⟨Endpoint.accepting sid src now, [], false⟩ := by
  refine ⟨(Endpoint.holds_accepting sid src now).wf, rfl, ?_⟩
  intro pkt hpkt
  cases hpkt

/-! ## Entries and tasks -/

/-- Whose the tasks are, and which of them are done. -/
def owners (l : Listener) : List (UInt32 × Bool) :=
  l.tasks.map (fun t => (t.streamId, t.cleaned))

theorem owner_iff {l : Listener} {sid : UInt32} {i : ℕ} :
    l.Owner sid i ↔ (owners l)[i]? = some (sid, false) := by
  unfold Listener.Owner owners
  rw [List.getElem?_map, Option.map_eq_some_iff]
  simp only [Prod.mk.injEq]

theorem ids_eq_owners (l : Listener) : l.ids = (owners l).map Prod.fst := by
  unfold Listener.ids owners
  rw [List.map_map]
  rfl

theorem owners_set {l : Listener} {i : ℕ} {t t' : StreamTask}
    (ht : l.tasks[i]? = some t) (hid : t'.streamId = t.streamId)
    (hclean : t'.cleaned = t.cleaned) :
    owners { l with tasks := l.tasks.set i t' } = owners l := by
  obtain ⟨hlt, rfl⟩ := List.getElem?_eq_some_iff.mp ht
  unfold owners
  rw [List.map_set, hid, hclean,
    ← List.getElem_map (fun t : StreamTask => (t.streamId, t.cleaned))]
  · exact List.set_getElem_self _
  · simpa using hlt

theorem tasks_set {l : Listener} {i : ℕ} {t' : StreamTask}
    (h : ∀ t ∈ l.tasks, TaskOk t) (ht' : TaskOk t') :
    ∀ t ∈ l.tasks.set i t', TaskOk t := by
  intro t ht
  rcases List.mem_or_eq_of_mem_set ht with hold | rfl
  · exact h t hold
  · exact ht'

/-- The invariant looks at the entries, at whose the tasks are, and at each
task by itself. -/
theorem Owned.congr {r r' : ListenerPacketRuntime} (h : r.Owned)
    (hentries : r'.listener.activeStreams = r.listener.activeStreams)
    (howners : owners r'.listener = owners r.listener)
    (htasks : ∀ t ∈ r'.listener.tasks, TaskOk t)
    (hsending : r'.sending = none ∨ r'.sending = r.sending) : r'.Owned := by
  refine ⟨?_, htasks, ?_⟩
  · intro sid i
    rw [hentries, h.entry, owner_iff, owner_iff, howners]
  · intro i pkt hs
    rw [ids_eq_owners, howners, ← ids_eq_owners]
    rcases hsending with hnone | hsame
    · rw [hnone] at hs
      cases hs
    · rw [hsame] at hs
      exact h.sending i pkt hs

/-- **Step lemma** for a task that moves and stays whose it is. -/
theorem Owned.putTask {r : ListenerPacketRuntime} (h : r.Owned) {i : ℕ}
    {t t' : StreamTask} (ht : r.listener.tasks[i]? = some t)
    (hid : t'.streamId = t.streamId) (hclean : t'.cleaned = t.cleaned)
    (hok : TaskOk t') : (r.putTask i t').Owned :=
  h.congr rfl (owners_set ht hid hclean) (tasks_set h.tasks hok) (Or.inr rfl)

/-- The entry of a new stream. -/
theorem Owned.spawn {r : ListenerPacketRuntime} (h : r.Owned)
    {pkt : IncomingPacket} (now : Instant)
    (hnone : r.listener.activeStreams.lookup pkt.header.channelId = none) :
    Owned ⟨r.listener.spawn pkt.header.channelId pkt.src now,
      some (r.listener.tasks.length, pkt)⟩ := by
  have howners : owners (r.listener.spawn pkt.header.channelId pkt.src now) =
      owners r.listener ++ [(pkt.header.channelId, false)] := by
    simp [owners, Listener.spawn, StreamTask.streamId, Endpoint.accepting,
      UdpStream.new]
  have hlen : (owners r.listener).length = r.listener.tasks.length :=
    List.length_map _
  refine ⟨?_, ?_, ?_⟩
  · intro sid i
    show (r.listener.activeStreams.insert pkt.header.channelId
      r.listener.tasks.length).lookup sid = some i ↔ _
    rw [owner_iff, howners]
    by_cases hsid : sid = pkt.header.channelId
    · subst hsid
      rw [AList.lookup_insert]
      constructor
      · intro hi
        cases hi
        rw [← hlen]
        simp
      · intro hi
        -- an older task of this id would have its entry
        rw [List.getElem?_append] at hi
        split at hi
        · have hold := (h.entry _ i).mpr (owner_iff.mpr hi)
          rw [hnone] at hold
          cases hold
        · rw [List.getElem?_singleton] at hi
          split at hi
          · congr 1
            omega
          · cases hi
    · rw [AList.lookup_insert_ne hsid, h.entry, owner_iff, List.getElem?_append]
      split
      · rfl
      · rename_i hge
        rw [List.getElem?_eq_none (Nat.le_of_not_lt hge), List.getElem?_singleton]
        split
        · simp [Ne.symm hsid]
        · rfl
  · intro t ht
    rcases List.mem_append.mp ht with hold | hnew
    · exact h.tasks t hold
    · rw [List.mem_singleton.mp hnew]
      exact taskOk_accepting _ _ _
  · intro i p hs
    cases hs
    rw [ids_eq_owners, howners, ← hlen]
    simp

/-- The cleanup of a task finds its own entry. -/
theorem Owned.cleanup {r : ListenerPacketRuntime} (h : r.Owned) {i : ℕ}
    {t : StreamTask} (ht : r.listener.tasks[i]? = some t)
    (hclean : t.cleaned = false) :
    Owned { r with listener := r.listener.cleanup i t } := by
  obtain ⟨hlt, hget⟩ := List.getElem?_eq_some_iff.mp ht
  have howners : owners (r.listener.cleanup i t) =
      (owners r.listener).set i (t.streamId, true) := by
    simp [owners, Listener.cleanup, StreamTask.streamId, List.map_set]
  have hi : (owners r.listener)[i]? = some (t.streamId, false) :=
    owner_iff.mp ⟨t, ht, rfl, hclean⟩
  refine ⟨?_, ?_, ?_⟩
  · intro sid j
    show (r.listener.activeStreams.erase t.streamId).lookup sid = some j ↔ _
    rw [owner_iff, howners, List.getElem?_set]
    by_cases hsid : sid = t.streamId
    · subst hsid
      rw [AList.lookup_erase]
      constructor
      · intro hj
        cases hj
      · intro hj
        split at hj
        · split at hj <;> cases hj
        · -- the entry was that of `i`, so `j` is no owner
          rename_i hne
          have hj' := (h.entry _ j).mpr (owner_iff.mpr hj)
          rw [(h.entry _ i).mpr (owner_iff.mpr hi)] at hj'
          exact absurd (Option.some.inj hj') hne
    · rw [AList.lookup_erase_ne hsid, h.entry, owner_iff]
      split
      · rename_i heq
        subst heq
        rw [hi]
        split
        · simp [Ne.symm hsid]
        · simp [Ne.symm hsid]
      · rfl
  · exact tasks_set h.tasks ⟨(h.tasks t (List.mem_of_getElem? ht)).wf,
      (h.tasks t (List.mem_of_getElem? ht)).dest,
      (h.tasks t (List.mem_of_getElem? ht)).packets⟩
  · intro j pkt hs
    have hj := h.sending j pkt hs
    rw [ids_eq_owners] at hj ⊢
    rw [howners, List.map_set, List.getElem?_set]
    split
    · rename_i heq
      subst heq
      rw [List.getElem?_map, hi] at hj
      split
      · exact hj
      · rename_i hlen
        simp [owners] at hlen
        omega
    · exact hj

/-- **Step lemma.** -/
theorem owned_step {r r' : ListenerPacketRuntime} {a : Event} (h : r.Owned)
    (hs : r.step a = some r') : r'.Owned := by
  cases shape_step hs with
  | found hi =>
      refine ⟨h.entry, h.tasks, ?_⟩
      intro i pkt hsend
      cases hsend
      obtain ⟨t, ht, hid, -⟩ := (h.entry _ _).mp hi
      unfold Listener.ids
      rw [List.getElem?_map, ht, Option.map_some, hid]
  | spawned hnone => exact h.spawn _ hnone
  | refused => exact h.congr rfl rfl h.tasks (Or.inl rfl)
  | sent hsend =>
      rename_i i pkt
      have hid := h.sending i pkt hsend
      unfold Listener.ids at hid
      rw [List.getElem?_map, Option.map_eq_some_iff] at hid
      obtain ⟨t, ht, hid⟩ := hid
      have hok := h.tasks t (List.mem_of_getElem? ht)
      have hmove := t.moves_trySend hok.wf pkt
      unfold Listener.send
      rw [ht]
      exact h.congr rfl (owners_set ht hmove.id hmove.cleaned)
        (tasks_set h.tasks (hok.trySend hid.symm)) (Or.inl rfl)
  | handled ht ht' =>
      have hok := h.tasks _ (List.mem_of_getElem? ht)
      obtain ⟨pkt, q, -, -, hq, rfl⟩ := recv_is_step hok ht'
      exact h.putTask ht (Endpoint.step_streamId hok.wf hq).1 rfl
        (hok.step hq (List.tail_sublist _).subset)
  | ran ht hq =>
      have hok := h.tasks _ (List.mem_of_getElem? ht)
      exact h.putTask ht (Endpoint.step_streamId hok.wf hq).1 rfl
        (hok.step hq (List.Subset.refl _))
  | stopped ht =>
      exact h.putTask ht rfl rfl (h.tasks _ (List.mem_of_getElem? ht)).stop
  | cleaned ht hclean => exact h.cleanup ht hclean
  | accepted => exact h.congr rfl rfl h.tasks (Or.inr rfl)

theorem owned_init : init.Owned := by
  refine ⟨?_, ?_, ?_⟩
  · intro sid i
    rw [owner_iff]
    simp [init, owners]
  · intro t ht
    cases ht
  · intro i pkt hs
    cases hs

theorem owned_run {as : List Event} {r : ListenerPacketRuntime}
    (hrun : Runs.Run step init as r) : r.Owned :=
  Runs.run_preserves (fun _ _ _ h hs => owned_step h hs) owned_init hrun

/-! ## The main result -/

/-- Entries and tasks that have not run their cleanup are the same thing. -/
structure OneOwner (r : ListenerPacketRuntime) : Prop where
  unique : ∀ sid i j, r.listener.Owner sid i → r.listener.Owner sid j → i = j
  entry : ∀ sid i, r.listener.activeStreams.lookup sid = some i ↔
    r.listener.Owner sid i
  /-- Each task holds one stream, under its own id. -/
  state : ∀ t ∈ r.listener.tasks, t.endpoint.WF
  queued : ∀ t ∈ r.listener.tasks, ∀ pkt ∈ t.packets,
    pkt.header.channelId = t.streamId

/-- An event takes nothing from a task that it is not about. -/
structure Respects (r : ListenerPacketRuntime) (a : Event)
    (r' : ListenerPacketRuntime) : Prop where
  cleanup : ∀ i, a = .cleanup i → ∀ sid j, j ≠ i →
    r.listener.activeStreams.lookup sid = some j →
    r'.listener.activeStreams.lookup sid = some j
  packet : ∀ pkt, r.carried a = some pkt → ∀ (j : ℕ) (t : StreamTask),
    r.listener.tasks[j]? = some t → t.streamId ≠ pkt.header.channelId →
    r'.listener.tasks[j]? = some t

theorem Owned.oneOwner {r : ListenerPacketRuntime} (h : r.Owned) :
    r.OneOwner := by
  refine ⟨?_, h.entry, fun t ht => (h.tasks t ht).wf,
    fun t ht => (h.tasks t ht).packets⟩
  intro sid i j hi hj
  have heq := ((h.entry sid i).mpr hi).symm.trans ((h.entry sid j).mpr hj)
  exact Option.some.inj heq

/-- A task that is set leaves the others as they were. -/
theorem getElem?_set_of_id_ne {l : Listener} {i j : ℕ} {t u t' : StreamTask}
    (ht : l.tasks[i]? = some t) (hu : l.tasks[j]? = some u)
    (hne : u.streamId ≠ t.streamId) : (l.tasks.set i t')[j]? = some u := by
  rw [List.getElem?_set_ne, hu]
  rintro rfl
  rw [ht] at hu
  cases hu
  exact hne rfl

theorem Owned.respects_cleanup {r r' : ListenerPacketRuntime} {i : ℕ}
    (h : r.Owned) (hs : r.step (.cleanup i) = some r') (sid : UInt32) (j : ℕ)
    (hj : j ≠ i) (hentry : r.listener.activeStreams.lookup sid = some j) :
    r'.listener.activeStreams.lookup sid = some j := by
  cases shape_step hs with
  | cleaned ht hclean =>
      rename_i t
      have hown := (h.entry t.streamId i).mpr ⟨t, ht, rfl, hclean⟩
      show (r.listener.activeStreams.erase t.streamId).lookup sid = some j
      rw [AList.lookup_erase_ne, hentry]
      rintro rfl
      rw [hentry] at hown
      exact hj (Option.some.inj hown)

theorem Owned.respects_packet {r r' : ListenerPacketRuntime} {a : Event}
    (h : r.Owned) (hs : r.step a = some r') (pkt : IncomingPacket)
    (hcar : r.carried a = some pkt) (j : ℕ) (u : StreamTask)
    (hu : r.listener.tasks[j]? = some u)
    (hne : u.streamId ≠ pkt.header.channelId) :
    r'.listener.tasks[j]? = some u := by
  cases shape_step hs with
  | found hi => exact hu
  | spawned hnone =>
      obtain ⟨hlt, -⟩ := List.getElem?_eq_some_iff.mp hu
      show (r.listener.tasks ++ _)[j]? = some u
      rw [List.getElem?_append_left hlt, hu]
  | refused => exact hu
  | sent hsend =>
      rename_i i p
      simp only [carried, hsend, Option.map_some, Option.some.injEq] at hcar
      subst hcar
      have hid := h.sending i p hsend
      unfold Listener.ids at hid
      rw [List.getElem?_map, Option.map_eq_some_iff] at hid
      obtain ⟨t, ht, hid⟩ := hid
      unfold Listener.send
      rw [ht]
      apply getElem?_set_of_id_ne ht hu
      rw [hid]
      exact hne
  | handled ht ht' =>
      have hok := h.tasks _ (List.mem_of_getElem? ht)
      obtain ⟨p, q, hp, hid, -, rfl⟩ := recv_is_step hok ht'
      simp only [carried, ht, Option.bind_some, hp, Option.some.injEq] at hcar
      subst hcar
      apply getElem?_set_of_id_ne ht hu
      rw [← hid]
      exact hne
  | ran ht hq => cases hcar
  | stopped ht => cases hcar
  | cleaned ht hclean => cases hcar
  | accepted => cases hcar

/-- **One owner per channel id.** Whatever packets arrive at a listener and
however its tasks end, in every state reached a channel id has at most one
task with its cleanup still to do, `active_streams` holds exactly the senders
of these tasks, every task holds the one stream of its own id and packets for
no other; and from there no cleanup removes the entry of another task and no
packet touches a task of another channel id. -/
theorem one_owner_per_channel (as : List Event) (r : ListenerPacketRuntime)
    (hrun : Runs.Run step init as r) :
    r.OneOwner ∧ ∀ a r', r.step a = some r' → r.Respects a r' := by
  have h := owned_run hrun
  refine ⟨h.oneOwner, fun a r' hs => ⟨?_, h.respects_packet hs⟩⟩
  rintro i rfl
  exact h.respects_cleanup hs

/-- A stream is opened twice; the first one's packet waits in the lock's
shadow while its task cleans up. -/
def reopening : List Event :=
  [.arrive ⟨⟨7, .streamOpen, 0, 0, 0⟩, [], connectorAddr⟩ 0,
    .trySend, .recv 0 0, .stop 0,
    .arrive ⟨⟨7, .stream, 1, 0, 0⟩, [1, 2, 3], connectorAddr⟩ 1,
    .cleanup 0, .trySend,
    .arrive ⟨⟨7, .streamOpen, 0, 0, 0⟩, [], .v4 #v[10, 0, 0, 9] 40001⟩ 2,
    .trySend, .recv 1 2]

theorem one_owner_per_channel_reopening : ∃ r,
    Runs.Run step init reopening r ∧
    r.listener.activeStreams.lookup 7 = some 1 ∧ r.listener.Owner 7 1 ∧
    (∀ i, r.listener.Owner 7 i → i = 1) ∧
    r.OneOwner ∧ ∀ a r', r.step a = some r' → r.Respects a r' := by
  have hrun : ∃ r, Runs.Run step init reopening r ∧
      r.listener.activeStreams.lookup 7 = some 1 := ⟨_, rfl, by decide +kernel⟩
  obtain ⟨r, hrun, hentry⟩ := hrun
  obtain ⟨hone, hresp⟩ := one_owner_per_channel reopening r hrun
  have hown := (hone.entry 7 1).mp hentry
  exact ⟨r, hrun, hentry, hown, fun i hi => hone.unique 7 i 1 hi hown, hone,
    hresp⟩

end ListenerPacketRuntime

end Rathole
