import Rathole.Transport.Connection

/-!
# The listener and its clients

`ListenerPacketRuntime` keeps in `active_streams`, under each channel id, the
sender of the task that serves it; a StreamOpen for an id without an entry
makes a new stream. The task takes its entry out when it ends, and nothing
remembers the ids that were served before. Clients resend their StreamOpen
every 200 ms, and the network may keep a copy for as long as it likes: a copy
that arrives after the stream has ended opens a second one, for the same
`connect`. `one_stream_per_connect` shows that this is the only way.

The sender in `active_streams` is named by the position of its task in
`tasks`, the list of all tasks ever spawned. A task's queue has room for 1024
packets and goes when the task has finished, after its cleanup.
-/

namespace Rathole

structure StreamTask where
  endpoint : Endpoint
  /-- `packet_tx` to `packet_rx`, oldest first. -/
  packets : List IncomingPacket
  /-- The task has removed its entry and finished. -/
  cleaned : Bool

namespace StreamTask

def streamId (t : StreamTask) : UInt32 := t.endpoint.stream.streamId

def trySend (t : StreamTask) (pkt : IncomingPacket) : StreamTask :=
  if t.cleaned = false ∧ t.packets.length < 1024 then
    { t with packets := t.packets ++ [pkt] }
  else t

end StreamTask

structure Listener where
  activeStreams : HashMap UInt32 ℕ
  tasks : List StreamTask
  /-- The streams on their way into `incoming_tx`. -/
  incoming : List ℕ
  /-- The streams that `accept` has handed out. -/
  accepted : List ℕ

namespace Listener

def send (l : Listener) (i : ℕ) (pkt : IncomingPacket) : Listener :=
  match l.tasks[i]? with
  | some t => { l with tasks := l.tasks.set i (t.trySend pkt) }
  | none => l

/-- Make a stream for `channelId` and start its task. -/
def spawn (l : Listener) (channelId : UInt32) (src : SocketAddr)
    (now : Instant) : Listener :=
  { l with
    activeStreams := l.activeStreams.insert channelId l.tasks.length
    tasks := l.tasks ++ [⟨Endpoint.accepting channelId src now, [], false⟩]
    incoming := l.incoming ++ [l.tasks.length] }

/-- Returns the listener and what it answers itself. -/
def onPacket (l : Listener) (pkt : IncomingPacket) (now : Instant) :
    Listener × List Datagram :=
  match l.activeStreams.lookup pkt.header.channelId with
  | some i => (l.send i pkt, [])
  | none =>
      if pkt.header.packetKind = .streamOpen then
        ((l.spawn pkt.header.channelId pkt.src now).send l.tasks.length pkt, [])
      else
        (l, [⟨⟨pkt.header.channelId, .streamClose, 0, 0, 0⟩, [], pkt.src⟩])

/-- The end of a task: it removes the entry of its stream id. -/
def cleanup (l : Listener) (i : ℕ) (t : StreamTask) : Listener :=
  { l with
    activeStreams := l.activeStreams.erase t.streamId
    tasks := l.tasks.set i { t with cleaned := true } }

end Listener

/-- A listener, its clients and the datagrams they have sent. A datagram may
arrive any number of times, at any time, from any address, or never. -/
structure UdpNet where
  clients : HashMap UInt32 Endpoint
  listener : Listener
  toListener : List Datagram
  toClients : List Datagram

/-- The application may only act on a stream it has been handed. -/
def Op.isApplication : Op → Bool
  | .pollWrite _ _ _ => true
  | .pollRead _ _ => true
  | .pollShutdown => true
  | .setUdpNackMode => true
  | .drop => true
  | _ => false

namespace UdpNet

inductive Event where
  /-- A client starts to connect, under an id of its own. -/
  | connect (sid : UInt32) (server : SocketAddr) (now : Instant)
  | client (sid : UInt32) (op : Op)
  | atClient (sid : UInt32) (d : Datagram) (src : SocketAddr) (now : Instant)
  | arrive (d : Datagram) (src : SocketAddr) (now : Instant)
  /-- A task takes the next packet of its queue. -/
  | recv (i : ℕ) (now : Instant)
  | task (i : ℕ) (op : Op)
  | cleanup (i : ℕ)
  | accept (i : ℕ)
deriving DecidableEq

def init : UdpNet := ⟨∅, ⟨∅, [], [], []⟩, [], []⟩

/-- A client has moved to `r.1` and sent `r.2`. -/
def putClient (w : UdpNet) (sid : UInt32) (r : Endpoint × Output) : UdpNet :=
  { w with
    clients := w.clients.insert sid r.1
    toListener := w.toListener ++ r.2.sent }

/-- The task `i` has become `t` and sent `ds`. -/
def putTask (w : UdpNet) (i : ℕ) (t : StreamTask) (ds : List Datagram) :
    UdpNet :=
  { w with
    listener := { w.listener with tasks := w.listener.tasks.set i t }
    toClients := w.toClients ++ ds }

def step (w : UdpNet) : Event → Option UdpNet
  | .connect sid server now =>
      match w.clients.lookup sid with
      | some _ => none
      | none => some { w with
          clients := w.clients.insert sid (Endpoint.connecting sid server now) }
  | .client sid op =>
      if op.isIncoming then none
      else (w.clients.lookup sid).bind
        (fun e => (e.step op).map (w.putClient sid))
  | .atClient sid d src now =>
      if d ∈ w.toClients then
        (w.clients.lookup sid).bind (fun e =>
          (e.step (.incoming ⟨d.header, d.payload, src⟩ now)).map
            (w.putClient sid))
      else none
  | .arrive d src now =>
      if d ∈ w.toListener then
        let r := w.listener.onPacket ⟨d.header, d.payload, src⟩ now
        some { w with listener := r.1, toClients := w.toClients ++ r.2 }
      else none
  | .recv i now =>
      (w.listener.tasks[i]?).bind (fun t =>
        match t.packets with
        | [] => none
        | pkt :: rest =>
            (t.endpoint.step (.incoming pkt now)).map (fun r =>
              w.putTask i { t with endpoint := r.1, packets := rest }
                r.2.sent))
  | .task i op =>
      if op.isIncoming ∨ (op.isApplication ∧ i ∉ w.listener.accepted) then none
      else (w.listener.tasks[i]?).bind (fun t =>
        (t.endpoint.step op).map (fun r =>
          w.putTask i { t with endpoint := r.1 } r.2.sent))
  | .cleanup i =>
      (w.listener.tasks[i]?).bind (fun t =>
        if t.endpoint.stream.running = false ∧ t.cleaned = false then
          some { w with listener := w.listener.cleanup i t }
        else none)
  | .accept i =>
      if i ∈ w.listener.incoming then
        some { w with listener := { w.listener with
          incoming := w.listener.incoming.erase i
          accepted := w.listener.accepted ++ [i] } }
      else none

end UdpNet

/-! ## What an event can do to the listener -/

/-- A step of a task that keeps whose it is. -/
structure StreamTask.Moves (t t' : StreamTask) : Prop where
  id : t'.streamId = t.streamId
  cleaned : t'.cleaned = t.cleaned
  wf : t'.endpoint.WF

theorem StreamTask.moves_trySend {t : StreamTask} (hwf : t.endpoint.WF)
    (pkt : IncomingPacket) : t.Moves (t.trySend pkt) := by
  unfold trySend
  split
  · exact ⟨rfl, rfl, hwf⟩
  · exact ⟨rfl, rfl, hwf⟩

theorem StreamTask.moves_step {t : StreamTask} (hwf : t.endpoint.WF) {op : Op}
    {r : Endpoint × Output} (hs : t.endpoint.step op = some r)
    (packets : List IncomingPacket) :
    t.Moves { t with endpoint := r.1, packets := packets } where
  id := (Endpoint.step_streamId hwf hs).1
  cleaned := rfl
  wf := (Endpoint.wf_step hwf hs).1

/-- The listener's tasks, as far as their own streams go, are sound. -/
def Listener.WF (l : Listener) : Prop := ∀ t ∈ l.tasks, t.endpoint.WF

inductive Listener.Changes (l : Listener) : UdpNet.Event → Listener → Prop where
  | same {a : UdpNet.Event} : Changes l a l
  | moved {a : UdpNet.Event} {i : ℕ} {t t' : StreamTask}
      (ht : l.tasks[i]? = some t) (hmove : t.Moves t') :
      Changes l a { l with tasks := l.tasks.set i t' }
  | spawned {d : Datagram} {src : SocketAddr} {now : Instant}
      (hopen : d.header.packetKind = .streamOpen)
      (hnone : l.activeStreams.lookup d.header.channelId = none) :
      Changes l (.arrive d src now) { l with
        activeStreams :=
          l.activeStreams.insert d.header.channelId l.tasks.length
        tasks := l.tasks ++ [⟨Endpoint.accepting d.header.channelId src now,
          [⟨d.header, d.payload, src⟩], false⟩]
        incoming := l.incoming ++ [l.tasks.length] }
  | cleaned {i : ℕ} {t : StreamTask} (ht : l.tasks[i]? = some t)
      (hend : t.endpoint.stream.running = false) (hclean : t.cleaned = false) :
      Changes l (.cleanup i) (l.cleanup i t)
  | accepted {i : ℕ} (hi : i ∈ l.incoming) :
      Changes l (.accept i) { l with
        incoming := l.incoming.erase i
        accepted := l.accepted ++ [i] }

theorem Listener.changes_send {l : Listener} (hwf : l.WF) (a : UdpNet.Event)
    (i : ℕ) (pkt : IncomingPacket) : l.Changes a (l.send i pkt) := by
  unfold send
  cases ht : l.tasks[i]? with
  | none => exact .same
  | some t =>
      exact .moved ht (t.moves_trySend (hwf t (List.mem_of_getElem? ht)) pkt)

theorem Listener.spawn_send (l : Listener) (src : SocketAddr) (now : Instant)
    (pkt : IncomingPacket) :
    (l.spawn pkt.header.channelId src now).send l.tasks.length pkt = { l with
      activeStreams :=
        l.activeStreams.insert pkt.header.channelId l.tasks.length
      tasks := l.tasks ++
        [⟨Endpoint.accepting pkt.header.channelId src now, [pkt], false⟩]
      incoming := l.incoming ++ [l.tasks.length] } := by
  simp [send, spawn, StreamTask.trySend]

theorem Listener.changes_onPacket {l : Listener} (hwf : l.WF) (d : Datagram)
    (src : SocketAddr) (now : Instant) :
    l.Changes (.arrive d src now)
      (l.onPacket ⟨d.header, d.payload, src⟩ now).1 := by
  unfold onPacket
  dsimp only
  split
  · exact changes_send hwf _ _ _
  · rename_i hnone
    split
    · rename_i hopen
      rw [spawn_send l src now ⟨d.header, d.payload, src⟩]
      exact .spawned hopen hnone
    · exact .same

/-- **Every event changes the listener in one of these ways.** -/
theorem UdpNet.step_changes {w w' : UdpNet} {a : Event} (hwf : w.listener.WF)
    (hs : w.step a = some w') : w.listener.Changes a w'.listener := by
  cases a with
  | connect sid server now =>
      simp only [step] at hs
      split at hs
      · cases hs
      · cases hs
        exact .same
  | client sid op =>
      simp only [step] at hs
      split at hs
      · cases hs
      · obtain ⟨e, -, hs⟩ := Option.bind_eq_some_iff.mp hs
        obtain ⟨r, -, rfl⟩ := Option.map_eq_some_iff.mp hs
        exact .same
  | atClient sid d src now =>
      simp only [step] at hs
      split at hs
      · obtain ⟨e, -, hs⟩ := Option.bind_eq_some_iff.mp hs
        obtain ⟨r, -, rfl⟩ := Option.map_eq_some_iff.mp hs
        exact .same
      · cases hs
  | arrive d src now =>
      simp only [step] at hs
      split at hs
      · cases hs
        exact Listener.changes_onPacket hwf d src now
      · cases hs
  | recv i now =>
      simp only [step] at hs
      obtain ⟨t, ht, hs⟩ := Option.bind_eq_some_iff.mp hs
      split at hs
      · cases hs
      · obtain ⟨r, hr, rfl⟩ := Option.map_eq_some_iff.mp hs
        exact .moved ht (t.moves_step (hwf t (List.mem_of_getElem? ht)) hr _)
  | task i op =>
      simp only [step] at hs
      split at hs
      · cases hs
      · obtain ⟨t, ht, hs⟩ := Option.bind_eq_some_iff.mp hs
        obtain ⟨r, hr, rfl⟩ := Option.map_eq_some_iff.mp hs
        exact .moved ht (t.moves_step (hwf t (List.mem_of_getElem? ht)) hr _)
  | cleanup i =>
      simp only [step] at hs
      obtain ⟨t, ht, hs⟩ := Option.bind_eq_some_iff.mp hs
      split at hs
      · rename_i hcond
        cases hs
        exact .cleaned ht hcond.1 hcond.2
      · cases hs
  | accept i =>
      simp only [step] at hs
      split at hs
      · rename_i hi
        cases hs
        exact .accepted hi
      · cases hs

/-! ## One stream for one connect -/

namespace Listener

/-- The stream ids of all tasks, in the order they were spawned. -/
def ids (l : Listener) : List UInt32 := l.tasks.map StreamTask.streamId

/-- Every stream is on its way to `accept` or has been handed out, once. -/
structure Sound (l : Listener) : Prop where
  wf : l.WF
  handed : (l.incoming ++ l.accepted).Perm (List.range l.tasks.length)

/-- `accept` has handed out the stream `i`, which serves `sid`. -/
def Serves (l : Listener) (sid : UInt32) (i : ℕ) : Prop :=
  i ∈ l.accepted ∧ l.ids[i]? = some sid

/-- Chunk `n` of the client `sid` has reached the accepted stream `i`. -/
def Delivered (l : Listener) (sid : UInt32) (n i : ℕ) : Prop :=
  i ∈ l.accepted ∧ ∃ t, l.tasks[i]? = some t ∧ t.streamId = sid ∧
    t.endpoint.st.Received n

structure OneStream (l : Listener) : Prop where
  once : l.accepted.Nodup
  stream : ∀ sid i j, l.Serves sid i → l.Serves sid j → i = j
  chunk : ∀ sid n i j, l.Delivered sid n i → l.Delivered sid n j → i = j

/-- A StreamOpen for an id whose stream has come and gone. -/
def LateOpen (l : Listener) (d : Datagram) : Prop :=
  d.header.packetKind = .streamOpen ∧
    l.activeStreams.lookup d.header.channelId = none ∧
    d.header.channelId ∈ l.ids

theorem Delivered.serves {l : Listener} {sid : UInt32} {n i : ℕ}
    (h : l.Delivered sid n i) : l.Serves sid i := by
  obtain ⟨hi, t, ht, rfl, -⟩ := h
  refine ⟨hi, ?_⟩
  unfold ids
  rw [List.getElem?_map, ht]
  rfl

/-- The ids change only when a StreamOpen finds no entry. -/
theorem Changes.ids {l l' : Listener} {a : UdpNet.Event}
    (h : l.Changes a l') :
    l'.ids = l.ids ∨ ∃ d src now, a = .arrive d src now ∧
      d.header.packetKind = .streamOpen ∧
      l.activeStreams.lookup d.header.channelId = none ∧
      l'.ids = l.ids ++ [d.header.channelId] := by
  have hset {i : ℕ} {t t' : StreamTask} (ht : l.tasks[i]? = some t)
      (hid : t'.streamId = t.streamId) :
      (l.tasks.set i t').map StreamTask.streamId =
        l.tasks.map StreamTask.streamId := by
    obtain ⟨hlt, rfl⟩ := List.getElem?_eq_some_iff.mp ht
    rw [List.map_set, hid, ← List.getElem_map StreamTask.streamId]
    · exact List.set_getElem_self _
    · simpa using hlt
  cases h with
  | same => exact Or.inl rfl
  | moved ht hmove => exact Or.inl (hset ht hmove.id)
  | spawned hopen hnone =>
      refine Or.inr ⟨_, _, _, rfl, hopen, hnone, ?_⟩
      simp [Listener.ids, StreamTask.streamId, Endpoint.accepting, UdpStream.new]
  | cleaned ht hend hclean => exact Or.inl (hset ht rfl)
  | accepted hi => exact Or.inl rfl

/-- **Step lemma.** -/
theorem Sound.changes {l l' : Listener} {a : UdpNet.Event} (h : l.Sound)
    (hc : l.Changes a l') : l'.Sound := by
  have hwf {i : ℕ} {t' : StreamTask} (ht' : t'.endpoint.WF) :
      ∀ t ∈ l.tasks.set i t', t.endpoint.WF := by
    intro t ht
    rcases List.mem_or_eq_of_mem_set ht with hold | rfl
    · exact h.wf t hold
    · exact ht'
  cases hc with
  | same => exact h
  | moved ht hmove =>
      refine ⟨hwf hmove.wf, ?_⟩
      simpa using h.handed
  | spawned hopen hnone =>
      refine ⟨?_, ?_⟩
      · intro t ht
        rcases List.mem_append.mp ht with hold | hnew
        · exact h.wf t hold
        · rw [List.mem_singleton.mp hnew]
          exact (Endpoint.holds_accepting _ _ _).wf
      · simp only [List.length_append, List.length_singleton, List.range_succ]
        calc l.incoming ++ [l.tasks.length] ++ l.accepted
            |>.Perm (l.incoming ++ l.accepted ++ [l.tasks.length]) := by
              rw [List.append_assoc, List.append_assoc]
              exact List.perm_append_comm.append_left _
          _ |>.Perm (List.range l.tasks.length ++ [l.tasks.length]) :=
              h.handed.append_right _
  | cleaned ht hend hclean =>
      have ht' := h.wf _ (List.mem_of_getElem? ht)
      refine ⟨hwf ht', ?_⟩
      simpa [cleanup] using h.handed
  | accepted hi =>
      refine ⟨h.wf, List.Perm.trans ?_ h.handed⟩
      rw [← List.append_assoc]
      refine List.perm_append_comm.trans ?_
      exact (List.perm_cons_erase hi).symm.append_right l.accepted

theorem Sound.oneStream {l : Listener} (h : l.Sound) (hids : l.ids.Nodup) :
    l.OneStream := by
  have hstream : ∀ sid i j, l.Serves sid i → l.Serves sid j → i = j := by
    intro sid i j hi hj
    have hlt : i < l.ids.length := (List.getElem?_eq_some_iff.mp hi.2).1
    exact (List.getElem?_inj hlt hids).mp (hi.2.trans hj.2.symm)
  refine ⟨?_, hstream, fun sid n i j hi hj => hstream sid i j hi.serves hj.serves⟩
  have hnodup := (h.handed.nodup_iff).mpr List.nodup_range
  exact hnodup.of_append_right

end Listener

namespace UdpNet

/-- No StreamOpen comes after the stream it opened has gone. -/
def NoLateOpen (w : UdpNet) : Event → Prop
  | .arrive d _ _ => ¬ w.listener.LateOpen d
  | _ => True

instance (w : UdpNet) : (a : Event) → Decidable (w.NoLateOpen a)
  | .arrive _ _ _ => inferInstanceAs (Decidable (¬ (_ ∧ _ ∧ _)))
  | .connect _ _ _ => isTrue trivial
  | .client _ _ => isTrue trivial
  | .atClient _ _ _ _ => isTrue trivial
  | .recv _ _ => isTrue trivial
  | .task _ _ => isTrue trivial
  | .cleanup _ => isTrue trivial
  | .accept _ => isTrue trivial

theorem sound_step {w w' : UdpNet} {a : Event} (h : w.listener.Sound)
    (hs : w.step a = some w') : w'.listener.Sound :=
  h.changes (step_changes h.wf hs)

theorem sound_run {as : List Event} {w : UdpNet}
    (hrun : Runs.Run step init as w) : w.listener.Sound := by
  refine Runs.run_preserves (I := fun w : UdpNet => w.listener.Sound)
    (fun u a u' hu hs => sound_step hu hs) ⟨?_, ?_⟩ hrun
  · intro t ht
    cases ht
  · exact List.Perm.refl _

/-- **Step lemma**: without a late StreamOpen no id is used twice. -/
theorem nodup_step {w w' : UdpNet} {a : Event} (h : w.listener.Sound)
    (hids : w.listener.ids.Nodup) (hnone : w.NoLateOpen a)
    (hs : w.step a = some w') : w'.listener.ids.Nodup := by
  rcases (step_changes h.wf hs).ids with hsame |
    ⟨d, src, now, rfl, hopen, hfree, hnew⟩
  · rw [hsame]
    exact hids
  · have hfresh : d.header.channelId ∉ w.listener.ids :=
      fun hmem => hnone ⟨hopen, hfree, hmem⟩
    rw [hnew]
    exact hids.append (List.nodup_singleton _) (by simpa using hfresh)

/-- A stream that was made can be handed out. -/
theorem accept_stream {w : UdpNet} (h : w.listener.Sound) {i : ℕ}
    (hi : i < w.listener.ids.length) :
    ∃ as w', Runs.Run step w as w' ∧ w'.listener.Sound ∧
      w'.listener.ids = w.listener.ids ∧ i ∈ w'.listener.accepted ∧
      ∀ j ∈ w.listener.accepted, j ∈ w'.listener.accepted := by
  have hmem : i ∈ w.listener.incoming ++ w.listener.accepted := by
    rw [h.handed.mem_iff, List.mem_range]
    simpa [Listener.ids] using hi
  rcases List.mem_append.mp hmem with hin | hacc
  · have hs : ∃ w', w.step (.accept i) = some w' := ⟨_, if_pos hin⟩
    obtain ⟨w', hs⟩ := hs
    refine ⟨[.accept i], w', Runs.run_cons.mpr ⟨w', hs, Runs.run_nil.mpr rfl⟩,
      sound_step h hs, ?_⟩
    simp only [step] at hs
    rw [if_pos hin] at hs
    cases hs
    exact ⟨rfl, List.mem_append_right _ (List.mem_singleton.mpr rfl),
      fun j hj => List.mem_append_left _ hj⟩
  · exact ⟨[], w, Runs.run_nil.mpr rfl, h, rfl, hacc, fun j hj => hj⟩

/-- A late StreamOpen leads to a second stream. -/
theorem late_open_reopens {w : UdpNet} (h : w.listener.Sound) {d : Datagram}
    (hd : d ∈ w.toListener) (hlate : w.listener.LateOpen d) (src : SocketAddr)
    (now : Instant) :
    ∃ as w', Runs.Run step w (.arrive d src now :: as) w' ∧
      ¬ w'.listener.OneStream := by
  obtain ⟨hopen, hfree, hmem⟩ := hlate
  have hs : ∃ w₁, w.step (.arrive d src now) = some w₁ ∧
      w₁.listener.ids = w.listener.ids ++ [d.header.channelId] := by
    refine ⟨_, if_pos hd, ?_⟩
    simp only [Listener.onPacket, hfree, if_pos hopen]
    rw [Listener.spawn_send w.listener src now ⟨d.header, d.payload, src⟩]
    simp [Listener.ids, StreamTask.streamId, Endpoint.accepting, UdpStream.new]
  obtain ⟨w₁, hs, hids⟩ := hs
  obtain ⟨j, hj, hjid⟩ := List.getElem_of_mem hmem
  have hold : w₁.listener.ids[j]? = some d.header.channelId := by
    rw [hids, List.getElem?_append_left hj, List.getElem?_eq_getElem hj, hjid]
  have hnew : w₁.listener.ids[w.listener.ids.length]? =
      some d.header.channelId := by
    rw [hids]
    simp
  -- both streams are handed out, the old one first
  obtain ⟨as₂, w₂, hrun₂, hsound₂, hids₂, hj₂, -⟩ :=
    accept_stream (sound_step h hs) (List.getElem?_eq_some_iff.mp hold).1
  rw [← hids₂] at hnew hold
  obtain ⟨as₃, w₃, hrun₃, -, hids₃, hn₃, hkeep⟩ :=
    accept_stream hsound₂ (List.getElem?_eq_some_iff.mp hnew).1
  rw [← hids₃] at hnew hold
  refine ⟨as₂ ++ as₃, w₃, Runs.run_cons.mpr ⟨w₁, hs,
    Runs.run_append.mpr ⟨w₂, hrun₂, hrun₃⟩⟩, fun hone => ?_⟩
  exact Nat.ne_of_lt hj
    (hone.stream d.header.channelId j _ ⟨hkeep j hj₂, hold⟩ ⟨hn₃, hnew⟩)

/-- **One stream per connect.** In every run of a listener with its clients in
which no StreamOpen arrives after the stream it opened has gone, `accept`
hands out at most one stream per id and no chunk reaches two of them; and from
every reachable state the arrival of such a StreamOpen can be continued to one
where it is otherwise. -/
theorem one_stream_per_connect (as : List Event) (w : UdpNet)
    (hrun : Runs.Run step init as w) :
    (Runs.Meets step NoLateOpen init as → w.listener.OneStream) ∧
    ∀ d ∈ w.toListener, w.listener.LateOpen d → ∀ src now,
      ∃ as' w', Runs.Run step w (.arrive d src now :: as') w' ∧
        ¬ w'.listener.OneStream := by
  have hsound := sound_run hrun
  constructor
  · intro hmeets
    refine hsound.oneStream ?_
    refine (Runs.run_preserves_of_meets (I := fun w : UdpNet =>
      w.listener.Sound ∧ w.listener.ids.Nodup) ?_ ?_ hmeets hrun).2
    · intro u a u' hu hnone hs
      exact ⟨sound_step hu.1 hs, nodup_step hu.1 hu.2 hnone hs⟩
    · exact ⟨sound_run (Runs.run_nil.mpr rfl), List.nodup_nil⟩
  · exact fun d hd hlate src now => late_open_reopens hsound hd hlate src now

/-- A client connects and writes one chunk, which the accepted stream takes. -/
def served : List Event :=
  [.connect 7 listenerAddr 0,
    .client 7 (.connectTurn 0),
    .arrive ⟨⟨7, .streamOpen, 0, 0, 0⟩, [], listenerAddr⟩
      connectorAddr 0,
    .recv 0 0, .accept 0,
    .atClient 7 ⟨⟨7, .streamOpenAck, 0, 0, 0⟩, [], connectorAddr⟩
      listenerAddr 0,
    .client 7 (.pollWrite 0 [1, 2, 3] 5), .client 7 (.writeRx 6),
    .arrive ⟨⟨7, .stream, 1, 0, 0⟩, [1, 2, 3], listenerAddr⟩
      connectorAddr 7,
    .recv 0 7]

theorem one_stream_per_connect_served : ∃ w,
    Runs.Run step init served w ∧ w.listener.accepted = [0] ∧
    w.listener.OneStream := by
  refine ⟨_, rfl, rfl, ?_⟩
  refine (one_stream_per_connect served _ rfl).1 ?_
  decide +kernel

/-- The server ends the stream; then copies of the client's StreamOpen and of
its chunk arrive. -/
def reopened : List Event :=
  [.task 0 .pollShutdown, .task 0 (.tick 50), .cleanup 0,
    .arrive ⟨⟨7, .streamOpen, 0, 0, 0⟩, [], listenerAddr⟩
      connectorAddr 60,
    .recv 1 60, .accept 1,
    .arrive ⟨⟨7, .stream, 1, 0, 0⟩, [1, 2, 3], listenerAddr⟩
      connectorAddr 61,
    .recv 1 61]

theorem chunk_delivered_twice : ∃ w,
    Runs.Run step init (served ++ reopened) w ∧
    w.listener.Delivered 7 1 0 ∧ w.listener.Delivered 7 1 1 ∧
    ¬ w.listener.OneStream := by
  have hrun : ∃ w t u, Runs.Run step init (served ++ reopened) w ∧
      w.listener.accepted = [0, 1] ∧
      w.listener.tasks[0]? = some t ∧ t.streamId = 7 ∧
      t.endpoint.st.nextReadSeq = 2 ∧
      w.listener.tasks[1]? = some u ∧ u.streamId = 7 ∧
      u.endpoint.st.nextReadSeq = 2 :=
    ⟨_, _, _, rfl, rfl, rfl, rfl, rfl, rfl, rfl, rfl⟩
  obtain ⟨w, t, u, hrun, hacc, ht, htid, htn, hu, huid, hun⟩ := hrun
  have hfirst : w.listener.Delivered 7 1 0 := by
    refine ⟨by simp [hacc], t, ht, htid, Or.inl ?_⟩
    rw [htn]
    decide
  have hsecond : w.listener.Delivered 7 1 1 := by
    refine ⟨by simp [hacc], u, hu, huid, Or.inl ?_⟩
    rw [hun]
    decide
  refine ⟨w, hrun, hfirst, hsecond, fun hone => ?_⟩
  exact absurd (hone.chunk 7 1 0 1 hfirst hsecond) (by decide)

end UdpNet

end Rathole
