import Rathole.Transport.Integrity
import Rathole.Transport.Listener

/-!
# Many clients behind one socket

A listener serves every client on one UDP socket and tells their datagrams
apart by the channel id alone: the source address of a datagram is believed,
whatever it is, and a packet that finds its task's queue full is dropped. The
guarantee of a single connection nevertheless carries over to each client. A
stream made for an id returns the chunks the client of this id accepted, in
order from the first, and none of another client's; where the id has one
stream, its client gets the chunks this stream accepted and none of another's.

The two directions differ. Upwards every datagram of an id comes from one
client, so that even a second stream for the id reads the same chunks.
Downwards two streams of one id both number their chunks from 1, and the
client cannot tell them apart.
-/

namespace Rathole

/-! ## Fresh ends -/

namespace Endpoint

/-- A packet is taken in only under the stream's own id. -/
theorem incoming_id {e : Endpoint} {pkt : IncomingPacket} {now : Instant}
    {r : Endpoint × Output} (hs : e.step (.incoming pkt now) = some r) :
    pkt.header.channelId = e.stream.streamId := by
  simp only [step] at hs
  split at hs
  · rename_i hcond
    have hroute := hcond.2
    unfold routes at hroute
    rw [Bool.and_eq_true, decide_eq_true_eq] at hroute
    exact hroute.1
  · cases hs

end Endpoint

theorem sends_fresh (a : SocketAddr) (now : Instant) :
    Sends ⟨StreamState.new .tcp, a, false, true, false, [], [], [], false, now⟩
      [] := by
  refine ⟨?_, ?_, ?_, ?_, ?_⟩ <;> simp [StreamState.new, Numbered]

theorem receives_fresh (a : SocketAddr) (now : Instant) :
    Receives [] ⟨StreamState.new .tcp, a, false, true, false, [], [], [], false,
      now⟩ := by
  refine ⟨?_, ?_, ?_, ?_, ?_⟩ <;>
    simp [StreamState.new, bytesBelow, StreamState.Drained]

/-- A datagram names the stream that sent it. -/
theorem Effect.sent_id {sid : UInt32} {v v' : View} {op : Op} {out : Output}
    (h : Effect sid v op v' out) {d : Datagram} (hd : d ∈ out.sent) :
    d.header.channelId = sid := by
  cases h with
  | openSent =>
      rw [List.mem_singleton.mp hd]
      rfl
  | incoming hopen hrun =>
      obtain ⟨p, -, rfl⟩ := List.mem_map.mp hd
      rfl
  | closeSent hch =>
      rw [List.mem_singleton.mp hd]
      rfl
  | chunkSent hch hseq =>
      rw [List.mem_singleton.mp hd]
      rfl
  | ticked pings hopen hpings halive =>
      obtain ⟨p, -, rfl⟩ := List.mem_map.mp hd
      rfl
  | _ => cases hd

/-- What a step accepts is added at the end. -/
theorem Effect.accepted_sub {sid : UInt32} {v v' : View} {op : Op}
    {out : Output} (h : Effect sid v op v' out) {x : ℕ × Bytes}
    (hx : x ∈ v.accepted) : x ∈ v'.accepted := by
  rcases h.accepted with ⟨hacc, -⟩ | ⟨d, hacc, -⟩
  · rw [hacc]
    exact hx
  · rw [hacc]
    exact List.mem_append_left _ hx

/-- A receiver does not notice what its writer accepts meanwhile. -/
theorem Receives.effect_other {sid : UInt32} {v v' u : View} {op : Op}
    {out : Output} {net : List Datagram} (h : Receives v.accepted u)
    (hsend : Sends v net) (heff : Effect sid v op v' out) :
    Receives v'.accepted u := by
  rcases heff.accepted with ⟨hacc, -⟩ | ⟨d, hacc, -⟩
  · rw [hacc]
    exact h
  · rw [hacc]
    exact h.snoc hsend.next d

/-- The sender's record needs no network. -/
theorem Sends.effect_alone {sid : UInt32} {v v' : View} {op : Op}
    {out : Output} (h : Sends v []) (heff : Effect sid v op v' out) :
    Sends v' [] ∧ ∀ d ∈ out.sent, d.header.packetKind = .stream →
      (d.header.seq, d.payload) ∈ v'.accepted := by
  have hnew := h.effect heff
  refine ⟨hnew.sub (fun d hd => absurd hd (by simp)), ?_⟩
  exact fun d hd hk => hnew.inFlight d hd hk

/-! ## What an event does -/

namespace UdpNet

/-- What an event changes, with the packets that a step takes in traced to
where they came from. -/
inductive Shape (w : UdpNet) : UdpNet → Prop where
  | connected {sid : UInt32} {server : SocketAddr} {now : Instant}
      (hnew : w.clients.lookup sid = none) :
      Shape w { w with
        clients := w.clients.insert sid (Endpoint.connecting sid server now) }
  | client {sid : UInt32} {e : Endpoint} {op : Op} {r : Endpoint × Output}
      (he : w.clients.lookup sid = some e) (hs : e.step op = some r)
      (hnet : Connection.FromNet w.toClients op) : Shape w (w.putClient sid r)
  | queued {d : Datagram} {i : ℕ} {t : StreamTask} (src : SocketAddr)
      (hd : d ∈ w.toListener) (ht : w.listener.tasks[i]? = some t) :
      Shape w { w with listener := { w.listener with
        tasks := w.listener.tasks.set i
          (t.trySend ⟨d.header, d.payload, src⟩) } }
  | spawned {d : Datagram} {l : Listener} (src : SocketAddr) (now : Instant)
      (hd : d ∈ w.toListener)
      (htasks : l.tasks = w.listener.tasks ++
        [⟨Endpoint.accepting d.header.channelId src now,
          [⟨d.header, d.payload, src⟩], false⟩]) :
      Shape w { w with listener := l }
  | refused {d : Datagram} (hclose : d.header.packetKind = .streamClose) :
      Shape w { w with toClients := w.toClients ++ [d] }
  | task {i : ℕ} {t : StreamTask} {op : Op} {r : Endpoint × Output}
      {packets : List IncomingPacket} (ht : w.listener.tasks[i]? = some t)
      (hs : t.endpoint.step op = some r) (hrest : packets ⊆ t.packets)
      (hin : ∀ pkt now, op = .incoming pkt now → pkt ∈ t.packets) :
      Shape w (w.putTask i { t with endpoint := r.1, packets := packets }
        r.2.sent)
  | cleaned {i : ℕ} {t : StreamTask} {l : Listener}
      (ht : w.listener.tasks[i]? = some t)
      (htasks : l.tasks = w.listener.tasks.set i { t with cleaned := true }) :
      Shape w { w with listener := l }
  | same {l : Listener} (htasks : l.tasks = w.listener.tasks) :
      Shape w { w with listener := l }

theorem shape_arrive {w : UdpNet} {d : Datagram} (src : SocketAddr)
    (now : Instant) (hd : d ∈ w.toListener) :
    Shape w { w with
      listener := (w.listener.onPacket ⟨d.header, d.payload, src⟩ now).1
      toClients := w.toClients ++
        (w.listener.onPacket ⟨d.header, d.payload, src⟩ now).2 } := by
  unfold Listener.onPacket
  dsimp only
  split
  · rename_i i hentry
    rw [List.append_nil]
    unfold Listener.send
    split
    · exact .queued src hd ‹_›
    · exact .same rfl
  · split
    · rw [List.append_nil,
        Listener.spawn_send w.listener src now ⟨d.header, d.payload, src⟩]
      exact .spawned src now hd rfl
    · exact .refused rfl

theorem step_shape {w w' : UdpNet} {a : Event} (hs : w.step a = some w') :
    Shape w w' := by
  have hown {op : Op} (hop : ¬ op.isIncoming = true) {ds : List Datagram} :
      Connection.FromNet ds op := by
    rintro pkt now rfl
    exact absurd rfl hop
  cases a with
  | connect sid server now =>
      simp only [step] at hs
      split at hs
      · cases hs
      · cases hs
        exact .connected ‹_›
  | client sid op =>
      simp only [step] at hs
      split at hs
      · cases hs
      · rename_i hop
        obtain ⟨e, he, hs⟩ := Option.bind_eq_some_iff.mp hs
        obtain ⟨r, hr, rfl⟩ := Option.map_eq_some_iff.mp hs
        exact .client he hr (hown hop)
  | atClient sid d src now =>
      simp only [step] at hs
      split at hs
      · rename_i hd
        obtain ⟨e, he, hs⟩ := Option.bind_eq_some_iff.mp hs
        obtain ⟨r, hr, rfl⟩ := Option.map_eq_some_iff.mp hs
        refine .client he hr ?_
        rintro pkt now' heq
        cases heq
        exact ⟨d, hd, rfl, rfl⟩
      · cases hs
  | arrive d src now =>
      simp only [step] at hs
      split at hs
      · cases hs
        exact shape_arrive src now ‹_›
      · cases hs
  | recv i now =>
      simp only [step] at hs
      obtain ⟨t, ht, hs⟩ := Option.bind_eq_some_iff.mp hs
      split at hs
      · cases hs
      · rename_i pkt rest hpk
        obtain ⟨r, hr, rfl⟩ := Option.map_eq_some_iff.mp hs
        refine .task ht hr ?_ ?_
        · rw [hpk]
          exact List.subset_cons_self _ _
        · rintro p now' heq
          cases heq
          rw [hpk]
          exact List.mem_cons_self
  | task i op =>
      simp only [step] at hs
      split at hs
      · cases hs
      · rename_i hop
        obtain ⟨t, ht, hs⟩ := Option.bind_eq_some_iff.mp hs
        obtain ⟨r, hr, rfl⟩ := Option.map_eq_some_iff.mp hs
        refine .task ht hr (List.Subset.refl _) ?_
        rintro pkt now rfl
        exact absurd (Or.inl rfl) hop
  | cleanup i =>
      simp only [step] at hs
      obtain ⟨t, ht, hs⟩ := Option.bind_eq_some_iff.mp hs
      split at hs
      · cases hs
        exact .cleaned ht rfl
      · cases hs
  | accept i =>
      simp only [step] at hs
      split at hs
      · cases hs
        exact .same rfl
      · cases hs

/-! ## From the clients to their streams -/

/-- A client speaks under this packet's channel id, and a chunk in it is one
that client accepted. -/
def Spoken (clients : HashMap UInt32 Endpoint) (h : TransportPacketHeader)
    (payload : Bytes) : Prop :=
  ∃ e, clients.lookup h.channelId = some e ∧
    (h.packetKind = .stream → (h.seq, payload) ∈ e.accepted)

/-- The client of an id is the writer whose chunks the view reads. -/
def ReadsFrom (clients : HashMap UInt32 Endpoint) (sid : UInt32) (v : View) :
    Prop :=
  ∃ e, clients.lookup sid = some e ∧ Receives e.accepted v

structure Uplink (w : UdpNet) : Prop where
  client : ∀ sid e, w.clients.lookup sid = some e →
    e.WF ∧ e.stream.streamId = sid ∧ Sends e.snap []
  inFlight : ∀ d ∈ w.toListener, Spoken w.clients d.header d.payload
  queued : ∀ t ∈ w.listener.tasks, ∀ pkt ∈ t.packets,
    Spoken w.clients pkt.header pkt.payload
  wf : ∀ t ∈ w.listener.tasks, t.endpoint.WF
  task : ∀ t ∈ w.listener.tasks,
    ReadsFrom w.clients t.streamId t.endpoint.snap

section Clients

variable {w : UdpNet} {sid : UInt32} {e : Endpoint}

/-- A new client changes nothing for the others. -/
theorem lookup_connected (hnew : w.clients.lookup sid = none)
    {sid' : UInt32} {e' : Endpoint} (h : w.clients.lookup sid' = some e') :
    (w.clients.insert sid e).lookup sid' = some e' := by
  rw [AList.lookup_insert_ne, h]
  rintro rfl
  rw [hnew] at h
  cases h

theorem lookup_putClient_self {r : Endpoint × Output} {e' : Endpoint}
    (h : (w.putClient sid r).clients.lookup sid = some e') : r.1 = e' := by
  unfold putClient at h
  rw [AList.lookup_insert] at h
  exact Option.some.inj h

theorem lookup_putClient_ne {r : Endpoint × Output} {sid' : UInt32}
    {e' : Endpoint} (hne : sid' ≠ sid)
    (h : (w.putClient sid r).clients.lookup sid' = some e') :
    w.clients.lookup sid' = some e' := by
  unfold putClient at h
  rw [AList.lookup_insert_ne hne] at h
  exact h

/-- What was spoken stays so when a client takes a step. -/
theorem Spoken.putClient {r : Endpoint × Output} {op : Op}
    (he : w.clients.lookup sid = some e)
    (heff : Effect e.stream.streamId e.snap op r.1.snap r.2)
    {h : TransportPacketHeader} {payload : Bytes}
    (hsp : Spoken w.clients h payload) :
    Spoken (w.clients.insert sid r.1) h payload := by
  obtain ⟨e', he', hmem⟩ := hsp
  by_cases hsid : h.channelId = sid
  · rw [hsid, he] at he'
    cases he'
    refine ⟨r.1, ?_, fun hk => heff.accepted_sub (hmem hk)⟩
    rw [hsid, AList.lookup_insert]
  · exact ⟨e', by rw [AList.lookup_insert_ne hsid, he'], hmem⟩

theorem ReadsFrom.putClient {r : Endpoint × Output} {op : Op}
    (he : w.clients.lookup sid = some e) (hsend : Sends e.snap [])
    (heff : Effect e.stream.streamId e.snap op r.1.snap r.2) {sid' : UInt32}
    {v : View} (h : ReadsFrom w.clients sid' v) :
    ReadsFrom (w.clients.insert sid r.1) sid' v := by
  obtain ⟨e', he', hrec⟩ := h
  by_cases hsid : sid' = sid
  · rw [hsid, he] at he'
    cases he'
    refine ⟨r.1, by rw [hsid, AList.lookup_insert], ?_⟩
    exact Receives.effect_other (v := e.snap) hrec hsend heff
  · exact ⟨e', by rw [AList.lookup_insert_ne hsid, he'], hrec⟩

end Clients

theorem mem_trySend {t : StreamTask} {pkt x : IncomingPacket}
    (h : x ∈ (t.trySend pkt).packets) : x ∈ t.packets ∨ x = pkt := by
  unfold StreamTask.trySend at h
  split at h
  · rcases List.mem_append.mp h with hold | hnew
    · exact Or.inl hold
    · exact Or.inr (List.mem_singleton.mp hnew)
  · exact Or.inl h

theorem trySend_endpoint (t : StreamTask) (pkt : IncomingPacket) :
    (t.trySend pkt).endpoint = t.endpoint := by
  unfold StreamTask.trySend
  split <;> rfl

theorem Uplink.connected {w : UdpNet} (h : w.Uplink) {sid : UInt32}
    (server : SocketAddr) (now : Instant)
    (hnew : w.clients.lookup sid = none) :
    Uplink { w with clients :=
      w.clients.insert sid (Endpoint.connecting sid server now) } := by
  have hsp : ∀ {hd payload}, Spoken w.clients hd payload →
      Spoken (w.clients.insert sid (Endpoint.connecting sid server now)) hd
        payload := by
    rintro hd payload ⟨e, he, hmem⟩
    exact ⟨e, lookup_connected hnew he, hmem⟩
  refine ⟨?_, fun d hd => hsp (h.inFlight d hd),
    fun t ht pkt hpkt => hsp (h.queued t ht pkt hpkt), h.wf, ?_⟩
  · intro sid' e' he'
    by_cases hsid : sid' = sid
    · subst hsid
      rw [AList.lookup_insert] at he'
      cases he'
      refine ⟨(Endpoint.holds_connecting _ _ _).wf, rfl, ?_⟩
      rw [Endpoint.snap_connecting]
      exact sends_fresh server now
    · rw [AList.lookup_insert_ne hsid] at he'
      exact h.client sid' e' he'
  · intro t ht
    obtain ⟨e, he, hrec⟩ := h.task t ht
    exact ⟨e, lookup_connected hnew he, hrec⟩

theorem Uplink.putClient {w : UdpNet} (h : w.Uplink) {sid : UInt32}
    {e : Endpoint} {op : Op} {r : Endpoint × Output}
    (he : w.clients.lookup sid = some e) (hs : e.step op = some r) :
    (w.putClient sid r).Uplink := by
  obtain ⟨hwf, hid, hsend⟩ := h.client sid e he
  obtain ⟨e', out⟩ := r
  obtain ⟨hwf', heff⟩ := Endpoint.wf_step hwf hs
  obtain ⟨hsend', hsent⟩ := hsend.effect_alone heff
  refine ⟨?_, ?_, ?_, h.wf, ?_⟩
  · intro sid' e₂ he₂
    by_cases hsid : sid' = sid
    · subst hsid
      rw [← lookup_putClient_self he₂]
      exact ⟨hwf', (Endpoint.step_streamId hwf hs).1.trans hid, hsend'⟩
    · exact h.client sid' e₂ (lookup_putClient_ne hsid he₂)
  · intro d hd
    rcases List.mem_append.mp hd with hold | hnew
    · exact (h.inFlight d hold).putClient he heff
    · refine ⟨e', ?_, hsent d hnew⟩
      rw [heff.sent_id hnew, hid]
      exact AList.lookup_insert _
  · exact fun t ht pkt hpkt => (h.queued t ht pkt hpkt).putClient he heff
  · exact fun t ht => (h.task t ht).putClient he hsend heff

/-- The tasks may change as long as each still reads from its client. -/
theorem Uplink.setTask {w : UdpNet} (h : w.Uplink) {l : Listener}
    {t' : StreamTask} {i : ℕ} {ds : List Datagram}
    (htasks : l.tasks = w.listener.tasks.set i t')
    (hpkts : ∀ pkt ∈ t'.packets, Spoken w.clients pkt.header pkt.payload)
    (hwf : t'.endpoint.WF)
    (hread : ReadsFrom w.clients t'.streamId t'.endpoint.snap) :
    Uplink { w with listener := l, toClients := ds } := by
  have hmem : ∀ t ∈ l.tasks, t ∈ w.listener.tasks ∨ t = t' := by
    rw [htasks]
    exact fun t ht => List.mem_or_eq_of_mem_set ht
  refine ⟨h.client, h.inFlight, ?_, ?_, ?_⟩
  · intro t ht
    rcases hmem t ht with hold | rfl
    · exact h.queued t hold
    · exact hpkts
  · intro t ht
    rcases hmem t ht with hold | rfl
    · exact h.wf t hold
    · exact hwf
  · intro t ht
    rcases hmem t ht with hold | rfl
    · exact h.task t hold
    · exact hread

/-- **Step lemma**, from the clients to the streams. -/
theorem Uplink.step {w w' : UdpNet} (h : w.Uplink) (hs : Shape w w') :
    w'.Uplink := by
  cases hs with
  | connected hnew => exact h.connected _ _ hnew
  | client he hs hnet => exact h.putClient he hs
  | queued src hd ht =>
      have hmem := List.mem_of_getElem? ht
      refine h.setTask rfl ?_ ?_ ?_
      · intro pkt hpkt
        rcases mem_trySend hpkt with hold | rfl
        · exact h.queued _ hmem pkt hold
        · exact h.inFlight _ hd
      · rw [trySend_endpoint]
        exact h.wf _ hmem
      · unfold StreamTask.streamId
        rw [trySend_endpoint]
        exact h.task _ hmem
  | spawned src now hd htasks =>
      rename_i d l
      have hnew : ∀ t ∈ l.tasks, t ∈ w.listener.tasks ∨
          t = ⟨Endpoint.accepting d.header.channelId src now,
            [⟨d.header, d.payload, src⟩], false⟩ := by
        rw [htasks]
        intro t ht
        rcases List.mem_append.mp ht with hold | hnew
        · exact Or.inl hold
        · exact Or.inr (List.mem_singleton.mp hnew)
      obtain ⟨e, he, hchunk⟩ := h.inFlight d hd
      refine ⟨h.client, h.inFlight, ?_, ?_, ?_⟩
      · intro t ht
        rcases hnew t ht with hold | rfl
        · exact h.queued t hold
        · intro pkt hpkt
          rw [List.mem_singleton.mp hpkt]
          exact ⟨e, he, hchunk⟩
      · intro t ht
        rcases hnew t ht with hold | rfl
        · exact h.wf t hold
        · exact (Endpoint.holds_accepting _ _ _).wf
      · intro t ht
        rcases hnew t ht with hold | rfl
        · exact h.task t hold
        · refine ⟨e, he, ?_⟩
          have hnum := (h.client _ e he).2.2.numbered
          rw [Endpoint.snap_accepting]
          refine ⟨le_refl 1, Nat.succ_pos _, ?_, ?_, ?_⟩
          · simp [StreamState.Drained, StreamState.new]
          · simp [StreamState.new]
          · show [] = bytesBelow e.snap.accepted 1
            rw [hnum.bytesBelow_eq]
            rfl
  | refused hclose => exact ⟨h.client, h.inFlight, h.queued, h.wf, h.task⟩
  | task ht hs hrest hin =>
      rename_i i t op r packets
      have hmem := List.mem_of_getElem? ht
      obtain ⟨e', out⟩ := r
      obtain ⟨hwf', heff⟩ := Endpoint.wf_step (h.wf t hmem) hs
      refine h.setTask rfl (fun pkt hpkt => h.queued t hmem pkt (hrest hpkt))
        hwf' ?_
      obtain ⟨e, he, hrec⟩ := h.task t hmem
      have hid : e'.stream.streamId = t.streamId :=
        (Endpoint.step_streamId (h.wf t hmem) hs).1
      refine ⟨e, by rw [← he, ← hid]; rfl, ?_⟩
      refine hrec.effect (h.client _ e he).2.2.numbered heff ?_
      rintro pkt now rfl hk -
      obtain ⟨e₂, he₂, hchunk⟩ := h.queued t hmem pkt (hin pkt now rfl)
      rw [Endpoint.incoming_id hs] at he₂
      cases he.symm.trans he₂
      exact hchunk hk
  | cleaned ht htasks =>
      rename_i i t l
      have hmem := List.mem_of_getElem? ht
      exact h.setTask htasks (h.queued t hmem) (h.wf t hmem) (h.task t hmem)
  | same htasks =>
      refine ⟨h.client, h.inFlight, ?_, ?_, ?_⟩ <;>
        · dsimp only
          rw [htasks]
          first
            | exact h.queued
            | exact h.wf
            | exact h.task

/-! ## From the streams to their clients -/

/-- The stream `i` is the only one that was ever made for `sid`. -/
def Only (l : Listener) (sid : UInt32) (i : ℕ) (t : StreamTask) : Prop :=
  l.tasks[i]? = some t ∧ t.streamId = sid ∧
    ∀ j u, l.tasks[j]? = some u → u.streamId = sid → j = i

/-- A stream sends under this channel id, and a chunk in the datagram is one
that stream accepted. -/
def Answered (l : Listener) (d : Datagram) : Prop :=
  d.header.packetKind = .stream → ∃ (i : ℕ) (t : StreamTask),
    l.tasks[i]? = some t ∧ t.streamId = d.header.channelId ∧
    (d.header.seq, d.payload) ∈ t.endpoint.accepted

/-- The client `sid` reads what its stream accepted, if it has one stream, and
has read nothing if it has none. -/
structure ReadsOnly (l : Listener) (sid : UInt32) (v : View) : Prop where
  none : (∀ t ∈ l.tasks, t.streamId ≠ sid) → Receives [] v
  one : ∀ i t, Only l sid i t → Receives t.endpoint.accepted v

structure Downlink (w : UdpNet) : Prop where
  task : ∀ t ∈ w.listener.tasks, Sends t.endpoint.snap []
  inFlight : ∀ d ∈ w.toClients, Answered w.listener d
  client : ∀ sid e, w.clients.lookup sid = some e →
    ReadsOnly w.listener sid e.snap

/-- The one stream of an id is still its one stream after a task has moved. -/
theorem only_set {l l' : Listener} {i : ℕ} {t t' : StreamTask}
    (ht : l.tasks[i]? = some t) (hid : t'.streamId = t.streamId)
    (htasks : l'.tasks = l.tasks.set i t') {sid : UInt32} {j : ℕ}
    {u : StreamTask} (h : Only l' sid j u) :
    (j = i ∧ u = t' ∧ Only l sid i t) ∨ (j ≠ i ∧ Only l sid j u) := by
  obtain ⟨hu, hsid, honly⟩ := h
  have hlt : i < l.tasks.length := (List.getElem?_eq_some_iff.mp ht).1
  have hnew : l'.tasks[i]? = some t' := by
    rw [htasks, List.getElem?_set_self hlt]
  have hkeep : ∀ k, k ≠ i → l'.tasks[k]? = l.tasks[k]? := by
    intro k hk
    rw [htasks, List.getElem?_set_ne (Ne.symm hk)]
  have hold : ∀ k v, l.tasks[k]? = some v → v.streamId = sid → k = j := by
    intro k v hv hvid
    by_cases hk : k = i
    · subst hk
      rw [ht] at hv
      cases hv
      exact honly k t' hnew (hid.trans hvid)
    · exact honly k v ((hkeep k hk).trans hv) hvid
  by_cases hj : j = i
  · subst hj
    rw [hnew] at hu
    cases hu
    exact Or.inl ⟨rfl, rfl, ht, hid.symm.trans hsid, hold⟩
  · exact Or.inr ⟨hj, (hkeep j hj).symm.trans hu, hsid, hold⟩

/-- A task moves: its client reads on, the others do not notice. -/
theorem ReadsOnly.setTask {l l' : Listener} {i : ℕ} {t t' : StreamTask}
    {sid : UInt32} {v : View} (h : ReadsOnly l sid v)
    (ht : l.tasks[i]? = some t) (hid : t'.streamId = t.streamId)
    (htasks : l'.tasks = l.tasks.set i t')
    (hgrow : Receives t.endpoint.accepted v →
      Receives t'.endpoint.accepted v) : ReadsOnly l' sid v := by
  constructor
  · intro hnone
    refine h.none (fun u hu => ?_)
    obtain ⟨k, hk, rfl⟩ := List.getElem_of_mem hu
    by_cases hki : k = i
    · subst hki
      have hself : l.tasks[k] = t :=
        (List.getElem?_eq_some_iff.mp ht).2
      rw [hself, ← hid]
      refine hnone t' ?_
      rw [htasks]
      exact List.mem_iff_getElem?.mpr ⟨k, List.getElem?_set_self hk⟩
    · refine hnone _ ?_
      rw [htasks]
      refine List.mem_iff_getElem?.mpr ⟨k, ?_⟩
      rw [List.getElem?_set_ne (Ne.symm hki), List.getElem?_eq_getElem hk]
  · intro j u hu
    rcases only_set ht hid htasks hu with ⟨-, rfl, hone⟩ | ⟨-, hone⟩
    · exact hgrow (h.one i t hone)
    · exact h.one j u hone

/-- A new stream has accepted nothing. -/
theorem ReadsOnly.spawned {l l' : Listener} {t' : StreamTask} {sid : UInt32}
    {v : View} (h : ReadsOnly l sid v) (hfresh : t'.endpoint.accepted = [])
    (htasks : l'.tasks = l.tasks ++ [t']) : ReadsOnly l' sid v := by
  have hold : ∀ (k : ℕ) (u : StreamTask), l.tasks[k]? = some u →
      l'.tasks[k]? = some u := by
    intro k u hu
    obtain ⟨hlt, -⟩ := List.getElem?_eq_some_iff.mp hu
    rw [htasks, List.getElem?_append_left hlt, hu]
  constructor
  · intro hnone
    refine h.none (fun u hu => hnone u ?_)
    rw [htasks]
    exact List.mem_append_left _ hu
  · rintro j u ⟨hu, hsid, honly⟩
    rw [htasks, List.getElem?_append] at hu
    split at hu
    · exact h.one j u
        ⟨hu, hsid, fun k x hx hxid => honly k x (hold k x hx) hxid⟩
    · -- the only stream is the new one: there was none before
      rename_i hge
      rw [List.getElem?_singleton] at hu
      split at hu
      · cases hu
        rw [hfresh]
        refine h.none (fun x hx hxid => ?_)
        obtain ⟨k, hk, rfl⟩ := List.getElem_of_mem hx
        have hkj := honly k _ (hold k _ (List.getElem?_eq_getElem hk)) hxid
        omega
      · cases hu

theorem Answered.setTask {l l' : Listener} {i : ℕ} {t t' : StreamTask}
    {d : Datagram} (h : Answered l d) (ht : l.tasks[i]? = some t)
    (hid : t'.streamId = t.streamId)
    (htasks : l'.tasks = l.tasks.set i t')
    (hgrow : ∀ x ∈ t.endpoint.accepted, x ∈ t'.endpoint.accepted) :
    Answered l' d := by
  intro hk
  obtain ⟨j, u, hu, huid, hmem⟩ := h hk
  have hlt : i < l.tasks.length := (List.getElem?_eq_some_iff.mp ht).1
  by_cases hj : j = i
  · subst hj
    rw [ht] at hu
    cases hu
    exact ⟨j, t', by rw [htasks, List.getElem?_set_self hlt],
      hid.trans huid, hgrow _ hmem⟩
  · exact ⟨j, u, by rw [htasks, List.getElem?_set_ne (Ne.symm hj), hu], huid,
      hmem⟩

/-- A client takes in chunks of its own stream only. -/
theorem ReadsOnly.effect {w : UdpNet} {sid : UInt32} {e : Endpoint} {op : Op}
    {r : Endpoint × Output} (hdown : w.Downlink)
    (he : w.clients.lookup sid = some e) (hid : e.stream.streamId = sid)
    (hs : e.step op = some r)
    (heff : Effect e.stream.streamId e.snap op r.1.snap r.2)
    (hnet : Connection.FromNet w.toClients op) :
    ReadsOnly w.listener sid r.1.snap := by
  -- a chunk that arrives is some stream's of this id
  have hchunk : ∀ pkt now, op = .incoming pkt now →
      pkt.header.packetKind = .stream → ∃ (i : ℕ) (t : StreamTask),
        w.listener.tasks[i]? = some t ∧ t.streamId = sid ∧
        (pkt.header.seq, pkt.payload) ∈ t.endpoint.accepted := by
    rintro pkt now rfl hk
    obtain ⟨d, hd, hh, hp⟩ := hnet pkt now rfl
    obtain ⟨i, t, ht, htid, hmem⟩ := hdown.inFlight d hd (hh ▸ hk)
    rw [hh, Endpoint.incoming_id hs, hid] at htid
    rw [hh, hp] at hmem
    exact ⟨i, t, ht, htid, hmem⟩
  constructor
  · intro hnone
    refine ((hdown.client sid e he).none hnone).effect rfl heff ?_
    intro pkt now hop hk _
    obtain ⟨i, t, ht, htid, -⟩ := hchunk pkt now hop hk
    exact absurd htid (hnone t (List.mem_of_getElem? ht))
  · intro i t hone
    have hnum := (hdown.task t (List.mem_of_getElem? hone.1)).numbered
    refine ((hdown.client sid e he).one i t hone).effect hnum heff ?_
    intro pkt now hop hk _
    obtain ⟨j, u, hu, huid, hmem⟩ := hchunk pkt now hop hk
    cases hone.2.2 j u hu huid
    rw [hone.1] at hu
    cases hu
    exact hmem

/-- The tasks change as long as each goes on accepting. -/
theorem Downlink.setTask {w : UdpNet} (h : w.Downlink) {l : Listener} {i : ℕ}
    {t t' : StreamTask} {ds : List Datagram}
    (ht : w.listener.tasks[i]? = some t) (hid : t'.streamId = t.streamId)
    (htasks : l.tasks = w.listener.tasks.set i t')
    (hsend : Sends t'.endpoint.snap [])
    (hgrow : ∀ x ∈ t.endpoint.accepted, x ∈ t'.endpoint.accepted)
    (hread : ∀ v, Receives t.endpoint.accepted v →
      Receives t'.endpoint.accepted v)
    (hds : ∀ d ∈ ds, Answered l d) :
    Downlink { w with listener := l, toClients := w.toClients ++ ds } := by
  refine ⟨?_, ?_, ?_⟩
  · rw [htasks]
    intro u hu
    rcases List.mem_or_eq_of_mem_set hu with hold | rfl
    · exact h.task u hold
    · exact hsend
  · intro d hd
    rcases List.mem_append.mp hd with hold | hnew
    · exact (h.inFlight d hold).setTask ht hid htasks hgrow
    · exact hds d hnew
  · exact fun sid e he => (h.client sid e he).setTask ht hid htasks (hread _)

/-- The same with nothing sent and nothing accepted. -/
theorem Downlink.setQuiet {w : UdpNet} (h : w.Downlink) {l : Listener} {i : ℕ}
    {t t' : StreamTask} (ht : w.listener.tasks[i]? = some t)
    (hsame : t'.endpoint = t.endpoint)
    (htasks : l.tasks = w.listener.tasks.set i t') :
    Downlink { w with listener := l } := by
  have hid : t'.streamId = t.streamId := by
    unfold StreamTask.streamId
    rw [hsame]
  have hnew : Downlink { w with
      listener := l, toClients := w.toClients ++ [] } := by
    refine h.setTask ht hid htasks ?_ ?_ ?_ (by simp)
    · rw [hsame]
      exact h.task t (List.mem_of_getElem? ht)
    · rw [hsame]
      exact fun x hx => hx
    · rw [hsame]
      exact fun v hv => hv
  rw [List.append_nil] at hnew
  exact hnew

/-- A new client has read nothing, and no stream of its id is there. -/
theorem Downlink.connected {w : UdpNet} (h : w.Downlink) (hup : w.Uplink)
    {sid : UInt32} (server : SocketAddr) (now : Instant)
    (hnew : w.clients.lookup sid = none) :
    Downlink { w with
      clients :=
        w.clients.insert sid (Endpoint.connecting sid server now) } := by
  refine ⟨h.task, h.inFlight, ?_⟩
  intro sid' e' he'
  by_cases hsid : sid' = sid
  · -- every stream has a client, so there is none for the new id
    subst hsid
    dsimp only at he'
    rw [AList.lookup_insert] at he'
    cases he'
    rw [Endpoint.snap_connecting]
    refine ⟨fun _ => receives_fresh server now, ?_⟩
    intro i t hone
    obtain ⟨e, he, -⟩ := hup.task t (List.mem_of_getElem? hone.1)
    rw [hone.2.1, hnew] at he
    cases he
  · exact h.client sid' e' ((AList.lookup_insert_ne hsid).symm.trans he')

theorem Downlink.putClient {w : UdpNet} (h : w.Downlink) (hup : w.Uplink)
    {sid : UInt32} {e : Endpoint} {op : Op} {r : Endpoint × Output}
    (he : w.clients.lookup sid = some e) (hs : e.step op = some r)
    (hnet : Connection.FromNet w.toClients op) :
    (w.putClient sid r).Downlink := by
  obtain ⟨hwf, hid, -⟩ := hup.client sid e he
  obtain ⟨e', out⟩ := r
  obtain ⟨-, heff⟩ := Endpoint.wf_step hwf hs
  refine ⟨h.task, h.inFlight, ?_⟩
  intro sid' e₂ he₂
  by_cases hsid : sid' = sid
  · subst hsid
    have hnew := ReadsOnly.effect h he hid hs heff hnet
    rw [← lookup_putClient_self he₂]
    exact hnew
  · exact h.client sid' e₂ (lookup_putClient_ne hsid he₂)

/-- A new stream has sent nothing. -/
theorem Downlink.spawned {w : UdpNet} (h : w.Downlink) {d : Datagram}
    {l : Listener} (src : SocketAddr) (now : Instant)
    (htasks : l.tasks = w.listener.tasks ++
      [⟨Endpoint.accepting d.header.channelId src now,
        [⟨d.header, d.payload, src⟩], false⟩]) :
    Downlink { w with listener := l } := by
  refine ⟨?_, ?_, fun sid e he => (h.client sid e he).spawned rfl htasks⟩
  · rw [htasks]
    intro t ht
    rcases List.mem_append.mp ht with hold | hnew
    · exact h.task t hold
    · rw [List.mem_singleton.mp hnew, Endpoint.snap_accepting]
      exact sends_fresh src now
  · intro x hx hk
    obtain ⟨j, u, hu, hmem⟩ := h.inFlight x hx hk
    obtain ⟨hlt, -⟩ := List.getElem?_eq_some_iff.mp hu
    refine ⟨j, u, ?_, hmem⟩
    dsimp only
    rw [htasks, List.getElem?_append_left hlt, hu]

theorem Downlink.putTask {w : UdpNet} (h : w.Downlink) (hup : w.Uplink) {i : ℕ}
    {t : StreamTask} {op : Op} {r : Endpoint × Output}
    (packets : List IncomingPacket) (ht : w.listener.tasks[i]? = some t)
    (hs : t.endpoint.step op = some r) :
    (w.putTask i { t with endpoint := r.1, packets := packets }
      r.2.sent).Downlink := by
  have hmem := List.mem_of_getElem? ht
  obtain ⟨e', out⟩ := r
  have hid : e'.stream.streamId = t.streamId :=
    (Endpoint.step_streamId (hup.wf t hmem) hs).1
  obtain ⟨-, heff⟩ := Endpoint.wf_step (hup.wf t hmem) hs
  obtain ⟨hsend, hsent⟩ := (h.task t hmem).effect_alone heff
  have hlt : i < w.listener.tasks.length :=
    (List.getElem?_eq_some_iff.mp ht).1
  have hread : ∀ v, Receives t.endpoint.accepted v → Receives e'.accepted v :=
    fun v hv => Receives.effect_other hv (h.task t hmem) heff
  refine h.setTask ht ?_ rfl hsend (fun x hx => heff.accepted_sub hx) hread ?_
  · exact hid
  intro d hd hk
  refine ⟨i, _, List.getElem?_set_self hlt, ?_, hsent d hd hk⟩
  rw [heff.sent_id hd]
  exact hid

/-- What else the listener holds does not matter. -/
theorem Downlink.same {w : UdpNet} (h : w.Downlink) {l : Listener}
    (htasks : l.tasks = w.listener.tasks) :
    Downlink { w with listener := l } := by
  refine ⟨?_, ?_, ?_⟩
  · dsimp only
    rw [htasks]
    exact h.task
  · intro x hx hk
    dsimp only
    rw [htasks]
    exact h.inFlight x hx hk
  · intro sid e he
    obtain ⟨hnone, hone⟩ := h.client sid e he
    refine ⟨?_, ?_⟩
    · dsimp only
      rw [htasks]
      exact hnone
    · intro i t ht
      unfold Only at ht
      dsimp only at ht
      rw [htasks] at ht
      exact hone i t ht

/-- **Step lemma**, from the streams to the clients. -/
theorem Downlink.step {w w' : UdpNet} (h : w.Downlink) (hup : w.Uplink)
    (hs : Shape w w') : w'.Downlink := by
  cases hs with
  | connected hnew => exact h.connected hup _ _ hnew
  | client he hs hnet => exact h.putClient hup he hs hnet
  | queued src hd ht => exact h.setQuiet ht (trySend_endpoint _ _) rfl
  | spawned src now hd htasks => exact h.spawned src now htasks
  | refused hclose =>
      refine ⟨h.task, ?_, h.client⟩
      intro x hx
      rcases List.mem_append.mp hx with hold | hnew
      · exact h.inFlight x hold
      · intro hk
        rw [List.mem_singleton.mp hnew, hclose] at hk
        cases hk
  | task ht hs hrest hin => exact h.putTask hup _ ht hs
  | cleaned ht htasks =>
      refine h.setQuiet ht ?_ htasks
      rfl
  | same htasks => exact h.same htasks

/-! ## The main result -/

theorem linked_run {as : List Event} {w : UdpNet}
    (hrun : Runs.Run step init as w) : w.Uplink ∧ w.Downlink := by
  refine Runs.run_preserves (I := fun w : UdpNet => w.Uplink ∧ w.Downlink)
    ?_ ⟨⟨?_, ?_, ?_, ?_, ?_⟩, ?_, ?_, ?_⟩ hrun
  · exact fun u a u' hu hs => ⟨hu.1.step (step_shape hs),
      hu.2.step hu.1 (step_shape hs)⟩
  all_goals simp [init]

/-- The reader of `dst` has obtained, or finds in its buffer, the chunks that
`src` accepted, in order from the first, up to some number. -/
structure Conveys (src dst : Endpoint) : Prop where
  numbered : Numbered src.accepted
  upTo : dst.st.nextReadSeq ≤ src.accepted.length + 1
  bytes : dst.returned ++ dst.st.readBufBytes =
    bytesBelow src.accepted dst.st.nextReadSeq

/-- **Streams of one listener do not mix.** In every run of a listener with any
number of clients, whatever the network does with their datagrams, and from
whatever address it delivers them: every stream conveys what the client of its
own id wrote, also where the listener has made several for that id; and where
it has made one, the client conveys what this stream wrote. -/
theorem streams_isolated (as : List Event) (w : UdpNet)
    (hrun : Runs.Run step init as w) (i : ℕ) (t : StreamTask)
    (ht : w.listener.tasks[i]? = some t) :
    ∃ e, w.clients.lookup t.streamId = some e ∧ Conveys e t.endpoint ∧
      ((∀ j u, w.listener.tasks[j]? = some u → u.streamId = t.streamId →
        j = i) → Conveys t.endpoint e) := by
  obtain ⟨hup, hdown⟩ := linked_run hrun
  have hmem := List.mem_of_getElem? ht
  obtain ⟨e, he, hrec⟩ := hup.task t hmem
  obtain ⟨-, -, hsend⟩ := hup.client _ e he
  refine ⟨e, he, ⟨hsend.numbered, hrec.bound, hrec.bytes⟩, fun honly => ?_⟩
  have hback := (hdown.client _ e he).one i t ⟨ht, rfl, honly⟩
  exact ⟨(hdown.task t hmem).numbered, hback.bound, hback.bytes⟩

/-- Two clients write at the same time; the second one's datagrams come from
the first one's address. -/
def crossing : List Event :=
  served ++
    [.connect 9 listenerAddr 10, .client 9 (.connectTurn 10),
      .arrive ⟨⟨9, .streamOpen, 0, 0, 0⟩, [], listenerAddr⟩ connectorAddr 10,
      .recv 1 10,
      .client 9 (.pollWrite 0 [9, 9] 11), .client 9 (.writeRx 11),
      .arrive ⟨⟨9, .stream, 1, 0, 0⟩, [9, 9], listenerAddr⟩ connectorAddr 12,
      .recv 1 12]

theorem streams_isolated_crossing : ∃ w t,
    Runs.Run step init crossing w ∧ w.listener.tasks[1]? = some t ∧
    t.endpoint.st.readBufBytes = [9, 9] ∧
    ∃ e, w.clients.lookup t.streamId = some e ∧ Conveys e t.endpoint ∧
      ((∀ j u, w.listener.tasks[j]? = some u → u.streamId = t.streamId →
        j = 1) → Conveys t.endpoint e) :=
  ⟨_, _, rfl, rfl, rfl, streams_isolated crossing _ rfl 1 _ rfl⟩

end UdpNet

end Rathole
