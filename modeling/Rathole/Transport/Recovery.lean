import Rathole.Transport.Integrity

/-!
# Recovery in TCP mode

A chunk leaves the write queue only once the peer holds it. The invariant is
`Confirmed`: what the sender no longer queues the receiver has, and no Sack in
flight, however stale, acknowledges a chunk the receiver lacks. From any state
with this invariant one round without loss, a tick, its chunks, their Sacks,
brings the two ends level.
-/

namespace Rathole

open StreamState (Acked)

/-! ## Nothing is given up -/

/-- In TCP mode every chunk the sender `a` has numbered is still queued, or
`P` holds of it. -/
def Accounted (P : ℕ → Prop) (a : StreamState) : Prop :=
  a.mode = .tcp → ∀ i, 1 ≤ i → i < a.nextWriteSeq →
    (∃ p, (i, p) ∈ a.writeQueue.entries) ∨ P i

theorem Accounted.mono {P Q : ℕ → Prop} {a : StreamState} (h : Accounted P a)
    (hPQ : ∀ i, P i → Q i) : Accounted Q a := by
  intro hmode i h1 hi
  rcases h hmode i h1 hi with hq | hP
  · exact Or.inl hq
  · exact Or.inr (hPQ i hP)

theorem Accounted.tick {P : ℕ → Prop} {a : StreamState} (h : Accounted P a)
    (now : Instant) : Accounted P (a.getRetransmissions now).1 := by
  obtain ⟨wq, hwq⟩ := a.getRetransmissions_frame now
  intro hmode i h1 hi
  have hmode' : a.mode = .tcp := by rwa [hwq] at hmode
  rw [hwq] at hi
  rcases h hmode' i h1 hi with ⟨p, hp⟩ | hP
  · have hkey : i ∈ a.writeQueue.entries.map Prod.fst := List.mem_map_of_mem hp
    rw [← @StreamState.getRetransmissions_keys a now hmode'] at hkey
    obtain ⟨x, hx, rfl⟩ := List.mem_map.mp hkey
    exact Or.inl ⟨x.2, hx⟩
  · exact Or.inr hP

/-- **Step lemma**: a sender forgets a chunk only for a Sack. -/
theorem Effect.accounted {P : ℕ → Prop} {sid : UInt32} {v v' : View} {op : Op}
    {out : Output} (heff : Effect sid v op v' out) (h : Accounted P v.st)
    (hsack : ∀ pkt now, op = .incoming pkt now →
      pkt.header.packetKind = .sack →
        ∀ i, Acked pkt.header.ack pkt.header.ackBits i → P i) :
    Accounted P v'.st := by
  cases heff with
  | wrote hopen hroom hch =>
      intro hmode i h1 hi
      by_cases hlast : i = v.st.nextWriteSeq
      · exact Or.inl ⟨_, OrdMap.mem_insert.mpr (Or.inl (by rw [hlast]))⟩
      · have hlt : i < v.st.nextWriteSeq := by
          dsimp only at hi
          omega
        rcases h hmode i h1 hlt with ⟨p, hp⟩ | hP
        · exact Or.inl ⟨p, OrdMap.mem_insert.mpr (Or.inr ⟨hp, hlast⟩)⟩
        · exact Or.inr hP
  | nackMode =>
      intro hmode
      cases hmode
  | incoming hopen hrun =>
      rename_i pkt now
      obtain ⟨hmode', hnext⟩ := UdpStreamInner.dispatch_frame v.st pkt now
      intro hmode i h1 hi
      dsimp only at hmode hi
      rw [hmode'] at hmode
      rw [hnext] at hi
      rcases h hmode i h1 hi with ⟨p, hp⟩ | hP
      · rcases @UdpStreamInner.dispatch_keeps now pkt v.st i p hp with
          hq | ⟨hk, hacked⟩
        · exact Or.inl hq
        · exact Or.inr (hsack pkt now rfl hk i hacked)
      · exact Or.inr hP
  | ticked pings hopen hpings halive => exact h.tick _
  | tickTimedOut hopen hdead => exact h.tick _
  | _ => exact h

/-- In TCP mode every chunk the sender `a` has numbered is still queued, or
the receiver `b` holds it. -/
def Kept (a b : StreamState) : Prop :=
  a.mode = .tcp → ∀ i, 1 ≤ i → i < a.nextWriteSeq →
    (∃ p, (i, p) ∈ a.writeQueue.entries) ∨ b.Received i

theorem kept_iff {a b : StreamState} : Kept a b ↔ Accounted b.Received a :=
  Iff.rfl

/-- `A` writes to `B`; `back` is what `B` has in flight to `A`. -/
structure Confirmed (A B : View) (back : List Datagram) : Prop where
  kept : Kept A.st B.st
  sacks : ∀ d ∈ back, d.header.packetKind = .sack →
    ∀ i, Acked d.header.ack d.header.ackBits i → B.st.Received i

/-- **Step lemma for the sender.** -/
theorem Confirmed.sender {sid : UInt32} {A A' B : View} {op : Op}
    {out : Output} {back : List Datagram} (h : Confirmed A B back)
    (heff : Effect sid A op A' out) (hnet : Connection.FromNet back op) :
    Confirmed A' B back := by
  refine ⟨kept_iff.mpr (heff.accounted (kept_iff.mp h.kept) ?_), h.sacks⟩
  intro pkt now hop hk i hacked
  obtain ⟨d, hd, hh, -⟩ := hnet pkt now hop
  exact h.sacks d hd (hh ▸ hk) i (hh ▸ hacked)

/-- What a receiver holds it goes on holding. -/
theorem Effect.received {sid : UInt32} {v v' : View} {op : Op} {out : Output}
    (heff : Effect sid v op v' out) {i : ℕ} (hi : v.st.Received i) :
    v'.st.Received i := by
  cases heff with
  | incoming hopen hrun =>
      exact UdpStreamInner.dispatch_received.mpr (Or.inl hi)
  | ticked pings hopen hpings halive =>
      rename_i now
      obtain ⟨wq, hwq⟩ := v.st.getRetransmissions_frame now
      show (v.st.getRetransmissions now).1.Received i
      rw [hwq]
      exact hi
  | tickTimedOut hopen hdead =>
      rename_i now
      obtain ⟨wq, hwq⟩ := v.st.getRetransmissions_frame now
      show (v.st.getRetransmissions now).1.Received i
      rw [hwq]
      exact hi
  | _ => exact hi

/-- A Sack is sent in answer to a packet only, from the state it leaves. -/
theorem Effect.sack_sent {sid : UInt32} {v v' : View} {op : Op} {out : Output}
    (heff : Effect sid v op v' out) {d : Datagram} (hd : d ∈ out.sent)
    (hk : d.header.packetKind = .sack) :
    (d.header.ack, d.header.ackBits) = v'.st.buildAck := by
  cases heff with
  | incoming hopen hrun =>
      obtain ⟨p, hp, rfl⟩ := List.mem_map.mp hd
      have hkind : p.kind = .sack := hk
      have hack := UdpStreamInner.dispatch_sack hp hkind
      simp only [ToSend.datagram, hkind]
      exact hack
  | openSent =>
      rw [List.mem_singleton.mp hd] at hk
      cases hk
  | closeSent hch =>
      rw [List.mem_singleton.mp hd] at hk
      cases hk
  | chunkSent hch hseq =>
      rw [List.mem_singleton.mp hd] at hk
      cases hk
  | ticked pings hopen hpings halive =>
      obtain ⟨p, hp, rfl⟩ := List.mem_map.mp hd
      have hkind : p.kind = .sack := hk
      rcases List.mem_append.mp hp with hp' | hp'
      · rw [hpings p hp'] at hkind
        cases hkind
      · obtain ⟨q, -, rfl⟩ := List.mem_map.mp hp'
        cases hkind
  | _ => cases hd

/-- A tick numbers no chunk and queues none. -/
theorem Effect.tick_frame {sid : UInt32} {v v' : View} {now : Instant}
    {out : Output} (heff : Effect sid v (.tick now) v' out) :
    v'.st.nextWriteSeq = v.st.nextWriteSeq ∧
      ∀ x ∈ v'.st.writeQueue.entries,
        ∃ p, (x.1, p) ∈ v.st.writeQueue.entries := by
  obtain ⟨wq, hwq⟩ := v.st.getRetransmissions_frame now
  have hnext : (v.st.getRetransmissions now).1.nextWriteSeq =
      v.st.nextWriteSeq := by
    rw [hwq]
  have hqueue : ∀ x ∈ (v.st.getRetransmissions now).1.writeQueue.entries,
      ∃ p, (x.1, p) ∈ v.st.writeQueue.entries := by
    intro x hx
    obtain ⟨p, hp, -⟩ := StreamState.mem_getRetransmissions hx
    exact ⟨p, hp⟩
  cases heff with
  | ticked pings hopen hpings halive => exact ⟨hnext, hqueue⟩
  | tickTimedOut hopen hdead => exact ⟨hnext, hqueue⟩
  | _ => exact ⟨rfl, fun x hx => ⟨x.2, hx⟩⟩

/-- **Step lemma for the receiver**: its Sacks tell the truth. -/
theorem Confirmed.receiver {sid : UInt32} {A B B' : View} {op : Op}
    {out : Output} {back : List Datagram} (h : Confirmed A B back)
    (heff : Effect sid B op B' out) (hpos : 1 ≤ B'.st.nextReadSeq) :
    Confirmed A B' (back ++ out.sent) where
  kept := kept_iff.mpr
    ((kept_iff.mp h.kept).mono (fun _ hr => heff.received hr))
  sacks := by
    intro d hd hk i hacked
    rcases List.mem_append.mp hd with hd' | hd'
    · exact heff.received (h.sacks d hd' hk i hacked)
    · have hack := heff.sack_sent hd' hk
      refine StreamState.received_of_acked_buildAck hpos ?_
      rw [← hack]
      exact hacked

/-- Integrity and, in both directions, confirmation. -/
def Recoverable (w : Connection) : Prop :=
  Intact w ∧ ∀ s, Confirmed (w.on s).snap (w.on s.other).snap (w.net s.other)

theorem recoverable_init (sid : UInt32) (client server : SocketAddr)
    (t t' : Instant) :
    Recoverable (Connection.init sid client server t t') := by
  refine ⟨intact_init sid client server t t', fun s => ⟨?_, ?_⟩⟩
  · obtain ⟨addr, last, hv⟩ := Connection.snap_init sid client server t t' s
    rw [hv]
    intro _ i h1 hi
    simp only [StreamState.new] at hi
    omega
  · rw [Connection.net_init]
    intro d hd
    cases hd

theorem recoverable_moves (w : Connection) (a : Action) (w' : Connection)
    (h : Recoverable w) (hm : w.Moves a w') : Recoverable w' := by
  have hint := intact_moves w a w' h.1 hm
  refine ⟨hint, fun s' => ?_⟩
  cases hm with
  | act hop hacts =>
      rename_i s op out
      rcases s.eq_or_eq_other s' with rfl | rfl
      · rw [hacts.other, hacts.otherNet]
        exact (h.2 s').sender hacts.effect hacts.fromNet
      · have hdir := h.2 s.other
        have hpos := (hint s.other).2.pos
        rw [Side.other_other] at hdir hpos ⊢
        rw [hacts.other, hacts.sent]
        exact hdir.receiver hacts.effect hpos
  | quiet hop hq =>
      rw [hq.on, hq.on]
      refine ⟨(h.2 s').kept, ?_⟩
      intro d hd hk
      rcases hq.net _ d hd with hd' | hclose
      · exact (h.2 s').sacks d hd' hk
      · rw [hk] at hclose
        cases hclose

theorem Connection.Reachable.recoverable {w : Connection} (h : w.Reachable) :
    w.WF ∧ Recoverable w :=
  h.invariant recoverable_init recoverable_moves

/-! ## One round without loss -/

/-- A receiver that holds every chunk has handed all of them on. -/
theorem level_of_received {w : Connection} (h : Intact w) (s : Side)
    (hall : ∀ i, 1 ≤ i → i < (w.on s).st.nextWriteSeq →
      (w.on s.other).st.Received i) :
    (w.on s.other).st.nextReadSeq = (w.on s).st.nextWriteSeq ∧
      (w.on s.other).st.readBuffer.isEmpty = true := by
  obtain ⟨hsend, hrecv⟩ := h s
  have hnext : (w.on s).st.nextWriteSeq = (w.on s).accepted.length + 1 :=
    hsend.next
  have hpos : 1 ≤ (w.on s.other).st.nextReadSeq := hrecv.pos
  have hbound : (w.on s.other).st.nextReadSeq ≤ (w.on s).accepted.length + 1 :=
    hrecv.bound
  have hdrained : (w.on s.other).st.Drained := hrecv.drained
  have heq : (w.on s.other).st.nextReadSeq = (w.on s).st.nextWriteSeq := by
    by_contra hne
    -- the next expected chunk would be buffered, and so would have been drained
    rcases hall (w.on s.other).st.nextReadSeq hpos (by omega) with hlt | ⟨d, hd⟩
    · omega
    · exact Nat.lt_irrefl _ (hdrained _ hd)
  refine ⟨heq, ?_⟩
  unfold OrdMap.isEmpty
  rw [List.isEmpty_iff, List.eq_nil_iff_forall_not_mem]
  intro x hx
  have hmem := hsend.numbered.mem (hrecv.buffered x hx)
  have hlt := hdrained x hx
  have hle : x.1 ≤ (w.on s).accepted.length := hmem.2.1
  omega

/-- A datagram arriving from an address at some time. -/
structure Arrival where
  d : Datagram
  src : SocketAddr
  now : Instant

def Arrival.action (r : Side) (x : Arrival) : Action :=
  .deliver r x.d x.src x.now

def Arrival.packet (x : Arrival) : IncomingPacket :=
  ⟨x.d.header, x.d.payload, x.src⟩

/-- A connecting end takes packets from the server's address only. -/
def Endpoint.AcceptsFrom (e : Endpoint) (src : SocketAddr) : Prop :=
  ∀ a, e.dest = some a → src = a

namespace Connection

/-- `x` carries a packet of kind `k` that the end `r` will process. -/
structure Deliverable (w : Connection) (r : Side) (k : PacketKind)
    (x : Arrival) : Prop where
  inFlight : x.d ∈ w.net r.other
  kind : x.d.header.packetKind = k
  id : x.d.header.channelId = (w.on r).stream.streamId
  src : (w.on r).AcceptsFrom x.src

/-- The end `r` of a sound connection is open. -/
structure OpenAt (w : Connection) (r : Side) : Prop where
  wf : w.WF
  linked : w.Linked
  isOpen : (w.on r).snap.closed = false

theorem deliver_step {w : Connection} {r : Side} {k : PacketKind} {x : Arrival}
    (h : w.OpenAt r) (hx : w.Deliverable r k x) :
    ∃ w' out, w.step (x.action r) = some w' ∧ w'.WF ∧ w'.Linked ∧
      w.Acts r (.incoming x.packet x.now) out w' := by
  have hroutes : (w.on r).routes x.packet = true := by
    unfold Endpoint.routes Arrival.packet
    rw [decide_eq_true hx.id, Bool.true_and]
    cases hdest : (w.on r).dest with
    | none => rfl
    | some a => exact decide_eq_true (hx.src a hdest)
  have hstep : ∃ e out, (w.on r).step (.incoming x.packet x.now) =
      some (e, out) := by
    refine ⟨_, _, if_pos ⟨?_, hroutes⟩⟩
    exact h.linked.running r h.isOpen
  obtain ⟨e, out, hstep⟩ := hstep
  have hstep' : w.step (x.action r) = some (w.put r e out.sent) := by
    unfold Arrival.packet at hstep
    simp only [step, Arrival.action]
    rw [if_pos hx.inFlight, hstep]
    rfl
  have hnet : FromNet (w.net r.other) (.incoming x.packet x.now) := by
    rintro pkt now heq
    cases heq
    exact ⟨x.d, hx.inFlight, rfl, rfl⟩
  obtain ⟨hwf, hacts⟩ := acts_put (h.wf r) hstep hnet
  refine ⟨_, out, hstep', h.wf.put hwf _, ?_, hacts⟩
  exact linked_moves w (x.action r) _ h.linked (.act rfl hacts)

/-- An end does something on its own. -/
theorem act_step {w : Connection} {s : Side} {op : Op} {e : Endpoint}
    {out : Output} (h : w.OpenAt s) (hop : op.isIncoming = false)
    (hs : (w.on s).step op = some (e, out)) :
    ∃ w', w.step (.act s op) = some w' ∧ w'.WF ∧ w'.Linked ∧
      w.Acts s op out w' := by
  have hnet : FromNet (w.net s.other) op := by
    rintro pkt now rfl
    cases hop
  have hstep : w.step (.act s op) = some (w.put s e out.sent) := by
    simp only [step, hop]
    rw [hs]
    rfl
  obtain ⟨hwf, hacts⟩ := acts_put (h.wf s) hs hnet
  exact ⟨_, hstep, h.wf.put hwf _,
    linked_moves w (.act s op) _ h.linked (.act rfl hacts), hacts⟩

/-- A chunk reaches an open end in TCP mode: it is taken and answered by one
Sack. -/
theorem take_chunk {w : Connection} {r : Side} {x : Arrival} (h : w.OpenAt r)
    (hmode : (w.on r).st.mode = .tcp) (hx : w.Deliverable r .stream x) :
    ∃ w' out d, w.step (x.action r) = some w' ∧ w'.OpenAt r ∧
      w.Acts r (.incoming x.packet x.now) out w' ∧
      (w'.on r).st.mode = .tcp ∧
      out.sent = [d] ∧ d.header.packetKind = .sack ∧
      d.header.channelId = (w.on r).stream.streamId ∧
      (d.header.ack, d.header.ackBits) = (w'.on r).st.buildAck ∧
      ∀ i, (w'.on r).st.Received i ↔
        (w.on r).st.Received i ∨ i = x.d.header.seq := by
  obtain ⟨w', out, hstep, hwf, hlink, hacts⟩ := deliver_step h hx
  obtain ⟨hv, hsent⟩ := hacts.effect.incoming_inv h.isOpen
  have hst : (w'.on r).st =
      (UdpStreamInner.dispatch (w.on r).st x.packet x.now).1 :=
    congrArg View.st hv
  have hclosed : (w'.on r).snap.closed =
      (UdpStreamInner.dispatch (w.on r).st x.packet x.now).2.1 :=
    congrArg View.closed hv
  have hkind : x.packet.header.packetKind = .stream := hx.kind
  obtain ⟨p, hp, hpk⟩ := @UdpStreamInner.dispatch_stream_tcp x.now x.packet
    (w.on r).st hkind hmode
  have hsent' : out.sent = [_] := hsent.trans (by
    change List.map _ (UdpStreamInner.dispatch (w.on r).st x.packet
      x.now).2.2.1 = _
    rw [hp]
    exact List.map_singleton)
  refine ⟨w', out, _, hstep, ⟨hwf, hlink, ?_⟩, hacts, ?_, hsent', hpk, rfl, ?_,
    ?_⟩
  · rw [hclosed]
    unfold UdpStreamInner.dispatch
    rw [hkind]
  · rw [hst, (UdpStreamInner.dispatch_frame _ _ _).1]
    exact hmode
  · exact hacts.effect.sack_sent (hsent' ▸ List.mem_singleton.mpr rfl) hpk
  · intro i
    rw [hst, UdpStreamInner.dispatch_received]
    simp only [hkind, true_and]
    rfl

/-- What `r` can still take in a later state of the connection. -/
theorem Deliverable.later {w w' : Connection} {r : Side} {k : PacketKind}
    {x : Arrival} (hx : w.Deliverable r k x)
    (hnet : w'.net r.other = w.net r.other)
    (hid : (w'.on r).stream.streamId = (w.on r).stream.streamId ∧
      (w'.on r).dest = (w.on r).dest) : w'.Deliverable r k x where
  inFlight := hnet ▸ hx.inFlight
  kind := hx.kind
  id := hx.id.trans hid.1.symm
  src := by
    intro a ha
    rw [hid.2] at ha
    exact hx.src a ha

/-- **All chunks of a round arrive**, in the order of `xs`. -/
theorem take_chunks {r : Side} (xs : List Arrival) (w : Connection)
    (h : w.OpenAt r) (hmode : (w.on r).st.mode = .tcp)
    (hxs : ∀ x ∈ xs, w.Deliverable r .stream x) :
    ∃ w' sacks, Runs.Run step w (xs.map (Arrival.action r)) w' ∧
      w'.OpenAt r ∧ w'.on r.other = w.on r.other ∧
      w'.net r.other = w.net r.other ∧ w'.net r = w.net r ++ sacks ∧
      (∀ d ∈ sacks, d.header.packetKind = .sack ∧
        d.header.channelId = (w.on r).stream.streamId) ∧
      (xs ≠ [] → ∃ d ∈ sacks,
        (d.header.ack, d.header.ackBits) = (w'.on r).st.buildAck) ∧
      ∀ i, (w'.on r).st.Received i ↔
        (w.on r).st.Received i ∨ ∃ x ∈ xs, i = x.d.header.seq := by
  induction xs generalizing w with
  | nil =>
      exact ⟨w, [], Runs.run_nil.mpr rfl, h, rfl, rfl, by simp, by simp, by simp,
        by simp⟩
  | cons x xs ih =>
      obtain ⟨w₁, out, d, hstep, hopen₁, hacts, hmode₁, hsent, hsack, hid, hack,
        hrec₁⟩ := take_chunk h hmode (hxs x List.mem_cons_self)
      obtain ⟨w', sacks, hrun, hopen', hother, hnetother, hnet, hsacks, hlast,
        hrec⟩ := ih w₁ hopen₁ hmode₁ (fun y hy =>
          (hxs y (List.mem_cons_of_mem _ hy)).later hacts.otherNet hacts.ident)
      refine ⟨w', d :: sacks, Runs.run_cons.mpr ⟨w₁, hstep, hrun⟩, hopen',
        hother.trans hacts.other, hnetother.trans hacts.otherNet, ?_, ?_, ?_, ?_⟩
      · rw [hnet, hacts.sent, hsent, List.append_assoc, List.singleton_append]
      · intro y hy
        rcases List.mem_cons.mp hy with rfl | hy'
        · exact ⟨hsack, hid⟩
        · rw [← hacts.ident.1]
          exact hsacks y hy'
      · intro _
        by_cases hnil : xs = []
        · subst hnil
          rw [← Runs.run_nil.mp hrun]
          exact ⟨d, List.mem_cons_self, hack⟩
        · obtain ⟨y, hy, hyack⟩ := hlast hnil
          exact ⟨y, List.mem_cons_of_mem _ hy, hyack⟩
      · intro i
        rw [hrec, hrec₁]
        simp only [List.mem_cons, exists_eq_or_imp]
        exact or_assoc

/-- A Sack reaches an open end. -/
theorem take_sack {w : Connection} {s : Side} {x : Arrival} (h : w.OpenAt s)
    (hx : w.Deliverable s .sack x) :
    ∃ w' out, w.step (x.action s) = some w' ∧ w'.OpenAt s ∧
      w.Acts s (.incoming x.packet x.now) out w' ∧
      (w'.on s).st =
        (UdpStreamInner.dispatch (w.on s).st x.packet x.now).1 := by
  obtain ⟨w', out, hstep, hwf, hlink, hacts⟩ := deliver_step h hx
  obtain ⟨hv, -⟩ := hacts.effect.incoming_inv h.isOpen
  have hkind : x.packet.header.packetKind = .sack := hx.kind
  refine ⟨w', out, hstep, ⟨hwf, hlink, ?_⟩, hacts, congrArg View.st hv⟩
  rw [hv]
  unfold UdpStreamInner.dispatch
  rw [hkind]

/-- **All Sacks of a round arrive**, in the order of `xs`: what is still queued
none of them acknowledges. -/
theorem take_sacks {s : Side} (xs : List Arrival) (w : Connection)
    (h : w.OpenAt s) (hxs : ∀ x ∈ xs, w.Deliverable s .sack x) :
    ∃ w', Runs.Run step w (xs.map (Arrival.action s)) w' ∧
      w'.on s.other = w.on s.other ∧
      (w'.on s).st.nextWriteSeq = (w.on s).st.nextWriteSeq ∧
      ∀ y ∈ (w'.on s).st.writeQueue.entries,
        (∃ p, (y.1, p) ∈ (w.on s).st.writeQueue.entries) ∧
        ∀ x ∈ xs, ¬ Acked x.d.header.ack x.d.header.ackBits y.1 := by
  induction xs generalizing w with
  | nil =>
      exact ⟨w, Runs.run_nil.mpr rfl, rfl, rfl,
        fun y hy => ⟨⟨y.2, hy⟩, by simp⟩⟩
  | cons x xs ih =>
      obtain ⟨w₁, out, hstep, hopen₁, hacts, hst⟩ :=
        take_sack h (hxs x List.mem_cons_self)
      have hkind : x.packet.header.packetKind = .sack :=
        (hxs x List.mem_cons_self).kind
      obtain ⟨w', hrun, hother, hnext, hqueue⟩ := ih w₁ hopen₁ (fun y hy =>
        (hxs y (List.mem_cons_of_mem _ hy)).later hacts.otherNet hacts.ident)
      refine ⟨w', Runs.run_cons.mpr ⟨w₁, hstep, hrun⟩,
        hother.trans hacts.other, ?_, ?_⟩
      · rw [hnext, hst]
        exact (UdpStreamInner.dispatch_frame _ _ _).2
      · intro y hy
        obtain ⟨⟨p, hp⟩, hunacked⟩ := hqueue y hy
        rw [hst] at hp
        obtain ⟨q, hq, -⟩ := UdpStreamInner.mem_dispatch_queue hp
        refine ⟨⟨q, hq⟩, ?_⟩
        intro z hz
        rcases List.mem_cons.mp hz with rfl | hz'
        · exact UdpStreamInner.not_acked_of_mem_dispatch (x := (y.1, p)) hkind hp
        · exact hunacked z hz'

/-- The tick that opens a round: everything queued is sent again. Only an end
with nothing queued may be closed by it. -/
theorem tick_round {w : Connection} {s : Side} {now : Instant}
    (h : w.OpenAt s) (hmode : (w.on s).st.mode = .tcp)
    (hlim : ∀ x ∈ (w.on s).st.writeQueue.entries, x.2.retransmits < 100)
    (hdue : ∀ x ∈ (w.on s).st.writeQueue.entries,
      now - x.2.sentAt > millis 200) :
    ∃ w₁ out, w.step (.act s (.tick now)) = some w₁ ∧ w₁.WF ∧ w₁.Linked ∧
      w.Acts s (.tick now) out w₁ ∧
      (∀ d ∈ out.sent, d.header.packetKind = .stream →
        d.header.channelId = (w.on s).stream.streamId ∧
        ∃ x ∈ (w.on s).st.writeQueue.entries, x.1 = d.header.seq) ∧
      (∀ x ∈ (w.on s).st.writeQueue.entries,
        ∃ d ∈ out.sent, d.header.packetKind = .stream ∧ d.header.seq = x.1) ∧
      ((w.on s).st.writeQueue.entries ≠ [] →
        (w₁.on s).snap.closed = false) := by
  have hstep : ∃ e out, (w.on s).step (.tick now) = some (e, out) :=
    ⟨_, _, if_pos (h.linked.running s h.isOpen)⟩
  obtain ⟨e, out, hstep⟩ := hstep
  obtain ⟨w₁, hstep', hwf, hlink, hacts⟩ := act_step h rfl hstep
  refine ⟨w₁, out, hstep', hwf, hlink, hacts, ?_⟩
  have hscan := StreamState.retransmitScan_all_due hdue hlim
  have htick : ((w.on s).st.getRetransmissions now).2 =
      ((w.on s).st.writeQueue.entries.map (fun x => (x.1, x.2.data)), false) :=
    (StreamState.getRetransmissions_tcp hmode now).trans hscan
  rcases hacts.effect.tick_inv h.isOpen with ⟨-, hv, pings, hpings, hsent⟩ |
    ⟨hempty, -, hsent, hv⟩ | ⟨hdead, -⟩
  · change out.sent = List.map _ (pings ++
      ((w.on s).st.getRetransmissions now).2.1.map _) at hsent
    rw [htick] at hsent
    refine ⟨?_, ?_, fun _ => ?_⟩
    · intro d hd hk
      rw [hsent] at hd
      obtain ⟨p, hp, rfl⟩ := List.mem_map.mp hd
      refine ⟨rfl, ?_⟩
      rcases List.mem_append.mp hp with hp' | hp'
      · rw [ToSend.datagram_kind, hpings p hp'] at hk
        cases hk
      · obtain ⟨q, hq, rfl⟩ := List.mem_map.mp hp'
        obtain ⟨x, hx, rfl⟩ := List.mem_map.mp hq
        exact ⟨x, hx, rfl⟩
    · intro x hx
      refine ⟨_, hsent ▸ List.mem_map_of_mem (List.mem_append_right _
        (List.mem_map_of_mem (List.mem_map_of_mem hx))), rfl, rfl⟩
    · rw [hv]
      exact h.isOpen
  · have hnil : (w.on s).st.writeQueue.entries = [] := List.isEmpty_iff.mp hempty
    rw [hsent, hnil]
    simp
  · change ((w.on s).st.getRetransmissions now).2.2 = true at hdead
    rw [htick] at hdead
    cases hdead

/-- A Sack for everything that the other end has read up to leaves nothing in
the queue. -/
theorem emptied_of_last_sack {w w' : Connection} {s : Side} (h : Intact w)
    (hlevel : (w.on s.other).st.nextReadSeq = (w.on s).st.nextWriteSeq)
    {acks : List Arrival}
    (hqueue : ∀ y ∈ (w'.on s).st.writeQueue.entries,
      (∃ p, (y.1, p) ∈ (w.on s).st.writeQueue.entries) ∧
        ∀ x ∈ acks, ¬ Acked x.d.header.ack x.d.header.ackBits y.1)
    {z : Arrival} (hz : z ∈ acks)
    (hack : z.d.header.ack = (w.on s.other).st.nextReadSeq - 1) :
    (w'.on s).st.writeQueue.isEmpty = true := by
  have hsend := (h s).1
  have hnext : (w.on s).st.nextWriteSeq = (w.on s).accepted.length + 1 :=
    hsend.next
  unfold OrdMap.isEmpty
  rw [List.isEmpty_iff, List.eq_nil_iff_forall_not_mem]
  intro y hy
  obtain ⟨⟨p, hp⟩, hunacked⟩ := hqueue y hy
  have hle : y.1 ≤ (w.on s).accepted.length :=
    (hsend.numbered.mem (hsend.queued _ hp)).2.1
  refine hunacked z hz (Or.inl ?_)
  rw [hack, hlevel]
  omega

/-- The chunks of a round are the data packets among what the tick has sent. -/
theorem mem_chunks {sent : List Datagram} {chunks : List Arrival}
    (hperm : (chunks.map Arrival.d).Perm
      (sent.filter (fun d => decide (d.header.packetKind = .stream))))
    (d : Datagram) : (∃ x ∈ chunks, x.d = d) ↔
      d ∈ sent ∧ d.header.packetKind = .stream := by
  rw [← List.mem_map, hperm.mem_iff, List.mem_filter, decide_eq_true_eq]

theorem chunks_deliverable {w w₁ : Connection} {s : Side} {now : Instant}
    {out : Output} (hlinked : w.Linked) (hacts : w.Acts s (.tick now) out w₁)
    (hid : ∀ d ∈ out.sent, d.header.packetKind = .stream →
      d.header.channelId = (w.on s).stream.streamId)
    {chunks : List Arrival}
    (hperm : (chunks.map Arrival.d).Perm
      (out.sent.filter (fun d => decide (d.header.packetKind = .stream))))
    (hsrc : ∀ x ∈ chunks, (w.on s.other).AcceptsFrom x.src) :
    ∀ x ∈ chunks, w₁.Deliverable s.other .stream x := by
  intro x hx
  obtain ⟨hsent, hk⟩ := (mem_chunks hperm x.d).mp ⟨x, hx, rfl⟩
  refine ⟨?_, hk, ?_, ?_⟩
  · rw [Side.other_other, hacts.sent]
    exact List.mem_append_right _ hsent
  · rw [hacts.other, hlinked.sameId s]
    exact hid x.d hsent hk
  · rw [hacts.other]
    exact hsrc x hx

theorem sacks_deliverable {w₁ w₂ : Connection} {s : Side}
    {sacks : List Datagram} (hlinked : w₁.Linked)
    (hsame : w₂.on s = w₁.on s)
    (hnet : w₂.net s.other = w₁.net s.other ++ sacks)
    (hsacks : ∀ d ∈ sacks, d.header.packetKind = .sack ∧
      d.header.channelId = (w₁.on s.other).stream.streamId)
    {acks : List Arrival} (hperm : (acks.map Arrival.d).Perm sacks)
    (hsrc : ∀ x ∈ acks, (w₁.on s).AcceptsFrom x.src) :
    ∀ x ∈ acks, w₂.Deliverable s .sack x := by
  intro x hx
  have hxs : x.d ∈ sacks := hperm.mem_iff.mp (List.mem_map_of_mem hx)
  refine ⟨?_, (hsacks x.d hxs).1, ?_, ?_⟩
  · rw [hnet]
    exact List.mem_append_right _ hxs
  · rw [(hsacks x.d hxs).2, hsame]
    exact hlinked.sameId s
  · rw [hsame]
    exact hsrc x hx

/-- Where nothing was queued no chunk is sent, and no Sack comes back. -/
theorem idle_round {w w₁ w₂ : Connection} {s : Side} {now : Instant}
    {out : Output} (hacts : w.Acts s (.tick now) out w₁)
    (hnil : (w.on s).st.writeQueue.entries = [])
    (hqueued : ∀ d ∈ out.sent, d.header.packetKind = .stream →
      ∃ x ∈ (w.on s).st.writeQueue.entries, x.1 = d.header.seq)
    {chunks acks : List Arrival} {sacks : List Datagram}
    (hperm : (chunks.map Arrival.d).Perm
      (out.sent.filter (fun d => decide (d.header.packetKind = .stream))))
    (hrun : Runs.Run step w₁ (chunks.map (Arrival.action s.other)) w₂)
    (hnet : w₂.net s.other = w₁.net s.other ++ sacks)
    (hacks : (acks.map Arrival.d).Perm sacks) :
    acks = [] ∧ (w₂.on s).st.writeQueue.isEmpty = true := by
  have hnone : chunks = [] := by
    rw [List.eq_nil_iff_forall_not_mem]
    intro x hx
    obtain ⟨hsent, hk⟩ := (mem_chunks hperm x.d).mp ⟨x, hx, rfl⟩
    obtain ⟨y, hy, -⟩ := hqueued x.d hsent hk
    rw [hnil] at hy
    cases hy
  subst hnone
  have hstay : w₁ = w₂ := Runs.run_nil.mp hrun
  rw [← hstay] at hnet ⊢
  have hnosack : sacks = [] := List.self_eq_append_right.mp hnet
  rw [hnosack] at hacks
  refine ⟨List.map_eq_nil_iff.mp hacks.eq_nil, ?_⟩
  unfold OrdMap.isEmpty
  rw [List.isEmpty_iff, List.eq_nil_iff_forall_not_mem]
  intro x hx
  obtain ⟨p, hp⟩ := hacts.effect.tick_frame.2 x hx
  change _ ∈ (w.on s).st.writeQueue.entries at hp
  rw [hnil] at hp
  cases hp

/-- **One loss-free round recovers everything.** In TCP mode the receiver
holds every chunk that has left the queue; and if every queued chunk is due
and below the limit, then a tick, the arrival of its chunks in any order and
the arrival of the Sacks they cause in any order leave nothing outstanding. -/
theorem loss_free_round {w : Connection} (h : w.Reachable) (s : Side)
    (hmode : ∀ r, (w.on r).st.mode = .tcp)
    (hopen : ∀ r, (w.on r).stream.inner.closed = false)
    (hlim : ∀ x ∈ (w.on s).st.writeQueue.entries, x.2.retransmits < 100)
    (now : Instant)
    (hdue : ∀ x ∈ (w.on s).st.writeQueue.entries,
      now - x.2.sentAt > millis 200) :
    (∀ i, 1 ≤ i → i < (w.on s).st.nextWriteSeq →
      (w.on s).st.writeQueue.containsKey i = false →
        (w.on s.other).st.Received i) ∧
    ∃ w₁ sent, w.step (.act s (.tick now)) = some w₁ ∧
      w₁.net s = w.net s ++ sent ∧
      ∀ chunks : List Arrival,
        (chunks.map Arrival.d).Perm
          (sent.filter (fun d => decide (d.header.packetKind = .stream))) →
        (∀ x ∈ chunks, (w.on s.other).AcceptsFrom x.src) →
        ∃ w₂ sacks,
          Runs.Run step w₁ (chunks.map (Arrival.action s.other)) w₂ ∧
          w₂.net s.other = w₁.net s.other ++ sacks ∧
          (∀ d ∈ sacks, d.header.packetKind = .sack) ∧
          ∀ acks : List Arrival, (acks.map Arrival.d).Perm sacks →
            (∀ x ∈ acks, (w.on s).AcceptsFrom x.src) →
            ∃ w₃, Runs.Run step w₂ (acks.map (Arrival.action s)) w₃ ∧
              (w₃.on s.other).st.nextReadSeq = (w₃.on s).st.nextWriteSeq ∧
              (w₃.on s.other).st.readBuffer.isEmpty = true ∧
              (w₃.on s).st.writeQueue.isEmpty = true := by
  obtain ⟨hwf, hrec⟩ := h.recoverable
  have hkept : Kept (w.on s).st (w.on s.other).st := (hrec.2 s).kept
  refine ⟨?_, ?_⟩
  · intro i h1 hi hout
    rcases hkept (hmode s) i h1 hi with hq | hr
    · rw [OrdMap.containsKey_iff.mpr hq] at hout
      cases hout
    · exact hr
  obtain ⟨w₁, out, hstep, hwf₁, hlink₁, hacts, hchunk, hall, hopen₁⟩ :=
    tick_round ⟨hwf, h.linked, hopen s⟩ (hmode s) hlim hdue
  have hnext₁ : (w₁.on s).st.nextWriteSeq = (w.on s).st.nextWriteSeq :=
    hacts.effect.tick_frame.1
  have hreach₁ : w₁.Reachable :=
    h.run (Runs.run_cons.mpr ⟨w₁, hstep, Runs.run_nil.mpr rfl⟩)
  refine ⟨w₁, out.sent, hstep, hacts.sent, ?_⟩
  intro chunks hperm hsrc
  have hopenB : w₁.OpenAt s.other := by
    refine ⟨hwf₁, hlink₁, ?_⟩
    rw [hacts.other]
    exact hopen s.other
  have hmodeB : (w₁.on s.other).st.mode = .tcp := by
    rw [hacts.other]
    exact hmode s.other
  obtain ⟨w₂, sacks, hrun₂, hopen₂, hA₂, -, hnet₂, hsacks, hlast, hrec₂⟩ :=
    take_chunks chunks w₁ hopenB hmodeB (chunks_deliverable h.linked hacts
      (fun d hd hk => (hchunk d hd hk).1) hperm hsrc)
  rw [Side.other_other] at hA₂
  have hreach₂ : w₂.Reachable := hreach₁.run hrun₂
  -- every chunk was resent or had been received, so all have arrived
  have hlevel := level_of_received hreach₂.intact.2 s (by
    intro i h1 hi
    rw [hA₂, hnext₁] at hi
    rw [hrec₂, hacts.other]
    rcases hkept (hmode s) i h1 hi with ⟨p, hp⟩ | hr
    · obtain ⟨d, hd, hk, hseq⟩ := hall (i, p) hp
      obtain ⟨x, hx, rfl⟩ := (mem_chunks hperm d).mpr ⟨hd, hk⟩
      exact Or.inr ⟨x, hx, hseq.symm⟩
    · exact Or.inl hr)
  refine ⟨w₂, sacks, hrun₂, hnet₂, fun d hd => (hsacks d hd).1, ?_⟩
  intro acks hacks hsrc'
  by_cases hnil : (w.on s).st.writeQueue.entries = []
  · obtain ⟨rfl, hempty⟩ := idle_round hacts hnil
      (fun d hd hk => (hchunk d hd hk).2) hperm hrun₂ hnet₂ hacks
    exact ⟨w₂, Runs.run_nil.mpr rfl, hlevel.1, hlevel.2, hempty⟩
  · have hopenA : w₂.OpenAt s := by
      refine ⟨hopen₂.wf, hopen₂.linked, ?_⟩
      rw [hA₂]
      exact hopen₁ hnil
    have hsrc₁ : ∀ x ∈ acks, (w₁.on s).AcceptsFrom x.src := by
      intro x hx a ha
      rw [hacts.ident.2] at ha
      exact hsrc' x hx a ha
    obtain ⟨w₃, hrun₃, hB₃, hnext₃, hqueue₃⟩ := take_sacks acks w₂ hopenA
      (sacks_deliverable hlink₁ hA₂ hnet₂ hsacks hacks hsrc₁)
    refine ⟨w₃, hrun₃, by rw [hB₃, hnext₃]; exact hlevel.1,
      by rw [hB₃]; exact hlevel.2, ?_⟩
    -- some chunk was sent, and the Sack for the last one covers everything
    obtain ⟨x, hx⟩ := List.exists_mem_of_ne_nil _ hnil
    obtain ⟨d, hd, hk, -⟩ := hall x hx
    obtain ⟨c, hc, -⟩ := (mem_chunks hperm d).mpr ⟨hd, hk⟩
    obtain ⟨full, hfull, hack⟩ := hlast (List.ne_nil_of_mem hc)
    obtain ⟨z, hz, rfl⟩ := List.mem_map.mp (hacks.mem_iff.mpr hfull)
    exact emptied_of_last_sack hreach₂.intact.2 hlevel.1 hqueue₃ hz
      (congrArg Prod.fst hack)

/-- The first chunk is lost; one round later it has arrived, and nothing waits
any more. -/
theorem loss_free_round_lost_chunk : ∃ w as w₃,
    w.Reachable ∧ (w.on .connector).st.writeQueue.containsKey 1 = true ∧
    (w.on .acceptor).st.nextReadSeq = 1 ∧ Runs.Run step w as w₃ ∧
    (w₃.on .connector).st.nextWriteSeq = 2 ∧
    (w₃.on .acceptor).st.nextReadSeq = (w₃.on .connector).st.nextWriteSeq ∧
    (w₃.on .connector).st.writeQueue.isEmpty = true := by
  have hreach := reachable_of_opening
    [.act .connector (.pollWrite 0 [1, 2, 3] 0),
      .act .connector (.writeRx 6),
      .lose .connector
        ⟨⟨7, .stream, 1, 0, 0⟩, [1, 2, 3], listenerAddr⟩] rfl
  obtain ⟨-, w₁, sent, hstep, hnet, hround⟩ := loss_free_round hreach .connector
    (fun r => by cases r <;> rfl) (fun r => by cases r <;> rfl)
    (by decide +kernel) (millis 250) (by decide +kernel)
  cases Option.some.inj (hstep.symm.trans rfl)
  obtain rfl : sent = [⟨⟨7, .stream, 1, 0, 0⟩, [1, 2, 3], listenerAddr⟩] :=
    List.append_cancel_left (hnet.symm.trans rfl)
  obtain ⟨w₂, sacks, hrun, hnet₂, -, hacks⟩ := hround
    [⟨⟨⟨7, .stream, 1, 0, 0⟩, [1, 2, 3], listenerAddr⟩,
      connectorAddr, millis 260⟩] (.refl _)
    (fun _ _ a ha => by cases (show none = some a from ha))
  cases Option.some.inj (hrun.symm.trans rfl)
  obtain rfl : sacks = [⟨⟨7, .sack, 0, 1, 0⟩, [], connectorAddr⟩] :=
    List.append_cancel_left (hnet₂.symm.trans rfl)
  obtain ⟨w₃, hrun₃, hlevel, -, hempty⟩ := hacks
    [⟨⟨⟨7, .sack, 0, 1, 0⟩, [], connectorAddr⟩, listenerAddr, millis 270⟩]
    (.refl _) (fun x hx a ha => by
      cases List.mem_singleton.mp hx
      exact Option.some.inj ha)
  have hwritten : (w₃.on .connector).st.nextWriteSeq = 2 := by
    cases Option.some.inj (hrun₃.symm.trans rfl)
    rfl
  exact ⟨_, _, w₃, hreach, rfl, rfl, Runs.run_cons.mpr ⟨_, hstep,
    Runs.run_append.mpr ⟨_, hrun, hrun₃⟩⟩, hwritten, hlevel, hempty⟩

end Connection

end Rathole
