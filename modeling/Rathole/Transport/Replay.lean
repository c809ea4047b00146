import Rathole.Transport.Recovery

/-!
# Replayed datagrams

Encryption gives no freshness: a third party can send a captured datagram
again, from any address. What such a datagram could do to the stream it has
done the first time, and a stream never forgets it: that is `Spent`. The one
field a replay does reach is `peer_addr`, which `handle_incoming` sets to the
source of every packet. The connecting end is safe, because its `on_packet`
takes packets from the server's address only; the accepting end has no such
check.
-/

namespace Rathole

open StreamState (Acked)

/-- The keys and data of the write queue. -/
def StreamState.outstanding (st : StreamState) : List (ℕ × Bytes) :=
  st.writeQueue.entries.map (fun x => (x.1, x.2.data))

/-- A packet with the header `h` has nothing left to do. -/
def Spent (st : StreamState) (h : TransportPacketHeader) : Prop :=
  match h.packetKind with
  | .streamOpen => st.established = true
  | .streamOpenAck => st.established = true
  | .stream => st.Received h.seq
  | .sack => ∀ i, Acked h.ack h.ackBits i →
      i < st.nextWriteSeq ∧ ∀ p, (i, p) ∉ st.writeQueue.entries
  | .streamClose => False
  | .keepalivePing => True
  | .keepalivePong => True
  | .service => True
  | .nack => True

/-- What a replay must leave as it is. -/
structure StreamState.Untouched (st st' : StreamState) : Prop where
  nextReadSeq : st'.nextReadSeq = st.nextReadSeq
  readBuffer : st'.readBuffer = st.readBuffer
  readBufBytes : st'.readBufBytes = st.readBufBytes
  outstanding : st'.outstanding = st.outstanding
  established : st'.established = st.established

namespace UdpStreamInner

variable {now : Instant} {pkt : IncomingPacket} {st : StreamState}

theorem resend_outstanding (now : Instant) (l : List ℕ) (st : StreamState) :
    (resend now st l).1.outstanding = st.outstanding := by
  induction l generalizing st with
  | nil => rfl
  | cons seq rest ih =>
      unfold resend
      cases st.writeQueue.get? seq with
      | none => exact ih st
      | some p =>
          refine (ih _).trans ?_
          exact OrdMap.map_modify (fun _ => rfl)

theorem afterAck_outstanding (now : Instant)
    (r : StreamState × List ℕ × List Waker) :
    (afterAck now r).1.outstanding = r.1.outstanding := by
  unfold afterAck
  dsimp only
  split
  · exact resend_outstanding now r.2.1 r.1
  · exact resend_outstanding now r.2.1 r.1

/-- Processing a packet spends it; a StreamClose ends the stream instead. -/
theorem dispatch_spends (hopen : (dispatch st pkt now).2.1 = false)
    (hack : pkt.header.packetKind = .sack →
      ∀ i, Acked pkt.header.ack pkt.header.ackBits i → i < st.nextWriteSeq) :
    Spent (dispatch st pkt now).1 pkt.header := by
  unfold Spent
  cases hk : pkt.header.packetKind with
  | streamOpen => exact dispatch_established.mpr (Or.inr (Or.inl hk))
  | streamOpenAck => exact dispatch_established.mpr (Or.inr (Or.inr hk))
  | stream => exact dispatch_received.mpr (Or.inr ⟨hk, rfl⟩)
  | streamClose =>
      simp [dispatch, hk] at hopen
  | sack =>
      intro i hi
      rw [(dispatch_frame st pkt now).2]
      refine ⟨hack hk i hi, fun p hp => ?_⟩
      exact not_acked_of_mem_dispatch (x := (i, p)) hk hp hi
  | _ => trivial

/-- A spent packet changes nothing. -/
theorem dispatch_spent (h : Spent st pkt.header) (now : Instant) :
    st.Untouched (dispatch st pkt now).1 ∧
      (dispatch st pkt now).2.1 = false := by
  unfold Spent at h
  unfold dispatch
  cases hk : pkt.header.packetKind with
  | streamOpen =>
      rw [hk] at h
      exact ⟨⟨rfl, rfl, rfl, rfl, h.symm⟩, rfl⟩
  | streamOpenAck =>
      rw [hk] at h
      exact ⟨⟨rfl, rfl, rfl, rfl, h.symm⟩, rfl⟩
  | streamClose =>
      rw [hk] at h
      exact h.elim
  | stream =>
      rw [hk] at h
      rw [StreamState.pushData_stale h]
      exact ⟨⟨rfl, rfl, rfl, rfl, rfl⟩, rfl⟩
  | sack =>
      rw [hk] at h
      -- nothing that the Sack acknowledges is queued any more
      have hkeep : st.writeQueue.retain (fun seq _ => StreamState.unacked
          pkt.header.ack pkt.header.ackBits seq) = st.writeQueue := by
        apply OrdMap.retain_eq_self
        intro x hx
        exact StreamState.unacked_iff.mpr (fun hacked =>
          (h x.1 hacked).2 x.2 hx)
      obtain ⟨ww, hack⟩ := handleAck_frame st pkt.header.ack pkt.header.ackBits
      rw [hkeep] at hack
      obtain ⟨wq, ww', heq, -⟩ := afterAck_frame now
        (st.handleAck pkt.header.ack pkt.header.ackBits)
      have hout := afterAck_outstanding now
        (st.handleAck pkt.header.ack pkt.header.ackBits)
      rw [heq, hack] at hout
      dsimp only
      rw [heq, hack]
      exact ⟨⟨rfl, rfl, rfl, hout, rfl⟩, rfl⟩
  | nack =>
      obtain ⟨ww, hnack⟩ := handleNack_frame st pkt.header.seq pkt.header.ack
      obtain ⟨wq, ww', heq, -⟩ := afterAck_frame now
        (st.handleNack pkt.header.seq pkt.header.ack)
      have hout := afterAck_outstanding now
        (st.handleNack pkt.header.seq pkt.header.ack)
      rw [heq, hnack] at hout
      dsimp only
      rw [heq, hnack]
      exact ⟨⟨rfl, rfl, rfl, hout, rfl⟩, rfl⟩
  | _ => exact ⟨⟨rfl, rfl, rfl, rfl, rfl⟩, rfl⟩

end UdpStreamInner

/-- **Step lemma**: what is spent stays spent. -/
theorem Spent.effect {sid : UInt32} {v v' : View} {op : Op} {out : Output}
    {h : TransportPacketHeader} (hs : Spent v.st h)
    (heff : Effect sid v op v' out) : Spent v'.st h := by
  unfold Spent at hs ⊢
  cases hk : h.packetKind with
  | streamOpen =>
      rw [hk] at hs
      exact heff.established.mpr (Or.inl hs)
  | streamOpenAck =>
      rw [hk] at hs
      exact heff.established.mpr (Or.inl hs)
  | stream =>
      rw [hk] at hs
      exact heff.received hs
  | streamClose =>
      rw [hk] at hs
      exact hs
  | sack =>
      rw [hk] at hs
      intro i hi
      obtain ⟨hlt, hout⟩ := hs i hi
      refine ⟨?_, fun p hp => ?_⟩
      · rcases heff.accepted with ⟨-, hnext⟩ | ⟨d, -, hnext⟩ <;> omega
      · -- a chunk that is queued anew gets a number not yet given out
        rcases heff.queued hp with ⟨q, hq, -⟩ | ⟨hlast, -⟩
        · exact hout q hq
        · exact Nat.ne_of_lt hlt hlast
  | _ => trivial

/-! ## The connection -/

/-- The accepting end takes packets from anywhere; the connecting end talks to
one address and never to another. -/
structure Connection.Placed (w : Connection) : Prop where
  acceptor : w.acceptor.dest = none
  connector : w.connector.dest = some w.connector.stream.inner.peerAddr

theorem Endpoint.pinned_step {e e' : Endpoint} {op : Op} {out : Output}
    (hwf : e.WF) (h : e.dest = some e.stream.inner.peerAddr)
    (hs : e.step op = some (e', out)) :
    e'.dest = some e'.stream.inner.peerAddr := by
  have heff := (wf_step hwf hs).2
  rw [(step_streamId hwf hs).2, h]
  congr 1
  rcases heff.peerAddr with hsame | ⟨pkt, now, rfl, hsrc⟩
  · exact hsame.symm
  · have hroutes : e.routes pkt = true := by
      simp only [step] at hs
      split at hs
      · rename_i hcond
        exact hcond.2
      · cases hs
    unfold routes at hroutes
    rw [h, Bool.and_eq_true, decide_eq_true_eq, decide_eq_true_eq] at hroutes
    exact hroutes.2.symm.trans hsrc.symm

theorem Connection.placed_step {w w' : Connection} {a : Action} (hwf : w.WF)
    (h : w.Placed) (hs : w.step a = some w') : w'.Placed where
  acceptor := by
    rcases step_on hs .acceptor with hsame | ⟨op, out, hop⟩
    · exact (congrArg Endpoint.dest hsame).trans h.acceptor
    · exact (Endpoint.step_streamId (hwf .acceptor) hop).2.trans h.acceptor
  connector := by
    rcases step_on hs .connector with hsame | ⟨op, out, hop⟩
    · change w'.connector = w.connector at hsame
      rw [hsame]
      exact h.connector
    · exact Endpoint.pinned_step (hwf .connector) h.connector hop

theorem Connection.Reachable.placed {w : Connection} (h : w.Reachable) :
    w.Placed := by
  obtain ⟨sid, client, server, t, t', hr⟩ := h
  refine (hr.preserves (I := fun w => w.WF ∧ w.Placed) ?_
    ⟨wf_init sid client server t t', rfl, rfl⟩).2
  intro u a u' hu hstep
  exact ⟨(step_moves hu.1 hstep).1, placed_step hu.1 hu.2 hstep⟩

/-- What a Sack in flight acknowledges has been given out. -/
theorem acked_lt_next {w : Connection} (h : w.Reachable) {r : Side}
    {d : Datagram} (hd : d ∈ w.net r.other)
    (hk : d.header.packetKind = .sack) {i : ℕ}
    (hi : Acked d.header.ack d.header.ackBits i) :
    i < (w.on r).st.nextWriteSeq := by
  obtain ⟨-, hint, hconf⟩ := h.recoverable
  obtain ⟨hsend, hrecv⟩ := hint r
  have hnext : (w.on r).st.nextWriteSeq = (w.on r).accepted.length + 1 :=
    hsend.next
  have hbound : (w.on r.other).snap.st.nextReadSeq ≤
    (w.on r).accepted.length + 1 := hrecv.bound
  rcases (hconf r).sacks d hd hk i hi with hlt | ⟨c, hc⟩
  · omega
  · have hle : i ≤ (w.on r).accepted.length :=
      (hsend.numbered.mem (hrecv.buffered _ hc)).2.1
    omega

/-- The end `r` has processed `d`, if it has not closed since. -/
structure Processed (r : Side) (d : Datagram) (w : Connection) : Prop where
  reachable : w.Reachable
  id : d.header.channelId = (w.on r).stream.streamId
  spent : (w.on r).snap.closed = false → Spent (w.on r).st d.header

theorem processed_deliver {w w' : Connection} {r : Side} {d : Datagram}
    {src : SocketAddr} {now : Instant} (h : w.Reachable)
    (hs : w.step (.deliver r d src now) = some w') : Processed r d w' := by
  have hreach' : w'.Reachable :=
    h.run (Runs.run_cons.mpr ⟨w', hs, Runs.run_nil.mpr rfl⟩)
  have hcond : d ∈ w.net r.other ∧
      d.header.channelId = (w.on r).stream.streamId := by
    simp only [Connection.step] at hs
    split at hs
    · rename_i hmem
      obtain ⟨x, hx, -⟩ := Option.map_eq_some_iff.mp hs
      simp only [Endpoint.step] at hx
      split at hx
      · rename_i hcond
        have hroutes := hcond.2
        unfold Endpoint.routes at hroutes
        rw [Bool.and_eq_true, decide_eq_true_eq] at hroutes
        exact ⟨hmem, hroutes.1⟩
      · cases hx
    · cases hs
  cases (Connection.step_moves h.intact.1 hs).2 with
  | act hop hacts =>
      cases hop
      refine ⟨hreach', hcond.2.trans hacts.ident.1.symm, fun hopen => ?_⟩
      obtain ⟨hv, -⟩ := hacts.effect.incoming_inv
        (hacts.effect.open_before hopen)
      have hst : (w'.on r).st = _ := congrArg View.st hv
      rw [hst]
      rw [hv] at hopen
      exact UdpStreamInner.dispatch_spends hopen
        (fun hk i hi => acked_lt_next h hcond.1 hk hi)
  | quiet hop _ => cases hop

theorem Processed.step {w w' : Connection} {r : Side} {d : Datagram}
    {a : Action} (h : Processed r d w) (hs : w.step a = some w') :
    Processed r d w' := by
  have hwf := h.reachable.intact.1 r
  have hreach' : w'.Reachable :=
    h.reachable.run (Runs.run_cons.mpr ⟨w', hs, Runs.run_nil.mpr rfl⟩)
  rcases Connection.step_on hs r with hsame | ⟨op, out, hop⟩
  · exact ⟨hreach', by rw [hsame]; exact h.id, by rw [hsame]; exact h.spent⟩
  · have heff := (Endpoint.wf_step hwf hop).2
    refine ⟨hreach', ?_, fun hopen => ?_⟩
    · rw [(Endpoint.step_streamId hwf hop).1]
      exact h.id
    · exact (h.spent (heff.open_before hopen)).effect heff

/-! ## Replays -/

/-- `on_packet` followed by `handle_incoming`: a packet that is not routed to
the stream is dropped. -/
def Endpoint.onPacket (e : Endpoint) (pkt : IncomingPacket) (now : Instant) :
    Endpoint :=
  (e.next (.incoming pkt now)).getD e

/-- The fields of a stream that a third party must not be able to change. -/
structure Endpoint.Unharmed (e e' : Endpoint) : Prop where
  state : e.st.Untouched e'.st
  closed : e'.stream.inner.closed = e.stream.inner.closed
  peerAddr : e'.stream.inner.peerAddr = e.stream.inner.peerAddr

theorem Endpoint.onPacket_unrouted {e : Endpoint} {pkt : IncomingPacket}
    (h : e.routes pkt = false) (now : Instant) : e.onPacket pkt now = e := by
  unfold onPacket next
  simp only [step]
  rw [if_neg (by simp [h])]
  rfl

theorem Endpoint.onPacket_routed {e : Endpoint} {pkt : IncomingPacket}
    (hwf : e.WF) (hopen : e.snap.closed = false) (hrun : e.snap.running = true)
    (h : e.routes pkt = true) (now : Instant) :
    (e.onPacket pkt now).snap = { e.snap with
      st := (UdpStreamInner.dispatch e.st pkt now).1
      closed := (UdpStreamInner.dispatch e.st pkt now).2.1
      peerAddr := pkt.src
      lastReceived := now } := by
  have hstep : ∃ e' out, e.step (.incoming pkt now) = some (e', out) :=
    ⟨_, _, if_pos ⟨hrun, h⟩⟩
  obtain ⟨e', out, hstep⟩ := hstep
  have hnext : e.onPacket pkt now = e' := by
    unfold onPacket next
    rw [hstep]
    rfl
  rw [hnext]
  exact ((wf_step hwf hstep).2.incoming_inv hopen).1

/-- **Replays.** A datagram that an open stream of a connection has processed
comes again, at any later time and from any address: it leaves the stream as
it is exactly if the stream is the connecting end, or the datagram comes from
the address the stream has for its peer. -/
theorem replay_unharmed_iff (sid : UInt32) (client server : SocketAddr)
    (t t' : Instant) (r : Side) (as₁ as₂ : List Action) (d : Datagram)
    (src : SocketAddr) (now : Instant) (w : Connection)
    (hrun : Runs.Run Connection.step (Connection.init sid client server t t')
      (as₁ ++ .deliver r d src now :: as₂) w)
    (hopen : (w.on r).stream.inner.closed = false) (src' : SocketAddr)
    (now' : Instant) :
    (w.on r).Unharmed ((w.on r).onPacket ⟨d.header, d.payload, src'⟩ now') ↔
      r = .connector ∨ src' = (w.on r).stream.inner.peerAddr := by
  obtain ⟨w₁, hrun₁, hrest⟩ := Runs.run_append.mp hrun
  obtain ⟨w₂, hstep, hrun₂⟩ := Runs.run_cons.mp hrest
  have hreach₁ : w₁.Reachable := ⟨sid, client, server, t, t', as₁, hrun₁⟩
  have hproc : Processed r d w := Runs.run_preserves
    (fun u a u' hu hs => hu.step hs) (processed_deliver hreach₁ hstep) hrun₂
  have hwf := hproc.reachable.intact.1 r
  have hplaced := hproc.reachable.placed
  have hrunning := hproc.reachable.linked.running r hopen
  have hroutes : (w.on r).routes ⟨d.header, d.payload, src'⟩ = true ↔
      ∀ a, (w.on r).dest = some a → src' = a := by
    unfold Endpoint.routes
    rw [decide_eq_true hproc.id, Bool.true_and]
    cases (w.on r).dest <;> simp
  by_cases htaken : (w.on r).routes ⟨d.header, d.payload, src'⟩ = true
  · have hsnap := Endpoint.onPacket_routed hwf hopen hrunning htaken now'
    have hpeer : ((w.on r).onPacket ⟨d.header, d.payload, src'⟩
      now').stream.inner.peerAddr = src' := congrArg View.peerAddr hsnap
    constructor
    · intro h
      exact Or.inr (hpeer.symm.trans h.peerAddr)
    · intro hsrc
      have hsrc' : src' = (w.on r).stream.inner.peerAddr := by
        rcases hsrc with rfl | hsrc
        · exact hroutes.mp htaken _ hplaced.connector
        · exact hsrc
      have hspent : Spent (w.on r).st
          (⟨d.header, d.payload, src'⟩ : IncomingPacket).header :=
        hproc.spent hopen
      obtain ⟨hst, hstays⟩ := UdpStreamInner.dispatch_spent hspent now'
      refine ⟨?_, ?_, hpeer.trans hsrc'⟩
      · have hst' : ((w.on r).onPacket ⟨d.header, d.payload, src'⟩ now').st =
          (UdpStreamInner.dispatch (w.on r).st ⟨d.header, d.payload, src'⟩
            now').1 := congrArg View.st hsnap
        rw [hst']
        exact hst
      · have hclosed : _ = _ := congrArg View.closed hsnap
        exact hclosed.trans (hstays.trans hopen.symm)
  · rw [Endpoint.onPacket_unrouted (Bool.not_eq_true _ ▸ htaken)]
    refine ⟨fun _ => ?_, fun _ => ⟨⟨rfl, rfl, rfl, rfl, rfl⟩, rfl, rfl⟩⟩
    -- only the connecting end refuses a packet for its address
    cases r with
    | connector => exact Or.inl rfl
    | acceptor =>
        refine absurd (hroutes.mpr fun a ha => ?_) htaken
        rw [show (w.on .acceptor).dest = none from hplaced.acceptor] at ha
        cases ha

/-- A chunk of the client, taken by the server and captured on the way. -/
def captured : Datagram :=
  ⟨⟨7, .stream, 1, 0, 0⟩, [1, 2, 3], listenerAddr⟩

def capture : List Action :=
  Connection.opening ++
    [.act .connector (.pollWrite 0 [1, 2, 3] 5), .act .connector (.writeRx 6)]

theorem replay_unharmed_same_address : ∃ w : Connection,
    Runs.Run Connection.step .sample (capture ++
      [.deliver .acceptor captured (.v4 #v[10, 0, 0, 1] 40000) 7]) w ∧
    (w.on .acceptor).st.nextReadSeq = 2 ∧
    (w.on .acceptor).Unharmed ((w.on .acceptor).onPacket ⟨captured.header,
      captured.payload, .v4 #v[10, 0, 0, 1] 40000⟩ 9) := by
  refine ⟨_, rfl, rfl, ?_⟩
  exact (replay_unharmed_iff 7 (.v4 #v[10, 0, 0, 1] 40000)
    (.v4 #v[10, 0, 0, 2] 2333) 0 0 .acceptor capture [] captured
    (.v4 #v[10, 0, 0, 1] 40000) 7 _ rfl rfl _ 9).mpr (Or.inr rfl)

/-- The same datagram from a third address redirects the server's stream. -/
theorem replay_redirects : ∃ w : Connection,
    Runs.Run Connection.step .sample (capture ++
      [.deliver .acceptor captured (.v4 #v[10, 0, 0, 1] 40000) 7]) w ∧
    (w.on .acceptor).stream.inner.closed = false ∧
    ¬ (w.on .acceptor).Unharmed ((w.on .acceptor).onPacket ⟨captured.header,
      captured.payload, .v4 #v[203, 0, 113, 9] 666⟩ 9) := by
  refine ⟨_, rfl, rfl, fun h => ?_⟩
  have hpeer := h.peerAddr
  revert hpeer
  decide +kernel

end Rathole
