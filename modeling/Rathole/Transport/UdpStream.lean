import Rathole.Net
import Rathole.Transport.Reliability

/-!
# UDP streams (`transport/udp.rs`)

`UdpStreamInner` is what the mutex protects; `UdpStream` adds the write
channel and whether the background task still runs. Each function below is
one critical section of the source followed by the packets it sends: the task
is the only one to change the receiving half, so the acks computed when the
packets leave are those of the state the section left behind.

AEAD is ideal: a datagram is its header and payload in clear. A lock is never
poisoned (both cargo profiles abort on panic) and the cipher never refuses a
packet, so `handle_incoming` and the sends always return `Ok`.
-/

namespace Rathole

structure IncomingPacket where
  header : TransportPacketHeader
  payload : Bytes
  src : SocketAddr
deriving DecidableEq

/-- A packet handed to the socket. -/
structure Datagram where
  header : TransportPacketHeader
  payload : Bytes
  dest : SocketAddr
deriving DecidableEq

structure UdpStreamInner where
  peerAddr : SocketAddr
  reliability : Reliability
  lastReceived : Instant
  lastSent : Instant
  closed : Bool

structure UdpStream where
  streamId : UInt32
  inner : UdpStreamInner
  /-- `write_tx` to `write_rx`, oldest first. -/
  writeCh : List (ℕ × Bytes)
  /-- The background task has not left its loop. -/
  running : Bool

/-- What a poll returns. -/
inductive Poll (α : Type) where
  | ready (a : α)
  | pending
deriving DecidableEq

inductive IoError where
  | writeZero
  | other (msg : String)
deriving DecidableEq

/-- A packet still to be sent: kind, seq, ack, bits, data. -/
structure ToSend where
  kind : PacketKind
  seq : ℕ
  ack : ℕ
  bits : ℕ
  data : Bytes
deriving DecidableEq

namespace UdpStreamInner

def stream? (inner : UdpStreamInner) (sid : UInt32) : Option StreamState :=
  inner.reliability.streams.lookup sid

def setStream (inner : UdpStreamInner) (sid : UInt32) (st : StreamState) :
    UdpStreamInner :=
  { inner with reliability := ⟨inner.reliability.streams.insert sid st⟩ }

/-! ## Sending -/

/-- Sack and Nack carry the ack and bits passed in; every other kind
piggybacks the current receive state. -/
def sendPacketRaw (inner : UdpStreamInner) (sid : UInt32) (pt : PacketKind)
    (seq : ℕ) (ackOverride bitsOverride : Option ℕ) (data : Bytes)
    (now : Instant) : UdpStreamInner × Datagram :=
  let ab :=
    match inner.stream? sid with
    | some state =>
        if pt = PacketKind.nack ∨ pt = PacketKind.sack then
          match ackOverride, bitsOverride with
          | some a, some b => (a, b)
          | _, _ => state.buildAck
        else state.buildAck
    | none => (0, 0)
  ({ inner with lastSent := now },
    ⟨⟨sid, pt, seq, ab.1, ab.2⟩, data, inner.peerAddr⟩)

def sendPacket (inner : UdpStreamInner) (sid : UInt32) (pt : PacketKind)
    (seq : ℕ) (data : Bytes) (now : Instant) : UdpStreamInner × Datagram :=
  inner.sendPacketRaw sid pt seq none none data now

/-- The send loops that close `handle_incoming` and `handle_tick`. -/
def sendAll (inner : UdpStreamInner) (now : Instant) :
    List (UInt32 × ToSend) → UdpStreamInner × List Datagram
  | [] => (inner, [])
  | (sid, p) :: rest =>
      let r := inner.sendPacketRaw sid p.kind p.seq (some p.ack) (some p.bits)
        p.data now
      let rs := r.1.sendAll now rest
      (rs.1, r.2 :: rs.2)

/-! ## Incoming packets -/

/-- The loop over the sequence numbers to resend after a Sack or a Nack. -/
def resend (now : Instant) : StreamState → List ℕ → StreamState × List ToSend
  | st, [] => (st, [])
  | st, seq :: rest =>
      match st.writeQueue.get? seq with
      | some p =>
          let st' := { st with
            writeQueue := st.writeQueue.modify seq
              (fun q => { q with sentAt := now }) }
          let r := resend now st' rest
          (r.1, ⟨.stream, seq, 0, 0, p.data⟩ :: r.2)
      | none => resend now st rest

/-- The `Sack | Nack` branch, after `handle_ack` or `handle_nack`. -/
def afterAck (now : Instant) (r : StreamState × List ℕ × List Waker) :
    StreamState × List ToSend × List Waker :=
  let q := resend now r.1 r.2.1
  if q.1.writeQueue.isEmpty then
    ({ q.1 with writeWaker := none }, q.2, r.2.2 ++ q.1.writeWaker.toList)
  else (q.1, q.2, r.2.2)

/-- The match on the packet kind: the stream's state, whether the packet
closes it, the answers and the tasks woken. -/
def dispatch (st : StreamState) (pkt : IncomingPacket) (now : Instant) :
    StreamState × Bool × List ToSend × List Waker :=
  match pkt.header.packetKind with
  | .streamOpen =>
      ({ st with established := true }, false, [⟨.streamOpenAck, 0, 0, 0, []⟩],
        [])
  | .streamOpenAck => ({ st with established := true }, false, [], [])
  | .streamClose =>
      ({ st with readWaker := none, writeWaker := none }, true, [],
        st.readWaker.toList ++ st.writeWaker.toList)
  | .stream =>
      let r := st.pushData pkt.header.seq pkt.payload
      let answer :=
        match r.2.1 with
        | some (start, stop) => [⟨.nack, start, stop, 0, []⟩]
        | none =>
            if r.1.mode = .tcp then
              [⟨.sack, 0, r.1.buildAck.1, r.1.buildAck.2, []⟩]
            else []
      ({ r.1 with readWaker := none }, false, answer,
        r.2.2 ++ r.1.readWaker.toList)
  | .sack =>
      let r := afterAck now (st.handleAck pkt.header.ack pkt.header.ackBits)
      (r.1, false, r.2.1, r.2.2)
  | .nack =>
      let r := afterAck now (st.handleNack pkt.header.seq pkt.header.ack)
      (r.1, false, r.2.1, r.2.2)
  | .keepalivePing => (st, false, [⟨.keepalivePong, 0, 0, 0, []⟩], [])
  | .keepalivePong => (st, false, [], [])
  | .service => (st, false, [], [])

/-! ### What a packet does to the stream -/

section Dispatch

variable {now : Instant} {pkt : IncomingPacket} {st : StreamState}

/-- Stamping one chunk leaves every chunk's number and data. -/
theorem mem_stamp {now : Instant} {seq : ℕ} {wq : OrdMap ℕ SentPacket}
    {x : ℕ × SentPacket}
    (hx : x ∈ (wq.modify seq (fun q => { q with sentAt := now })).entries) :
    ∃ p, (x.1, p) ∈ wq.entries ∧ p.data = x.2.data := by
  obtain ⟨y, hy, hxy⟩ := OrdMap.mem_modify.mp hx
  have hkey : x.1 = y.1 := by
    have := congrArg Prod.fst hxy
    split at this <;> exact this
  have hdata : x.2.data = y.2.data := by
    have := congrArg (fun z : ℕ × SentPacket => z.2.data) hxy
    split at this <;> exact this
  exact ⟨y.2, hkey ▸ hy, hdata.symm⟩

/-- Resending touches the `sent_at` of queued chunks only. -/
theorem resend_frame (now : Instant) (l : List ℕ) (st : StreamState) :
    ∃ wq, (resend now st l).1 = { st with writeQueue := wq } ∧
      wq.entries.map Prod.fst = st.writeQueue.entries.map Prod.fst ∧
      ∀ x ∈ wq.entries,
        ∃ p, (x.1, p) ∈ st.writeQueue.entries ∧ p.data = x.2.data := by
  induction l generalizing st with
  | nil => exact ⟨st.writeQueue, rfl, rfl, fun x hx => ⟨x.2, hx, rfl⟩⟩
  | cons seq rest ih =>
      unfold resend
      cases st.writeQueue.get? seq with
      | none => exact ih st
      | some p =>
          obtain ⟨wq, heq, hkeys, hdata⟩ := ih { st with
            writeQueue := st.writeQueue.modify seq
              (fun q => { q with sentAt := now }) }
          refine ⟨wq, heq, hkeys.trans OrdMap.keys_modify, ?_⟩
          intro x hx
          obtain ⟨q, hq, hqd⟩ := hdata x hx
          obtain ⟨r, hr, hrd⟩ := mem_stamp hq
          exact ⟨r, hr, hrd.trans hqd⟩

theorem mem_resend (now : Instant) {p : ToSend} (l : List ℕ) (st : StreamState)
    (h : p ∈ (resend now st l).2) :
    p.kind = .stream ∧
      ∃ q, (p.seq, q) ∈ st.writeQueue.entries ∧ q.data = p.data := by
  induction l generalizing st with
  | nil => cases h
  | cons seq rest ih =>
      unfold resend at h
      cases hget : st.writeQueue.get? seq with
      | none =>
          rw [hget] at h
          exact ih st h
      | some q =>
          rw [hget] at h
          rcases List.mem_cons.mp h with rfl | h'
          · exact ⟨rfl, q, OrdMap.get?_eq_some.mp hget, rfl⟩
          · obtain ⟨hk, r, hr, hrd⟩ := ih _ h'
            obtain ⟨q', hq', hqd'⟩ := mem_stamp hr
            exact ⟨hk, q', hq', hqd'.trans hrd⟩

/-- The `Sack | Nack` branch in one equation: the queue keeps its keys and
data, the writer is woken if the queue is empty. -/
theorem afterAck_frame (now : Instant)
    (r : StreamState × List ℕ × List Waker) :
    ∃ wq ww, (afterAck now r).1 =
        { r.1 with writeQueue := wq, writeWaker := ww } ∧
      (ww = r.1.writeWaker ∨ ww = none) ∧
      wq.entries.map Prod.fst = r.1.writeQueue.entries.map Prod.fst ∧
      ∀ x ∈ wq.entries,
        ∃ p, (x.1, p) ∈ r.1.writeQueue.entries ∧ p.data = x.2.data := by
  obtain ⟨wq, heq, hkeys, hdata⟩ := resend_frame now r.2.1 r.1
  unfold afterAck
  dsimp only
  rw [heq]
  split
  · exact ⟨wq, none, rfl, Or.inr rfl, hkeys, hdata⟩
  · exact ⟨wq, r.1.writeWaker, rfl, Or.inl rfl, hkeys, hdata⟩

theorem mem_afterAck {r : StreamState × List ℕ × List Waker} {p : ToSend}
    (h : p ∈ (afterAck now r).2.1) :
    p.kind = .stream ∧
      ∃ q, (p.seq, q) ∈ r.1.writeQueue.entries ∧ q.data = p.data := by
  unfold afterAck at h
  dsimp only at h
  split at h
  · exact mem_resend now r.2.1 r.1 h
  · exact mem_resend now r.2.1 r.1 h

/-- `handle_ack` and `handle_nack` leave the queue a part of what it was. -/
theorem handleAck_frame (st : StreamState) (ack bits : ℕ) :
    ∃ ww, (st.handleAck ack bits).1 = { st with
      writeQueue := st.writeQueue.retain
        (fun seq _ => StreamState.unacked ack bits seq)
      writeWaker := ww } := by
  unfold StreamState.handleAck
  rw [StreamState.wakeWriter_fst]
  exact ⟨_, rfl⟩

theorem handleNack_frame (st : StreamState) (start stop : ℕ) :
    ∃ ww, (st.handleNack start stop).1 = { st with writeWaker := ww } := by
  unfold StreamState.handleNack
  rw [StreamState.wakeWriter_fst]
  exact ⟨_, rfl⟩

/-- No packet changes the mode or takes a sequence number. -/
theorem dispatch_frame (st : StreamState) (pkt : IncomingPacket)
    (now : Instant) :
    (dispatch st pkt now).1.mode = st.mode ∧
      (dispatch st pkt now).1.nextWriteSeq = st.nextWriteSeq := by
  unfold dispatch
  cases pkt.header.packetKind with
  | stream =>
      exact ⟨(st.pushData_frame pkt.header.seq pkt.payload).1,
        (st.pushData_frame pkt.header.seq pkt.payload).2.1⟩
  | sack =>
      obtain ⟨ww, hack⟩ := handleAck_frame st pkt.header.ack pkt.header.ackBits
      obtain ⟨wq, ww', heq, -⟩ := afterAck_frame now
        (st.handleAck pkt.header.ack pkt.header.ackBits)
      dsimp only
      rw [heq, hack]
      exact ⟨rfl, rfl⟩
  | nack =>
      obtain ⟨ww, hnack⟩ := handleNack_frame st pkt.header.seq pkt.header.ack
      obtain ⟨wq, ww', heq, -⟩ := afterAck_frame now
        (st.handleNack pkt.header.seq pkt.header.ack)
      dsimp only
      rw [heq, hnack]
      exact ⟨rfl, rfl⟩
  | _ => exact ⟨rfl, rfl⟩

/-- Only a Stream packet moves the reading half. -/
theorem dispatch_reading (h : pkt.header.packetKind ≠ .stream) :
    (dispatch st pkt now).1.nextReadSeq = st.nextReadSeq ∧
    (dispatch st pkt now).1.readBuffer = st.readBuffer ∧
    (dispatch st pkt now).1.readBufBytes = st.readBufBytes := by
  unfold dispatch
  cases hk : pkt.header.packetKind with
  | stream => exact absurd hk h
  | sack =>
      obtain ⟨ww, hack⟩ := handleAck_frame st pkt.header.ack pkt.header.ackBits
      obtain ⟨wq, ww', heq, -⟩ := afterAck_frame now
        (st.handleAck pkt.header.ack pkt.header.ackBits)
      dsimp only
      rw [heq, hack]
      exact ⟨rfl, rfl, rfl⟩
  | nack =>
      obtain ⟨ww, hnack⟩ := handleNack_frame st pkt.header.seq pkt.header.ack
      obtain ⟨wq, ww', heq, -⟩ := afterAck_frame now
        (st.handleNack pkt.header.seq pkt.header.ack)
      dsimp only
      rw [heq, hnack]
      exact ⟨rfl, rfl, rfl⟩
  | _ => exact ⟨rfl, rfl, rfl⟩

/-- What a packet leaves queued was queued, with the same data. -/
theorem mem_dispatch_queue {x : ℕ × SentPacket}
    (hx : x ∈ (dispatch st pkt now).1.writeQueue.entries) :
    ∃ p, (x.1, p) ∈ st.writeQueue.entries ∧ p.data = x.2.data := by
  unfold dispatch at hx
  cases hk : pkt.header.packetKind with
  | stream =>
      rw [hk] at hx
      dsimp only at hx
      rw [(st.pushData_frame pkt.header.seq pkt.payload).2.2.1] at hx
      exact ⟨x.2, hx, rfl⟩
  | sack =>
      rw [hk] at hx
      obtain ⟨ww, hack⟩ := handleAck_frame st pkt.header.ack pkt.header.ackBits
      obtain ⟨wq, ww', heq, -, -, hdata⟩ := afterAck_frame now
        (st.handleAck pkt.header.ack pkt.header.ackBits)
      dsimp only at hx
      rw [heq] at hx
      obtain ⟨p, hp, hpd⟩ := hdata x hx
      rw [hack] at hp
      exact ⟨p, (OrdMap.mem_retain.mp hp).1, hpd⟩
  | nack =>
      rw [hk] at hx
      obtain ⟨ww, hnack⟩ := handleNack_frame st pkt.header.seq pkt.header.ack
      obtain ⟨wq, ww', heq, -, -, hdata⟩ := afterAck_frame now
        (st.handleNack pkt.header.seq pkt.header.ack)
      dsimp only at hx
      rw [heq] at hx
      obtain ⟨p, hp, hpd⟩ := hdata x hx
      rw [hnack] at hp
      exact ⟨p, hp, hpd⟩
  | _ =>
      rw [hk] at hx
      exact ⟨x.2, hx, rfl⟩

/-- A chunk sent in answer to a packet was queued. -/
theorem dispatch_sends_queued {p : ToSend}
    (hp : p ∈ (dispatch st pkt now).2.2.1) (hkind : p.kind = .stream) :
    ∃ q, (p.seq, q) ∈ st.writeQueue.entries ∧ q.data = p.data := by
  unfold dispatch at hp
  cases hk : pkt.header.packetKind with
  | stream =>
      rw [hk] at hp
      dsimp only at hp
      split at hp
      · rw [List.mem_singleton.mp hp] at hkind
        cases hkind
      · split at hp
        · rw [List.mem_singleton.mp hp] at hkind
          cases hkind
        · cases hp
  | sack =>
      rw [hk] at hp
      obtain ⟨ww, hack⟩ := handleAck_frame st pkt.header.ack pkt.header.ackBits
      obtain ⟨-, q, hq, hqd⟩ := mem_afterAck hp
      rw [hack] at hq
      exact ⟨q, (OrdMap.mem_retain.mp hq).1, hqd⟩
  | nack =>
      rw [hk] at hp
      obtain ⟨ww, hnack⟩ := handleNack_frame st pkt.header.seq pkt.header.ack
      obtain ⟨-, q, hq, hqd⟩ := mem_afterAck hp
      rw [hnack] at hq
      exact ⟨q, hq, hqd⟩
  | streamOpen =>
      rw [hk] at hp
      rw [List.mem_singleton.mp hp] at hkind
      cases hkind
  | keepalivePing =>
      rw [hk] at hp
      rw [List.mem_singleton.mp hp] at hkind
      cases hkind
  | _ =>
      rw [hk] at hp
      cases hp

theorem afterAck_keeps (now : Instant) {r : StreamState × List ℕ × List Waker}
    {i : ℕ} {p : SentPacket} (h : (i, p) ∈ r.1.writeQueue.entries) :
    ∃ q, (i, q) ∈ (afterAck now r).1.writeQueue.entries := by
  obtain ⟨wq, ww, heq, -, hkeys, -⟩ := afterAck_frame now r
  rw [heq]
  have hi : i ∈ wq.entries.map Prod.fst := by
    rw [hkeys]
    exact List.mem_map_of_mem h
  obtain ⟨x, hx, rfl⟩ := List.mem_map.mp hi
  exact ⟨x.2, hx⟩

/-- A chunk leaves the queue on a Sack that acknowledges it, and on no other
packet. -/
theorem dispatch_keeps {i : ℕ} {p : SentPacket}
    (h : (i, p) ∈ st.writeQueue.entries) :
    (∃ q, (i, q) ∈ (dispatch st pkt now).1.writeQueue.entries) ∨
      (pkt.header.packetKind = .sack ∧
        StreamState.Acked pkt.header.ack pkt.header.ackBits i) := by
  unfold dispatch
  cases hk : pkt.header.packetKind with
  | stream =>
      left
      dsimp only
      rw [(st.pushData_frame pkt.header.seq pkt.payload).2.2.1]
      exact ⟨p, h⟩
  | sack =>
      by_cases hacked : StreamState.Acked pkt.header.ack pkt.header.ackBits i
      · exact Or.inr ⟨rfl, hacked⟩
      · obtain ⟨ww, hack⟩ := handleAck_frame st pkt.header.ack
          pkt.header.ackBits
        refine Or.inl (afterAck_keeps now (p := p) ?_)
        rw [hack]
        exact OrdMap.mem_retain.mpr ⟨h, StreamState.unacked_iff.mpr hacked⟩
  | nack =>
      obtain ⟨ww, hnack⟩ := handleNack_frame st pkt.header.seq pkt.header.ack
      refine Or.inl (afterAck_keeps now (p := p) ?_)
      rw [hnack]
      exact h
  | _ => exact Or.inl ⟨p, h⟩

theorem not_acked_of_mem_dispatch {x : ℕ × SentPacket}
    (hk : pkt.header.packetKind = .sack)
    (hx : x ∈ (dispatch st pkt now).1.writeQueue.entries) :
    ¬ StreamState.Acked pkt.header.ack pkt.header.ackBits x.1 := by
  unfold dispatch at hx
  rw [hk] at hx
  obtain ⟨ww, hack⟩ := handleAck_frame st pkt.header.ack pkt.header.ackBits
  obtain ⟨wq, ww', heq, -, -, hdata⟩ := afterAck_frame now
    (st.handleAck pkt.header.ack pkt.header.ackBits)
  dsimp only at hx
  rw [heq] at hx
  obtain ⟨p, hp, -⟩ := hdata x hx
  rw [hack] at hp
  exact StreamState.unacked_iff.mp (OrdMap.mem_retain.mp hp).2

/-- Every Sack carries the ack of the state it is sent from. -/
theorem dispatch_sack {p : ToSend} (hp : p ∈ (dispatch st pkt now).2.2.1)
    (hkind : p.kind = .sack) :
    (p.ack, p.bits) = (dispatch st pkt now).1.buildAck := by
  unfold dispatch at hp ⊢
  cases hk : pkt.header.packetKind with
  | stream =>
      rw [hk] at hp
      dsimp only at hp ⊢
      split at hp
      · rw [List.mem_singleton.mp hp] at hkind
        cases hkind
      · split at hp
        · rw [List.mem_singleton.mp hp]
          exact StreamState.buildAck_congr rfl rfl
        · cases hp
  | sack =>
      rw [hk] at hp
      rw [(mem_afterAck hp).1] at hkind
      cases hkind
  | nack =>
      rw [hk] at hp
      rw [(mem_afterAck hp).1] at hkind
      cases hkind
  | streamOpen =>
      rw [hk] at hp
      rw [List.mem_singleton.mp hp] at hkind
      cases hkind
  | keepalivePing =>
      rw [hk] at hp
      rw [List.mem_singleton.mp hp] at hkind
      cases hkind
  | _ =>
      rw [hk] at hp
      cases hp

/-- In TCP mode every chunk is answered by one Sack, a duplicate too. -/
theorem dispatch_stream_tcp (hk : pkt.header.packetKind = .stream)
    (hmode : st.mode = .tcp) :
    ∃ p, (dispatch st pkt now).2.2.1 = [p] ∧ p.kind = .sack := by
  have hnack : (st.pushData pkt.header.seq pkt.payload).2.1 = none := by
    unfold StreamState.pushData
    split
    · rfl
    · rw [if_neg (fun h => by rw [hmode] at h; cases h.1)]
  unfold dispatch
  rw [hk]
  dsimp only
  rw [hnack]
  dsimp only
  rw [if_pos ((st.pushData_frame pkt.header.seq pkt.payload).1.trans hmode)]
  exact ⟨_, rfl, rfl⟩

/-- A stream becomes established by a StreamOpen or its answer, and stays so. -/
theorem dispatch_established :
    (dispatch st pkt now).1.established = true ↔
      st.established = true ∨ pkt.header.packetKind = .streamOpen ∨
        pkt.header.packetKind = .streamOpenAck := by
  unfold dispatch
  cases hk : pkt.header.packetKind with
  | streamOpen => simp
  | streamOpenAck => simp
  | stream =>
      have hpush : (st.pushData pkt.header.seq pkt.payload).1.established =
          st.established := by
        unfold StreamState.pushData
        split <;> rfl
      simp [hpush]
  | sack =>
      obtain ⟨ww, hack⟩ := handleAck_frame st pkt.header.ack pkt.header.ackBits
      obtain ⟨wq, ww', heq, -⟩ := afterAck_frame now
        (st.handleAck pkt.header.ack pkt.header.ackBits)
      dsimp only
      rw [heq, hack]
      simp
  | nack =>
      obtain ⟨ww, hnack⟩ := handleNack_frame st pkt.header.seq pkt.header.ack
      obtain ⟨wq, ww', heq, -⟩ := afterAck_frame now
        (st.handleNack pkt.header.seq pkt.header.ack)
      dsimp only
      rw [heq, hnack]
      simp
  | _ => simp

theorem dispatch_received {i : ℕ} :
    (dispatch st pkt now).1.Received i ↔
      st.Received i ∨ (pkt.header.packetKind = .stream ∧ i = pkt.header.seq) := by
  by_cases hk : pkt.header.packetKind = .stream
  · have hpush : (dispatch st pkt now).1.Received i ↔
        (st.pushData pkt.header.seq pkt.payload).1.Received i := by
      unfold dispatch
      rw [hk]
      exact Iff.rfl
    rw [hpush, StreamState.pushData_received]
    simp [hk]
  · obtain ⟨hnext, hbuf, -⟩ := @dispatch_reading now pkt st hk
    unfold StreamState.Received
    rw [hnext, hbuf]
    simp [hk]

end Dispatch

def handleIncoming (inner : UdpStreamInner) (pkt : IncomingPacket)
    (now : Instant) : UdpStreamInner × List Datagram × List Waker :=
  if inner.closed then (inner, [], [])
  else
    let sid := pkt.header.channelId
    let st := (inner.stream? sid).getD (StreamState.new .tcp)
    let r := dispatch st pkt now
    let inner' := { inner with
      lastReceived := now, peerAddr := pkt.src, closed := r.2.1 }
    let s := (inner'.setStream sid r.1).sendAll now
      (r.2.2.1.map (fun p => (sid, p)))
    (s.1, s.2, r.2.2.2)

/-! ## The timer -/

def handleTick (inner : UdpStreamInner) (now : Instant) :
    UdpStreamInner × Except String (List Datagram) :=
  if inner.closed then (inner, .error "closed")
  else
    let hasPendingWrites :=
      inner.reliability.streams.entries.any (fun e => !e.2.writeQueue.isEmpty)
    if !hasPendingWrites && decide (now - inner.lastReceived > secs 300) then
      (inner, .error "timeout")
    else
      let pings :=
        if now - inner.lastSent > secs 5 then
          inner.reliability.streams.entries.map
            (fun e => (e.1, (⟨.keepalivePing, 0, 0, 0, []⟩ : ToSend)))
        else []
      let r := inner.reliability.getRetransmissions now
      let inner' := { inner with reliability := r.1 }
      if r.2.2.isEmpty then
        let s := inner'.sendAll now
          (pings ++ r.2.1.map
            (fun q => (q.1, (⟨.stream, q.2.1, 0, 0, q.2.2⟩ : ToSend))))
        (s.1, .ok s.2)
      else (inner', .error "retransmission timeout")

/-- Set `closed` and wake whoever is parked on the stream. -/
def closeAndWake (inner : UdpStreamInner) (sid : UInt32) :
    UdpStreamInner × List Waker :=
  let inner' := { inner with closed := true }
  match inner.stream? sid with
  | some st =>
      (inner'.setStream sid { st with readWaker := none, writeWaker := none },
        st.readWaker.toList ++ st.writeWaker.toList)
  | none => (inner', [])

end UdpStreamInner

namespace UdpStream

open UdpStreamInner

def new (sid : UInt32) (peerAddr : SocketAddr) (now : Instant) : UdpStream where
  streamId := sid
  inner :=
    { peerAddr := peerAddr
      reliability := ⟨AList.singleton sid (StreamState.new .tcp)⟩
      lastReceived := now
      lastSent := now
      closed := false }
  writeCh := []
  running := true

def state? (u : UdpStream) : Option StreamState := u.inner.stream? u.streamId

def setState (u : UdpStream) (st : StreamState) : UdpStream :=
  { u with inner := u.inner.setStream u.streamId st }

/-! ## The application's side -/

/-- `try_send` on the bounded write channel; a full or closed channel drops
the item. -/
def trySend (u : UdpStream) (item : ℕ × Bytes) : UdpStream :=
  if u.running ∧ u.writeCh.length < 1024 then
    { u with writeCh := u.writeCh ++ [item] }
  else u

def pollRead (u : UdpStream) (cx : Waker) (remaining : ℕ) :
    UdpStream × Poll (Except IoError Bytes) :=
  match u.state? with
  | none => (u, .ready (.error (.other "Stream not found")))
  | some st =>
      if st.readBufBytes ≠ [] then
        let len := min remaining st.readBufBytes.length
        (u.setState { st with readBufBytes := st.readBufBytes.drop len },
          .ready (.ok (st.readBufBytes.take len)))
      else if u.inner.closed then (u, .ready (.ok []))
      else (u.setState { st with readWaker := some cx }, .pending)

def pollWrite (u : UdpStream) (cx : Waker) (buf : Bytes) (now : Instant) :
    UdpStream × Poll (Except IoError ℕ) :=
  if u.inner.closed then (u, .ready (.error .writeZero))
  else
    match u.state? with
    | none => (u, .ready (.error (.other "Stream not found")))
    | some st =>
        if st.writeQueue.len ≥ 1024 then
          (u.setState { st with writeWaker := some cx }, .pending)
        else
          let chunkLen := min buf.length 1100
          let chunk := buf.take chunkLen
          let seq := st.nextWriteSeq
          let st' := { st with
            nextWriteSeq := st.nextWriteSeq + 1
            writeQueue := st.writeQueue.insert seq ⟨chunk, now, 0⟩ }
          ((u.setState st').trySend (seq, chunk), .ready (.ok chunkLen))

/-- Sequence number 0 in the write channel is the sentinel for StreamClose. -/
def pollShutdown (u : UdpStream) : UdpStream :=
  ({ u with inner := { u.inner with closed := true } } : UdpStream).trySend
    (0, [])

def setUdpNackMode (u : UdpStream) : UdpStream :=
  match u.state? with
  | some st => u.setState { st with mode := .udp }
  | none => u

/-- One turn of the loop in `connect`: `none` once the handshake is over. -/
def connectTurn (u : UdpStream) (now : Instant) :
    Option (UdpStream × Datagram) :=
  if u.inner.closed then none
  else
    match u.state? with
    | some st =>
        if st.established then none
        else
          let r := u.inner.sendPacket u.streamId .streamOpen 0 [] now
          some ({ u with inner := r.1 }, r.2)
    | none => none

/-! ## The background task -/

/-- What follows the task's loop. -/
def endTask (u : UdpStream) : UdpStream × List Waker :=
  let r := u.inner.closeAndWake u.streamId
  ({ u with inner := r.1, running := false }, r.2)

/-- The `write_rx` branch. -/
def writeRx (u : UdpStream) (now : Instant) : Option (UdpStream × Datagram) :=
  match u.writeCh with
  | [] => none
  | (seq, data) :: rest =>
      let r :=
        if seq = 0 then u.inner.sendPacket u.streamId .streamClose 0 [] now
        else u.inner.sendPacket u.streamId .stream seq data now
      some ({ u with inner := r.1, writeCh := rest }, r.2)

/-- The ticker branch: an error ends the task. -/
def tick (u : UdpStream) (now : Instant) :
    UdpStream × List Datagram × List Waker :=
  let r := u.inner.handleTick now
  match r.2 with
  | .ok sent => ({ u with inner := r.1 }, sent, [])
  | .error _ =>
      let e := ({ u with inner := r.1 } : UdpStream).endTask
      (e.1, [], e.2)

end UdpStream

/-! ## The two addresses of a sample connection -/

def connectorAddr : SocketAddr := .v4 #v[10, 0, 0, 1] 40000

def listenerAddr : SocketAddr := .v4 #v[10, 0, 0, 2] 2333

end Rathole
