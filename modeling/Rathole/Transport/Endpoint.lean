import Rathole.Lib.Runs
import Rathole.Transport.UdpStream

/-!
# One end of a connection, as a transition system

An `Endpoint` is a `UdpStream` with the task that serves it and a record of
what the application has seen: the chunks `poll_write` accepted, the bytes
`poll_read` returned, whether it shut the stream down. The record is never
read by the code.

`Effect` lists what a step can do to a stream, once and for all;
`Endpoint.step_effect` shows that the functions of `udp.rs` do nothing else.
Every invariant of the transport is proved against `Effect`.
-/

namespace Rathole

structure Endpoint where
  stream : UdpStream
  /-- The server's address at a connecting end, `none` behind a listener. -/
  dest : Option SocketAddr
  /-- The application has dropped the stream. -/
  dropped : Bool
  /-- The connecting end's receive loop has stopped on a socket error. -/
  recvFailed : Bool
  accepted : List (ℕ × Bytes)
  returned : Bytes
  shutdown : Bool

/-- Everything that can happen at one end. -/
inductive Op where
  | pollWrite (cx : Waker) (buf : Bytes) (now : Instant)
  | pollRead (cx : Waker) (remaining : ℕ)
  | pollShutdown
  | setUdpNackMode
  | connectTurn (now : Instant)
  | incoming (pkt : IncomingPacket) (now : Instant)
  | writeRx (now : Instant)
  | tick (now : Instant)
  | drop
  | socketError
  | endTask
deriving DecidableEq

/-- What a step shows to the outside. -/
structure Output where
  sent : List Datagram := []
  woken : List Waker := []
deriving DecidableEq

namespace Endpoint

def connecting (sid : UInt32) (server : SocketAddr) (now : Instant) :
    Endpoint :=
  ⟨UdpStream.new sid server now, some server, false, false, [], [], false⟩

def accepting (sid : UInt32) (client : SocketAddr) (now : Instant) :
    Endpoint :=
  ⟨UdpStream.new sid client now, none, false, false, [], [], false⟩

/-- The chunk a `poll_write` call takes from the caller's buffer. -/
def acceptedBy (e : Endpoint) (buf : Bytes) :
    Poll (Except IoError ℕ) → List (ℕ × Bytes)
  | .ready (.ok n) =>
      match e.stream.state? with
      | some st => [(st.nextWriteSeq, buf.take n)]
      | none => []
  | _ => []

def returnedBy : Poll (Except IoError Bytes) → Bytes
  | .ready (.ok bytes) => bytes
  | _ => []

/-- `on_packet`: a packet reaches the stream only under its own channel id
and, at a connecting end, only from the server's address. -/
def routes (e : Endpoint) (pkt : IncomingPacket) : Bool :=
  decide (pkt.header.channelId = e.stream.streamId) &&
    (match e.dest with
     | some dest => decide (pkt.src = dest)
     | none => true)

/-- One step; `none` when the operation is not possible in this state. -/
def step (e : Endpoint) : Op → Option (Endpoint × Output)
  | .pollWrite cx buf now =>
      if e.dropped then none
      else
        let r := e.stream.pollWrite cx buf now
        some ({ e with
          stream := r.1
          accepted := e.accepted ++ e.acceptedBy buf r.2 }, {})
  | .pollRead cx remaining =>
      if e.dropped then none
      else
        let r := e.stream.pollRead cx remaining
        some ({ e with
          stream := r.1
          returned := e.returned ++ returnedBy r.2 }, {})
  | .pollShutdown =>
      if e.dropped then none
      else some ({ e with
        stream := e.stream.pollShutdown, shutdown := true }, {})
  | .setUdpNackMode =>
      if e.dropped then none
      else some ({ e with stream := e.stream.setUdpNackMode }, {})
  | .connectTurn now =>
      if e.dropped ∨ e.dest = none then none
      else (e.stream.connectTurn now).map
        (fun r => ({ e with stream := r.1 }, { sent := [r.2] }))
  | .incoming pkt now =>
      if e.stream.running ∧ e.routes pkt = true then
        let r := e.stream.inner.handleIncoming pkt now
        some ({ e with stream := { e.stream with inner := r.1 } },
          { sent := r.2.1, woken := r.2.2 })
      else none
  | .writeRx now =>
      if e.stream.running then
        (e.stream.writeRx now).map
          (fun r => ({ e with stream := r.1 }, { sent := [r.2] }))
      else none
  | .tick now =>
      if e.stream.running then
        let r := e.stream.tick now
        some ({ e with stream := r.1 }, { sent := r.2.1, woken := r.2.2 })
      else none
  | .drop => if e.dropped then none else some ({ e with dropped := true }, {})
  | .socketError =>
      if e.dropped ∨ e.recvFailed ∨ e.dest = none then none
      else
        let r := e.stream.inner.closeAndWake e.stream.streamId
        some ({ e with
          stream := { e.stream with inner := r.1 }, recvFailed := true },
          { woken := r.2 })
  | .endTask =>
      if e.stream.running ∧ (e.dropped ∨ e.recvFailed) then
        let r := e.stream.endTask
        some ({ e with stream := r.1 }, { woken := r.2 })
      else none

end Endpoint

/-! ## What a step can do -/

/-- The part of an endpoint that the invariants speak about. -/
structure View where
  st : StreamState
  peerAddr : SocketAddr
  closed : Bool
  running : Bool
  dropped : Bool
  writeCh : List (ℕ × Bytes)
  accepted : List (ℕ × Bytes)
  returned : Bytes
  shutdown : Bool
  lastReceived : Instant

/-- The datagram `send_packet_raw` makes of a packet. -/
def ToSend.datagram (p : ToSend) (sid : UInt32) (st : StreamState)
    (dest : SocketAddr) : Datagram :=
  let ab := if p.kind = .nack ∨ p.kind = .sack then (p.ack, p.bits)
    else st.buildAck
  ⟨⟨sid, p.kind, p.seq, ab.1, ab.2⟩, p.data, dest⟩

/-- The stream with nobody parked on it. -/
def StreamState.unparked (st : StreamState) : StreamState :=
  { st with readWaker := none, writeWaker := none }

def StreamState.parked (st : StreamState) : List Waker :=
  st.readWaker.toList ++ st.writeWaker.toList

/-- A write channel after `try_send`. -/
def Offered (ch : List (ℕ × Bytes)) (item : ℕ × Bytes)
    (ch' : List (ℕ × Bytes)) : Prop :=
  ch' = ch ∨ ch' = ch ++ [item]

inductive Effect (sid : UInt32) (v : View) : Op → View → Output → Prop where
  /-- A closed stream refuses writes, -/
  | writeRefused {cx buf now} (hclosed : v.closed = true) :
      Effect sid v (.pollWrite cx buf now) v {}
  /-- gives its reader end of file -/
  | eof {cx remaining} (hclosed : v.closed = true)
      (hempty : v.st.readBufBytes = []) :
      Effect sid v (.pollRead cx remaining) v {}
  /-- and ignores packets. -/
  | ignored {pkt now} (hclosed : v.closed = true) :
      Effect sid v (.incoming pkt now) v {}
  | wrote {cx buf now ch'} (hopen : v.closed = false)
      (hroom : v.st.writeQueue.len < 1024)
      (hch : Offered v.writeCh (v.st.nextWriteSeq, buf.take 1100) ch') :
      Effect sid v (.pollWrite cx buf now)
        { v with
          st := { v.st with
            nextWriteSeq := v.st.nextWriteSeq + 1
            writeQueue := v.st.writeQueue.insert v.st.nextWriteSeq
              ⟨buf.take 1100, now, 0⟩ }
          writeCh := ch'
          accepted := v.accepted ++ [(v.st.nextWriteSeq, buf.take 1100)] } {}
  | writeParked {cx buf now} (hopen : v.closed = false)
      (hfull : v.st.writeQueue.len ≥ 1024) :
      Effect sid v (.pollWrite cx buf now)
        { v with st := { v.st with writeWaker := some cx } } {}
  | read {cx remaining} (n : ℕ) :
      Effect sid v (.pollRead cx remaining)
        { v with
          st := { v.st with readBufBytes := v.st.readBufBytes.drop n }
          returned := v.returned ++ v.st.readBufBytes.take n } {}
  | readParked {cx remaining} (hopen : v.closed = false)
      (hempty : v.st.readBufBytes = []) :
      Effect sid v (.pollRead cx remaining)
        { v with st := { v.st with readWaker := some cx } } {}
  | shut {ch'} (hch : Offered v.writeCh (0, []) ch') :
      Effect sid v .pollShutdown
        { v with closed := true, writeCh := ch', shutdown := true } {}
  | nackMode :
      Effect sid v .setUdpNackMode { v with st := { v.st with mode := .udp } } {}
  | openSent {now} :
      Effect sid v (.connectTurn now) v
        { sent := [ToSend.datagram ⟨.streamOpen, 0, 0, 0, []⟩ sid v.st
          v.peerAddr] }
  | incoming {pkt : IncomingPacket} {now} (hopen : v.closed = false)
      (hrun : v.running = true) :
      Effect sid v (.incoming pkt now)
        { v with
          st := (UdpStreamInner.dispatch v.st pkt now).1
          closed := (UdpStreamInner.dispatch v.st pkt now).2.1
          peerAddr := pkt.src
          lastReceived := now }
        { sent := (UdpStreamInner.dispatch v.st pkt now).2.2.1.map
            (fun p => p.datagram sid (UdpStreamInner.dispatch v.st pkt now).1
              pkt.src)
          woken := (UdpStreamInner.dispatch v.st pkt now).2.2.2 }
  | closeSent {now data rest} (hch : v.writeCh = (0, data) :: rest) :
      Effect sid v (.writeRx now) { v with writeCh := rest }
        { sent := [ToSend.datagram ⟨.streamClose, 0, 0, 0, []⟩ sid v.st
          v.peerAddr] }
  | chunkSent {now seq data rest} (hch : v.writeCh = (seq, data) :: rest)
      (hseq : seq ≠ 0) :
      Effect sid v (.writeRx now) { v with writeCh := rest }
        { sent := [ToSend.datagram ⟨.stream, seq, 0, 0, data⟩ sid v.st
          v.peerAddr] }
  | ticked {now} (pings : List ToSend) (hopen : v.closed = false)
      (hpings : ∀ p ∈ pings, p.kind = .keepalivePing)
      (halive : (v.st.getRetransmissions now).2.2 = false) :
      Effect sid v (.tick now)
        { v with st := (v.st.getRetransmissions now).1 }
        { sent := (pings ++ (v.st.getRetransmissions now).2.1.map
            (fun q => (⟨.stream, q.1, 0, 0, q.2⟩ : ToSend))).map
            (fun p => p.datagram sid (v.st.getRetransmissions now).1
              v.peerAddr) }
  | tickEnded {now} (hcause : v.closed = true ∨
        (v.st.writeQueue.isEmpty = true ∧ now - v.lastReceived > secs 300)) :
      Effect sid v (.tick now)
        { v with st := v.st.unparked, closed := true, running := false }
        { woken := v.st.parked }
  | tickTimedOut {now} (hopen : v.closed = false)
      (hdead : (v.st.getRetransmissions now).2.2 = true) :
      Effect sid v (.tick now)
        { v with
          st := (v.st.getRetransmissions now).1.unparked
          closed := true
          running := false }
        { woken := v.st.parked }
  | dropped : Effect sid v .drop { v with dropped := true } {}
  | failed : Effect sid v .socketError
      { v with st := v.st.unparked, closed := true } { woken := v.st.parked }
  | ended (hrun : v.running = true) : Effect sid v .endTask
      { v with st := v.st.unparked, closed := true, running := false }
      { woken := v.st.parked }

section Inversion

variable {sid : UInt32} {v v' : View} {pkt : IncomingPacket} {now : Instant}
  {out : Output}

/-- What a packet does to an open stream. -/
theorem Effect.incoming_inv (h : Effect sid v (.incoming pkt now) v' out)
    (hopen : v.closed = false) :
    v' = { v with
      st := (UdpStreamInner.dispatch v.st pkt now).1
      closed := (UdpStreamInner.dispatch v.st pkt now).2.1
      peerAddr := pkt.src
      lastReceived := now } ∧
    out.sent = (UdpStreamInner.dispatch v.st pkt now).2.2.1.map
      (fun p => p.datagram sid (UdpStreamInner.dispatch v.st pkt now).1
        pkt.src) := by
  cases h with
  | ignored hclosed =>
      rw [hopen] at hclosed
      cases hclosed
  | incoming _ hrun => exact ⟨rfl, rfl⟩

/-- A closed stream neither changes for a packet nor answers it. -/
theorem Effect.incoming_closed (h : Effect sid v (.incoming pkt now) v' out)
    (hclosed : v.closed = true) : v' = v ∧ out = {} := by
  cases h with
  | ignored _ => exact ⟨rfl, rfl⟩
  | incoming hopen _ =>
      rw [hclosed] at hopen
      cases hopen

/-- What a tick does to an open stream: it resends, it times out for want of
packets, or it reaches the retransmission limit. -/
theorem Effect.tick_inv (h : Effect sid v (.tick now) v' out)
    (hopen : v.closed = false) :
    ((v.st.getRetransmissions now).2.2 = false ∧
      v' = { v with st := (v.st.getRetransmissions now).1 } ∧
      ∃ pings : List ToSend, (∀ p ∈ pings, p.kind = .keepalivePing) ∧
        out.sent = (pings ++ (v.st.getRetransmissions now).2.1.map
          (fun q => (⟨.stream, q.1, 0, 0, q.2⟩ : ToSend))).map
          (fun p => p.datagram sid (v.st.getRetransmissions now).1
            v.peerAddr)) ∨
    (v.st.writeQueue.isEmpty = true ∧ now - v.lastReceived > secs 300 ∧
      out.sent = [] ∧
      v' = { v with st := v.st.unparked, closed := true, running := false }) ∨
    ((v.st.getRetransmissions now).2.2 = true ∧ out.sent = [] ∧
      v' = { v with
        st := (v.st.getRetransmissions now).1.unparked
        closed := true
        running := false }) := by
  cases h with
  | ticked pings _ hpings halive =>
      exact Or.inl ⟨halive, rfl, pings, hpings, rfl⟩
  | tickEnded hcause =>
      rcases hcause with hclosed | ⟨hempty, hidle⟩
      · rw [hopen] at hclosed
        cases hclosed
      · exact Or.inr (Or.inl ⟨hempty, hidle, rfl, rfl⟩)
  | tickTimedOut _ hdead => exact Or.inr (Or.inr ⟨hdead, rfl, rfl⟩)

/-- What a write into a queue with room does to an open stream. -/
theorem Effect.write_inv {cx : Waker} {buf : Bytes}
    (h : Effect sid v (.pollWrite cx buf now) v' out) (hopen : v.closed = false)
    (hroom : v.st.writeQueue.len < 1024) :
    ∃ ch', v' = { v with
      st := { v.st with
        nextWriteSeq := v.st.nextWriteSeq + 1
        writeQueue := v.st.writeQueue.insert v.st.nextWriteSeq
          ⟨buf.take 1100, now, 0⟩ }
      writeCh := ch'
      accepted := v.accepted ++ [(v.st.nextWriteSeq, buf.take 1100)] } := by
  cases h with
  | writeRefused hclosed =>
      rw [hopen] at hclosed
      cases hclosed
  | wrote _ _ hch => exact ⟨_, rfl⟩
  | writeParked _ hfull => omega

/-- The background task of an open stream runs. -/
theorem Effect.running {op : Op} (h : Effect sid v op v' out)
    (hv : v.closed = false → v.running = true) (hopen : v'.closed = false) :
    v'.running = true := by
  cases h with
  | incoming _ hrun => exact hrun
  | shut _ => cases hopen
  | tickEnded _ => cases hopen
  | tickTimedOut _ _ => cases hopen
  | failed => cases hopen
  | ended _ => cases hopen
  | _ => exact hv hopen

/-- Closedness is never undone. -/
theorem Effect.open_before {op : Op} (h : Effect sid v op v' out)
    (hopen : v'.closed = false) : v.closed = false := by
  cases h with
  | incoming hold _ => exact hold
  | shut _ => cases hopen
  | tickEnded _ => cases hopen
  | tickTimedOut _ _ => cases hopen
  | failed => cases hopen
  | ended _ => cases hopen
  | _ => exact hopen

/-- What was shut down is closed, and stays so. -/
theorem Effect.shut_closed {op : Op} (h : Effect sid v op v' out)
    (hv : v.shutdown = true → v.closed = true) (hshut : v'.shutdown = true) :
    v'.closed = true := by
  by_contra hopen
  have hbefore := h.open_before (Bool.not_eq_true _ ▸ hopen)
  cases h with
  | shut _ => exact hopen rfl
  | _ =>
      rw [hv hshut] at hbefore
      cases hbefore

/-! ### Where chunks come from -/

theorem ToSend.datagram_kind (p : ToSend) (sid : UInt32) (st : StreamState)
    (dest : SocketAddr) :
    (p.datagram sid st dest).header.packetKind = p.kind := rfl

/-- A step accepts at most one chunk, under the next number. -/
theorem Effect.accepted {op : Op} (h : Effect sid v op v' out) :
    (v'.accepted = v.accepted ∧ v'.st.nextWriteSeq = v.st.nextWriteSeq) ∨
      ∃ d, v'.accepted = v.accepted ++ [(v.st.nextWriteSeq, d)] ∧
        v'.st.nextWriteSeq = v.st.nextWriteSeq + 1 := by
  cases h with
  | wrote hopen hroom hch => exact Or.inr ⟨_, rfl, rfl⟩
  | incoming hopen hrun =>
      exact Or.inl ⟨rfl, (UdpStreamInner.dispatch_frame v.st _ _).2⟩
  | ticked pings hopen hpings halive =>
      obtain ⟨wq, hwq⟩ := v.st.getRetransmissions_frame _
      exact Or.inl ⟨rfl, by rw [hwq]⟩
  | tickTimedOut hopen hdead =>
      obtain ⟨wq, hwq⟩ := v.st.getRetransmissions_frame _
      exact Or.inl ⟨rfl, by rw [hwq]; rfl⟩
  | _ => exact Or.inl ⟨rfl, rfl⟩

/-- What a step leaves queued was queued, with the same data, or is the chunk
it accepts. -/
theorem Effect.queued {op : Op} (h : Effect sid v op v' out)
    {x : ℕ × SentPacket} (hx : x ∈ v'.st.writeQueue.entries) :
    (∃ p, (x.1, p) ∈ v.st.writeQueue.entries ∧ p.data = x.2.data) ∨
      (x.1 = v.st.nextWriteSeq ∧
        v'.accepted = v.accepted ++ [(x.1, x.2.data)]) := by
  cases h with
  | wrote hopen hroom hch =>
      rcases OrdMap.mem_insert.mp hx with rfl | ⟨hx', -⟩
      · exact Or.inr ⟨rfl, rfl⟩
      · exact Or.inl ⟨x.2, hx', rfl⟩
  | incoming hopen hrun => exact Or.inl (UdpStreamInner.mem_dispatch_queue hx)
  | ticked pings hopen hpings halive =>
      obtain ⟨p, hp, hpd⟩ := StreamState.mem_getRetransmissions hx
      exact Or.inl ⟨p, hp, hpd.symm⟩
  | tickTimedOut hopen hdead =>
      obtain ⟨p, hp, hpd⟩ := StreamState.mem_getRetransmissions hx
      exact Or.inl ⟨p, hp, hpd.symm⟩
  | _ => exact Or.inl ⟨x.2, hx, rfl⟩

/-- Only an arriving StreamOpen or StreamOpenAck establishes a stream. -/
theorem Effect.established {op : Op} (h : Effect sid v op v' out) :
    v'.st.established = true ↔ v.st.established = true ∨
      ∃ pkt now, op = .incoming pkt now ∧ v.closed = false ∧
        (pkt.header.packetKind = .streamOpen ∨
          pkt.header.packetKind = .streamOpenAck) := by
  have hquiet (htick : ∀ pkt now, op ≠ .incoming pkt now)
      (heq : v'.st.established = v.st.established) :
      v'.st.established = true ↔ v.st.established = true ∨
        ∃ pkt now, op = .incoming pkt now ∧ v.closed = false ∧
          (pkt.header.packetKind = .streamOpen ∨
            pkt.header.packetKind = .streamOpenAck) := by
    rw [heq]
    refine ⟨Or.inl, ?_⟩
    rintro (hold | ⟨pkt, now, hop, -⟩)
    · exact hold
    · exact absurd hop (htick pkt now)
  cases h with
  | ignored hclosed => simp [hclosed]
  | incoming hopen hrun =>
      rw [UdpStreamInner.dispatch_established]
      simp [hopen]
  | ticked pings hopen hpings halive =>
      rename_i now
      obtain ⟨wq, hwq⟩ := v.st.getRetransmissions_frame now
      apply hquiet (by simp)
      rw [hwq]
  | tickTimedOut hopen hdead =>
      rename_i now
      obtain ⟨wq, hwq⟩ := v.st.getRetransmissions_frame now
      apply hquiet (by simp)
      rw [hwq]
      rfl
  | _ => exact hquiet (by simp) rfl

/-- The peer's address is where the last packet came from. -/
theorem Effect.peerAddr {op : Op} (h : Effect sid v op v' out) :
    v'.peerAddr = v.peerAddr ∨
      ∃ pkt now, op = .incoming pkt now ∧ v'.peerAddr = pkt.src := by
  cases h with
  | incoming hopen hrun => exact Or.inr ⟨_, _, rfl, rfl⟩
  | _ => exact Or.inl rfl

/-- What is sent goes to the peer, or back to where a packet came from. -/
theorem Effect.sent_to {op : Op} (h : Effect sid v op v' out) {d : Datagram}
    (hd : d ∈ out.sent) :
    d.dest = v.peerAddr ∨
      ∃ pkt now, op = .incoming pkt now ∧ d.dest = pkt.src := by
  cases h with
  | openSent =>
      rw [List.mem_singleton.mp hd]
      exact Or.inl rfl
  | incoming hopen hrun =>
      obtain ⟨p, -, rfl⟩ := List.mem_map.mp hd
      exact Or.inr ⟨_, _, rfl, rfl⟩
  | closeSent hch =>
      rw [List.mem_singleton.mp hd]
      exact Or.inl rfl
  | chunkSent hch hseq =>
      rw [List.mem_singleton.mp hd]
      exact Or.inl rfl
  | ticked pings hopen hpings halive =>
      obtain ⟨p, -, rfl⟩ := List.mem_map.mp hd
      exact Or.inl rfl
  | _ => cases hd

theorem mem_offered {ch ch' : List (ℕ × Bytes)} {item x : ℕ × Bytes}
    (h : Offered ch item ch') (hx : x ∈ ch') : x ∈ ch ∨ x = item := by
  rcases h with rfl | rfl
  · exact Or.inl hx
  · rcases List.mem_append.mp hx with hx' | hx'
    · exact Or.inl hx'
    · exact Or.inr (List.mem_singleton.mp hx')

/-- The write channel takes the chunks accepted and the close sentinel. -/
theorem Effect.offered {op : Op} (h : Effect sid v op v' out)
    {x : ℕ × Bytes} (hx : x ∈ v'.writeCh) :
    x ∈ v.writeCh ∨ x.1 = 0 ∨
      (x.1 = v.st.nextWriteSeq ∧ v'.accepted = v.accepted ++ [x]) := by
  cases h with
  | wrote hopen hroom hch =>
      rcases mem_offered hch hx with hx' | rfl
      · exact Or.inl hx'
      · exact Or.inr (Or.inr ⟨rfl, rfl⟩)
  | shut hch =>
      rcases mem_offered hch hx with hx' | rfl
      · exact Or.inl hx'
      · exact Or.inr (Or.inl rfl)
  | closeSent hch => exact Or.inl (by rw [hch]; exact List.mem_cons_of_mem _ hx)
  | chunkSent hch hseq =>
      exact Or.inl (by rw [hch]; exact List.mem_cons_of_mem _ hx)
  | _ => exact Or.inl hx

/-- A chunk is sent from the queue or from the write channel. -/
theorem Effect.chunk_sent {op : Op} (h : Effect sid v op v' out) {d : Datagram}
    (hd : d ∈ out.sent) (hk : d.header.packetKind = .stream) :
    (∃ p, (d.header.seq, p) ∈ v.st.writeQueue.entries ∧ p.data = d.payload) ∨
      ((d.header.seq, d.payload) ∈ v.writeCh ∧ d.header.seq ≠ 0) := by
  cases h with
  | openSent =>
      rw [List.mem_singleton.mp hd] at hk
      cases hk
  | incoming hopen hrun =>
      obtain ⟨p, hp, rfl⟩ := List.mem_map.mp hd
      exact Or.inl (UdpStreamInner.dispatch_sends_queued hp hk)
  | closeSent hch =>
      rw [List.mem_singleton.mp hd] at hk
      cases hk
  | chunkSent hch hseq =>
      rw [List.mem_singleton.mp hd, hch]
      exact Or.inr ⟨List.mem_cons_self, hseq⟩
  | ticked pings hopen hpings halive =>
      obtain ⟨p, hp, rfl⟩ := List.mem_map.mp hd
      rcases List.mem_append.mp hp with hp' | hp'
      · rw [ToSend.datagram_kind, hpings p hp'] at hk
        cases hk
      · obtain ⟨q, hq, rfl⟩ := List.mem_map.mp hp'
        exact Or.inl (StreamState.mem_getRetransmissions_out hq)
  | _ => cases hd

end Inversion

/-! ## The functions of `udp.rs` do nothing else -/

namespace Endpoint

/-- The endpoint's one stream is `st`. -/
def Holds (e : Endpoint) (st : StreamState) : Prop :=
  e.stream.inner.reliability.streams = AList.singleton e.stream.streamId st

def view (e : Endpoint) (st : StreamState) : View where
  st := st
  peerAddr := e.stream.inner.peerAddr
  closed := e.stream.inner.closed
  running := e.stream.running
  dropped := e.dropped
  writeCh := e.stream.writeCh
  accepted := e.accepted
  returned := e.returned
  shutdown := e.shutdown
  lastReceived := e.stream.inner.lastReceived

/-- The endpoint's stream. -/
def st (e : Endpoint) : StreamState :=
  e.stream.state?.getD (StreamState.new .tcp)

/-- The endpoint holds exactly one stream, under its own id. -/
def WF (e : Endpoint) : Prop := e.Holds e.st

/-- What the invariants see of the endpoint. -/
def snap (e : Endpoint) : View := e.view e.st

theorem holds_connecting (sid : UInt32) (a : SocketAddr) (now : Instant) :
    (connecting sid a now).Holds (StreamState.new .tcp) := rfl

theorem holds_accepting (sid : UInt32) (a : SocketAddr) (now : Instant) :
    (accepting sid a now).Holds (StreamState.new .tcp) := rfl

end Endpoint

namespace UdpStreamInner

/-- `inner` holds the one stream `st` under `sid`. -/
def HoldsAt (inner : UdpStreamInner) (sid : UInt32) (st : StreamState) : Prop :=
  inner.reliability.streams = AList.singleton sid st

variable {inner : UdpStreamInner} {sid : UInt32} {st : StreamState}

theorem HoldsAt.stream? (h : inner.HoldsAt sid st) :
    inner.stream? sid = some st := by
  unfold UdpStreamInner.stream?
  rw [h]
  exact HashMap.lookup_singleton sid st

theorem HoldsAt.setStream (h : inner.HoldsAt sid st) (st' : StreamState) :
    (inner.setStream sid st').HoldsAt sid st' := by
  unfold HoldsAt UdpStreamInner.setStream
  dsimp only
  rw [h]
  exact AList.insert_singleton_eq

theorem HoldsAt.sendPacketRaw (h : inner.HoldsAt sid st) (p : ToSend)
    (now : Instant) :
    inner.sendPacketRaw sid p.kind p.seq (some p.ack) (some p.bits) p.data now =
      ({ inner with lastSent := now }, p.datagram sid st inner.peerAddr) := by
  unfold UdpStreamInner.sendPacketRaw
  rw [h.stream?]
  rfl

/-- `send_packet` passes no override; for the kinds it is used with none would
be read. -/
theorem HoldsAt.sendPacket (h : inner.HoldsAt sid st) {pt : PacketKind}
    (hpt : ¬ (pt = .nack ∨ pt = .sack)) (seq : ℕ) (data : Bytes)
    (now : Instant) :
    inner.sendPacket sid pt seq data now =
      ({ inner with lastSent := now },
        ToSend.datagram ⟨pt, seq, 0, 0, data⟩ sid st inner.peerAddr) := by
  unfold UdpStreamInner.sendPacket UdpStreamInner.sendPacketRaw ToSend.datagram
  rw [h.stream?]
  dsimp only
  rw [if_neg hpt, if_neg hpt]

/-- A send loop stamps `last_sent` and leaves the rest of the state alone. -/
theorem HoldsAt.sendAll (now : Instant) (ps : List ToSend)
    {inner : UdpStreamInner} (h : inner.HoldsAt sid st) :
    ∃ t, inner.sendAll now (ps.map (fun p => (sid, p))) =
      ({ inner with lastSent := t },
        ps.map (fun p => p.datagram sid st inner.peerAddr)) := by
  induction ps generalizing inner with
  | nil => exact ⟨inner.lastSent, rfl⟩
  | cons p ps ih =>
      have h' : ({ inner with lastSent := now } : UdpStreamInner).HoldsAt sid st :=
        h
      obtain ⟨t, ht⟩ := ih h'
      refine ⟨t, ?_⟩
      rw [List.map_cons, UdpStreamInner.sendAll, h.sendPacketRaw]
      dsimp only
      rw [ht]
      rfl

theorem HoldsAt.closeAndWake (h : inner.HoldsAt sid st) :
    inner.closeAndWake sid =
      (({ inner with closed := true } : UdpStreamInner).setStream sid
        st.unparked, st.parked) := by
  unfold UdpStreamInner.closeAndWake
  rw [h.stream?]
  rfl

end UdpStreamInner

namespace Endpoint

open UdpStreamInner

variable {e e' : Endpoint} {st : StreamState} {out : Output}

theorem Holds.state? (h : e.Holds st) : e.stream.state? = some st :=
  HoldsAt.stream? h

/-- Offering an item to the write channel changes nothing else. -/
theorem trySend_eq (u : UdpStream) (item : ℕ × Bytes) :
    ∃ ch', Offered u.writeCh item ch' ∧
      u.trySend item = { u with writeCh := ch' } := by
  unfold UdpStream.trySend
  split
  · exact ⟨_, Or.inr rfl, rfl⟩
  · exact ⟨_, Or.inl rfl, rfl⟩

theorem step_pollWrite (h : e.Holds st) {cx : Waker} {buf : Bytes}
    {now : Instant} (hs : e.step (.pollWrite cx buf now) = some (e', out)) :
    ∃ st', e'.Holds st' ∧ Effect e.stream.streamId (e.view st)
      (.pollWrite cx buf now) (e'.view st') out := by
  simp only [step] at hs
  split at hs
  · cases hs
  · unfold UdpStream.pollWrite at hs
    rw [h.state?] at hs
    by_cases hc : e.stream.inner.closed = true
    · rw [if_pos hc] at hs
      cases hs
      refine ⟨st, h, ?_⟩
      simp only [acceptedBy, List.append_nil]
      exact .writeRefused hc
    · have hopen : e.stream.inner.closed = false := Bool.not_eq_true _ ▸ hc
      rw [if_neg hc] at hs
      dsimp only at hs
      by_cases hfull : st.writeQueue.len ≥ 1024
      · rw [if_pos hfull] at hs
        cases hs
        refine ⟨{ st with writeWaker := some cx }, HoldsAt.setStream h _, ?_⟩
        simp only [acceptedBy, List.append_nil]
        exact .writeParked hopen hfull
      · rw [if_neg hfull] at hs
        obtain ⟨ch', hch, heq⟩ := trySend_eq (e.stream.setState { st with
            nextWriteSeq := st.nextWriteSeq + 1
            writeQueue := st.writeQueue.insert st.nextWriteSeq
              ⟨buf.take (min buf.length 1100), now, 0⟩ })
          (st.nextWriteSeq, buf.take (min buf.length 1100))
        rw [heq] at hs
        cases hs
        have htake : buf.take (min buf.length 1100) = buf.take 1100 := by
          rw [Nat.min_comm, ← List.take_take, List.take_length]
        rw [htake] at hch ⊢
        refine ⟨_, HoldsAt.setStream h _, ?_⟩
        simp only [acceptedBy, h.state?, htake]
        exact .wrote hopen (Nat.lt_of_not_ge hfull) hch

theorem step_pollRead (h : e.Holds st) {cx : Waker} {remaining : ℕ}
    (hs : e.step (.pollRead cx remaining) = some (e', out)) :
    ∃ st', e'.Holds st' ∧ Effect e.stream.streamId (e.view st)
      (.pollRead cx remaining) (e'.view st') out := by
  simp only [step] at hs
  split at hs
  · cases hs
  · unfold UdpStream.pollRead at hs
    rw [h.state?] at hs
    dsimp only at hs
    by_cases hbuf : st.readBufBytes ≠ []
    · rw [if_pos hbuf] at hs
      cases hs
      exact ⟨_, HoldsAt.setStream h _,
        .read (min remaining st.readBufBytes.length)⟩
    · rw [if_neg hbuf] at hs
      by_cases hc : e.stream.inner.closed = true
      · rw [if_pos hc] at hs
        cases hs
        refine ⟨st, h, ?_⟩
        simp only [returnedBy, List.append_nil]
        exact .eof hc (not_not.mp hbuf)
      · rw [if_neg hc] at hs
        cases hs
        refine ⟨{ st with readWaker := some cx }, HoldsAt.setStream h _, ?_⟩
        simp only [returnedBy, List.append_nil]
        exact .readParked (Bool.not_eq_true _ ▸ hc) (not_not.mp hbuf)

theorem step_pollShutdown (h : e.Holds st)
    (hs : e.step .pollShutdown = some (e', out)) :
    ∃ st', e'.Holds st' ∧ Effect e.stream.streamId (e.view st) .pollShutdown
      (e'.view st') out := by
  simp only [step] at hs
  split at hs
  · cases hs
  · obtain ⟨ch', hch, heq⟩ := trySend_eq { e.stream with
      inner := { e.stream.inner with closed := true } } (0, [])
    unfold UdpStream.pollShutdown at hs
    rw [heq] at hs
    cases hs
    exact ⟨st, h, .shut hch⟩

theorem step_incoming (h : e.Holds st) {pkt : IncomingPacket} {now : Instant}
    (hs : e.step (.incoming pkt now) = some (e', out)) :
    ∃ st', e'.Holds st' ∧ Effect e.stream.streamId (e.view st)
      (.incoming pkt now) (e'.view st') out := by
  simp only [step] at hs
  split at hs
  · rename_i hcond
    obtain ⟨hrun, hroute⟩ := hcond
    have hsid : pkt.header.channelId = e.stream.streamId := by
      unfold routes at hroute
      simp only [Bool.and_eq_true, decide_eq_true_eq] at hroute
      exact hroute.1
    unfold handleIncoming at hs
    by_cases hc : e.stream.inner.closed = true
    · rw [if_pos hc] at hs
      cases hs
      exact ⟨st, h, .ignored hc⟩
    · rw [if_neg hc, hsid] at hs
      dsimp only at hs
      rw [HoldsAt.stream? h] at hs
      dsimp only [Option.getD_some] at hs
      have hset : (({ e.stream.inner with
          lastReceived := now, peerAddr := pkt.src,
          closed := (dispatch st pkt now).2.1 } : UdpStreamInner).setStream
            e.stream.streamId (dispatch st pkt now).1).HoldsAt
              e.stream.streamId (dispatch st pkt now).1 := HoldsAt.setStream h _
      obtain ⟨t, ht⟩ := HoldsAt.sendAll now (dispatch st pkt now).2.2.1 hset
      rw [ht] at hs
      cases hs
      exact ⟨(dispatch st pkt now).1, hset,
        .incoming (Bool.not_eq_true _ ▸ hc) hrun⟩
  · cases hs

theorem step_writeRx (h : e.Holds st) {now : Instant}
    (hs : e.step (.writeRx now) = some (e', out)) :
    ∃ st', e'.Holds st' ∧ Effect e.stream.streamId (e.view st) (.writeRx now)
      (e'.view st') out := by
  simp only [step] at hs
  split at hs
  · obtain ⟨r, hr, heq⟩ := Option.map_eq_some_iff.mp hs
    cases heq
    unfold UdpStream.writeRx at hr
    split at hr
    · cases hr
    · rename_i seq data rest hch
      by_cases hseq : seq = 0
      · subst hseq
        rw [if_pos rfl, HoldsAt.sendPacket h (by decide)] at hr
        cases hr
        exact ⟨st, h, .closeSent hch⟩
      · rw [if_neg hseq, HoldsAt.sendPacket h (by decide)] at hr
        cases hr
        exact ⟨st, h, .chunkSent hch hseq⟩
  · cases hs

/-- What the timer of a single stream decides. -/
theorem handleTick_cases (h : e.Holds st) (now : Instant) :
    (∃ msg, e.stream.inner.handleTick now = (e.stream.inner, .error msg) ∧
      (e.stream.inner.closed = true ∨ (st.writeQueue.isEmpty = true ∧
        now - e.stream.inner.lastReceived > secs 300))) ∨
    (e.stream.inner.closed = false ∧
      (st.getRetransmissions now).2.2 = true ∧
      ∃ msg, e.stream.inner.handleTick now =
        ({ e.stream.inner with reliability :=
            ⟨AList.singleton e.stream.streamId (st.getRetransmissions now).1⟩ },
          .error msg)) ∨
    (e.stream.inner.closed = false ∧
      (st.getRetransmissions now).2.2 = false ∧
      ∃ t pings, (∀ p ∈ pings, p.kind = .keepalivePing) ∧
        e.stream.inner.handleTick now =
          ({ e.stream.inner with
              lastSent := t
              reliability := ⟨AList.singleton e.stream.streamId
                (st.getRetransmissions now).1⟩ },
            .ok ((pings ++ (st.getRetransmissions now).2.1.map
              (fun q => (⟨.stream, q.1, 0, 0, q.2⟩ : ToSend))).map
              (fun p => p.datagram e.stream.streamId
                (st.getRetransmissions now).1 e.stream.inner.peerAddr)))) := by
  have hstreams : e.stream.inner.reliability.streams.entries =
      [⟨e.stream.streamId, st⟩] := by
    rw [h]
    rfl
  have hrel : e.stream.inner.reliability.getRetransmissions now =
      (⟨AList.singleton e.stream.streamId (st.getRetransmissions now).1⟩,
        (st.getRetransmissions now).2.1.map (fun p => (e.stream.streamId, p)),
        if (st.getRetransmissions now).2.2 then [e.stream.streamId] else []) := by
    unfold Reliability.getRetransmissions
    rw [h, HashMap.updateAll_singleton]
    simp only [AList.singleton_entries, List.flatMap_cons, List.flatMap_nil,
      List.append_nil, List.filter_cons, List.filter_nil]
    split <;> rfl
  unfold handleTick
  by_cases hc : e.stream.inner.closed = true
  · rw [if_pos hc]
    exact Or.inl ⟨_, rfl, Or.inl hc⟩
  · have hopen : e.stream.inner.closed = false := Bool.not_eq_true _ ▸ hc
    rw [if_neg hc, hstreams, hrel]
    dsimp only
    split
    · rename_i hidle
      simp only [List.any_cons, List.any_nil, Bool.or_false, Bool.not_not,
        Bool.and_eq_true, decide_eq_true_eq] at hidle
      exact Or.inl ⟨_, rfl, Or.inr hidle⟩
    · cases hdead : (st.getRetransmissions now).2.2 with
      | true => exact Or.inr (Or.inl ⟨hopen, rfl, _, rfl⟩)
      | false =>
          refine Or.inr (Or.inr ⟨hopen, rfl, ?_⟩)
          -- the pings, as a list of packets of this stream
          obtain ⟨pings, hp, hkind⟩ : ∃ pings : List ToSend,
              (if now - e.stream.inner.lastSent > secs 5 then
                [(⟨e.stream.streamId, st⟩ : (_ : UInt32) × StreamState)].map
                  (fun x => (x.1, (⟨.keepalivePing, 0, 0, 0, []⟩ : ToSend)))
              else []) = pings.map (fun p => (e.stream.streamId, p)) ∧
              ∀ p ∈ pings, p.kind = .keepalivePing := by
            split
            · exact ⟨[⟨.keepalivePing, 0, 0, 0, []⟩], rfl, by simp⟩
            · exact ⟨[], rfl, by simp⟩
          have hall : ({ e.stream.inner with reliability :=
              ⟨AList.singleton e.stream.streamId
                (st.getRetransmissions now).1⟩ } : UdpStreamInner).HoldsAt
                  e.stream.streamId (st.getRetransmissions now).1 := rfl
          obtain ⟨t, ht⟩ := HoldsAt.sendAll now (pings ++
            (st.getRetransmissions now).2.1.map
              (fun q => (⟨.stream, q.1, 0, 0, q.2⟩ : ToSend))) hall
          refine ⟨t, pings, hkind, ?_⟩
          simp only [Bool.false_eq_true, if_false, List.isEmpty_nil, if_true]
          rw [hp, List.map_map]
          rw [List.map_append, List.map_map] at ht
          have hfun : ((fun q : UInt32 × ℕ × Bytes =>
              (q.1, (⟨.stream, q.2.1, 0, 0, q.2.2⟩ : ToSend))) ∘
                fun p => (e.stream.streamId, p)) =
              ((fun p => (e.stream.streamId, p)) ∘
                fun q : ℕ × Bytes => (⟨.stream, q.1, 0, 0, q.2⟩ : ToSend)) := rfl
          rw [hfun, ht]

theorem step_tick (h : e.Holds st) {now : Instant}
    (hs : e.step (.tick now) = some (e', out)) :
    ∃ st', e'.Holds st' ∧ Effect e.stream.streamId (e.view st) (.tick now)
      (e'.view st') out := by
  simp only [step] at hs
  split at hs
  · unfold UdpStream.tick at hs
    rcases handleTick_cases h now with ⟨msg, heq, hcause⟩ |
      ⟨hopen, hdead, msg, heq⟩ | ⟨hopen, halive, t, pings, hp, heq⟩
    · rw [heq] at hs
      dsimp only at hs
      unfold UdpStream.endTask at hs
      rw [HoldsAt.closeAndWake h] at hs
      cases hs
      exact ⟨st.unparked, HoldsAt.setStream h _, .tickEnded hcause⟩
    · rw [heq] at hs
      dsimp only at hs
      unfold UdpStream.endTask at hs
      have h' : ({ e.stream.inner with reliability :=
          ⟨AList.singleton e.stream.streamId
            (st.getRetransmissions now).1⟩ } : UdpStreamInner).HoldsAt
              e.stream.streamId (st.getRetransmissions now).1 := rfl
      rw [HoldsAt.closeAndWake h'] at hs
      cases hs
      refine ⟨(st.getRetransmissions now).1.unparked, HoldsAt.setStream h' _, ?_⟩
      obtain ⟨wq, hwq⟩ := StreamState.getRetransmissions_frame st now
      have hparked : (st.getRetransmissions now).1.parked = st.parked := by
        rw [hwq]
        rfl
      rw [hparked]
      exact .tickTimedOut hopen hdead
    · rw [heq] at hs
      cases hs
      exact ⟨(st.getRetransmissions now).1, rfl, .ticked pings hopen hp halive⟩
  · cases hs

/-- **Every step of an endpoint is an `Effect`**, and the endpoint goes on
holding its one stream. -/
theorem step_effect (h : e.Holds st) {op : Op}
    (hs : e.step op = some (e', out)) :
    ∃ st', e'.Holds st' ∧
      Effect e.stream.streamId (e.view st) op (e'.view st') out := by
  cases op with
  | pollWrite cx buf now => exact step_pollWrite h hs
  | pollRead cx remaining => exact step_pollRead h hs
  | pollShutdown => exact step_pollShutdown h hs
  | setUdpNackMode =>
      simp only [step] at hs
      split at hs
      · cases hs
      · unfold UdpStream.setUdpNackMode at hs
        rw [h.state?] at hs
        cases hs
        exact ⟨{ st with mode := .udp }, HoldsAt.setStream h _, .nackMode⟩
  | connectTurn now =>
      simp only [step] at hs
      split at hs
      · cases hs
      · obtain ⟨r, hr, heq⟩ := Option.map_eq_some_iff.mp hs
        cases heq
        unfold UdpStream.connectTurn at hr
        rw [h.state?, HoldsAt.sendPacket h (by decide)] at hr
        split at hr
        · cases hr
        · dsimp only at hr
          split at hr
          · cases hr
          · cases hr
            exact ⟨st, h, .openSent⟩
  | incoming pkt now => exact step_incoming h hs
  | writeRx now => exact step_writeRx h hs
  | tick now => exact step_tick h hs
  | drop =>
      simp only [step] at hs
      split at hs
      · cases hs
      · cases hs
        exact ⟨st, h, .dropped⟩
  | socketError =>
      simp only [step] at hs
      split at hs
      · cases hs
      · rw [HoldsAt.closeAndWake h] at hs
        cases hs
        exact ⟨st.unparked, HoldsAt.setStream h _, .failed⟩
  | endTask =>
      simp only [step] at hs
      split at hs
      · rename_i hcond
        unfold UdpStream.endTask at hs
        rw [HoldsAt.closeAndWake h] at hs
        cases hs
        exact ⟨st.unparked, HoldsAt.setStream h _, .ended hcond.1⟩
      · cases hs

theorem Holds.st_eq (h : e.Holds st) : e.st = st := by
  unfold Endpoint.st
  rw [h.state?]
  rfl

theorem Holds.wf (h : e.Holds st) : e.WF := by
  unfold WF
  rw [h.st_eq]
  exact h

theorem step_streamId {op : Op} (h : e.Holds st)
    (hs : e.step op = some (e', out)) :
    e'.stream.streamId = e.stream.streamId ∧ e'.dest = e.dest := by
  cases op with
  | pollWrite cx buf now =>
      simp only [step, UdpStream.pollWrite, h.state?] at hs
      split at hs
      · cases hs
      · split at hs
        · cases hs
          exact ⟨rfl, rfl⟩
        · split at hs
          · cases hs
            exact ⟨rfl, rfl⟩
          · unfold UdpStream.trySend at hs
            split at hs <;> cases hs <;> exact ⟨rfl, rfl⟩
  | pollRead cx remaining =>
      simp only [step, UdpStream.pollRead, h.state?] at hs
      split at hs
      · cases hs
      · split at hs
        · cases hs
          exact ⟨rfl, rfl⟩
        · split at hs <;> cases hs <;> exact ⟨rfl, rfl⟩
  | pollShutdown =>
      simp only [step, UdpStream.pollShutdown, UdpStream.trySend] at hs
      split at hs
      · cases hs
      · split at hs <;> cases hs <;> exact ⟨rfl, rfl⟩
  | setUdpNackMode =>
      simp only [step, UdpStream.setUdpNackMode, h.state?] at hs
      split at hs
      · cases hs
      · cases hs
        exact ⟨rfl, rfl⟩
  | connectTurn now =>
      simp only [step, UdpStream.connectTurn, h.state?] at hs
      split at hs
      · cases hs
      · obtain ⟨r, hr, heq⟩ := Option.map_eq_some_iff.mp hs
        cases heq
        split at hr
        · cases hr
        · split at hr <;> cases hr
          exact ⟨rfl, rfl⟩
  | incoming pkt now =>
      simp only [step] at hs
      split at hs <;> cases hs
      exact ⟨rfl, rfl⟩
  | writeRx now =>
      simp only [step, UdpStream.writeRx] at hs
      split at hs
      · obtain ⟨r, hr, heq⟩ := Option.map_eq_some_iff.mp hs
        cases heq
        split at hr <;> cases hr
        exact ⟨rfl, rfl⟩
      · cases hs
  | tick now =>
      simp only [step, UdpStream.tick] at hs
      split at hs
      · split at hs <;> cases hs <;> exact ⟨rfl, rfl⟩
      · cases hs
  | drop =>
      simp only [step] at hs
      split at hs <;> cases hs
      exact ⟨rfl, rfl⟩
  | socketError =>
      simp only [step] at hs
      split at hs <;> cases hs
      exact ⟨rfl, rfl⟩
  | endTask =>
      simp only [step] at hs
      split at hs <;> cases hs
      exact ⟨rfl, rfl⟩

/-- `step_effect`, read off the endpoints themselves. -/
theorem wf_step {op : Op} (hwf : e.WF) (hs : e.step op = some (e', out)) :
    e'.WF ∧ Effect e.stream.streamId e.snap op e'.snap out := by
  obtain ⟨st', hst', heff⟩ := step_effect hwf hs
  refine ⟨hst'.wf, ?_⟩
  unfold snap
  rw [hst'.st_eq]
  exact heff

/-! ## Runs of one endpoint -/

/-- `step` without the output: what a run of one endpoint folds. -/
def next (e : Endpoint) (op : Op) : Option Endpoint :=
  (e.step op).map Prod.fst

theorem snap_connecting (sid : UInt32) (a : SocketAddr) (now : Instant) :
    (connecting sid a now).snap = ⟨StreamState.new .tcp, a, false, true, false,
      [], [], [], false, now⟩ := by
  unfold snap
  rw [(holds_connecting sid a now).st_eq]
  rfl

theorem snap_accepting (sid : UInt32) (a : SocketAddr) (now : Instant) :
    (accepting sid a now).snap = ⟨StreamState.new .tcp, a, false, true, false,
      [], [], [], false, now⟩ := by
  unfold snap
  rw [(holds_accepting sid a now).st_eq]
  rfl

/-- An endpoint as `connect` or the listener makes it. -/
def Fresh (e : Endpoint) : Prop :=
  ∃ sid addr t, e = connecting sid addr t ∨ e = accepting sid addr t

theorem Fresh.holds {e : Endpoint} (h : e.Fresh) :
    e.Holds (StreamState.new .tcp) := by
  obtain ⟨sid, addr, t, rfl | rfl⟩ := h
  · exact holds_connecting sid addr t
  · exact holds_accepting sid addr t

theorem wf_next {op : Op} (hwf : e.WF) (hs : e.next op = some e') :
    e'.WF ∧ ∃ out, e.step op = some (e', out) ∧
      Effect e.stream.streamId e.snap op e'.snap out := by
  obtain ⟨⟨e₁, out⟩, hr, rfl⟩ := Option.map_eq_some_iff.mp hs
  obtain ⟨hwf', heff⟩ := wf_step hwf hr
  exact ⟨hwf', out, hr, heff⟩

theorem Fresh.wf_run {e₀ : Endpoint} {ops : List Op} (h : e₀.Fresh)
    (hr : Runs.Run next e₀ ops e) : e.WF :=
  Runs.run_preserves (fun _ _ _ hwf hs => (wf_next hwf hs).1) h.holds.wf hr

/-- What every effect keeps, a whole run keeps. -/
theorem run_effect {I : View → Prop}
    (hkeep : ∀ sid v op v' out, Effect sid v op v' out → I v → I v')
    {ops : List Op} (hwf : e.WF) (he : I e.snap)
    (hrun : Runs.Run next e ops e') : I e'.snap := by
  have hinv : e'.WF ∧ I e'.snap := by
    apply Runs.run_preserves (I := fun e => e.WF ∧ I e.snap) _ ⟨hwf, he⟩ hrun
    rintro e op e' ⟨hwf, he⟩ hs
    obtain ⟨hwf', out, -, heff⟩ := wf_next hwf hs
    exact ⟨hwf', hkeep _ _ _ _ _ heff he⟩
  exact hinv.2

end Endpoint

end Rathole
