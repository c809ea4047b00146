import Mathlib.Logic.Function.Basic
import Rathole.Lib.Cadence
import Rathole.Transport.Closing
import Rathole.Transport.DeadPeer
import Rathole.Transport.Eof

/-!
# Keepalives

A tick of an end that has sent nothing for more than 5 s sends a
KeepalivePing, which the other end answers. So an open end is never silent
for more than 5 s and one tick, and as long as the network does not lose too
much in a row neither end runs into the 300 s after which a tick gives up: an
idle connection stays open for ever. With ticks every 50 ms and datagrams that
take a second at most, 58 messages in a row may be lost.
-/

namespace Rathole

/-! ## When an end sends -/

namespace UdpStreamInner

theorem lastSent_sendAll (now : Instant) (ps : List (UInt32 × ToSend))
    (inner : UdpStreamInner) :
    (ps = [] ∧ inner.sendAll now ps = (inner, [])) ∨
      (ps ≠ [] ∧ (inner.sendAll now ps).1.lastSent = now ∧
        (inner.sendAll now ps).2 ≠ []) := by
  induction ps generalizing inner with
  | nil => exact Or.inl ⟨rfl, rfl⟩
  | cons p rest ih =>
      right
      refine ⟨List.cons_ne_nil _ _, ?_, List.cons_ne_nil _ _⟩
      obtain ⟨sid, p⟩ := p
      simp only [sendAll]
      rcases ih (inner.sendPacketRaw sid p.kind p.seq (some p.ack)
        (some p.bits) p.data now).1 with ⟨-, hnil⟩ | ⟨-, hlast, -⟩
      · rw [hnil]
        rfl
      · exact hlast

theorem lastSent_closeAndWake (inner : UdpStreamInner) (sid : UInt32) :
    (inner.closeAndWake sid).1.lastSent = inner.lastSent := by
  unfold closeAndWake
  dsimp only
  split <;> rfl

/-- A tick that goes well stamps what it sends, and sends something if nothing
was sent for more than 5 s. -/
theorem handleTick_ok {inner inner' : UdpStreamInner} {now : Instant}
    {sent : List Datagram} (h : inner.handleTick now = (inner', .ok sent)) :
    (sent = [] ∧ inner'.lastSent = inner.lastSent ∧
      (now - inner.lastSent > secs 5 →
        inner.reliability.streams.entries = [])) ∨
    (sent ≠ [] ∧ inner'.lastSent = now) := by
  unfold handleTick at h
  split at h
  · cases h
  · dsimp only at h
    split at h
    · cases h
    · split at h
      · cases h
        rcases lastSent_sendAll now _
          { inner with
            reliability := (inner.reliability.getRetransmissions now).1 }
          with ⟨hnil, hsame⟩ | ⟨-, hlast, hsent⟩
        · rw [hsame]
          refine Or.inl ⟨rfl, rfl, fun hsilent => ?_⟩
          have hpings := (List.append_eq_nil_iff.mp hnil).1
          rw [if_pos hsilent] at hpings
          exact List.map_eq_nil_iff.mp hpings
        · exact Or.inr ⟨hsent, hlast⟩
      · cases h

theorem handleTick_error {inner inner' : UdpStreamInner} {now : Instant}
    {msg : String} (h : inner.handleTick now = (inner', .error msg)) :
    inner'.lastSent = inner.lastSent := by
  unfold handleTick at h
  split at h
  · cases h
    rfl
  · dsimp only at h
    split at h
    · cases h
      rfl
    · split at h
      · cases h
      · cases h
        rfl

end UdpStreamInner

namespace Endpoint

/-- The time of the last datagram that an end has sent. -/
def lastSent (e : Endpoint) : Instant := e.stream.inner.lastSent

/-- A step sends nothing, or stamps what it sends. -/
def Stamps (e e' : Endpoint) (op : Op) (out : Output) : Prop :=
  (out.sent = [] ∧ e'.lastSent = e.lastSent) ∨
    (out.sent ≠ [] ∧ op.time? = some e'.lastSent)

theorem lastSent_trySend (u : UdpStream) (item : ℕ × Bytes) :
    (u.trySend item).inner.lastSent = u.inner.lastSent := by
  obtain ⟨ch, -, heq⟩ := trySend_eq u item
  rw [heq]

theorem lastSent_pollWrite (u : UdpStream) (cx : Waker) (buf : Bytes)
    (now : Instant) :
    (u.pollWrite cx buf now).1.inner.lastSent = u.inner.lastSent := by
  unfold UdpStream.pollWrite
  split
  · rfl
  · split
    · rfl
    · split
      · rfl
      · exact lastSent_trySend _ _

theorem lastSent_pollRead (u : UdpStream) (cx : Waker) (remaining : ℕ) :
    (u.pollRead cx remaining).1.inner.lastSent = u.inner.lastSent := by
  unfold UdpStream.pollRead
  split
  · rfl
  · split
    · rfl
    · split <;> rfl

theorem lastSent_setUdpNackMode (u : UdpStream) :
    u.setUdpNackMode.inner.lastSent = u.inner.lastSent := by
  unfold UdpStream.setUdpNackMode
  split <;> rfl

theorem lastSent_connectTurn {u : UdpStream} {now : Instant}
    {r : UdpStream × Datagram} (h : u.connectTurn now = some r) :
    r.1.inner.lastSent = now := by
  unfold UdpStream.connectTurn at h
  split at h
  · cases h
  · split at h
    · split at h <;> cases h
      rfl
    · cases h

theorem lastSent_writeRx {u : UdpStream} {now : Instant}
    {r : UdpStream × Datagram} (h : u.writeRx now = some r) :
    r.1.inner.lastSent = now := by
  unfold UdpStream.writeRx at h
  split at h
  · cases h
  · cases h
    dsimp only
    split <;> rfl

/-- A packet is answered at once or not at all. -/
theorem handleIncoming_stamps (inner : UdpStreamInner) (pkt : IncomingPacket)
    (now : Instant) :
    ((inner.handleIncoming pkt now).2.1 = [] ∧
        (inner.handleIncoming pkt now).1.lastSent = inner.lastSent) ∨
      ((inner.handleIncoming pkt now).2.1 ≠ [] ∧
        (inner.handleIncoming pkt now).1.lastSent = now) := by
  unfold UdpStreamInner.handleIncoming
  split
  · exact Or.inl ⟨rfl, rfl⟩
  · dsimp only
    rcases UdpStreamInner.lastSent_sendAll now _ _ with
      ⟨-, hsame⟩ | ⟨-, hlast, hsent⟩
    · rw [hsame]
      exact Or.inl ⟨rfl, rfl⟩
    · exact Or.inr ⟨hsent, hlast⟩

theorem tick_sends (u : UdpStream) (now : Instant) :
    ((u.tick now).2.1 = [] ∧
        (u.tick now).1.inner.lastSent = u.inner.lastSent) ∨
      ((u.tick now).2.1 ≠ [] ∧ (u.tick now).1.inner.lastSent = now) := by
  unfold UdpStream.tick
  cases htick : u.inner.handleTick now with
  | mk inner r =>
      cases r with
      | ok sent =>
          rcases UdpStreamInner.handleTick_ok htick with
            ⟨hnil, hsame, -⟩ | ⟨hsent, hlast⟩
          · exact Or.inl ⟨hnil, hsame⟩
          · exact Or.inr ⟨hsent, hlast⟩
      | error msg =>
          refine Or.inl ⟨rfl, ?_⟩
          dsimp only [UdpStream.endTask]
          rw [UdpStreamInner.lastSent_closeAndWake]
          exact UdpStreamInner.handleTick_error htick

/-- **Step lemma**: `last_sent` is the time of the last datagram. -/
theorem step_stamps {e e' : Endpoint} {op : Op} {out : Output}
    (hs : e.step op = some (e', out)) : e.Stamps e' op out := by
  unfold Stamps lastSent
  cases op with
  | pollWrite cx buf now =>
      simp only [step] at hs
      split at hs <;> cases hs
      exact Or.inl ⟨rfl, lastSent_pollWrite _ _ _ _⟩
  | pollRead cx remaining =>
      simp only [step] at hs
      split at hs <;> cases hs
      exact Or.inl ⟨rfl, lastSent_pollRead _ _ _⟩
  | pollShutdown =>
      simp only [step] at hs
      split at hs <;> cases hs
      exact Or.inl ⟨rfl, lastSent_trySend _ _⟩
  | setUdpNackMode =>
      simp only [step] at hs
      split at hs <;> cases hs
      exact Or.inl ⟨rfl, lastSent_setUdpNackMode _⟩
  | connectTurn now =>
      simp only [step] at hs
      split at hs
      · cases hs
      · obtain ⟨r, hr, heq⟩ := Option.map_eq_some_iff.mp hs
        cases heq
        exact Or.inr ⟨List.cons_ne_nil _ _,
          congrArg some (lastSent_connectTurn hr).symm⟩
  | incoming pkt now =>
      simp only [step] at hs
      split at hs <;> cases hs
      exact (handleIncoming_stamps _ pkt now).imp id
        (fun h => ⟨h.1, congrArg some h.2.symm⟩)
  | writeRx now =>
      simp only [step] at hs
      split at hs
      · obtain ⟨r, hr, heq⟩ := Option.map_eq_some_iff.mp hs
        cases heq
        exact Or.inr ⟨List.cons_ne_nil _ _,
          congrArg some (lastSent_writeRx hr).symm⟩
      · cases hs
  | tick now =>
      simp only [step] at hs
      split at hs <;> cases hs
      exact (tick_sends _ now).imp id
        (fun h => ⟨h.1, congrArg some h.2.symm⟩)
  | drop =>
      simp only [step] at hs
      split at hs <;> cases hs
      exact Or.inl ⟨rfl, rfl⟩
  | socketError =>
      simp only [step] at hs
      split at hs <;> cases hs
      exact Or.inl ⟨rfl, UdpStreamInner.lastSent_closeAndWake _ _⟩
  | endTask =>
      simp only [step] at hs
      split at hs <;> cases hs
      exact Or.inl ⟨rfl, UdpStreamInner.lastSent_closeAndWake _ _⟩

/-- A tick that leaves the stream open finds or leaves it with something sent
in the last 5 s. -/
theorem tick_stamps {e e' : Endpoint} {now : Instant} {out : Output}
    (hwf : e.WF) (hs : e.step (.tick now) = some (e', out))
    (hopen : e'.snap.closed = false) : now ≤ e'.lastSent + secs 5 := by
  simp only [step] at hs
  split at hs
  · cases hs
    unfold lastSent
    unfold UdpStream.tick at hopen ⊢
    dsimp only at hopen ⊢
    cases htick : e.stream.inner.handleTick now with
    | mk inner r =>
        rw [htick] at hopen
        cases r with
        | ok sent =>
            rcases UdpStreamInner.handleTick_ok htick with
              ⟨-, hsame, hping⟩ | ⟨-, hlast⟩
            · by_contra hsilent
              have hnone := hping (by
                rw [hsame] at hsilent
                dsimp only [Instant] at hsilent ⊢
                omega)
              have hone : e.stream.inner.reliability.streams =
                AList.singleton e.stream.streamId e.st := hwf
              rw [hone] at hnone
              cases hnone
            · rw [hlast]
              exact Nat.le_add_right now _
        | error msg =>
            have hopen' : (({ e.stream with inner := inner } :
                UdpStream).endTask.1).inner.closed = false := hopen
            rw [UdpStream.endTask_closed] at hopen'
            cases hopen'
  · cases hs

end Endpoint

/-! ## Who sends a StreamClose -/

theorem dispatch_no_close {st : StreamState} {pkt : IncomingPacket}
    {now : Instant} {p : ToSend}
    (hp : p ∈ (UdpStreamInner.dispatch st pkt now).2.2.1) :
    p.kind ≠ .streamClose := by
  unfold UdpStreamInner.dispatch at hp
  cases hk : pkt.header.packetKind with
  | streamOpen =>
      rw [hk] at hp
      rw [List.mem_singleton.mp hp]
      exact PacketKind.noConfusion
  | keepalivePing =>
      rw [hk] at hp
      rw [List.mem_singleton.mp hp]
      exact PacketKind.noConfusion
  | stream =>
      rw [hk] at hp
      dsimp only at hp
      split at hp
      · rw [List.mem_singleton.mp hp]
        exact PacketKind.noConfusion
      · split at hp
        · rw [List.mem_singleton.mp hp]
          exact PacketKind.noConfusion
        · cases hp
  | sack =>
      rw [hk] at hp
      rw [(UdpStreamInner.mem_afterAck hp).1]
      exact PacketKind.noConfusion
  | nack =>
      rw [hk] at hp
      rw [(UdpStreamInner.mem_afterAck hp).1]
      exact PacketKind.noConfusion
  | _ =>
      rw [hk] at hp
      cases hp

/-- An open stream sends no StreamClose. -/
theorem Effect.sends_no_close {sid : UInt32} {v v' : View} {op : Op}
    {out : Output} (h : Effect sid v op v' out) (hopen : v.closed = false)
    (hv : v.NoSentinel) :
    ∀ d ∈ out.sent, d.header.packetKind ≠ .streamClose := by
  intro d hd
  cases h with
  | openSent =>
      rw [List.mem_singleton.mp hd]
      exact PacketKind.noConfusion
  | incoming _ hrun =>
      obtain ⟨p, hp, rfl⟩ := List.mem_map.mp hd
      exact dispatch_no_close hp
  | closeSent hch =>
      exact absurd rfl (hv.channel hopen _ (hch ▸ List.mem_cons_self))
  | chunkSent hch hseq =>
      rw [List.mem_singleton.mp hd]
      exact PacketKind.noConfusion
  | ticked pings _ hpings halive =>
      obtain ⟨p, hp, rfl⟩ := List.mem_map.mp hd
      rw [ToSend.datagram_kind]
      rcases List.mem_append.mp hp with hp' | hp'
      · rw [hpings p hp']
        exact PacketKind.noConfusion
      · obtain ⟨q, -, rfl⟩ := List.mem_map.mp hp'
        exact PacketKind.noConfusion
  | _ => cases hd

/-- A packet that an open stream takes is the last it has heard. -/
theorem Effect.heard {sid : UInt32} {v v' : View} {op : Op} {out : Output}
    (h : Effect sid v op v' out) :
    v'.lastReceived = v.lastReceived ∨ op.time? = some v'.lastReceived := by
  cases h with
  | incoming hopen hrun => exact Or.inr rfl
  | _ => exact Or.inl rfl

/-! ## A connection and its clocks -/

/-- The operations that end a stream from its own side: the application is
done, or the receive loop has failed. -/
def Op.ends : Op → Bool
  | .pollShutdown => true
  | .drop => true
  | .socketError => true
  | .endTask => true
  | _ => false

/-- A connection, the time, and when each end ticked last and has sent
something. -/
structure Tended where
  conn : Connection
  clock : Instant
  ticked : Side → Instant
  sentAt : Side → List Instant

/-- Seen from outside, a step is a step of one end, a loss, or an answer of the
listener for a stream that it has forgotten. -/
theorem Connection.step_cases {w w' : Connection} {a : Action}
    (hs : w.step a = some w') :
    (∃ s op e out, a.op? = some (s, op) ∧ (w.on s).step op = some (e, out) ∧
      FromNet (w.net s.other) op ∧ w' = w.put s e out.sent) ∨
    (∃ s d, a.op? = none ∧ w' = w.lose s d) ∨
    (w.on .acceptor).snap.running = false := by
  cases a with
  | act side op =>
      simp only [step] at hs
      split at hs
      · cases hs
      · rename_i hop
        obtain ⟨⟨e, out⟩, hr, rfl⟩ := Option.map_eq_some_iff.mp hs
        refine Or.inl ⟨side, op, e, out, rfl, hr, ?_, rfl⟩
        rintro pkt now rfl
        exact absurd rfl hop
  | deliver side d src now =>
      simp only [step] at hs
      split at hs
      · rename_i hmem
        obtain ⟨⟨e, out⟩, hr, rfl⟩ := Option.map_eq_some_iff.mp hs
        refine Or.inl ⟨side, _, e, out, rfl, hr, ?_, rfl⟩
        rintro pkt now' heq
        cases heq
        exact ⟨d, hmem, rfl, rfl⟩
      · cases hs
  | lose sender d =>
      cases hs
      exact Or.inr (Or.inl ⟨sender, d, rfl, rfl⟩)
  | strayClose d src =>
      simp only [step] at hs
      split at hs
      · rename_i hcond
        exact Or.inr (Or.inr hcond.1)
      · cases hs

namespace Tended

def step (t : Tended) (a : Action) : Option Tended :=
  (t.conn.step a).map (fun w =>
    match a.op? with
    | some (s, op) =>
        { conn := w
          clock := op.time?.getD t.clock
          ticked := Function.update t.ticked s (op.tick?.getD (t.ticked s))
          sentAt := Function.update t.sentAt s (t.sentAt s ++
            if w.net s = t.conn.net s then [] else op.time?.toList) }
    | none => { t with conn := w })

/-- A fresh connection, its ends made at `t` and `t'`. -/
def start (sid : UInt32) (client server : SocketAddr) (t t' : Instant) :
    Tended :=
  ⟨.init sid client server t t', max t t', fun _ => max t t', fun _ => []⟩

/-- A step that leaves the connection to itself: no application closes its end
and no socket fails, time does not run backwards, both ends have their ticks
every `period`, and a tick finds that its end has missed the peer at most `k`
times in a row and that no chunk has been resent too often. What takes longer
than `delay` is as good as lost. -/
def Kept (period k delay : ℕ) (t : Tended) (a : Action) : Prop :=
  ∀ x ∈ a.op?, x.2.ends = false ∧
    (∀ now ∈ x.2.time?, t.clock ≤ now ∧ now ≤ t.ticked x.1 + period ∧
      now ≤ t.ticked x.1.other + period) ∧
    ∀ now ∈ x.2.tick?,
      (Cadence.missed (t.sentAt x.1.other)
        (t.conn.on x.1).stream.inner.lastReceived delay now).length ≤ k ∧
      ((t.conn.on x.1).st.getRetransmissions now).2.2 = false

instance (period k delay : ℕ) (t : Tended) (a : Action) :
    Decidable (Kept period k delay t a) :=
  inferInstanceAs (Decidable (∀ x ∈ a.op?, _ ∧ _ ∧ _))

/-- What an end `s` keeps: it is open and nothing in flight will close it, and
it is never silent for longer than `gap`. -/
structure Alive (gap launch skew : ℕ) (t : Tended) (s : Side) : Prop where
  isOpen : (t.conn.on s).snap.closed = false
  sentinel : (t.conn.on s).snap.NoSentinel
  noClose : ∀ d ∈ t.conn.net s, d.header.packetKind ≠ .streamClose
  heard : launch ≤ (t.conn.on s).snap.lastReceived + skew
  cadence : Cadence gap launch (t.conn.on s).lastSent t.clock (t.sentAt s)
  tended : t.ticked s ≤ max (t.conn.on s).lastSent launch + secs 5

section Steps

variable {period k delay launch skew : ℕ} {t : Tended} {s : Side} {op : Op}
  {e : Endpoint} {out : Output}

/-- No end is late when time passes. -/
theorem Alive.later (h : Alive (secs 5 + period) launch skew t s)
    (htimely : ∀ now ∈ op.time?, t.clock ≤ now ∧ now ≤ t.ticked s + period) :
    Cadence (secs 5 + period) launch (t.conn.on s).lastSent
      (op.time?.getD t.clock) (t.sentAt s) := by
  cases hop : op.time? with
  | none => exact h.cadence
  | some now =>
      obtain ⟨hclock, hdense⟩ := htimely now hop
      have htended := h.tended
      apply h.cadence.later hclock
      dsimp only [Option.getD_some, Instant] at *
      omega

/-- An end that hears from a living peer is not closed. -/
theorem Alive.stays_open (hwf : (t.conn.on s).WF)
    (h : Alive (secs 5 + period) launch skew t s)
    (hpeer : Alive (secs 5 + period) launch skew t s.other)
    (hlater : Cadence (secs 5 + period) launch (t.conn.on s.other).lastSent
      (op.time?.getD t.clock) (t.sentAt s.other))
    (hs : (t.conn.on s).step op = some (e, out))
    (hnet : Connection.FromNet (t.conn.net s.other) op)
    (hspared : op.ends = false)
    (htick : ∀ now ∈ op.tick?,
      (Cadence.missed (t.sentAt s.other)
        (t.conn.on s).stream.inner.lastReceived delay now).length ≤ k ∧
      ((t.conn.on s).st.getRetransmissions now).2.2 = false)
    (hlimit : skew + (k + 1) * (secs 5 + period) + delay ≤ secs 300) :
    e.snap.closed = false := by
  by_contra hclosed
  obtain ⟨-, heff⟩ := Endpoint.wf_step hwf hs
  obtain ⟨-, hway⟩ := heff.closing h.isOpen (Bool.not_eq_false _ ▸ hclosed)
  rcases hway with rfl | ⟨pkt, now, rfl, hk⟩ | ⟨now, rfl, hup⟩ | rfl | rfl
  · cases hspared
  · obtain ⟨d, hd, hheader, -⟩ := hnet pkt now rfl
    exact hpeer.noClose d hd (hheader ▸ hk)
  · obtain ⟨hmissed, halive⟩ := htick now rfl
    rcases hup with ⟨-, hidle⟩ | hdead
    · have hheard := h.heard
      have hbound : launch - (t.conn.on s).stream.inner.lastReceived +
          (k + 1) * (secs 5 + period) + delay ≤ secs 300 := by
        dsimp only [Instant, Endpoint.snap, Endpoint.view] at *
        omega
      have hwithin : now ≤ (t.conn.on s).stream.inner.lastReceived +
          secs 300 := hlater.heard_within hmissed hbound
      dsimp only [Instant, Endpoint.snap, Endpoint.view] at *
      omega
    · have hdead' : ((t.conn.on s).st.getRetransmissions now).2.2 = true :=
        hdead
      rw [halive] at hdead'
      cases hdead'
  · cases hspared
  · cases hspared

/-- **Step lemma**, for the end that acts. -/
theorem Alive.acts (hwf : (t.conn.on s).WF)
    (h : Alive (secs 5 + period) launch skew t s)
    (hlater : Cadence (secs 5 + period) launch (t.conn.on s).lastSent
      (op.time?.getD t.clock) (t.sentAt s))
    (hs : (t.conn.on s).step op = some (e, out))
    (hopen : e.snap.closed = false)
    (htimely : ∀ now ∈ op.time?, t.clock ≤ now) {t' : Tended}
    (hconn : t'.conn = t.conn.put s e out.sent)
    (hclock : t'.clock = op.time?.getD t.clock)
    (hticked : t'.ticked s = op.tick?.getD (t.ticked s))
    (hsent : t'.sentAt s = t.sentAt s ++
      if (t.conn.put s e out.sent).net s = t.conn.net s then []
      else op.time?.toList) :
    Alive (secs 5 + period) launch skew t' s := by
  obtain ⟨-, heff⟩ := Endpoint.wf_step hwf hs
  have hstamps := Endpoint.step_stamps hs
  have hlast : (t.conn.on s).lastSent ≤ e.lastSent := by
    rcases hstamps with ⟨-, hsame⟩ | ⟨-, hnow⟩
    · rw [hsame]
    · exact h.cadence.before.trans (htimely _ hnow)
  constructor
  · rw [hconn, Connection.on_put_same]
    exact hopen
  · rw [hconn, Connection.on_put_same]
    exact heff.noSentinel h.sentinel
  · rw [hconn, Connection.net_put_same]
    intro d hd
    rcases List.mem_append.mp hd with hd' | hd'
    · exact h.noClose d hd'
    · exact heff.sends_no_close h.isOpen h.sentinel d hd'
  · rw [hconn, Connection.on_put_same]
    rcases heff.heard with hsame | hnow
    · rw [hsame]
      exact h.heard
    · exact (h.cadence.launched.trans (htimely _ hnow)).trans
        (Nat.le_add_right _ _)
  · rw [hconn, Connection.on_put_same, hclock, hsent,
      Connection.net_put_same]
    rcases hstamps with ⟨hnil, hsame⟩ | ⟨hsome, hnow⟩
    · rw [hnil, List.append_nil, if_pos rfl, List.append_nil, hsame]
      exact hlater
    · rw [if_neg (by simpa using hsome), hnow]
      rw [hnow] at hlater
      exact hlater.send
  · rw [hconn, Connection.on_put_same, hticked]
    cases hop : op.tick? with
    | none =>
        have htended := h.tended
        dsimp only [Option.getD_none, Instant] at *
        omega
    | some now =>
        cases op with
        | tick now' =>
            cases hop
            have htick := Endpoint.tick_stamps hwf hs hopen
            dsimp only [Option.getD_some, Instant] at *
            omega
        | _ => cases hop

/-- **Step lemma**, for the other end. -/
theorem Alive.waits (h : Alive (secs 5 + period) launch skew t s)
    (hlater : Cadence (secs 5 + period) launch (t.conn.on s).lastSent
      (op.time?.getD t.clock) (t.sentAt s)) {t' : Tended}
    (hon : t'.conn.on s = t.conn.on s) (hnet : t'.conn.net s = t.conn.net s)
    (hclock : t'.clock = op.time?.getD t.clock)
    (hticked : t'.ticked s = t.ticked s) (hsent : t'.sentAt s = t.sentAt s) :
    Alive (secs 5 + period) launch skew t' s where
  isOpen := by rw [hon]; exact h.isOpen
  sentinel := by rw [hon]; exact h.sentinel
  noClose := by rw [hnet]; exact h.noClose
  heard := by rw [hon]; exact h.heard
  cadence := by rw [hon, hclock, hsent]; exact hlater
  tended := by rw [hon, hticked]; exact h.tended

/-- **Step lemma.** -/
theorem alive_step {t' : Tended} {a : Action} (hwf : t.conn.WF)
    (hlink : t.conn.Linked)
    (h : ∀ s, Alive (secs 5 + period) launch skew t s)
    (hlimit : skew + (k + 1) * (secs 5 + period) + delay ≤ secs 300)
    (hkept : Kept period k delay t a) (hs : t.step a = some t') :
    ∀ s, Alive (secs 5 + period) launch skew t' s := by
  obtain ⟨w, hw, rfl⟩ := Option.map_eq_some_iff.mp hs
  rcases Connection.step_cases hw with
    ⟨s, op, e, out, hop, hstep, hnet, rfl⟩ | ⟨s, d, hop, rfl⟩ | hend
  · obtain ⟨hspared, htimely, htick⟩ := hkept (s, op) hop
    have hlater := (h s).later
      (fun now hnow => ⟨(htimely now hnow).1, (htimely now hnow).2.1⟩)
    have hlater' := (h s.other).later
      (fun now hnow => ⟨(htimely now hnow).1, (htimely now hnow).2.2⟩)
    have hopen := (h s).stays_open (hwf s) (h s.other) hlater' hstep hnet
      hspared htick hlimit
    rw [hop]
    intro r
    rcases s.eq_or_eq_other r with rfl | rfl
    · exact (h r).acts (hwf r) hlater hstep hopen
        (fun now hnow => (htimely now hnow).1) rfl rfl
        (Function.update_self ..) (Function.update_self ..)
    · have hne : s.other ≠ s := by cases s <;> exact Side.noConfusion
      exact (h s.other).waits hlater' (Connection.on_put_other ..)
        (Connection.net_put_other ..) rfl (Function.update_of_ne hne ..)
        (Function.update_of_ne hne ..)
  · rw [hop]
    intro r
    obtain ⟨hopen, hsentinel, hclose, hheard, hcadence, htended⟩ := h r
    constructor
    · rw [Connection.on_lose]
      exact hopen
    · rw [Connection.on_lose]
      exact hsentinel
    · exact fun x hx => hclose x (Connection.mem_net_lose hx)
    · rw [Connection.on_lose]
      exact hheard
    · rw [Connection.on_lose]
      exact hcadence
    · rw [Connection.on_lose]
      exact htended
  · rw [hlink.running .acceptor (h .acceptor).isOpen] at hend
    cases hend

end Steps

/-! ## The main result -/

/-- An end as it is made, at `made`. -/
theorem Alive.fresh {gap launch skew made : ℕ} {t : Tended} {s : Side}
    {addr : SocketAddr} (hsnap : (t.conn.on s).snap =
      ⟨StreamState.new .tcp, addr, false, true, false, [], [], [], false, made⟩)
    (hnet : t.conn.net s = []) (hlast : (t.conn.on s).lastSent = made)
    (hclock : t.clock = launch) (hticked : t.ticked s = launch)
    (hsent : t.sentAt s = []) (hmade : made ≤ launch)
    (hskew : launch ≤ made + skew) : Alive gap launch skew t s where
  isOpen := by rw [hsnap]
  sentinel := by
    rw [hsnap]
    exact ⟨le_refl _, fun _ x hx => absurd hx List.not_mem_nil⟩
  noClose := by
    rw [hnet]
    exact fun d hd => absurd hd List.not_mem_nil
  heard := by rw [hsnap]; exact hskew
  cadence := by rw [hclock, hsent]; exact Cadence.start (hlast ▸ hmade)
  tended := by
    rw [hticked]
    exact (Nat.le_max_right _ _).trans (Nat.le_add_right _ _)

theorem alive_start (gap : ℕ) (sid : UInt32) (client server : SocketAddr)
    (t t' : Instant) (s : Side) :
    Alive gap (max t t') (max t t' - min t t') (start sid client server t t')
      s := by
  have hskew : max t t' ≤ t + (max t t' - min t t') ∧
      max t t' ≤ t' + (max t t' - min t t') := by
    dsimp only [Instant] at *
    omega
  cases s with
  | connector =>
      exact .fresh (Endpoint.snap_connecting sid server t) rfl rfl rfl rfl rfl
        (Nat.le_max_left t t') hskew.1
  | acceptor =>
      exact .fresh (Endpoint.snap_accepting sid client t') rfl rfl rfl rfl rfl
        (Nat.le_max_right t t') hskew.2

/-- **Keepalives keep a connection open.** In every run that leaves the
connection to itself both ends are open at the end, however long it is and
whether or not anyone writes: an end that misses its peer at most `k` times in
a row hears from it in time, even if the other end was made later. -/
theorem keepalives_keep_open (period k delay : ℕ) (sid : UInt32)
    (client server : SocketAddr) (t t' : Instant)
    (hlimit : (max t t' - min t t') + (k + 1) * (secs 5 + period) + delay ≤
      secs 300)
    (as : List Action) (u : Tended)
    (hrun : Runs.Run step (start sid client server t t') as u)
    (hkept : Runs.Meets step (Kept period k delay)
      (start sid client server t t') as) (s : Side) :
    (u.conn.on s).stream.inner.closed = false ∧
      (u.conn.on s).stream.running = true := by
  have hinv := Runs.run_preserves_of_meets (I := fun u : Tended =>
      u.conn.WF ∧ u.conn.Linked ∧ ∀ s, Alive (secs 5 + period) (max t t')
        (max t t' - min t t') u s) ?_
    ⟨Connection.wf_init sid client server t t',
      Connection.linked_init sid client server t t',
      alive_start _ sid client server t t'⟩ hkept hrun
  · obtain ⟨-, hlink, halive⟩ := hinv
    exact ⟨(halive s).isOpen, hlink.running s (halive s).isOpen⟩
  · rintro v a v' ⟨hwf, hlink, halive⟩ hC hs
    obtain ⟨w, hw, hv⟩ := Option.map_eq_some_iff.mp hs
    obtain ⟨hwf', hm⟩ := Connection.step_moves hwf hw
    have hconn : v'.conn = w := by
      rw [← hv]
      split <;> rfl
    rw [hconn]
    exact ⟨hwf', Connection.linked_moves _ _ _ hlink hm,
      alive_step hwf hlink halive hlimit hC hs⟩

/-- One turn of an idle connection: both ends tick, and the datagrams of a
ping and of its answer arrive. -/
def idle : List Action :=
  [.act .connector (.connectTurn 0), .act .connector (.tick (secs 3)),
    .act .acceptor (.tick (secs 3)), .act .connector (.tick (secs 6)),
    .act .acceptor (.tick (secs 6)),
    .deliver .acceptor
      ⟨⟨7, .keepalivePing, 0, 0, 0⟩, [], listenerAddr⟩ connectorAddr
      (secs 7)]

theorem keepalives_keep_open_idle : ∃ u,
    Runs.Run step (start 7 connectorAddr listenerAddr 0 0) idle u ∧
    u.clock = secs 7 ∧
    (u.conn.on .acceptor).stream.inner.closed = false := by
  refine ⟨_, rfl, rfl, ?_⟩
  refine (keepalives_keep_open (secs 3) 8 (secs 1) 7 connectorAddr
    listenerAddr 0 0 (by decide) idle _ rfl ?_ .acceptor).1
  decide +kernel

end Tended

end Rathole
