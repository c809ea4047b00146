import Rathole.Transport.Endpoint

/-!
# A connection: two endpoints and the network between them

The connecting end was made by `connect`, the accepting end by the listener;
both start from `UdpStream::new` under one stream id. The network holds the
datagrams in flight, by sender. A delivery leaves the datagram in flight, so
that it may be duplicated and reordered without bound; a loss removes it; a
datagram that is never picked is delayed for ever. Nothing is forged.

Once the accepting end's task has ended the listener no longer knows the
stream, and answers any packet for it but a StreamOpen with a StreamClose.
-/

namespace Rathole

inductive Side where
  | connector | acceptor
deriving DecidableEq, Repr

def Side.other : Side → Side
  | .connector => .acceptor
  | .acceptor => .connector

@[simp] theorem Side.other_other : ∀ s : Side, s.other.other = s
  | .connector => rfl
  | .acceptor => rfl

theorem Side.eq_or_eq_other : ∀ s t : Side, t = s ∨ t = s.other
  | .connector, .connector => Or.inl rfl
  | .connector, .acceptor => Or.inr rfl
  | .acceptor, .connector => Or.inr rfl
  | .acceptor, .acceptor => Or.inl rfl

structure Connection where
  connector : Endpoint
  acceptor : Endpoint
  fromConnector : List Datagram
  fromAcceptor : List Datagram

inductive Action where
  /-- The application, the task or the socket of one end acts. -/
  | act (side : Side) (op : Op)
  /-- A datagram in flight reaches `side` from the address `src`. -/
  | deliver (side : Side) (d : Datagram) (src : SocketAddr) (now : Instant)
  | lose (sender : Side) (d : Datagram)
  /-- The listener answers a packet for the stream it has forgotten. -/
  | strayClose (d : Datagram) (src : SocketAddr)
deriving DecidableEq

/-- The operation an action performs, and at which end. -/
def Action.op? : Action → Option (Side × Op)
  | .act side op => some (side, op)
  | .deliver side d src now =>
      some (side, .incoming ⟨d.header, d.payload, src⟩ now)
  | .lose _ _ => none
  | .strayClose _ _ => none

/-- Only the network hands packets to an end. -/
def Op.isIncoming : Op → Bool
  | .incoming _ _ => true
  | _ => false

namespace Connection

def init (sid : UInt32) (client server : SocketAddr) (t t' : Instant) :
    Connection :=
  ⟨.connecting sid server t, .accepting sid client t', [], []⟩

/-- The endpoint on a side. -/
def on (w : Connection) : Side → Endpoint
  | .connector => w.connector
  | .acceptor => w.acceptor

/-- The datagrams in flight that a side has sent. -/
def net (w : Connection) : Side → List Datagram
  | .connector => w.fromConnector
  | .acceptor => w.fromAcceptor

/-- A side has moved to `e` and sent `ds`. -/
def put (w : Connection) : Side → Endpoint → List Datagram → Connection
  | .connector, e, ds =>
      { w with connector := e, fromConnector := w.fromConnector ++ ds }
  | .acceptor, e, ds =>
      { w with acceptor := e, fromAcceptor := w.fromAcceptor ++ ds }

/-- One datagram of a side is lost. -/
def lose (w : Connection) : Side → Datagram → Connection
  | .connector, d => { w with fromConnector := w.fromConnector.erase d }
  | .acceptor, d => { w with fromAcceptor := w.fromAcceptor.erase d }

/-- The listener's answer for a stream it does not know. -/
def closeReply (d : Datagram) (src : SocketAddr) : Datagram :=
  ⟨⟨d.header.channelId, .streamClose, 0, 0, 0⟩, [], src⟩

def step (w : Connection) : Action → Option Connection
  | .act side op =>
      if op.isIncoming then none
      else ((w.on side).step op).map (fun r => w.put side r.1 r.2.sent)
  | .deliver side d src now =>
      if d ∈ w.net side.other then
        ((w.on side).step (.incoming ⟨d.header, d.payload, src⟩ now)).map
          (fun r => w.put side r.1 r.2.sent)
      else none
  | .lose sender d => some (w.lose sender d)
  | .strayClose d src =>
      if w.acceptor.stream.running = false ∧ d ∈ w.fromConnector ∧
          d.header.packetKind ≠ .streamOpen then
        some (w.put .acceptor w.acceptor [closeReply d src])
      else none

/-! ## Frames -/

@[simp] theorem on_put_same (w : Connection) (s : Side) (e : Endpoint)
    (ds : List Datagram) : (w.put s e ds).on s = e := by
  cases s <;> rfl

@[simp] theorem on_put_other (w : Connection) (s : Side) (e : Endpoint)
    (ds : List Datagram) : (w.put s e ds).on s.other = w.on s.other := by
  cases s <;> rfl

@[simp] theorem net_put_same (w : Connection) (s : Side) (e : Endpoint)
    (ds : List Datagram) : (w.put s e ds).net s = w.net s ++ ds := by
  cases s <;> rfl

@[simp] theorem net_put_other (w : Connection) (s : Side) (e : Endpoint)
    (ds : List Datagram) : (w.put s e ds).net s.other = w.net s.other := by
  cases s <;> rfl

@[simp] theorem on_lose (w : Connection) (s t : Side) (d : Datagram) :
    (w.lose s d).on t = w.on t := by
  cases s <;> cases t <;> rfl

theorem mem_net_lose {w : Connection} {s t : Side} {d x : Datagram}
    (h : x ∈ (w.lose s d).net t) : x ∈ w.net t := by
  cases s <;> cases t
  · exact List.mem_of_mem_erase h
  · exact h
  · exact h
  · exact List.mem_of_mem_erase h

/-! ## What a step of the connection can do -/

/-- Both ends hold their one stream. -/
def WF (w : Connection) : Prop := ∀ s, (w.on s).WF

/-- The packet of an `incoming` operation comes from the network. -/
def FromNet (ds : List Datagram) (op : Op) : Prop :=
  ∀ pkt now, op = .incoming pkt now →
    ∃ d ∈ ds, d.header = pkt.header ∧ d.payload = pkt.payload

/-- The end `s` takes a step; what it receives was sent by the other end, which
stays as it is. -/
structure Acts (w : Connection) (s : Side) (op : Op) (out : Output)
    (w' : Connection) : Prop where
  effect : Effect (w.on s).stream.streamId (w.on s).snap op (w'.on s).snap out
  fromNet : FromNet (w.net s.other) op
  sent : w'.net s = w.net s ++ out.sent
  other : w'.on s.other = w.on s.other
  otherNet : w'.net s.other = w.net s.other
  ident : (w'.on s).stream.streamId = (w.on s).stream.streamId ∧
    (w'.on s).dest = (w.on s).dest

/-- Only the network moves, or the listener: nothing but StreamClose packets
is new in flight. -/
structure Quiet (w w' : Connection) : Prop where
  on : ∀ s, w'.on s = w.on s
  net : ∀ s, ∀ d ∈ w'.net s, d ∈ w.net s ∨ d.header.packetKind = .streamClose

inductive Moves (w : Connection) (a : Action) (w' : Connection) : Prop where
  | act {s : Side} {op : Op} {out : Output} (hop : a.op? = some (s, op))
      (h : w.Acts s op out w') : Moves w a w'
  | quiet (hop : a.op? = none) (h : w.Quiet w') : Moves w a w'

theorem wf_init (sid : UInt32) (client server : SocketAddr) (t t' : Instant) :
    (init sid client server t t').WF := by
  intro s
  cases s with
  | connector => exact (Endpoint.holds_connecting sid server t).wf
  | acceptor => exact (Endpoint.holds_accepting sid client t').wf

theorem snap_init (sid : UInt32) (client server : SocketAddr) (t t' : Instant)
    (s : Side) : ∃ addr last, ((init sid client server t t').on s).snap =
      ⟨StreamState.new .tcp, addr, false, true, false, [], [], [], false,
        last⟩ := by
  unfold Endpoint.snap
  cases s with
  | connector =>
      have hst : ((init sid client server t t').on .connector).st = _ :=
        (Endpoint.holds_connecting sid server t).st_eq
      rw [hst]
      exact ⟨server, t, rfl⟩
  | acceptor =>
      have hst : ((init sid client server t t').on .acceptor).st = _ :=
        (Endpoint.holds_accepting sid client t').st_eq
      rw [hst]
      exact ⟨client, t', rfl⟩

theorem net_init (sid : UInt32) (client server : SocketAddr) (t t' : Instant)
    (s : Side) : (init sid client server t t').net s = [] := by
  cases s <;> rfl

theorem WF.put {w : Connection} (h : w.WF) {s : Side} {e : Endpoint}
    (he : e.WF) (ds : List Datagram) : (w.put s e ds).WF := by
  intro s'
  rcases s.eq_or_eq_other s' with rfl | rfl
  · rw [on_put_same]
    exact he
  · rw [on_put_other]
    exact h _

theorem acts_put {w : Connection} {s : Side} {op : Op} {e : Endpoint}
    {out : Output} (hwf : (w.on s).WF) (hs : (w.on s).step op = some (e, out))
    (hnet : FromNet (w.net s.other) op) :
    e.WF ∧ w.Acts s op out (w.put s e out.sent) := by
  obtain ⟨hwf', heff⟩ := Endpoint.wf_step hwf hs
  refine ⟨hwf', ?_, hnet, net_put_same .., on_put_other .., net_put_other .., ?_⟩
  · rw [on_put_same]
    exact heff
  · rw [on_put_same]
    exact Endpoint.step_streamId hwf hs

/-- **Every step of a connection is one of its moves.** -/
theorem step_moves {w w' : Connection} {a : Action} (hwf : w.WF)
    (hs : w.step a = some w') : w'.WF ∧ w.Moves a w' := by
  cases a with
  | act side op =>
      simp only [step] at hs
      split at hs
      · cases hs
      · rename_i hop
        obtain ⟨⟨e, out⟩, hr, rfl⟩ := Option.map_eq_some_iff.mp hs
        have hnet : FromNet (w.net side.other) op := by
          rintro pkt now rfl
          exact absurd rfl hop
        obtain ⟨hwf', hacts⟩ := acts_put (hwf side) hr hnet
        exact ⟨hwf.put hwf' _, .act rfl hacts⟩
  | deliver side d src now =>
      simp only [step] at hs
      split at hs
      · rename_i hmem
        obtain ⟨⟨e, out⟩, hr, rfl⟩ := Option.map_eq_some_iff.mp hs
        have hnet : FromNet (w.net side.other)
            (.incoming ⟨d.header, d.payload, src⟩ now) := by
          rintro pkt now' heq
          cases heq
          exact ⟨d, hmem, rfl, rfl⟩
        obtain ⟨hwf', hacts⟩ := acts_put (hwf side) hr hnet
        exact ⟨hwf.put hwf' _, .act rfl hacts⟩
      · cases hs
  | lose sender d =>
      cases hs
      refine ⟨fun s => ?_, .quiet rfl ⟨fun s => on_lose w sender s d, ?_⟩⟩
      · rw [on_lose]
        exact hwf s
      · exact fun s x hx => Or.inl (mem_net_lose hx)
  | strayClose d src =>
      simp only [step] at hs
      split at hs
      · cases hs
        refine ⟨hwf.put (hwf .acceptor) _, .quiet rfl ⟨?_, ?_⟩⟩
        · intro s
          cases s <;> rfl
        · intro s x hx
          cases s with
          | connector => exact Or.inl hx
          | acceptor =>
              rcases List.mem_append.mp hx with hx' | hx'
              · exact Or.inl hx'
              · rw [List.mem_singleton.mp hx']
                exact Or.inr rfl
      · cases hs

/-- Seen from one end, a step is a step of that end or nothing. -/
theorem step_on {w w' : Connection} {a : Action} (hs : w.step a = some w')
    (s : Side) : w'.on s = w.on s ∨
      ∃ op out, (w.on s).step op = some (w'.on s, out) := by
  have hput {side : Side} {op : Op} (h : ((w.on side).step op).map
      (fun r => w.put side r.1 r.2.sent) = some w') :
      w'.on s = w.on s ∨ ∃ op out, (w.on s).step op = some (w'.on s, out) := by
    obtain ⟨⟨e, out⟩, hr, rfl⟩ := Option.map_eq_some_iff.mp h
    rcases side.eq_or_eq_other s with rfl | rfl
    · rw [on_put_same]
      exact Or.inr ⟨op, out, hr⟩
    · exact Or.inl (on_put_other ..)
  cases a with
  | act side op =>
      simp only [step] at hs
      split at hs
      · cases hs
      · exact hput hs
  | deliver side d src now =>
      simp only [step] at hs
      split at hs
      · exact hput hs
      · cases hs
  | lose sender d =>
      cases hs
      exact Or.inl (on_lose ..)
  | strayClose d src =>
      simp only [step] at hs
      split at hs
      · cases hs
        left
        cases s <;> rfl
      · cases hs

/-- Some run of a fresh connection ends in `w`. -/
def Reachable (w : Connection) : Prop :=
  ∃ sid client server t t', Runs.Reaches step (init sid client server t t') w

/-- The connection that the concrete runs of the development start from. -/
def sample : Connection :=
  init 7 connectorAddr listenerAddr 0 0

/-- The handshake that comes before any write: `connect` sends StreamOpen and
the other end answers it. -/
def opening : List Action :=
  [.act .connector (.connectTurn 0),
    .deliver .acceptor
      ⟨⟨7, .streamOpen, 0, 0, 0⟩, [], listenerAddr⟩
      connectorAddr 0,
    .deliver .connector
      ⟨⟨7, .streamOpenAck, 0, 0, 0⟩, [], connectorAddr⟩
      listenerAddr 0]

theorem reachable_of_opening {w : Connection} (as : List Action)
    (h : Runs.Run step sample (opening ++ as) w) : w.Reachable :=
  ⟨7, .v4 #v[10, 0, 0, 1] 40000, .v4 #v[10, 0, 0, 2] 2333, 0, 0,
    opening ++ as, h⟩

/-- **Invariant rule for connections**: it suffices that an invariant holds at
the start and survives every move. -/
theorem Reachable.invariant {I : Connection → Prop}
    (hinit : ∀ sid client server t t', I (init sid client server t t'))
    (hmove : ∀ w a w', I w → w.Moves a w' → I w') {w : Connection}
    (h : w.Reachable) : w.WF ∧ I w := by
  obtain ⟨sid, client, server, t, t', hr⟩ := h
  refine hr.preserves (I := fun w => w.WF ∧ I w) ?_
    ⟨wf_init sid client server t t', hinit sid client server t t'⟩
  intro s a s' hs hstep
  obtain ⟨hwf, hm⟩ := step_moves hs.1 hstep
  exact ⟨hwf, hmove s a s' hs.2 hm⟩

/-! ## What every connection keeps -/

structure Linked (w : Connection) : Prop where
  sameId : ∀ s, (w.on s.other).stream.streamId = (w.on s).stream.streamId
  /-- The task of an open end has not ended. -/
  running : ∀ s, (w.on s).snap.closed = false → (w.on s).snap.running = true
  shut : ∀ s, (w.on s).snap.shutdown = true → (w.on s).snap.closed = true

theorem linked_init (sid : UInt32) (client server : SocketAddr)
    (t t' : Instant) : (init sid client server t t').Linked where
  sameId := by
    intro s
    cases s <;> rfl
  running := by
    intro s _
    obtain ⟨addr, last, hv⟩ := snap_init sid client server t t' s
    rw [hv]
  shut := by
    intro s hshut
    obtain ⟨addr, last, hv⟩ := snap_init sid client server t t' s
    rw [hv] at hshut
    cases hshut

theorem linked_moves (w : Connection) (a : Action) (w' : Connection)
    (h : w.Linked) (hm : w.Moves a w') : w'.Linked := by
  cases hm with
  | act hop hacts =>
      rename_i s op out
      constructor
      · intro s'
        rcases s.eq_or_eq_other s' with rfl | rfl
        · rw [hacts.other, hacts.ident.1]
          exact h.sameId s'
        · rw [Side.other_other, hacts.other, hacts.ident.1]
          exact (h.sameId s).symm
      · intro s'
        rcases s.eq_or_eq_other s' with rfl | rfl
        · exact hacts.effect.running (h.running s')
        · rw [hacts.other]
          exact h.running _
      · intro s'
        rcases s.eq_or_eq_other s' with rfl | rfl
        · exact hacts.effect.shut_closed (h.shut s')
        · rw [hacts.other]
          exact h.shut _
  | quiet hop hq =>
      constructor
      · intro s
        rw [hq.on, hq.on]
        exact h.sameId s
      · intro s
        rw [hq.on]
        exact h.running s
      · intro s
        rw [hq.on]
        exact h.shut s

theorem Reachable.linked {w : Connection} (h : w.Reachable) : w.Linked :=
  (h.invariant linked_init linked_moves).2

theorem Reachable.run {w w' : Connection} {as : List Action} (h : w.Reachable)
    (hr : Runs.Run step w as w') : w'.Reachable := by
  obtain ⟨sid, client, server, t, t', hreach⟩ := h
  exact ⟨sid, client, server, t, t', hreach.trans ⟨as, hr⟩⟩

end Connection

end Rathole
