import Rathole.Lib.Runs
import Rathole.Protocol

/-!
# A TCP service

The two tasks behind a control channel handle of a TCP service:
`tcp_listen_and_send` accepts visitors, asks for a data channel for each and
queues them; `run_tcp_connection_pool` takes one visitor at a time and tries
data channels on it until one takes the command. Eight data channels are asked
for in advance.

The control channel, which hands the requests to the client, may end at any
time, and so may the handle be dropped. Data channels arrive as the client
likes, asked for or not.
-/

namespace Rathole

/-- `From<SocketAddr>`. -/
def ForwardAddr.ofSocketAddr : SocketAddr → ForwardAddr
  | .v4 ip port =>
      { ip := Vector.ofFn (fun i => if h : i.val < 4 then ip[i.val] else 0)
        port := port
        isIpv6 := false }
  | .v6 ip port _ _ => { ip := ip, port := port, isIpv6 := true }

namespace TcpPool

open Runs

def tcpPoolSize : ℕ := 8

def udpPoolSize : ℕ := 2

def chanSize : ℕ := 2048

def poolSize : ServiceType → ℕ
  | .tcp => tcpPoolSize
  | .udp => udpPoolSize

structure Visitor where
  /-- How many visitors were accepted before. -/
  id : ℕ
  /-- `peer_addr()`, which may fail. -/
  peerAddr : Option SocketAddr
deriving DecidableEq

def Visitor.cmd (v : Visitor) : PacketMessage :=
  let peerAddr := v.peerAddr.getD (.v4 #v[0, 0, 0, 0] 0)
  .dataCommand (.startForwardTcp (.ofSocketAddr peerAddr))

inductive ListenerPc where
  | bind
  /-- At the `select!` of the loop. -/
  | select
  /-- After an error of `accept`. -/
  | sleep
  /-- The request for the visitor is sent, the visitor is not yet. -/
  | send (v : Visitor)
  | ended
deriving DecidableEq

inductive PoolPc where
  /-- At the head of the outer loop. -/
  | outer
  /-- At the head of the inner loop, with a visitor. -/
  | inner (v : Visitor)
  /-- The command is being written. -/
  | write (v : Visitor) (ch : ℕ)
  | ended
deriving DecidableEq

structure Pair where
  visitor : Visitor
  channel : ℕ
  /-- What the channel was told. -/
  cmd : PacketMessage
deriving DecidableEq

structure State where
  /-- The control channel takes requests. -/
  controlOpen : Bool
  handleDropped : Bool
  listener : ListenerPc
  /-- `tx` to `visitor_rx`, oldest first. -/
  visitorRx : List Visitor
  /-- `data_ch_tx` to `data_ch_rx`; a data channel is named by how many
  arrived before it. -/
  dataChRx : List ℕ
  pool : PoolPc
  /-- Requests sent, and data channels taken from `data_ch_rx`. -/
  requests : ℕ
  taken : ℕ
  /-- The visitors that `accept` returned, and those of them that were dropped
  because no request could be sent. -/
  accepted : List Visitor
  dropped : List Visitor
  arrived : ℕ
  /-- Oldest first. -/
  paired : List Pair
deriving DecidableEq

inductive Action where
  /-- The end of `retry_notify_with_deadline`. -/
  | bound (ok : Bool)
  | accept (peerAddr : Option SocketAddr)
  | acceptError
  | wake
  /-- `tx.send` comes back. -/
  | queue
  /-- The listener's `shutdown_rx.recv()`. -/
  | shutdown
  /-- `visitor_rx.recv()` and `data_ch_rx.recv()` of the pool. -/
  | recvVisitor
  | recvChannel
  | wrote (ok : Bool)
  | dataChannel
  | controlEnd
  | dropHandle
deriving DecidableEq

/-- `ControlChannelHandle::new`. -/
def init : State where
  controlOpen := true
  handleDropped := false
  listener := .bind
  visitorRx := []
  dataChRx := []
  pool := .outer
  requests := poolSize .tcp
  taken := 0
  accepted := []
  dropped := []
  arrived := 0
  paired := []

def step (s : State) : Action → Option State
  | .bound ok =>
      if s.listener = .bind then
        some { s with listener := if ok then .select else .ended }
      else none
  | .accept peerAddr =>
      if s.listener = .select then
        let v : Visitor := ⟨s.accepted.length, peerAddr⟩
        if s.controlOpen then
          some { s with
            listener := .send v
            requests := s.requests + 1
            accepted := s.accepted ++ [v] }
        else
          some { s with
            listener := .ended
            accepted := s.accepted ++ [v]
            dropped := s.dropped ++ [v] }
      else none
  | .acceptError =>
      if s.listener = .select then some { s with listener := .sleep } else none
  | .wake =>
      if s.listener = .sleep then some { s with listener := .select } else none
  | .queue =>
      match s.listener with
      | .send v =>
          -- nobody is left to receive: the error is ignored
          if s.pool = .ended then some { s with listener := .select }
          else if s.visitorRx.length < chanSize then
            some { s with
              listener := .select
              visitorRx := s.visitorRx ++ [v] }
          else none
      | _ => none
  | .shutdown =>
      if s.handleDropped ∧ (s.listener = .bind ∨ s.listener = .select) then
        some { s with listener := .ended }
      else none
  | .recvVisitor =>
      match s.pool, s.visitorRx with
      | .outer, v :: rest => some { s with pool := .inner v, visitorRx := rest }
      | .outer, [] =>
          if s.listener = .ended then some { s with pool := .ended } else none
      | _, _ => none
  | .recvChannel =>
      match s.pool, s.dataChRx with
      | .inner v, ch :: rest =>
          some { s with
            pool := .write v ch
            dataChRx := rest
            taken := s.taken + 1 }
      | .inner _, [] =>
          if s.handleDropped then some { s with pool := .ended } else none
      | _, _ => none
  | .wrote ok =>
      match s.pool with
      | .write v ch =>
          if ok then
            some { s with
              pool := .outer
              paired := s.paired ++ [⟨v, ch, v.cmd⟩] }
          else if s.controlOpen then
            -- a broken data channel: request for a new one
            some { s with pool := .inner v, requests := s.requests + 1 }
          else some { s with pool := .ended }
      | _ => none
  | .dataChannel =>
      if s.handleDropped = false ∧ s.pool ≠ .ended ∧
          s.dataChRx.length < chanSize * 2 then
        some { s with
          dataChRx := s.dataChRx ++ [s.arrived]
          arrived := s.arrived + 1 }
      else none
  | .controlEnd => some { s with controlOpen := false }
  | .dropHandle => some { s with handleDropped := true }

/-- What each action does, and when it can. -/
inductive Moves (s : State) : Action → State → Prop where
  | bound (ok : Bool) (hlistener : s.listener = .bind) :
      Moves s (.bound ok)
        { s with listener := if ok then .select else .ended }
  | accepted (peerAddr : Option SocketAddr) (hlistener : s.listener = .select)
      (hopen : s.controlOpen = true) :
      Moves s (.accept peerAddr) { s with
        listener := .send ⟨s.accepted.length, peerAddr⟩
        requests := s.requests + 1
        accepted := s.accepted ++ [⟨s.accepted.length, peerAddr⟩] }
  | refused (peerAddr : Option SocketAddr) (hlistener : s.listener = .select)
      (hclosed : s.controlOpen = false) :
      Moves s (.accept peerAddr) { s with
        listener := .ended
        accepted := s.accepted ++ [⟨s.accepted.length, peerAddr⟩]
        dropped := s.dropped ++ [⟨s.accepted.length, peerAddr⟩] }
  | acceptError (hlistener : s.listener = .select) :
      Moves s .acceptError { s with listener := .sleep }
  | wake (hlistener : s.listener = .sleep) :
      Moves s .wake { s with listener := .select }
  | unheard {v : Visitor} (hlistener : s.listener = .send v)
      (hpool : s.pool = .ended) : Moves s .queue { s with listener := .select }
  | queued {v : Visitor} (hlistener : s.listener = .send v)
      (hpool : s.pool ≠ .ended) (hroom : s.visitorRx.length < chanSize) :
      Moves s .queue { s with
        listener := .select
        visitorRx := s.visitorRx ++ [v] }
  | shutdown (hlistener : s.listener = .bind ∨ s.listener = .select)
      (hdropped : s.handleDropped = true) :
      Moves s .shutdown { s with listener := .ended }
  | recvVisitor {v : Visitor} {rest : List Visitor} (hpool : s.pool = .outer)
      (hrx : s.visitorRx = v :: rest) :
      Moves s .recvVisitor { s with pool := .inner v, visitorRx := rest }
  | noVisitor (hpool : s.pool = .outer) (hrx : s.visitorRx = [])
      (hended : s.listener = .ended) :
      Moves s .recvVisitor { s with pool := .ended }
  | recvChannel {v : Visitor} {ch : ℕ} {rest : List ℕ}
      (hpool : s.pool = .inner v) (hrx : s.dataChRx = ch :: rest) :
      Moves s .recvChannel { s with
        pool := .write v ch
        dataChRx := rest
        taken := s.taken + 1 }
  | noChannel {v : Visitor} (hpool : s.pool = .inner v)
      (hrx : s.dataChRx = []) (hdropped : s.handleDropped = true) :
      Moves s .recvChannel { s with pool := .ended }
  | paired {v : Visitor} {ch : ℕ} (hpool : s.pool = .write v ch) :
      Moves s (.wrote true) { s with
        pool := .outer
        paired := s.paired ++ [⟨v, ch, v.cmd⟩] }
  | broken {v : Visitor} {ch : ℕ} (hpool : s.pool = .write v ch)
      (hopen : s.controlOpen = true) :
      Moves s (.wrote false) { s with
        pool := .inner v
        requests := s.requests + 1 }
  | unanswered {v : Visitor} {ch : ℕ} (hpool : s.pool = .write v ch)
      (hclosed : s.controlOpen = false) :
      Moves s (.wrote false) { s with pool := .ended }
  | dataChannel (hheld : s.handleDropped = false) (hpool : s.pool ≠ .ended)
      (hroom : s.dataChRx.length < chanSize * 2) :
      Moves s .dataChannel { s with
        dataChRx := s.dataChRx ++ [s.arrived]
        arrived := s.arrived + 1 }
  | controlEnd : Moves s .controlEnd { s with controlOpen := false }
  | dropHandle : Moves s .dropHandle { s with handleDropped := true }

theorem moves_of_step {s t : State} {a : Action} (hs : step s a = some t) :
    Moves s a t := by
  cases a with
  | bound ok =>
      simp only [step] at hs
      split at hs <;> cases hs
      exact .bound ok ‹_›
  | accept peerAddr =>
      simp only [step] at hs
      split at hs
      · rename_i hlistener
        split at hs
        · rename_i hopen
          cases hs
          exact .accepted peerAddr hlistener hopen
        · rename_i hclosed
          cases hs
          exact .refused peerAddr hlistener (Bool.not_eq_true _ ▸ hclosed)
      · cases hs
  | acceptError =>
      simp only [step] at hs
      split at hs <;> cases hs
      exact .acceptError ‹_›
  | wake =>
      simp only [step] at hs
      split at hs <;> cases hs
      exact .wake ‹_›
  | queue =>
      simp only [step] at hs
      split at hs
      · rename_i v hlistener
        split at hs
        · rename_i hpool
          cases hs
          exact .unheard hlistener hpool
        · rename_i hpool
          split at hs
          · rename_i hroom
            cases hs
            exact .queued hlistener hpool hroom
          · cases hs
      · cases hs
  | shutdown =>
      simp only [step] at hs
      split at hs
      · rename_i hcond
        cases hs
        exact .shutdown hcond.2 hcond.1
      · cases hs
  | recvVisitor =>
      simp only [step] at hs
      split at hs
      · rename_i hpool hrx
        cases hs
        exact .recvVisitor hpool hrx
      · rename_i hpool hrx
        split at hs
        · rename_i hended
          cases hs
          exact .noVisitor hpool hrx hended
        · cases hs
      · cases hs
  | recvChannel =>
      simp only [step] at hs
      split at hs
      · rename_i hpool hrx
        cases hs
        exact .recvChannel hpool hrx
      · rename_i hpool hrx
        split at hs
        · rename_i hdropped
          cases hs
          exact .noChannel hpool hrx hdropped
        · cases hs
      · cases hs
  | wrote ok =>
      simp only [step] at hs
      split at hs
      · rename_i hpool
        cases ok with
        | true =>
            cases hs
            exact .paired hpool
        | false =>
            simp only [Bool.false_eq_true, if_false] at hs
            split at hs
            · rename_i hopen
              cases hs
              exact .broken hpool hopen
            · rename_i hclosed
              cases hs
              exact .unanswered hpool (Bool.not_eq_true _ ▸ hclosed)
      · cases hs
  | dataChannel =>
      simp only [step] at hs
      split at hs
      · rename_i hcond
        cases hs
        exact .dataChannel hcond.1 hcond.2.1 hcond.2.2
      · cases hs
  | controlEnd =>
      cases hs
      exact .controlEnd
  | dropHandle =>
      cases hs
      exact .dropHandle

/-! ## Where visitors and data channels are -/

def ListenerPc.visitors : ListenerPc → List Visitor
  | .send v => [v]
  | _ => []

def PoolPc.visitors : PoolPc → List Visitor
  | .inner v | .write v _ => [v]
  | _ => []

def PoolPc.channels : PoolPc → List ℕ
  | .write _ ch => [ch]
  | _ => []

/-- The visitors that wait, oldest first. -/
def State.waiting (s : State) : List Visitor :=
  s.pool.visitors ++ s.visitorRx ++ s.listener.visitors

/-- Data channels that are paired, at hand, or to be taken. -/
def State.channels (s : State) : List ℕ :=
  s.paired.map Pair.channel ++ s.pool.channels ++ s.dataChRx

/-- Accepted but not yet paired. -/
def State.unpaired (s : State) : List Visitor :=
  s.accepted.filter (fun v => v ∉ s.paired.map Pair.visitor)

structure Inv (s : State) : Prop where
  ids : s.accepted.map Visitor.id = List.range s.accepted.length
  /-- A channel at hand is the only one that was taken too many. -/
  requests : s.pool ≠ .ended → s.requests + s.pool.channels.length =
    s.taken + tcpPoolSize + s.waiting.length
  order : s.pool ≠ .ended →
    s.accepted = s.paired.map Pair.visitor ++ s.waiting ++ s.dropped
  paired : s.paired.map Pair.visitor <+: s.accepted
  channels : s.channels.Pairwise (· < ·)
  arrived : ∀ ch ∈ s.channels, ch < s.arrived
  cmd : ∀ p ∈ s.paired, p.cmd = p.visitor.cmd
  dropped : s.dropped = [] ∨
    s.dropped.length = 1 ∧ s.listener = .ended ∧ s.controlOpen = false
  last : s.dropped <:+ s.accepted

theorem inv_init : Inv init where
  ids := rfl
  requests _ := rfl
  order _ := rfl
  paired := List.nil_prefix
  channels := List.Pairwise.nil
  arrived := nofun
  cmd := nofun
  dropped := Or.inl rfl
  last := List.nil_suffix

section

variable {s t : State}

/-- Steps that move no visitor and no channel. -/
theorem Inv.idle (h : Inv s) {listener : ListenerPc} {controlOpen : Bool}
    {handleDropped : Bool} (hopen : s.controlOpen = false → controlOpen = false)
    (hlistener : listener.visitors = s.listener.visitors)
    (hended : s.listener = .ended → listener = .ended) :
    Inv { s with
      listener := listener
      controlOpen := controlOpen
      handleDropped := handleDropped } := by
  have hwaiting : State.waiting { s with
      listener := listener
      controlOpen := controlOpen
      handleDropped := handleDropped } = s.waiting := by
    unfold State.waiting
    rw [hlistener]
  refine { h with requests := ?_, order := ?_, dropped := ?_ }
  · rw [hwaiting]
    exact h.requests
  · rw [hwaiting]
    exact h.order
  · rcases h.dropped with hnil | ⟨hlen, hend, hclosed⟩
    · exact Or.inl hnil
    · exact Or.inr ⟨hlen, hended hend, hopen hclosed⟩

/-- The pool ends, and with it all waiting. -/
theorem Inv.end (h : Inv s) : Inv { s with pool := .ended } where
  ids := h.ids
  requests hne := absurd rfl hne
  order hne := absurd rfl hne
  paired := h.paired
  channels := by
    refine h.channels.sublist ?_
    unfold State.channels
    simp [PoolPc.channels]
  arrived ch hch := by
    apply h.arrived
    unfold State.channels at hch ⊢
    simp only [PoolPc.channels, List.append_nil, List.mem_append] at hch ⊢
    tauto
  cmd := h.cmd
  dropped := h.dropped
  last := h.last

theorem Inv.dropped_nil (h : Inv s) (hlistener : s.listener ≠ .ended) :
    s.dropped = [] := by
  rcases h.dropped with hnil | ⟨-, hend, -⟩
  · exact hnil
  · exact absurd hend hlistener

theorem Inv.ids_accept (h : Inv s) (peerAddr : Option SocketAddr) :
    let accepted := s.accepted ++ [Visitor.mk s.accepted.length peerAddr]
    accepted.map Visitor.id = List.range accepted.length := by
  dsimp only
  rw [List.map_append, h.ids, List.length_append, List.length_singleton,
    List.range_succ]
  rfl

theorem Inv.accepted (h : Inv s) (hlistener : s.listener = .select)
    (peerAddr : Option SocketAddr) :
    Inv { s with
      listener := .send ⟨s.accepted.length, peerAddr⟩
      requests := s.requests + 1
      accepted := s.accepted ++ [⟨s.accepted.length, peerAddr⟩] } := by
  have hnil := h.dropped_nil (by rw [hlistener]; nofun)
  refine { h with
    ids := h.ids_accept peerAddr
    requests := ?_
    order := ?_
    paired := h.paired.trans (List.prefix_append _ _)
    dropped := Or.inl hnil
    last := hnil ▸ List.nil_suffix }
  · intro hpool
    have hrequests := h.requests hpool
    simp only [State.waiting, hlistener, ListenerPc.visitors,
      List.length_append, List.length_nil, List.length_singleton]
      at hrequests ⊢
    omega
  · intro hpool
    have horder := h.order hpool
    simp only [State.waiting, hlistener, ListenerPc.visitors, hnil,
      List.append_nil] at horder ⊢
    rw [horder]
    simp

theorem Inv.refused (h : Inv s) (hlistener : s.listener = .select)
    (hclosed : s.controlOpen = false) (peerAddr : Option SocketAddr) :
    Inv { s with
      listener := .ended
      accepted := s.accepted ++ [⟨s.accepted.length, peerAddr⟩]
      dropped := s.dropped ++ [⟨s.accepted.length, peerAddr⟩] } := by
  have hnil := h.dropped_nil (by rw [hlistener]; nofun)
  refine { h with
    ids := h.ids_accept peerAddr
    requests := ?_
    order := ?_
    paired := h.paired.trans (List.prefix_append _ _)
    dropped := Or.inr ⟨by simp [hnil], rfl, hclosed⟩
    last := by simp [hnil] }
  · intro hpool
    have hrequests := h.requests hpool
    simpa only [State.waiting, hlistener, ListenerPc.visitors]
      using hrequests
  · intro hpool
    have horder := h.order hpool
    simp only [State.waiting, hlistener, ListenerPc.visitors, hnil,
      List.append_nil, List.nil_append] at horder ⊢
    rw [← horder]

/-- Nobody is left to receive the visitor. -/
theorem Inv.unheard (h : Inv s) {v : Visitor} (hlistener : s.listener = .send v)
    (hpool : s.pool = .ended) : Inv { s with listener := .select } where
  ids := h.ids
  requests hne := absurd hpool hne
  order hne := absurd hpool hne
  paired := h.paired
  channels := h.channels
  arrived := h.arrived
  cmd := h.cmd
  dropped := Or.inl (h.dropped_nil (by rw [hlistener]; nofun))
  last := h.last

/-- The visitor moves from the listener to the queue. -/
theorem Inv.queued (h : Inv s) {v : Visitor}
    (hlistener : s.listener = .send v) :
    Inv { s with listener := .select, visitorRx := s.visitorRx ++ [v] } := by
  have hwaiting : State.waiting { s with
      listener := .select, visitorRx := s.visitorRx ++ [v] } = s.waiting := by
    simp [State.waiting, hlistener, ListenerPc.visitors]
  refine { h with
    requests := ?_
    order := ?_
    dropped := Or.inl (h.dropped_nil (by rw [hlistener]; nofun)) }
  · rw [hwaiting]
    exact h.requests
  · rw [hwaiting]
    exact h.order

theorem Inv.recvVisitor (h : Inv s) {v : Visitor} {rest : List Visitor}
    (hpool : s.pool = .outer) (hrx : s.visitorRx = v :: rest) :
    Inv { s with pool := .inner v, visitorRx := rest } := by
  have hwaiting : State.waiting { s with
      pool := .inner v, visitorRx := rest } = s.waiting := by
    simp [State.waiting, hpool, hrx, PoolPc.visitors]
  have hchannels : State.channels { s with
      pool := .inner v, visitorRx := rest } = s.channels := by
    simp [State.channels, hpool, PoolPc.channels]
  refine { h with requests := ?_, order := ?_, channels := ?_, arrived := ?_ }
  · intro _
    have hrequests := h.requests (by rw [hpool]; nofun)
    rw [hpool] at hrequests
    rw [hwaiting]
    exact hrequests
  · intro _
    rw [hwaiting]
    exact h.order (by rw [hpool]; nofun)
  · rw [hchannels]
    exact h.channels
  · rw [hchannels]
    exact h.arrived

theorem Inv.recvChannel (h : Inv s) {v : Visitor} {ch : ℕ} {rest : List ℕ}
    (hpool : s.pool = .inner v) (hrx : s.dataChRx = ch :: rest) :
    Inv { s with
      pool := .write v ch, dataChRx := rest, taken := s.taken + 1 } := by
  have hchannels : State.channels { s with
      pool := .write v ch, dataChRx := rest, taken := s.taken + 1 } =
        s.channels := by
    simp [State.channels, hpool, hrx, PoolPc.channels]
  refine { h with requests := ?_, order := ?_, channels := ?_, arrived := ?_ }
  · intro _
    have hrequests := h.requests (by rw [hpool]; nofun)
    simp only [State.waiting, hpool, PoolPc.visitors, PoolPc.channels,
      List.length_append, List.length_nil, List.length_singleton]
      at hrequests ⊢
    omega
  · intro _
    have horder := h.order (by rw [hpool]; nofun)
    simpa only [State.waiting, hpool, PoolPc.visitors] using horder
  · rw [hchannels]
    exact h.channels
  · rw [hchannels]
    exact h.arrived

/-- The channel at hand takes the command. -/
theorem Inv.pair (h : Inv s) {v : Visitor} {ch : ℕ}
    (hpool : s.pool = .write v ch) :
    Inv { s with
      pool := .outer, paired := s.paired ++ [⟨v, ch, v.cmd⟩] } := by
  have hrequests := h.requests (by rw [hpool]; nofun)
  have horder := h.order (by rw [hpool]; nofun)
  have hchannels := h.channels
  have harrived := h.arrived
  simp only [State.waiting, hpool, PoolPc.visitors, PoolPc.channels,
    List.length_append, List.length_singleton] at hrequests horder
  unfold State.channels at hchannels harrived
  rw [hpool] at hchannels harrived
  refine { h with
    requests := ?_
    order := ?_
    paired := ?_
    channels := ?_
    arrived := ?_
    cmd := ?_ }
  · intro _
    simp only [State.waiting, PoolPc.visitors, PoolPc.channels,
      List.length_append, List.length_nil]
    omega
  · intro _
    rw [horder]
    simp [State.waiting, PoolPc.visitors]
  · rw [horder]
    simp
  · simpa [State.channels, PoolPc.channels] using hchannels
  · simpa [State.channels, PoolPc.channels] using harrived
  · intro p hp
    rcases List.mem_append.mp hp with hp | hp
    · exact h.cmd p hp
    · rw [List.mem_singleton.mp hp]

/-- The channel at hand is broken; a new one is asked for. -/
theorem Inv.broken (h : Inv s) {v : Visitor} {ch : ℕ}
    (hpool : s.pool = .write v ch) :
    Inv { s with pool := .inner v, requests := s.requests + 1 } := by
  have hrequests := h.requests (by rw [hpool]; nofun)
  have horder := h.order (by rw [hpool]; nofun)
  have hchannels := h.channels
  have harrived := h.arrived
  simp only [State.waiting, hpool, PoolPc.visitors, PoolPc.channels,
    List.length_append, List.length_singleton] at hrequests horder
  unfold State.channels at hchannels harrived
  rw [hpool] at hchannels harrived
  refine { h with
    requests := ?_
    order := fun _ => horder
    channels := ?_
    arrived := ?_ }
  · intro _
    simp only [State.waiting, PoolPc.visitors, PoolPc.channels,
      List.length_append, List.length_nil, List.length_singleton]
    omega
  · refine hchannels.sublist ?_
    simp [State.channels, PoolPc.channels]
  · intro c hc
    apply harrived
    simp only [State.channels, PoolPc.channels, List.append_nil,
      List.mem_append] at hc ⊢
    tauto

theorem Inv.dataChannel (h : Inv s) :
    Inv { s with
      dataChRx := s.dataChRx ++ [s.arrived], arrived := s.arrived + 1 } := by
  have hchannels : State.channels { s with
      dataChRx := s.dataChRx ++ [s.arrived], arrived := s.arrived + 1 } =
        s.channels ++ [s.arrived] := by
    simp [State.channels]
  refine { h with channels := ?_, arrived := ?_ }
  · rw [hchannels, List.pairwise_append]
    refine ⟨h.channels, List.pairwise_singleton _ _, ?_⟩
    intro ch hch ch' hch'
    rw [List.mem_singleton.mp hch']
    exact h.arrived ch hch
  · intro ch hch
    rw [hchannels] at hch
    show ch < s.arrived + 1
    rcases List.mem_append.mp hch with hch | hch
    · have hlt := h.arrived ch hch
      omega
    · rw [List.mem_singleton.mp hch]
      omega

/-- **Step lemma.** -/
theorem inv_step {a : Action} (h : Inv s) (hs : step s a = some t) : Inv t := by
  cases moves_of_step hs with
  | bound ok hlistener =>
      refine h.idle id ?_ (by rw [hlistener]; nofun)
      rw [hlistener]
      cases ok <;> rfl
  | accepted peerAddr hlistener _ => exact h.accepted hlistener peerAddr
  | refused peerAddr hlistener hclosed =>
      exact h.refused hlistener hclosed peerAddr
  | acceptError hlistener =>
      exact h.idle id (by rw [hlistener]; rfl) (by rw [hlistener]; nofun)
  | wake hlistener =>
      exact h.idle id (by rw [hlistener]; rfl) (by rw [hlistener]; nofun)
  | unheard hlistener hpool => exact h.unheard hlistener hpool
  | queued hlistener _ => exact h.queued hlistener
  | shutdown hlistener =>
      refine h.idle id ?_ (fun _ => rfl)
      rcases hlistener with hlistener | hlistener <;> rw [hlistener] <;> rfl
  | recvVisitor hpool hrx => exact h.recvVisitor hpool hrx
  | recvChannel hpool hrx => exact h.recvChannel hpool hrx
  | noVisitor _ => exact h.end
  | noChannel _ => exact h.end
  | unanswered _ => exact h.end
  | paired hpool => exact h.pair hpool
  | broken hpool => exact h.broken hpool
  | dataChannel => exact h.dataChannel
  | controlEnd => exact h.idle (fun _ => rfl) rfl id
  | dropHandle => exact h.idle id rfl id

/-- **Run lemma.** -/
theorem inv_run {as : List Action} (hrun : Run step init as s) : Inv s :=
  run_preserves (fun _ _ _ h hs => inv_step h hs) inv_init hrun

theorem Inv.nodup (h : Inv s) : s.accepted.Nodup := by
  apply List.Nodup.of_map Visitor.id
  rw [h.ids]
  exact List.nodup_range

/-- While the pool runs, the visitors not paired wait, or were dropped. -/
theorem Inv.unpaired (h : Inv s) (hpool : s.pool ≠ .ended) :
    s.unpaired = s.waiting ++ s.dropped := by
  have hnodup := h.nodup
  unfold State.unpaired
  rw [h.order hpool, List.append_assoc] at hnodup ⊢
  obtain ⟨-, -, hapart⟩ := List.nodup_append.mp hnodup
  have hpaired : (s.paired.map Pair.visitor).filter
      (fun v => v ∉ s.paired.map Pair.visitor) = [] := by
    rw [List.filter_eq_nil_iff]
    intro v hv
    rw [decide_eq_true_eq]
    exact fun hne => hne hv
  have hrest : (s.waiting ++ s.dropped).filter
      (fun v => v ∉ s.paired.map Pair.visitor) = s.waiting ++ s.dropped := by
    rw [List.filter_eq_self]
    intro v hv
    rw [decide_eq_true_eq]
    exact fun hmem => hapart v hmem v hv rfl
  rw [List.filter_append, hpaired, hrest, List.nil_append]

/-- While the control channel is open nobody is dropped. -/
theorem Inv.none_dropped (h : Inv s) (hopen : s.controlOpen = true) :
    s.dropped = [] := by
  rcases h.dropped with hnil | ⟨-, -, hclosed⟩
  · exact hnil
  · rw [hopen] at hclosed
    cases hclosed

end

end TcpPool

end Rathole
