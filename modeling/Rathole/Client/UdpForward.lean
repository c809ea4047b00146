import Rathole.Lib.RwLock
import Rathole.Lib.Runs
import Rathole.Protocol

/-!
# The client's UDP data channel

`run_data_channel_for_udp` reads the visitors' datagrams off the connection
and hands each to the forwarder of its visitor, a task of its own with a
socket and a bounded queue; `port_map` has the sender of the queue under the
visitor's address. A forwarder sends what it gets to the service, and what the
service answers to the outbound queue, until it has nothing to do for a while
or something fails.

A sender is named by the position of its forwarder in `forwarders`, the list
of all forwarders ever spawned. The main loop, the forwarders and the task
that writes the outbound queue to the server take their steps in any order;
`port_map` is behind a fair lock, and a task that waits for a guard or for room
in a queue makes no step.
-/

namespace Rathole.UdpForward

def udpSendqSize : Nat := 1024

inductive Task where
  | main
  | forwarder (f : Nat)
deriving DecidableEq

/-- Where the main loop stands. -/
inductive MainPc where
  /-- Reading a packet from the server. -/
  | read
  | lockRead (packet : UdpTraffic)
  | lockWrite (packet : UdpTraffic)
  /-- `udp_connect`, under the writer lock. -/
  | connect (packet : UdpTraffic)
  /-- The second reader lock, with the first one still in hand or not. -/
  | lockSend (packet : UdpTraffic) (kept : Bool)
  | send (packet : UdpTraffic) (f : Nat)
  | returned
deriving DecidableEq

inductive ForwarderPc where
  /-- At the `select!` of the loop. -/
  | select
  | send (data : Bytes)
  | reply (t : UdpTraffic)
  /-- Out of the loop, for the writer lock. -/
  | lock
  | finished
deriving DecidableEq

structure Forwarder where
  fromAddr : SocketAddr
  /-- `inbound_tx` to `inbound_rx`, oldest first. -/
  inbound : List Bytes
  pc : ForwarderPc

structure State where
  main : MainPc
  portMap : HashMap SocketAddr Nat
  lock : RwLock Task
  forwarders : List Forwarder
  outbound : List UdpTraffic
  /-- The task that writes to the server has ended. -/
  outboundClosed : Bool

inductive Event where
  /-- `inbound_rx.recv()` gives a datagram, or the end of the queue. -/
  | recv
  | closed
  /-- The socket has sent the datagram, or failed. -/
  | sent (ok : Bool)
  /-- `s.recv` gives an answer of the service, or fails. -/
  | reply (data : Bytes)
  | recvError
  | timeout
  /-- `outbound_tx.send` comes back. -/
  | push
  /-- Remove the entry, under the writer lock, and return. -/
  | remove
deriving DecidableEq

inductive Action where
  | packet (p : UdpTraffic)
  | readError
  /-- The data channel is cancelled: the main loop is dropped where it is. -/
  | cancel
  | main
  | connected (ok : Bool)
  | forwarder (f : Nat) (e : Event)
  /-- The outbound task writes to the server, or fails and ends. -/
  | write (ok : Bool)
deriving DecidableEq

def init : State where
  main := .read
  portMap := ∅
  lock := RwLock.new
  forwarders := []
  outbound := []
  outboundClosed := false

namespace State

def setForwarder (s : State) (f : Nat) (fw : Forwarder) : State :=
  { s with forwarders := s.forwarders.set f fw }

/-- The end of the loop's body, where its guards are dropped. -/
def endRound (s : State) : State :=
  { s with
    main := .read
    lock := s.lock.dropAll .main }

/-- Leave the loop and ask for the writer lock. -/
def leave (s : State) (f : Nat) (fw : Forwarder) : State :=
  { s with
    forwarders := s.forwarders.set f { fw with pc := .lock }
    lock := s.lock.request (.forwarder f) .write }

end State

/-- The steps of the main loop that nobody else decides. -/
def mainStep (s : State) : Option State :=
  match s.main with
  | .lockRead p =>
      if s.lock.waits .main then none
      else
        match s.portMap.lookup p.fromAddr with
        | some _ =>
            -- the guard lives to the end of the body: it is not dropped here
            some { s with
              main := .lockSend p true
              lock := s.lock.request .main .read }
        | none =>
            some { s with
              main := .lockWrite p
              lock := (s.lock.dropAll .main).request .main .write }
  | .lockWrite p =>
      if s.lock.waits .main then none
      else some { s with main := .connect p }
  | .lockSend p _ =>
      if s.lock.waits .main then none
      else
        match s.portMap.lookup p.fromAddr with
        | some f => some { s with main := .send p f }
        | none => some s.endRound
  | .send p f =>
      match s.forwarders[f]? with
      | none => none
      | some fw =>
          -- the receiver of a forwarder that has finished is gone
          if fw.pc = .finished then some s.endRound
          else if fw.inbound.length < udpSendqSize then
            some (s.setForwarder f
              { fw with inbound := fw.inbound ++ [p.data] }).endRound
          else none
  | _ => none

/-- What `udp_connect` leads to. -/
def connected (s : State) (p : UdpTraffic) (ok : Bool) : State :=
  let s := { s with
    main := .lockSend p false
    lock := (s.lock.dropAll .main).request .main .read }
  if ok then
    { s with
      portMap := AList.insert p.fromAddr s.forwarders.length s.portMap
      forwarders := s.forwarders ++ [⟨p.fromAddr, [], .select⟩] }
  else s

/-- A step of the forwarder `f`, which is `fw`. -/
def forwarderStep (s : State) (f : Nat) (fw : Forwarder) :
    Event → Option State
  | .recv =>
      match fw.pc, fw.inbound with
      | .select, data :: rest =>
          some (s.setForwarder f { fw with inbound := rest, pc := .send data })
      | _, _ => none
  | .closed =>
      if fw.pc = .select ∧ fw.inbound = [] ∧
          s.portMap.entries.all (fun e => decide (e.2 ≠ f)) = true then
        some (s.leave f fw)
      else none
  | .sent ok =>
      match fw.pc with
      | .send _ =>
          -- an error is returned at once
          some (s.setForwarder f
            { fw with pc := if ok then .select else .finished })
      | _ => none
  | .reply data =>
      if fw.pc = .select then
        some (s.setForwarder f
          { fw with pc := .reply ⟨fw.fromAddr, data.take udpBufferSize⟩ })
      else none
  | .recvError => if fw.pc = .select then some (s.leave f fw) else none
  | .timeout => if fw.pc = .select then some (s.leave f fw) else none
  | .push =>
      match fw.pc with
      | .reply t =>
          if s.outboundClosed then
            some (s.setForwarder f { fw with pc := .finished })
          else if s.outbound.length < udpSendqSize then
            some { s.setForwarder f { fw with pc := .select } with
              outbound := s.outbound ++ [t] }
          else none
      | _ => none
  | .remove =>
      if fw.pc = .lock ∧ s.lock.waits (.forwarder f) = false then
        some { s.setForwarder f { fw with pc := .finished } with
          portMap := AList.erase fw.fromAddr s.portMap
          lock := s.lock.dropAll (.forwarder f) }
      else none

def step (s : State) : Action → Option State
  | .packet p =>
      if s.main = .read then
        some { s with
          main := .lockRead p
          lock := s.lock.request .main .read }
      else none
  | .readError =>
      if s.main = .read then
        some { s with
          main := .returned
          lock := s.lock.dropAll .main }
      else none
  | .cancel =>
      some { s with
        main := .returned
        lock := s.lock.dropAll .main }
  | .main => mainStep s
  | .connected ok =>
      match s.main with
      | .connect p => some (connected s p ok)
      | _ => none
  | .forwarder f e =>
      match s.forwarders[f]? with
      | some fw => forwarderStep s f fw e
      | none => none
  | .write ok =>
      match s.outbound with
      | [] => none
      | _ :: rest =>
          if s.outboundClosed then none
          else if ok then some { s with outbound := rest }
          else some { s with outbound := [], outboundClosed := true }

/-! ## What a step can do -/

/-- A forwarder returns early, with its entry still in the map: its socket
fails to send, or nobody takes its answers any more. -/
inductive Abandons (s : State) : Action → Prop
  | send {f : Nat} {fw : Forwarder} {data : Bytes}
      (hfw : s.forwarders[f]? = some fw) (hpc : fw.pc = .send data) :
      Abandons s (.forwarder f (.sent false))
  | reply {f : Nat} {fw : Forwarder} {t : UdpTraffic}
      (hfw : s.forwarders[f]? = some fw) (hpc : fw.pc = .reply t)
      (hclosed : s.outboundClosed = true) :
      Abandons s (.forwarder f .push)

/-- The events with which a forwarder breaks out of its loop. -/
def Event.breaks : Event → Bool
  | .closed | .recvError | .timeout => true
  | _ => false

inductive Shape (s : State) : Action → State → Prop
  | packet {p : UdpTraffic} (hmain : s.main = .read) :
      Shape s (.packet p) { s with
        main := .lockRead p
        lock := s.lock.request .main .read }
  | returned {a : Action}
      (ha : a = .cancel ∨ (a = .readError ∧ s.main = .read)) :
      Shape s a { s with
        main := .returned
        lock := s.lock.dropAll .main }
  | found {p : UdpTraffic} {f : Nat} (hmain : s.main = .lockRead p)
      (hgot : s.lock.waits .main = false)
      (hentry : s.portMap.lookup p.fromAddr = some f) :
      Shape s .main { s with
        main := .lockSend p true
        lock := s.lock.request .main .read }
  | missing {p : UdpTraffic} (hmain : s.main = .lockRead p)
      (hgot : s.lock.waits .main = false)
      (hentry : s.portMap.lookup p.fromAddr = none) :
      Shape s .main { s with
        main := .lockWrite p
        lock := (s.lock.dropAll .main).request .main .write }
  | locked {p : UdpTraffic} (hmain : s.main = .lockWrite p)
      (hgot : s.lock.waits .main = false) :
      Shape s .main { s with main := .connect p }
  | connected {p : UdpTraffic} {ok : Bool} (hmain : s.main = .connect p) :
      Shape s (.connected ok) (connected s p ok)
  | chosen {p : UdpTraffic} {kept : Bool} {f : Nat}
      (hmain : s.main = .lockSend p kept) (hgot : s.lock.waits .main = false)
      (hentry : s.portMap.lookup p.fromAddr = some f) :
      Shape s .main { s with main := .send p f }
  | skipped {p : UdpTraffic}
      (hmain : (∃ kept, s.main = .lockSend p kept ∧
          s.portMap.lookup p.fromAddr = none) ∨ ∃ f, s.main = .send p f) :
      Shape s .main s.endRound
  | pushed {p : UdpTraffic} {f : Nat} {fw : Forwarder}
      (hmain : s.main = .send p f) (hfw : s.forwarders[f]? = some fw)
      (hlive : fw.pc ≠ .finished) :
      Shape s .main (s.setForwarder f
        { fw with inbound := fw.inbound ++ [p.data] }).endRound
  | inner {f : Nat} {e : Event} {fw fw' : Forwarder}
      {out : List UdpTraffic} (hfw : s.forwarders[f]? = some fw)
      (hlock : fw.pc ≠ .lock) (hlive : fw.pc ≠ .finished)
      (haddr : fw'.fromAddr = fw.fromAddr)
      (hqueue : fw'.inbound.length ≤ fw.inbound.length)
      (hlock' : fw'.pc ≠ .lock) (he : e.breaks = false)
      (hend : fw'.pc = .finished ↔ Abandons s (.forwarder f e)) :
      Shape s (.forwarder f e) { s.setForwarder f fw' with outbound := out }
  | leave {f : Nat} {e : Event} {fw : Forwarder}
      (hfw : s.forwarders[f]? = some fw) (hpc : fw.pc = .select)
      (he : e.breaks = true) (hclosed : e = .closed → fw.inbound = []) :
      Shape s (.forwarder f e) (s.leave f fw)
  | remove {f : Nat} {fw : Forwarder} (hfw : s.forwarders[f]? = some fw)
      (hpc : fw.pc = .lock) (hgot : s.lock.waits (.forwarder f) = false) :
      Shape s (.forwarder f .remove)
        { s.setForwarder f { fw with pc := .finished } with
          portMap := AList.erase fw.fromAddr s.portMap
          lock := s.lock.dropAll (.forwarder f) }
  | written {ok closed : Bool} {out : List UdpTraffic} :
      Shape s (.write ok)
        { s with outbound := out, outboundClosed := closed }

section

variable {s t : State}

theorem shape_mainStep (h : mainStep s = some t) : Shape s .main t := by
  unfold mainStep at h
  split at h
  · rename_i p hmain
    split at h
    · cases h
    · rename_i hgot
      rw [Bool.not_eq_true] at hgot
      split at h
      · rename_i f hentry
        cases h
        exact .found hmain hgot hentry
      · rename_i hentry
        cases h
        exact .missing hmain hgot hentry
  · rename_i p hmain
    split at h
    · cases h
    · rename_i hgot
      cases h
      exact .locked hmain (Bool.not_eq_true _ ▸ hgot)
  · rename_i p kept hmain
    split at h
    · cases h
    · rename_i hgot
      split at h
      · rename_i f hentry
        cases h
        exact .chosen hmain (Bool.not_eq_true _ ▸ hgot) hentry
      · rename_i hentry
        cases h
        exact .skipped (Or.inl ⟨kept, hmain, hentry⟩)
  · rename_i p f hmain
    split at h
    · cases h
    · rename_i fw hfw
      split at h
      · cases h
        exact .skipped (Or.inr ⟨f, hmain⟩)
      · rename_i hlive
        split at h
        · cases h
          exact .pushed hmain hfw hlive
        · cases h
  · cases h

theorem not_abandons {f : Nat} {e : Event} (hsent : e ≠ .sent false)
    (hpush : e ≠ .push) : ¬ Abandons s (.forwarder f e) := by
  intro h
  cases h with
  | send => exact hsent rfl
  | reply => exact hpush rfl

theorem shape_forwarderStep {f : Nat} {fw : Forwarder} {e : Event}
    (hfw : s.forwarders[f]? = some fw)
    (h : forwarderStep s f fw e = some t) : Shape s (.forwarder f e) t := by
  cases e with
  | recv =>
      simp only [forwarderStep] at h
      split at h
      · rename_i data rest hpc hqueue
        cases h
        refine .inner hfw (by simp [hpc]) (by simp [hpc])
          rfl (by simp [hqueue]) nofun rfl ?_
        exact iff_of_false nofun (not_abandons nofun nofun)
      · cases h
  | closed =>
      simp only [forwarderStep] at h
      split at h
      · rename_i hcond
        cases h
        exact .leave hfw hcond.1 rfl (fun _ => hcond.2.1)
      · cases h
  | sent ok =>
      simp only [forwarderStep] at h
      split at h
      · rename_i data hpc
        cases h
        refine .inner hfw (by simp [hpc]) (by simp [hpc])
          rfl (Nat.le_refl _) (by cases ok <;> exact nofun) rfl ?_
        cases ok with
        | false => exact iff_of_true rfl (.send hfw hpc)
        | true => exact iff_of_false nofun (not_abandons nofun nofun)
      · cases h
  | reply data =>
      simp only [forwarderStep] at h
      split at h
      · rename_i hpc
        cases h
        refine .inner hfw (by simp [hpc]) (by simp [hpc])
          rfl (Nat.le_refl _) nofun rfl ?_
        exact iff_of_false nofun (not_abandons nofun nofun)
      · cases h
  | recvError =>
      simp only [forwarderStep] at h
      split at h
      · rename_i hpc
        cases h
        exact .leave hfw hpc rfl nofun
      · cases h
  | timeout =>
      simp only [forwarderStep] at h
      split at h
      · rename_i hpc
        cases h
        exact .leave hfw hpc rfl nofun
      · cases h
  | push =>
      simp only [forwarderStep] at h
      split at h
      · rename_i r hpc
        split at h
        · rename_i hclosed
          cases h
          refine .inner hfw (by simp [hpc])
            (by simp [hpc]) rfl (Nat.le_refl _) nofun rfl ?_
          exact iff_of_true rfl (.reply hfw hpc hclosed)
        · rename_i hopen
          split at h
          · cases h
            refine .inner hfw (by simp [hpc])
              (by simp [hpc]) rfl (Nat.le_refl _) nofun rfl ?_
            refine iff_of_false nofun ?_
            intro habandons
            cases habandons with
            | reply _ _ hclosed => exact hopen hclosed
          · cases h
      · cases h
  | remove =>
      simp only [forwarderStep] at h
      split at h
      · rename_i hcond
        cases h
        exact .remove hfw hcond.1 hcond.2
      · cases h

theorem shape_step {a : Action} (h : step s a = some t) : Shape s a t := by
  cases a with
  | packet p =>
      simp only [step] at h
      split at h
      · rename_i hmain
        cases h
        exact .packet hmain
      · cases h
  | readError =>
      simp only [step] at h
      split at h
      · rename_i hmain
        cases h
        exact .returned (Or.inr ⟨rfl, hmain⟩)
      · cases h
  | cancel =>
      cases h
      exact .returned (Or.inl rfl)
  | main => exact shape_mainStep h
  | connected ok =>
      simp only [step] at h
      split at h
      · rename_i p hmain
        cases h
        exact .connected hmain
      · cases h
  | forwarder f e =>
      simp only [step] at h
      split at h
      · rename_i fw hfw
        exact shape_forwarderStep hfw h
      · cases h
  | write ok =>
      simp only [step] at h
      split at h
      · cases h
      · split at h
        · cases h
        · split at h
          · cases h
            exact .written
          · cases h
            exact .written

end

end Rathole.UdpForward
