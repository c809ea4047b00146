import Rathole.Client.ProxyProtocol
import Rathole.Lib.Relay
import Rathole.Lib.Runs

/-!
# Forwarding of a TCP service

From a visitor to the local service and back. The server's pool pairs a visitor
with a data channel, tells the client the visitor's address on it and copies in
both directions; the client connects to the local service, writes the PROXY
header if the service has one, and copies in both directions.

Each pair is a line of its own with three connections. Every task of a line may
fail at any time, and the client's task may be cancelled.

The data channel is one of the `tcp` transport (`TcpTransport`, in clear),
either direction of which can be shut down alone. A `UdpStream` is not: its
`poll_shutdown` closes both directions, so that a visitor who has no more to say
would lose the answer.
-/

namespace Rathole.TcpForward

open Codec Runs
open TcpPool (Visitor Pair)

/-- `run_data_channel`, behind its handshake. -/
inductive ClientPc where
  | readCmd
  /-- `TcpStream::connect(local_addr)`. -/
  | connect (realIp : ForwardAddr)
  /-- Connected from `localAddr`; the header is being written. -/
  | header (realIp : ForwardAddr) (localAddr : Option SocketAddr)
  | copy (localAddr : Option SocketAddr) (down up : Relay UInt8)
  | ended
deriving DecidableEq

/-- The visitor's connection, the data channel behind the hello, and the
connection to the local service: each is a `TcpStream`, with a pipe towards the
service and one towards the visitor. -/
structure Line where
  visitor : Visitor
  visitorUp : Pipe UInt8
  visitorDown : Pipe UInt8
  wireDown : Pipe UInt8
  wireUp : Pipe UInt8
  serviceIn : Pipe UInt8
  serviceOut : Pipe UInt8
  /-- The server's `copy_bidirectional`. -/
  serverDown : Relay UInt8
  serverUp : Relay UInt8
  serverFailed : Bool
  client : ClientPc
deriving DecidableEq

inductive Line.Action where
  | visitor (u : Pipe.Use UInt8)
  | service (u : Pipe.Use UInt8)
  | serverDown (op : Relay.Op)
  | serverUp (op : Relay.Op)
  | serverFail
  | readCmd
  | connected (localAddr : Option SocketAddr)
  /-- `write_all` of the header, or of its first `n` bytes. -/
  | wroteHeader (ok : Bool) (n : ℕ)
  | clientDown (op : Relay.Op)
  | clientUp (op : Relay.Op)
  | clientFail
deriving DecidableEq

/-- The channel has been told the visitor's address. -/
def Line.init (p : Pair) : Line where
  visitor := p.visitor
  visitorUp := .empty
  visitorDown := .empty
  wireDown := Pipe.empty.write (writePacketMessage p.cmd)
  wireUp := .empty
  serviceIn := .empty
  serviceOut := .empty
  serverDown := .start
  serverUp := .start
  serverFailed := false
  client := .readCmd

section

variable (compat : Bool) (service : ClientServiceConfig)

/-- The connections of the client's task are dropped. -/
def Line.endClient (l : Line) : Line :=
  { l with
    client := .ended
    wireUp := l.wireUp.close
    serviceIn := l.serviceIn.close }

def Line.step (l : Line) : Line.Action → Option Line
  | .visitor u =>
      (Pipe.use l.visitorUp l.visitorDown u).map (fun (out, inp) =>
        { l with visitorUp := out, visitorDown := inp })
  | .service u =>
      match l.client with
      | .readCmd | .connect _ => none   -- there is no connection yet
      | _ =>
          (Pipe.use l.serviceOut l.serviceIn u).map (fun (out, inp) =>
            { l with serviceOut := out, serviceIn := inp })
  | .serverDown op =>
      if l.serverFailed then none
      else (Relay.step l.visitorUp l.serverDown l.wireDown op).map
        (fun (src, r, dst) =>
          { l with visitorUp := src, serverDown := r, wireDown := dst })
  | .serverUp op =>
      if l.serverFailed then none
      else (Relay.step l.wireUp l.serverUp l.visitorDown op).map
        (fun (src, r, dst) =>
          { l with wireUp := src, serverUp := r, visitorDown := dst })
  | .serverFail =>
      some { l with
        serverFailed := true
        wireDown := l.wireDown.close
        visitorDown := l.visitorDown.close }
  | .readCmd =>
      match l.client, readPacketMessage.run [l.wireDown.unread] with
      | .readCmd, .ok (message, rest) =>
          let n := l.wireDown.unread.length - rest.flatten.length
          let l := { l with wireDown := l.wireDown.take n }
          match readDataCmd message with
          | .ok (.startForwardTcp realIp) =>
              if service.serviceType ≠ .tcp then some l.endClient
              else some { l with client := .connect realIp }
          | .ok (.startForwardUdp _) =>
              -- a server with another service type: not on this line
              if service.serviceType ≠ .udp then some l.endClient else none
          | .error _ => some l.endClient
      | .readCmd, .error _ =>
          if l.wireDown.closed then some l.endClient else none
      | _, _ => none
  | .connected localAddr =>
      match l.client with
      | .connect realIp => some { l with client := .header realIp localAddr }
      | _ => none
  | .wroteHeader ok n =>
      match l.client with
      | .header realIp localAddr =>
          let header :=
            proxyHeader compat service.proxyProtocol realIp localAddr
          if ok then
            some { l with
              client := .copy localAddr .start .start
              serviceIn := l.serviceIn.write header }
          else
            some { l with
              serviceIn := l.serviceIn.write (header.take n) }.endClient
      | _ => none
  | .clientDown op =>
      match l.client with
      | .copy localAddr down up =>
          (Relay.step l.wireDown down l.serviceIn op).map (fun (src, r, dst) =>
            { l with
              wireDown := src, serviceIn := dst
              client := .copy localAddr r up })
      | _ => none
  | .clientUp op =>
      match l.client with
      | .copy localAddr down up =>
          (Relay.step l.serviceOut up l.wireUp op).map (fun (src, r, dst) =>
            { l with
              serviceOut := src, wireUp := dst
              client := .copy localAddr down r })
      | _ => none
  | .clientFail => some l.endClient

end

/-! ## One line -/

/-- What the server sends for a visitor. -/
def frame (v : Visitor) : Bytes := writePacketMessage v.cmd

def forwardAddr (v : Visitor) : ForwardAddr :=
  .ofSocketAddr (v.peerAddr.getD (.v4 (.replicate 4 0) 0))

/-- What the local service reads before the visitor's bytes. -/
def head (compat : Bool) (service : ClientServiceConfig) (v : Visitor)
    (localAddr : Option SocketAddr) : Bytes :=
  proxyHeader compat service.proxyProtocol (forwardAddr v) localAddr

/-- One direction of a `copy_bidirectional`, at work unless it has failed. -/
structure Hop (failed : Bool) (skip pre : Bytes) (src : Pipe UInt8)
    (r : Relay UInt8) (dst : Pipe UInt8) : Prop where
  carried : Relay.Carried skip pre src dst
  carries : failed = false → Relay.Carries skip pre src r dst

theorem Hop.congr {failed : Bool} {skip pre : Bytes}
    {src src' dst dst' : Pipe UInt8} {r : Relay UInt8}
    (h : Hop failed skip pre src r dst) (hrecv : src'.received = src.received)
    (hend : src'.ended = src.ended) (hsent : dst'.sent = dst.sent)
    (hclosed : dst'.closed = dst.closed) : Hop failed skip pre src' r dst' where
  carried := h.carried.congr (hrecv ▸ List.prefix_refl _) hsent
  carries hok := (h.carries hok).congr hrecv hend hsent hclosed

theorem Hop.step {skip pre : Bytes} {src src' dst dst' : Pipe UInt8}
    {r r' : Relay UInt8} {op : Relay.Op} (h : Hop false skip pre src r dst)
    (hs : Relay.step src r dst op = some (src', r', dst')) :
    Hop false skip pre src' r' dst' ∧ Relay.Touches src src' dst dst' := by
  obtain ⟨hcarries, htouches⟩ := Relay.step_spec (h.carries rfl) hs
  exact ⟨⟨hcarries.carried, fun _ => hcarries⟩, htouches⟩

/-- A hop that fails; its destination is closed. -/
theorem Hop.fail {failed : Bool} {skip pre : Bytes} {src dst : Pipe UInt8}
    {r : Relay UInt8} (h : Hop failed skip pre src r dst) :
    Hop true skip pre src r dst.close where
  carried := h.carried.congr (List.prefix_refl _) rfl
  carries hok := by cases hok

namespace Line

/-- The pipes and what the server copies. -/
structure Pipes (l : Line) : Prop where
  visitorUp : l.visitorUp.Ok
  visitorDown : l.visitorDown.Ok
  wireDown : l.wireDown.Ok
  wireUp : l.wireUp.Ok
  serviceIn : l.serviceIn.Ok
  serviceOut : l.serviceOut.Ok
  down : Hop l.serverFailed [] (frame l.visitor) l.visitorUp l.serverDown
    l.wireDown
  up : Hop l.serverFailed [] [] l.wireUp l.serverUp l.visitorDown

/-- The client has read `read`, and nothing has gone through its hands yet. -/
structure Fresh (read : Bytes) (l : Line) : Prop where
  wireDown : l.wireDown.received = read ∧ l.wireDown.ended = false
  serviceIn : l.serviceIn.sent = [] ∧ l.serviceIn.closed = false
  serviceOut : l.serviceOut.received = [] ∧ l.serviceOut.ended = false
  wireUp : l.wireUp.sent = [] ∧ l.wireUp.closed = false

section

variable (compat : Bool) (service : ClientServiceConfig)

/-- What has gone through the hands of a client that has ended. -/
structure Ended (l : Line) : Prop where
  down : ∃ localAddr,
    l.serviceIn.sent <+: head compat service l.visitor localAddr ∨
      Relay.Carried (frame l.visitor) (head compat service l.visitor localAddr)
        l.wireDown l.serviceIn
  up : Relay.Carried [] [] l.serviceOut l.wireUp

def ClientOk (l : Line) : Prop :=
  match l.client with
  | .readCmd => l.Fresh []
  | .connect realIp =>
      l.Fresh (frame l.visitor) ∧ realIp = forwardAddr l.visitor
  | .header realIp _ =>
      l.Fresh (frame l.visitor) ∧ realIp = forwardAddr l.visitor
  | .copy localAddr down up =>
      Relay.Carries (frame l.visitor) (head compat service l.visitor localAddr)
        l.wireDown down l.serviceIn ∧
      Relay.Carries [] [] l.serviceOut up l.wireUp
  | .ended => l.Ended compat service

structure Inv (l : Line) : Prop where
  pipes : l.Pipes
  client : l.ClientOk compat service

end

variable {compat : Bool} {service : ClientServiceConfig} {l l' : Line}

/-- Nothing that the client does or knows is touched. -/
structure Alike (l l' : Line) : Prop where
  client : l'.client = l.client
  visitor : l'.visitor = l.visitor
  wireDown : l'.wireDown.received = l.wireDown.received ∧
    l'.wireDown.ended = l.wireDown.ended
  serviceIn : l'.serviceIn.sent = l.serviceIn.sent ∧
    l'.serviceIn.closed = l.serviceIn.closed
  serviceOut : l'.serviceOut.received = l.serviceOut.received ∧
    l'.serviceOut.ended = l.serviceOut.ended
  wireUp : l'.wireUp.sent = l.wireUp.sent ∧
    l'.wireUp.closed = l.wireUp.closed

theorem Fresh.congr {read : Bytes} (h : l.Fresh read) (hsame : Alike l l') :
    l'.Fresh read where
  wireDown := by
    rw [hsame.wireDown.1, hsame.wireDown.2]
    exact h.wireDown
  serviceIn := by
    rw [hsame.serviceIn.1, hsame.serviceIn.2]
    exact h.serviceIn
  serviceOut := by
    rw [hsame.serviceOut.1, hsame.serviceOut.2]
    exact h.serviceOut
  wireUp := by
    rw [hsame.wireUp.1, hsame.wireUp.2]
    exact h.wireUp

theorem Ended.congr (h : l.Ended compat service)
    (hvisitor : l'.visitor = l.visitor)
    (hread : l'.wireDown.received = l.wireDown.received)
    (hin : l'.serviceIn.sent = l.serviceIn.sent)
    (hout : l'.serviceOut.received = l.serviceOut.received)
    (hup : l'.wireUp.sent = l.wireUp.sent) : l'.Ended compat service where
  down := by
    obtain ⟨localAddr, hdown⟩ := h.down
    refine ⟨localAddr, ?_⟩
    rw [hvisitor, hin]
    exact hdown.imp id
      (fun h => h.congr (hread ▸ List.prefix_refl _) hin)
  up := h.up.congr (hout ▸ List.prefix_refl _) hup

theorem ClientOk.congr (h : l.ClientOk compat service) (hsame : Alike l l') :
    l'.ClientOk compat service := by
  unfold ClientOk at h ⊢
  rw [hsame.client, hsame.visitor]
  generalize l.client = pc at h ⊢
  cases pc with
  | readCmd => exact h.congr hsame
  | connect realIp => exact ⟨h.1.congr hsame, h.2⟩
  | header realIp localAddr => exact ⟨h.1.congr hsame, h.2⟩
  | copy localAddr down up =>
      exact ⟨h.1.congr hsame.wireDown.1 hsame.wireDown.2 hsame.serviceIn.1
          hsame.serviceIn.2,
        h.2.congr hsame.serviceOut.1 hsame.serviceOut.2 hsame.wireUp.1
          hsame.wireUp.2⟩
  | ended =>
      exact h.congr hsame.visitor hsame.wireDown.1 hsame.serviceIn.1
        hsame.serviceOut.1 hsame.wireUp.1

theorem Fresh.end {read : Bytes} (h : l.Fresh read) :
    l.Ended compat service where
  down := ⟨none, Or.inl (h.serviceIn.1 ▸ List.nil_prefix)⟩
  up := ⟨[], List.nil_prefix, h.wireUp.1⟩

theorem ClientOk.end (h : l.ClientOk compat service) :
    l.Ended compat service := by
  unfold ClientOk at h
  generalize l.client = pc at h
  cases pc with
  | readCmd => exact h.end
  | connect realIp => exact h.1.end
  | header realIp localAddr => exact h.1.end
  | copy localAddr down up =>
      exact ⟨⟨localAddr, Or.inr h.1.carried⟩, h.2.carried⟩
  | ended => exact h

/-- The client's task ends. -/
theorem Inv.endClient (h : l.Pipes) (hended : l.Ended compat service) :
    l.endClient.Inv compat service where
  pipes := { h with
    wireUp := h.wireUp.close
    serviceIn := h.serviceIn.close
    up := h.up.congr rfl rfl rfl rfl }
  client := hended.congr rfl rfl rfl rfl rfl

/-! ### Steps -/

theorem inv_init (p : Pair) (hcmd : p.cmd = p.visitor.cmd) :
    (init p).Inv compat service where
  pipes := {
    visitorUp := Pipe.ok_empty
    visitorDown := Pipe.ok_empty
    wireDown := Pipe.ok_empty.write rfl _
    wireUp := Pipe.ok_empty
    serviceIn := Pipe.ok_empty
    serviceOut := Pipe.ok_empty
    down := by
      have hstart : Relay.Carries [] (frame p.visitor) Pipe.empty .start
          (Pipe.empty.write (writePacketMessage p.cmd)) :=
        Relay.carries_start rfl rfl (by rw [hcmd]; rfl) rfl
      exact ⟨hstart.carried, fun _ => hstart⟩
    up := by
      have hstart : Relay.Carries ([] : Bytes) [] Pipe.empty .start
          Pipe.empty := Relay.carries_start rfl rfl rfl rfl
      exact ⟨hstart.carried, fun _ => hstart⟩ }
  client := ⟨⟨rfl, rfl⟩, ⟨rfl, rfl⟩, ⟨rfl, rfl⟩, ⟨rfl, rfl⟩⟩

/-- The two ends and the server's copies do not touch what the client does. -/
theorem Inv.alike (h : l.Inv compat service) (hpipes : l'.Pipes)
    (hsame : Alike l l') : l'.Inv compat service :=
  ⟨hpipes, h.client.congr hsame⟩

theorem Inv.useVisitor (h : l.Inv compat service) {u : Pipe.Use UInt8}
    (hs : l.step compat service (.visitor u) = some l') :
    l'.Inv compat service := by
  obtain ⟨⟨out, inp⟩, huse, rfl⟩ := Option.map_eq_some_iff.mp hs
  have hused := Pipe.use_spec huse
  refine h.alike { h.pipes with
    visitorUp := hused.outOk h.pipes.visitorUp
    visitorDown := hused.inOk h.pipes.visitorDown
    down := h.pipes.down.congr hused.outReceived hused.outEnded rfl rfl
    up := h.pipes.up.congr rfl rfl hused.inSent hused.inClosed } ?_
  exact ⟨rfl, rfl, ⟨rfl, rfl⟩, ⟨rfl, rfl⟩, ⟨rfl, rfl⟩, ⟨rfl, rfl⟩⟩

theorem Inv.useService (h : l.Inv compat service) {u : Pipe.Use UInt8}
    (hs : l.step compat service (.service u) = some l') :
    l'.Inv compat service := by
  have hmap : (Pipe.use l.serviceOut l.serviceIn u).map (fun (out, inp) =>
      { l with serviceOut := out, serviceIn := inp }) = some l' := by
    simp only [step] at hs
    split at hs
    · cases hs
    · cases hs
    · exact hs
  obtain ⟨⟨out, inp⟩, huse, rfl⟩ := Option.map_eq_some_iff.mp hmap
  have hused := Pipe.use_spec huse
  refine h.alike { h.pipes with
    serviceOut := hused.outOk h.pipes.serviceOut
    serviceIn := hused.inOk h.pipes.serviceIn } ?_
  exact ⟨rfl, rfl, ⟨rfl, rfl⟩, ⟨hused.inSent, hused.inClosed⟩,
    ⟨hused.outReceived, hused.outEnded⟩, ⟨rfl, rfl⟩⟩

theorem Inv.serverDown (h : l.Inv compat service) {op : Relay.Op}
    (hs : l.step compat service (.serverDown op) = some l') :
    l'.Inv compat service := by
  simp only [step] at hs
  split at hs
  · cases hs
  · rename_i hfailed
    have hfailed := Bool.not_eq_true _ ▸ hfailed
    obtain ⟨⟨src, r, dst⟩, hrelay, rfl⟩ := Option.map_eq_some_iff.mp hs
    obtain ⟨hhop, htouch⟩ := (hfailed ▸ h.pipes.down).step hrelay
    refine h.alike { h.pipes with
      visitorUp := htouch.srcOk h.pipes.visitorUp
      wireDown := htouch.dstOk h.pipes.wireDown
      down := by rw [hfailed]; exact hhop } ?_
    exact ⟨rfl, rfl, ⟨htouch.dstReceived, htouch.dstEnded⟩, ⟨rfl, rfl⟩,
      ⟨rfl, rfl⟩, ⟨rfl, rfl⟩⟩

theorem Inv.serverUp (h : l.Inv compat service) {op : Relay.Op}
    (hs : l.step compat service (.serverUp op) = some l') :
    l'.Inv compat service := by
  simp only [step] at hs
  split at hs
  · cases hs
  · rename_i hfailed
    have hfailed := Bool.not_eq_true _ ▸ hfailed
    obtain ⟨⟨src, r, dst⟩, hrelay, rfl⟩ := Option.map_eq_some_iff.mp hs
    obtain ⟨hhop, htouch⟩ := (hfailed ▸ h.pipes.up).step hrelay
    refine h.alike { h.pipes with
      wireUp := htouch.srcOk h.pipes.wireUp
      visitorDown := htouch.dstOk h.pipes.visitorDown
      up := by rw [hfailed]; exact hhop } ?_
    exact ⟨rfl, rfl, ⟨rfl, rfl⟩, ⟨rfl, rfl⟩, ⟨rfl, rfl⟩,
      ⟨htouch.srcSent, htouch.srcClosed⟩⟩

theorem Inv.serverFail (h : l.Inv compat service)
    (hs : l.step compat service .serverFail = some l') :
    l'.Inv compat service := by
  cases hs
  refine h.alike { h.pipes with
    wireDown := h.pipes.wireDown.close
    visitorDown := h.pipes.visitorDown.close
    down := h.pipes.down.fail
    up := h.pipes.up.fail } ?_
  exact ⟨rfl, rfl, ⟨rfl, rfl⟩, ⟨rfl, rfl⟩, ⟨rfl, rfl⟩, ⟨rfl, rfl⟩⟩

/-- The client reads the command, and no byte more. -/
theorem Inv.readCmd (h : l.Inv compat service)
    (hs : l.step compat service .readCmd = some l') :
    l'.Inv compat service := by
  have hclient := h.client
  unfold ClientOk at hclient
  simp only [step] at hs
  split at hs
  · rename_i message rest hpc hread
    rw [hpc] at hclient
    have hfresh : l.Fresh [] := hclient
    obtain ⟨tail, hunread⟩ : ∃ tail,
        l.wireDown.unread = frame l.visitor ++ tail := by
      obtain ⟨moved, -, hsent⟩ := h.pipes.down.carried
      refine ⟨moved, ?_⟩
      rw [← hsent, ← h.pipes.wireDown.unread, hfresh.wireDown.1]
      rfl
    have hreads : Reads readPacketMessage (frame l.visitor) l.visitor.cmd :=
      reads_readPacketMessage (length_encode_dataCommand_lt _)
    obtain ⟨rest', hrun, hrest⟩ := hreads.whole [l.wireDown.unread] tail
      (by rw [List.flatten_singleton, hunread])
    cases hread.symm.trans hrun
    have htake : l.wireDown.take
        (l.wireDown.unread.length - rest.flatten.length) =
        { l.wireDown with received := frame l.visitor } := by
      unfold Pipe.take
      rw [hrest, hunread, List.length_append, Nat.add_sub_cancel,
        List.take_left, hfresh.wireDown.1, List.nil_append]
    have hpipes : Pipes { l with wireDown :=
        { l.wireDown with received := frame l.visitor } } := by
      rw [← htake]
      exact { h.pipes with
        wireDown := h.pipes.wireDown.take _
        down := h.pipes.down.congr rfl rfl rfl rfl }
    have hfresh' : Fresh (frame l.visitor) { l with wireDown :=
        { l.wireDown with received := frame l.visitor } } :=
      { hfresh with wireDown := ⟨rfl, hfresh.wireDown.2⟩ }
    rw [htake] at hs
    have hcmd : readDataCmd l.visitor.cmd =
        .ok (.startForwardTcp (forwardAddr l.visitor)) := rfl
    rw [hcmd] at hs
    dsimp only at hs
    split at hs
    · cases hs
      exact Inv.endClient hpipes hfresh'.end
    · cases hs
      exact ⟨{ hpipes with }, ⟨{ hfresh' with }, rfl⟩⟩
  · split at hs
    · cases hs
      exact Inv.endClient h.pipes h.client.end
    · cases hs
  · cases hs

theorem Inv.connected (h : l.Inv compat service)
    {localAddr : Option SocketAddr}
    (hs : l.step compat service (.connected localAddr) = some l') :
    l'.Inv compat service := by
  have hclient := h.client
  unfold ClientOk at hclient
  simp only [step] at hs
  split at hs
  · rename_i realIp hpc
    rw [hpc] at hclient
    cases hs
    exact ⟨{ h.pipes with }, ⟨{ hclient.1 with }, hclient.2⟩⟩
  · cases hs

theorem Inv.wroteHeader (h : l.Inv compat service) {ok : Bool} {n : ℕ}
    (hs : l.step compat service (.wroteHeader ok n) = some l') :
    l'.Inv compat service := by
  have hclient := h.client
  unfold ClientOk at hclient
  simp only [step] at hs
  split at hs
  · rename_i realIp localAddr hpc
    rw [hpc] at hclient
    obtain ⟨hfresh, rfl⟩ := hclient
    have hin (as : Bytes) : (l.serviceIn.write as).sent = as := by
      show l.serviceIn.sent ++ as = as
      rw [hfresh.serviceIn.1, List.nil_append]
    split at hs
    · cases hs
      refine ⟨{ h.pipes with
        serviceIn := h.pipes.serviceIn.write hfresh.serviceIn.2 _ }, ?_⟩
      exact ⟨Relay.carries_start hfresh.wireDown.1 hfresh.wireDown.2 (hin _)
          hfresh.serviceIn.2,
        Relay.carries_start hfresh.serviceOut.1 hfresh.serviceOut.2
          hfresh.wireUp.1 hfresh.wireUp.2⟩
    · cases hs
      refine Inv.endClient { h.pipes with
        serviceIn := h.pipes.serviceIn.write hfresh.serviceIn.2 _ } ?_
      refine ⟨⟨localAddr, Or.inl ?_⟩, ⟨[], List.nil_prefix, hfresh.wireUp.1⟩⟩
      rw [hin]
      exact List.take_prefix _ _
  · cases hs

theorem Inv.clientDown (h : l.Inv compat service) {op : Relay.Op}
    (hs : l.step compat service (.clientDown op) = some l') :
    l'.Inv compat service := by
  have hclient := h.client
  unfold ClientOk at hclient
  simp only [step] at hs
  split at hs
  · rename_i localAddr down up hpc
    rw [hpc] at hclient
    obtain ⟨⟨src, r, dst⟩, hrelay, rfl⟩ := Option.map_eq_some_iff.mp hs
    obtain ⟨hcarries, htouch⟩ := Relay.step_spec hclient.1 hrelay
    exact ⟨{ h.pipes with
      wireDown := htouch.srcOk h.pipes.wireDown
      serviceIn := htouch.dstOk h.pipes.serviceIn
      down := h.pipes.down.congr rfl rfl htouch.srcSent htouch.srcClosed },
      ⟨hcarries, hclient.2⟩⟩
  · cases hs

theorem Inv.clientUp (h : l.Inv compat service) {op : Relay.Op}
    (hs : l.step compat service (.clientUp op) = some l') :
    l'.Inv compat service := by
  have hclient := h.client
  unfold ClientOk at hclient
  simp only [step] at hs
  split at hs
  · rename_i localAddr down up hpc
    rw [hpc] at hclient
    obtain ⟨⟨src, r, dst⟩, hrelay, rfl⟩ := Option.map_eq_some_iff.mp hs
    obtain ⟨hcarries, htouch⟩ := Relay.step_spec hclient.2 hrelay
    exact ⟨{ h.pipes with
      serviceOut := htouch.srcOk h.pipes.serviceOut
      wireUp := htouch.dstOk h.pipes.wireUp
      up := h.pipes.up.congr htouch.dstReceived htouch.dstEnded rfl rfl },
      ⟨hclient.1, hcarries⟩⟩
  · cases hs

/-- **Step lemma.** -/
theorem Inv.step {a : Action} (h : l.Inv compat service)
    (hs : l.step compat service a = some l') : l'.Inv compat service := by
  cases a with
  | visitor u => exact h.useVisitor hs
  | service u => exact h.useService hs
  | serverDown op => exact h.serverDown hs
  | serverUp op => exact h.serverUp hs
  | serverFail => exact h.serverFail hs
  | readCmd => exact h.readCmd hs
  | connected localAddr => exact h.connected hs
  | wroteHeader ok n => exact h.wroteHeader hs
  | clientDown op => exact h.clientDown hs
  | clientUp op => exact h.clientUp hs
  | clientFail =>
      cases hs
      exact Inv.endClient h.pipes h.client.end

/-! ### What the invariant says -/

/-- The four copies of a line have nothing left to do. -/
structure AtRest (l : Line) (down up : Relay UInt8) : Prop where
  serverDown : Relay.AtRest l.visitorUp l.serverDown l.wireDown
  serverUp : Relay.AtRest l.wireUp l.serverUp l.visitorDown
  clientDown : Relay.AtRest l.wireDown down l.serviceIn
  clientUp : Relay.AtRest l.serviceOut up l.wireUp

/-- From a visitor to the service and back, as if they were connected, but for
the header. -/
structure Transparent (compat : Bool) (service : ClientServiceConfig)
    (l : Line) : Prop where
  down : ∃ localAddr, l.serviceIn.received <+:
    head compat service l.visitor localAddr ++ l.visitorUp.sent
  up : l.visitorDown.received <+: l.serviceOut.sent
  /-- Unless a task has failed, an end means that all has arrived. -/
  ended : ∀ localAddr down up, l.client = .copy localAddr down up →
    l.serverFailed = false →
    (l.serviceIn.ended = true → l.visitorUp.closed = true ∧
      l.serviceIn.received =
        head compat service l.visitor localAddr ++ l.visitorUp.sent) ∧
    (l.visitorDown.ended = true → l.serviceOut.closed = true ∧
      l.visitorDown.received = l.serviceOut.sent)
  /-- Nothing is kept back. -/
  rest : ∀ localAddr down up, l.client = .copy localAddr down up →
    l.serverFailed = false → l.AtRest down up →
    (l.serviceIn.sent =
        head compat service l.visitor localAddr ++ l.visitorUp.sent ∧
      l.serviceIn.closed = l.visitorUp.closed) ∧
    (l.visitorDown.sent = l.serviceOut.sent ∧
      l.visitorDown.closed = l.serviceOut.closed)

theorem Ended.received (h : l.Ended compat service) (hpipes : l.Pipes) :
    ∃ localAddr, l.serviceIn.received <+:
      head compat service l.visitor localAddr ++ l.visitorUp.sent := by
  obtain ⟨localAddr, hpart | hcarried⟩ := h.down
  · exact ⟨localAddr, (hpipes.serviceIn.fifo.trans hpart).trans
      (List.prefix_append _ _)⟩
  · exact ⟨localAddr, hpipes.down.carried.chain hcarried hpipes.visitorUp
      hpipes.wireDown hpipes.serviceIn⟩

theorem Inv.transparent (h : l.Inv compat service) :
    l.Transparent compat service where
  down := h.client.end.received h.pipes
  up := h.client.end.up.chain h.pipes.up.carried h.pipes.serviceOut
    h.pipes.wireUp h.pipes.visitorDown
  ended := by
    intro localAddr down up hpc hfailed
    have hclient := h.client
    unfold ClientOk at hclient
    rw [hpc] at hclient
    constructor
    · exact (h.pipes.down.carries hfailed).chain_ended hclient.1
        h.pipes.visitorUp h.pipes.wireDown h.pipes.serviceIn
    · exact hclient.2.chain_ended (h.pipes.up.carries hfailed)
        h.pipes.serviceOut h.pipes.wireUp h.pipes.visitorDown
  rest := by
    intro localAddr down up hpc hfailed hrest
    have hclient := h.client
    unfold ClientOk at hclient
    rw [hpc] at hclient
    constructor
    · exact (h.pipes.down.carries hfailed).chain_rest hclient.1
        h.pipes.visitorUp h.pipes.wireDown hrest.serverDown hrest.clientDown
    · exact hclient.2.chain_rest (h.pipes.up.carries hfailed)
        h.pipes.serviceOut h.pipes.wireUp hrest.clientUp hrest.serverUp

end Line

/-! ## All lines -/

structure State where
  pool : TcpPool.State
  /-- The `n`th line is that of the `n`th pair. -/
  lines : List Line

inductive Action where
  | pool (a : TcpPool.Action)
  | line (n : ℕ) (a : Line.Action)

def init : State := ⟨TcpPool.init, []⟩

def step (compat : Bool) (service : ClientServiceConfig) (s : State) :
    Action → Option State
  | .pool a =>
      (TcpPool.step s.pool a).map (fun pool =>
        { pool := pool
          lines := s.lines ++
            (pool.paired.drop s.pool.paired.length).map Line.init })
  | .line n a =>
      match s.lines[n]? with
      | some l => (l.step compat service a).map
          (fun l => { s with lines := s.lines.set n l })
      | none => none

section

variable {compat : Bool} {service : ClientServiceConfig} {s t : State}

/-- Each pair has its line. -/
structure Inv (compat : Bool) (service : ClientServiceConfig) (s : State) :
    Prop where
  pool : TcpPool.Inv s.pool
  lines : s.lines.map Line.visitor = s.pool.paired.map Pair.visitor
  each : ∀ l ∈ s.lines, l.Inv compat service

theorem inv_init : Inv compat service init where
  pool := TcpPool.inv_init
  lines := rfl
  each _ hl := by cases hl

/-- The pool only adds to its pairs. -/
theorem paired_of_step {p q : TcpPool.State} {a : TcpPool.Action}
    (hs : TcpPool.step p a = some q) :
    q.paired = p.paired ++ q.paired.drop p.paired.length := by
  have hpre : p.paired <+: q.paired := by
    cases TcpPool.moves_of_step hs with
    | paired _ => exact List.prefix_append _ _
    | _ => exact List.prefix_refl _
  obtain ⟨rest, hrest⟩ := hpre
  rw [← hrest, List.drop_left]

theorem Line.visitor_of_step {l l' : Line} {a : Line.Action}
    (hs : l.step compat service a = some l') : l'.visitor = l.visitor := by
  cases a with
  | visitor u =>
      obtain ⟨x, -, rfl⟩ := Option.map_eq_some_iff.mp hs
      rfl
  | service u =>
      simp only [Line.step] at hs
      split at hs
      · cases hs
      · cases hs
      · obtain ⟨x, -, rfl⟩ := Option.map_eq_some_iff.mp hs
        rfl
  | serverFail =>
      cases hs
      rfl
  | readCmd =>
      simp only [Line.step] at hs
      split at hs
      · split at hs
        · split at hs <;> cases hs <;> rfl
        · split at hs <;> cases hs
          rfl
        · cases hs
          rfl
      · split at hs <;> cases hs
        rfl
      · cases hs
  | connected localAddr =>
      simp only [Line.step] at hs
      split at hs <;> cases hs
      rfl
  | wroteHeader ok n =>
      simp only [Line.step] at hs
      split at hs
      · split at hs <;> cases hs <;> rfl
      · cases hs
  | clientFail =>
      cases hs
      rfl
  | _ =>
      simp only [Line.step] at hs
      split at hs
      all_goals first
        | cases hs
        | (obtain ⟨x, -, rfl⟩ := Option.map_eq_some_iff.mp hs; rfl)

/-- **Step lemma.** -/
theorem Inv.step {a : Action} (h : Inv compat service s)
    (hs : step compat service s a = some t) : Inv compat service t := by
  cases a with
  | pool a =>
      obtain ⟨pool, hpool, rfl⟩ := Option.map_eq_some_iff.mp hs
      have hinv := TcpPool.inv_step h.pool hpool
      have hpaired := paired_of_step hpool
      refine ⟨hinv, ?_, ?_⟩
      · dsimp only
        conv_rhs => rw [hpaired, List.map_append]
        rw [List.map_append, h.lines, List.map_map]
        rfl
      · intro l hl
        rcases List.mem_append.mp hl with hold | hnew
        · exact h.each l hold
        · obtain ⟨p, hp, rfl⟩ := List.mem_map.mp hnew
          exact Line.inv_init p (hinv.cmd p (List.mem_of_mem_drop hp))
  | line n a =>
      simp only [TcpForward.step] at hs
      split at hs
      · rename_i l hl
        obtain ⟨l', hline, rfl⟩ := Option.map_eq_some_iff.mp hs
        refine ⟨h.pool, ?_, ?_⟩
        · have hsame : s.lines.set n l = s.lines := by
            obtain ⟨hlt, rfl⟩ := List.getElem?_eq_some_iff.mp hl
            exact List.set_getElem_self hlt
          dsimp only
          rw [List.map_set, Line.visitor_of_step hline, ← List.map_set, hsame]
          exact h.lines
        · intro l₁ hl₁
          rcases List.mem_or_eq_of_mem_set hl₁ with hold | rfl
          · exact h.each l₁ hold
          · exact (h.each l (List.mem_of_getElem? hl)).step hline
      · cases hs

end

/-- **Visitors talk to the service** over the `tcp` transport. Whatever tasks
fail: each visitor that has been paired has one line of its own. What the local
service reads on it is a prefix of the visitor's header and what this visitor
wrote; what the visitor reads is a prefix of what the service wrote there. As
long as no task of the line has failed an end of file means that everything has
arrived, and when the copies rest nothing is left on the way. -/
theorem visitors_forwarded (compat : Bool) (service : ClientServiceConfig)
    (as : List Action) (s : State)
    (hrun : Run (step compat service) init as s) :
    s.lines.map Line.visitor = s.pool.paired.map Pair.visitor ∧
    (s.lines.map Line.visitor).Nodup ∧
    ∀ l ∈ s.lines, l.Transparent compat service := by
  have h : Inv compat service s :=
    run_preserves (fun _ _ _ h hs => h.step hs) inv_init hrun
  refine ⟨h.lines, ?_, fun l hl => (h.each l hl).transparent⟩
  rw [h.lines]
  exact h.pool.nodup.sublist h.pool.paired.sublist

/-- A service that wants the second version of the header. -/
def proxiedService : ClientServiceConfig where
  serviceType := .tcp
  name := "web"
  localAddr := "127.0.0.1:8000"
  preferIpv6 := false
  user := some "alice"
  token := some "alice-token"
  nodelay := none
  retryInterval := none
  remoteBindAddr := none
  proxyProtocol := some .v2

/-- A visitor says three bytes and no more. -/
def threeBytes : List Action :=
  [.pool (.bound true), .pool (.accept (some (.v4 #v[192, 0, 2, 7] 5000))),
    .pool .queue, .pool .dataChannel, .pool .recvVisitor, .pool .recvChannel,
    .pool (.wrote true), .line 0 (.visitor (.write [71, 69, 84])),
    .line 0 (.visitor .close), .line 0 (.serverDown (.read 2)),
    .line 0 (.serverDown (.write 2)), .line 0 .readCmd,
    .line 0 (.serverDown (.read 1)), .line 0 (.serverDown .eof),
    .line 0 (.connected (some (.v4 #v[127, 0, 0, 1] 6000))),
    .line 0 (.serverDown (.write 1)), .line 0 (.serverDown .shutdown),
    .line 0 (.wroteHeader true 0), .line 0 (.clientDown (.read 3)),
    .line 0 (.clientDown (.write 3)), .line 0 (.clientDown .eof),
    .line 0 (.clientDown .shutdown), .line 0 (.service (.read 31)),
    .line 0 (.service .finish)]

theorem visitors_forwarded_three : ∃ s l localAddr,
    Run (step true proxiedService) init threeBytes s ∧ l ∈ s.lines ∧
    l.serviceIn.received =
      head true proxiedService l.visitor localAddr ++ [71, 69, 84] := by
  obtain ⟨s, l, localAddr, down, up, hrun, hl, hpc, hfailed, hend, hsent⟩ :
      ∃ s l localAddr down up,
        Run (step true proxiedService) init threeBytes s ∧ l ∈ s.lines ∧
        l.client = .copy localAddr down up ∧ l.serverFailed = false ∧
        l.serviceIn.ended = true ∧ l.visitorUp.sent = [71, 69, 84] :=
    ⟨_, _, _, _, _, rfl, List.mem_singleton_self _, rfl, rfl, rfl, rfl⟩
  obtain ⟨-, -, hlines⟩ :=
    visitors_forwarded true proxiedService threeBytes s hrun
  obtain ⟨-, hall⟩ :=
    ((hlines l hl).ended localAddr down up hpc hfailed).1 hend
  rw [hsent] at hall
  exact ⟨s, l, localAddr, hrun, hl, hall⟩

end Rathole.TcpForward
