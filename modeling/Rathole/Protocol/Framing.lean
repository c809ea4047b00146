import Rathole.Lib.Bincode
import Rathole.Protocol

/-!
# Framing (`protocol.rs`)

The bytes of a `PacketMessage` and of a `UdpTraffic`, and the reads that take
them off a connection again. The connection hands its bytes over in pieces of
any size, and may end anywhere.

A sequence of messages comes back as it was written, and so does a sequence of
datagrams, both with their addresses reduced to IP and port; what follows them
is left on the connection. A message that is cut off is an error.
-/

namespace Rathole

open Codec Bincode

/-! ## The messages in bincode -/

/-- serde's binary form has the IP and the port only. -/
def SocketAddr.ser : SocketAddr → Bytes
  | .v4 ip port => serVariant 0 ++ (serArray ip ++ serU16 port)
  | .v6 ip port _ _ => serVariant 1 ++ (serArray ip ++ serU16 port)

def SocketAddr.de : De SocketAddr := do
  match ← deVariant with
  | 0 => return .v4 (← deArray 4) (← deU16)
  | 1 => return .v6 (← deArray 16) (← deU16) 0 0
  | _ => failure

def ServiceType.ser : ServiceType → Bytes
  | .tcp => serVariant 0
  | .udp => serVariant 1

def ServiceType.de : De ServiceType := do
  match ← deVariant with
  | 0 => pure .tcp
  | 1 => pure .udp
  | _ => failure

def Hello.ser : Hello → Bytes
  | .controlChannelHello v d => serVariant 0 ++ (serU8 v ++ serArray d)
  | .dataChannelHello v d => serVariant 1 ++ (serU8 v ++ serArray d)
  | .visitorHello v d => serVariant 2 ++ (serU8 v ++ serArray d)

def Hello.de : De Hello := do
  match ← deVariant with
  | 0 => return .controlChannelHello (← deU8) (← deArray 32)
  | 1 => return .dataChannelHello (← deU8) (← deArray 32)
  | 2 => return .visitorHello (← deU8) (← deArray 32)
  | _ => failure

def VisitorAuth.ser (a : VisitorAuth) : Bytes :=
  serArray a.tokenDigest ++ (serString a.bindAddr ++ a.serviceType.ser)

def VisitorAuth.de : De VisitorAuth :=
  return ⟨← deArray 32, ← deString, ← ServiceType.de⟩

def VisitorAck.ser : VisitorAck → Bytes
  | .ok => serVariant 0
  | .authFailed => serVariant 1
  | .portDenied => serVariant 2
  | .bindError => serVariant 3

def VisitorAck.de : De VisitorAck := do
  match ← deVariant with
  | 0 => pure .ok
  | 1 => pure .authFailed
  | 2 => pure .portDenied
  | 3 => pure .bindError
  | _ => failure

def Ack.ser : Ack → Bytes
  | .ok => serVariant 0
  | .serviceNotExist => serVariant 1
  | .authFailed => serVariant 2

def Ack.de : De Ack := do
  match ← deVariant with
  | 0 => pure .ok
  | 1 => pure .serviceNotExist
  | 2 => pure .authFailed
  | _ => failure

def ControlChannelCmd.ser : ControlChannelCmd → Bytes
  | .createDataChannel => serVariant 0
  | .heartBeat => serVariant 1

def ControlChannelCmd.de : De ControlChannelCmd := do
  match ← deVariant with
  | 0 => pure .createDataChannel
  | 1 => pure .heartBeat
  | _ => failure

def ForwardAddr.ser (a : ForwardAddr) : Bytes :=
  serArray a.ip ++ (serU16 a.port ++ serBool a.isIpv6)

def ForwardAddr.de : De ForwardAddr :=
  return ⟨← deArray 16, ← deU16, ← deBool⟩

def DataChannelCmd.ser : DataChannelCmd → Bytes
  | .startForwardTcp a => serVariant 0 ++ a.ser
  | .startForwardUdp a => serVariant 1 ++ a.ser

def DataChannelCmd.de : De DataChannelCmd := do
  match ← deVariant with
  | 0 => return .startForwardTcp (← ForwardAddr.de)
  | 1 => return .startForwardUdp (← ForwardAddr.de)
  | _ => failure

namespace PacketMessage

def ser : PacketMessage → Bytes
  | .hello h => serVariant 0 ++ h.ser
  | .visitorAuth a => serVariant 1 ++ a.ser
  | .visitorAck a => serVariant 2 ++ a.ser
  | .auth d => serVariant 3 ++ serArray d
  | .ack a => serVariant 4 ++ a.ser
  | .control c => serVariant 5 ++ c.ser
  | .dataCommand c => serVariant 6 ++ c.ser
  | .tcpChunk data => serVariant 7 ++ serVec data
  | .udpPacket source data => serVariant 8 ++ (source.ser ++ serVec data)

def de : De PacketMessage := do
  match ← deVariant with
  | 0 => return .hello (← Hello.de)
  | 1 => return .visitorAuth (← VisitorAuth.de)
  | 2 => return .visitorAck (← VisitorAck.de)
  | 3 => return .auth (← deArray 32)
  | 4 => return .ack (← Ack.de)
  | 5 => return .control (← ControlChannelCmd.de)
  | 6 => return .dataCommand (← DataChannelCmd.de)
  | 7 => return .tcpChunk (← deVec)
  | 8 => return .udpPacket (← SocketAddr.de) (← deVec)
  | _ => failure

end PacketMessage

/-! ## What comes back -/

namespace SocketAddr

/-- Equal by IP and port. -/
def Same (a b : SocketAddr) : Prop := a.ip = b.ip ∧ a.port = b.port

/-- What is left of an address once it was sent. -/
def received : SocketAddr → SocketAddr
  | .v4 ip port => .v4 ip port
  | .v6 ip port _ _ => .v6 ip port 0 0

theorem same_received (a : SocketAddr) : a.Same a.received := by
  cases a <;> exact ⟨rfl, rfl⟩

/-- Neither flow information nor a scope id. -/
def Plain : SocketAddr → Prop
  | .v4 _ _ => True
  | .v6 _ _ flowinfo scopeId => flowinfo = 0 ∧ scopeId = 0

theorem received_eq_iff {a : SocketAddr} : a.received = a ↔ a.Plain := by
  cases a with
  | v4 ip port => exact iff_of_true rfl trivial
  | v6 ip port flowinfo scopeId => simp [received, Plain, eq_comm]

theorem received_received (a : SocketAddr) :
    a.received.received = a.received := by
  cases a <;> rfl

theorem parses_de (a : SocketAddr) : Parses de a.ser a.received := by
  unfold de
  cases a with
  | v4 ip port =>
      apply parses_variant (by decide)
      exact (parses_deArray ip).bind ((parses_deU16 port).ret _)
  | v6 ip port flowinfo scopeId =>
      apply parses_variant (by decide)
      exact (parses_deArray ip).bind
        ((parses_deU16 port).ret (fun port => SocketAddr.v6 ip port 0 0))

end SocketAddr

theorem ServiceType.parses_de (t : ServiceType) : Parses de t.ser t := by
  unfold de
  cases t <;> exact parses_unit_variant (by decide) (parses_pure _)

theorem Hello.parses_de (h : Hello) : Parses de h.ser h := by
  unfold de
  cases h <;> apply parses_variant (by decide)
  · exact (parses_deU8 _).bind ((parses_deArray _).ret _)
  · exact (parses_deU8 _).bind ((parses_deArray _).ret _)
  · exact (parses_deU8 _).bind ((parses_deArray _).ret _)

theorem VisitorAuth.parses_de (a : VisitorAuth)
    (h : a.bindAddr.utf8ByteSize < 2 ^ 64) : Parses de a.ser a := by
  apply (parses_deArray a.tokenDigest).bind
  apply (parses_deString h).bind
  exact (ServiceType.parses_de a.serviceType).ret (VisitorAuth.mk _ _)

theorem VisitorAck.parses_de (a : VisitorAck) : Parses de a.ser a := by
  unfold de
  cases a <;> exact parses_unit_variant (by decide) (parses_pure _)

theorem Ack.parses_de (a : Ack) : Parses de a.ser a := by
  unfold de
  cases a <;> exact parses_unit_variant (by decide) (parses_pure _)

theorem ControlChannelCmd.parses_de (c : ControlChannelCmd) :
    Parses de c.ser c := by
  unfold de
  cases c <;> exact parses_unit_variant (by decide) (parses_pure _)

theorem ForwardAddr.parses_de (a : ForwardAddr) : Parses de a.ser a := by
  apply (parses_deArray a.ip).bind
  apply (parses_deU16 a.port).bind
  exact (parses_deBool a.isIpv6).ret (ForwardAddr.mk _ _)

theorem DataChannelCmd.parses_de (c : DataChannelCmd) :
    Parses de c.ser c := by
  unfold de
  cases c with
  | startForwardTcp a =>
      exact parses_variant (by decide) ((ForwardAddr.parses_de a).ret _)
  | startForwardUdp a =>
      exact parses_variant (by decide) ((ForwardAddr.parses_de a).ret _)

namespace PacketMessage

/-- Equal, with socket addresses compared by IP and port. -/
def Same : PacketMessage → PacketMessage → Prop
  | .udpPacket source data, .udpPacket source' data' =>
      source.Same source' ∧ data = data'
  | m, m' => m = m'

def received : PacketMessage → PacketMessage
  | .udpPacket source data => .udpPacket source.received data
  | m => m

theorem same_received (m : PacketMessage) : m.Same m.received := by
  cases m with
  | udpPacket source data => exact ⟨source.same_received, rfl⟩
  | _ => rfl

/-- **Every message** is read back from its bytes, whatever follows them. -/
theorem parses_de (m : PacketMessage) (h : m.ser.length < 2 ^ 32) :
    Parses de m.ser m.received := by
  unfold de
  cases m with
  | hello m => exact parses_variant (by decide) (m.parses_de.ret _)
  | visitorAuth a =>
      have hlen : a.bindAddr.utf8ByteSize < 2 ^ 64 := by
        simp [ser, VisitorAuth.ser, serString, serVec] at h
        omega
      exact parses_variant (by decide) ((a.parses_de hlen).ret _)
  | visitorAck a => exact parses_variant (by decide) (a.parses_de.ret _)
  | auth d => exact parses_variant (by decide) ((parses_deArray d).ret _)
  | ack a => exact parses_variant (by decide) (a.parses_de.ret _)
  | control c => exact parses_variant (by decide) (c.parses_de.ret _)
  | dataCommand c => exact parses_variant (by decide) (c.parses_de.ret _)
  | tcpChunk data =>
      have hlen : data.length < 2 ^ 64 := by
        simp [ser, serVec] at h
        omega
      exact parses_variant (by decide) ((parses_deVec hlen).ret _)
  | udpPacket source data =>
      have hlen : data.length < 2 ^ 64 := by
        simp [ser, serVec] at h
        omega
      exact parses_variant (by decide)
        (source.parses_de.bind ((parses_deVec hlen).ret _))

end PacketMessage

/-! ## Frames -/

def encodePacketMessage (message : PacketMessage) : Bytes := message.ser

/-- What the message leaves of the bytes is ignored. -/
def decodePacketMessage (bytes : Bytes) : Except String PacketMessage :=
  match PacketMessage.de.run bytes with
  | some (message, _) => .ok message
  | none => .error "Failed to decode packet message"

/-- What `write_framed_packet` writes: the length as a `u32`, most significant
byte first, and the bytes. -/
def writeFramedPacket (bytes : Bytes) : Bytes :=
  toBe 4 (bytes.length % 2 ^ 32) ++ bytes

def readFramedPacket : Conn String UInt8 Bytes := do
  let len ← readExact "Failed to read packet length" 4
  readExact "Failed to read packet body" (ofBe len)

def writePacketMessage (message : PacketMessage) : Bytes :=
  writeFramedPacket (encodePacketMessage message)

def readPacketMessage : Conn String UInt8 PacketMessage := do
  let bytes ← readFramedPacket
  liftM (decodePacketMessage bytes)

theorem decodePacketMessage_encode {m : PacketMessage}
    (h : (encodePacketMessage m).length < 2 ^ 32) :
    decodePacketMessage (encodePacketMessage m) = .ok m.received := by
  have hrun : PacketMessage.de.run m.ser = some (m.received, []) := by
    have hparse := m.parses_de h []
    rwa [List.append_nil] at hparse
  unfold decodePacketMessage encodePacketMessage
  rw [hrun]

theorem reads_readFramedPacket {bytes : Bytes} (h : bytes.length < 2 ^ 32) :
    Reads readFramedPacket (writeFramedPacket bytes) bytes := by
  unfold readFramedPacket writeFramedPacket
  rw [Nat.mod_eq_of_lt h]
  apply (reads_readExact _ (length_toBe 4 _)).bind
  rw [ofBe_toBe_of_lt h]
  exact reads_readExact _ rfl

/-- **One message**, however it is split; cut off it is an error. -/
theorem reads_readPacketMessage {m : PacketMessage}
    (h : (encodePacketMessage m).length < 2 ^ 32) :
    Reads readPacketMessage (writePacketMessage m) m.received := by
  unfold readPacketMessage writePacketMessage
  rw [← List.append_nil (writeFramedPacket _)]
  apply (reads_readFramedPacket h).bind
  exact reads_lift _ (decodePacketMessage_encode h)

theorem reads_readPacketMessages {ms : List PacketMessage}
    (h : ∀ m ∈ ms, (encodePacketMessage m).length < 2 ^ 32) :
    Reads (readMany readPacketMessage ms.length)
      (ms.map writePacketMessage).flatten (ms.map PacketMessage.received) := by
  have hall : List.Forall₂ (Reads readPacketMessage)
      (ms.map writePacketMessage) (ms.map PacketMessage.received) := by
    rw [List.forall₂_map_left_iff, List.forall₂_map_right_iff,
      List.forall₂_same]
    intro m hm
    exact reads_readPacketMessage (h m hm)
  simpa using reads_readMany hall

/-- **Framing is self-synchronising.** A sequence of messages written one
after the other is read back however the stream is split, and what follows is
left as it is. On a stream that ends inside a message the ones before it are
returned, and reading that one is an error. -/
theorem framing_self_synchronising (ms : List PacketMessage)
    (h : ∀ m ∈ ms, (encodePacketMessage m).length < 2 ^ 32) :
    ∃ ms' : List PacketMessage, List.Forall₂ PacketMessage.Same ms ms' ∧
      (∀ (cs : List Bytes) (rest : Bytes),
        cs.flatten = (ms.map writePacketMessage).flatten ++ rest →
        ∃ cs', (readMany readPacketMessage ms.length).run cs = .ok (ms', cs') ∧
          cs'.flatten = rest) ∧
      (∀ (i : ℕ) (hi : i < ms.length) (cs : List Bytes) (part : Bytes),
        part <+: writePacketMessage ms[i] → part ≠ writePacketMessage ms[i] →
        cs.flatten = ((ms.take i).map writePacketMessage).flatten ++ part →
        ∃ cs', (readMany readPacketMessage i).run cs = .ok (ms'.take i, cs') ∧
          ∃ e, readPacketMessage.run cs' = .error e) := by
  refine ⟨ms.map PacketMessage.received, ?_, ?_, ?_⟩
  · rw [List.forall₂_map_right_iff, List.forall₂_same]
    intro m _
    exact m.same_received
  · exact (reads_readPacketMessages h).whole
  · intro i hi cs part hpart hne hcs
    have hbefore : ∀ m ∈ ms.take i, (encodePacketMessage m).length < 2 ^ 32 :=
      fun m hm => h m (List.mem_of_mem_take hm)
    obtain ⟨cs', hrun, rfl⟩ :=
      (reads_readPacketMessages hbefore).whole cs part hcs
    rw [List.length_take_of_le hi.le, List.map_take] at hrun
    refine ⟨cs', hrun, ?_⟩
    exact (reads_readPacketMessage (h _ (List.getElem_mem hi))).cut cs' hpart hne

/-- An acknowledgement and a datagram of a link-local visitor, in two pieces
that part inside the first frame, with one byte of payload behind them. -/
theorem framing_self_synchronising_split :
    let ms : List PacketMessage :=
      [.ack .ok, .udpPacket (.v6 (.replicate 16 0xfe) 53 0 7) [1, 2]]
    let stream := (ms.map writePacketMessage).flatten
    ∃ ms', List.Forall₂ PacketMessage.Same ms ms' ∧
      ∃ cs', (readMany readPacketMessage 2).run
        [stream.take 5, stream.drop 5 ++ [9]] = .ok (ms', cs') ∧
        cs'.flatten = [9] := by
  intro ms stream
  obtain ⟨ms', hsame, hwhole, -⟩ :=
    framing_self_synchronising ms (by decide)
  refine ⟨ms', hsame, hwhole _ [9] ?_⟩
  rfl

/-! ## Datagrams in a stream -/

structure UdpHeader where
  fromAddr : SocketAddr
  len : UInt16
deriving DecidableEq

namespace UdpHeader

def ser (hdr : UdpHeader) : Bytes := hdr.fromAddr.ser ++ serU16 hdr.len

def de : De UdpHeader := return ⟨← SocketAddr.de, ← deU16⟩

def deserialize (buf : Bytes) : Except String UdpHeader :=
  match de.run buf with
  | some (hdr, _) => .ok hdr
  | none => .error "Failed to deserialize UdpHeader"

theorem parses_de (hdr : UdpHeader) :
    Parses de hdr.ser ⟨hdr.fromAddr.received, hdr.len⟩ :=
  hdr.fromAddr.parses_de.bind ((parses_deU16 hdr.len).ret (UdpHeader.mk _))

theorem deserialize_ser (hdr : UdpHeader) :
    deserialize hdr.ser = .ok ⟨hdr.fromAddr.received, hdr.len⟩ := by
  have hparse := hdr.parses_de []
  rw [List.append_nil] at hparse
  unfold deserialize
  rw [hparse]

/-- A tag, an address of four or sixteen bytes, a port and a length. -/
theorem length_ser_le (hdr : UdpHeader) : hdr.ser.length ≤ 24 := by
  obtain ⟨addr, len⟩ := hdr
  cases addr <;> simp [ser, SocketAddr.ser, serVariant, serArray, serU16]

/-- `v.len() as u8` is `v.len()`. -/
theorem toNat_length_ser (hdr : UdpHeader) :
    (UInt8.ofNat hdr.ser.length).toNat = hdr.ser.length := by
  have hle := hdr.length_ser_le
  rw [UInt8.toNat_ofNat', Nat.mod_eq_of_lt (by omega)]

end UdpHeader

/-- `read_u8`; what ends early is an `io::Error`. -/
def readU8 : Conn String UInt8 UInt8 := do
  let b ← readExact "early eof" 1
  pure (b.headD 0)

theorem reads_readU8 (n : UInt8) : Reads readU8 [n] n := by
  have hbyte : Reads (readExact "early eof" 1) [n] [n] :=
    reads_readExact _ rfl
  unfold readU8
  rw [← List.append_nil [n]]
  apply hbyte.bind
  exact reads_pure n

namespace UdpTraffic

/-- The bytes that `write` hands to the writer. -/
def write (t : UdpTraffic) : Bytes :=
  let hdr : UdpHeader := ⟨t.fromAddr, UInt16.ofNat t.data.length⟩
  let v := hdr.ser
  UInt8.ofNat v.length :: (v ++ t.data)

def writeSlice (fromAddr : SocketAddr) (data : Bytes) : Bytes :=
  let hdr : UdpHeader := ⟨fromAddr, UInt16.ofNat data.length⟩
  let v := hdr.ser
  UInt8.ofNat v.length :: (v ++ data)

def read (hdrLen : UInt8) : Conn String UInt8 UdpTraffic := do
  let buf ← readExact "Failed to read udp header" hdrLen.toNat
  let hdr ← liftM (UdpHeader.deserialize buf)
  let data ← readExact "early eof" hdr.len.toNat
  pure ⟨hdr.fromAddr, data⟩

/-- The two reads the loops of server and client make. -/
def readNext : Conn String UInt8 UdpTraffic := readU8 >>= read

def Same (t t' : UdpTraffic) : Prop :=
  t.fromAddr.Same t'.fromAddr ∧ t.data = t'.data

def received (t : UdpTraffic) : UdpTraffic := ⟨t.fromAddr.received, t.data⟩

theorem received_received (t : UdpTraffic) :
    t.received.received = t.received := by
  unfold received
  rw [SocketAddr.received_received]

theorem reads_read {t : UdpTraffic} {hdr : UdpHeader}
    (haddr : hdr.fromAddr = t.fromAddr)
    (hlen : t.data.length = hdr.len.toNat) :
    Reads (read (UInt8.ofNat hdr.ser.length)) (hdr.ser ++ t.data) t.received := by
  unfold read
  rw [hdr.toNat_length_ser]
  apply (reads_readExact _ rfl).bind
  rw [← List.nil_append t.data]
  apply (reads_lift _ hdr.deserialize_ser).bind
  rw [← List.append_nil t.data]
  apply (reads_readExact _ hlen).bind
  rw [haddr]
  exact reads_pure t.received

/-- **One datagram**, however it is split. -/
theorem reads_readNext {t : UdpTraffic} (h : t.data.length < 2 ^ 16) :
    Reads readNext t.write t.received := by
  have hlen : t.data.length = (UInt16.ofNat t.data.length).toNat := by
    rw [UInt16.toNat_ofNat', Nat.mod_eq_of_lt h]
  exact (reads_readU8 _).bind (reads_read rfl hlen)

/-- **UDP framing is lossless.** A sequence of datagrams of any visitors is
read back in order, with IP and port of each, and what follows it is left as
it is; both writers make the same bytes, and neither length is truncated. -/
theorem framing_lossless (ts : List UdpTraffic)
    (h : ∀ t ∈ ts, t.data.length ≤ udpBufferSize) :
    (∀ t ∈ ts, t.write = writeSlice t.fromAddr t.data ∧
      let hdr : UdpHeader := ⟨t.fromAddr, UInt16.ofNat t.data.length⟩
      hdr.len.toNat = t.data.length ∧
        (UInt8.ofNat hdr.ser.length).toNat = hdr.ser.length) ∧
    ∃ ts' : List UdpTraffic, List.Forall₂ Same ts ts' ∧
      ∀ (cs : List Bytes) (rest : Bytes),
        cs.flatten = (ts.map write).flatten ++ rest →
        ∃ cs', (readMany readNext ts.length).run cs = .ok (ts', cs') ∧
          cs'.flatten = rest := by
  have hlt : ∀ t ∈ ts, t.data.length < 2 ^ 16 := by
    intro t ht
    exact (h t ht).trans_lt (by decide)
  refine ⟨?_, ts.map received, ?_, ?_⟩
  · intro t ht
    refine ⟨rfl, ?_, UdpHeader.toNat_length_ser _⟩
    exact (UInt16.toNat_ofNat').trans (Nat.mod_eq_of_lt (hlt t ht))
  · rw [List.forall₂_map_right_iff, List.forall₂_same]
    intro t _
    exact ⟨t.fromAddr.same_received, rfl⟩
  · have hall : List.Forall₂ (Reads readNext) (ts.map write)
        (ts.map received) := by
      rw [List.forall₂_map_left_iff, List.forall₂_map_right_iff,
        List.forall₂_same]
      intro t ht
      exact reads_readNext (hlt t ht)
    have hreads := reads_readMany hall
    rw [List.length_map] at hreads
    exact hreads.whole

/-- An empty datagram of an IPv6 visitor between two of an IPv4 one, handed
over byte by byte. -/
theorem framing_lossless_mixed :
    let ts : List UdpTraffic :=
      [⟨.v4 #v[10, 0, 0, 1] 53, [1, 2]⟩, ⟨.v6 (.replicate 16 1) 53 0 0, []⟩,
        ⟨.v4 #v[10, 0, 0, 1] 53, [3]⟩]
    ∃ ts', List.Forall₂ Same ts ts' ∧
      ∃ cs', (readMany readNext 3).run
        ((ts.map write).flatten.map (fun b => [b])) = .ok (ts', cs') ∧
        cs'.flatten = [] := by
  intro ts
  obtain ⟨-, ts', hsame, hreads⟩ := framing_lossless ts (by decide)
  refine ⟨ts', hsame, hreads _ [] ?_⟩
  rfl

end UdpTraffic

end Rathole
