import Rathole.Net.Display
import Rathole.Protocol.Framing
import Rathole.Server.TcpPool

/-!
# The PROXY header of a TCP service

`run_data_channel` up to where it forwards: it reads the command that the
server sends for a visitor, with the visitor's address as a `ForwardAddr`, and
for a service that asks for it the local service gets the address in a header
before anything else.
-/

namespace Rathole

open Bincode Codec Numerals ProxyHeader

def SocketAddr.isIpv4 : SocketAddr → Bool
  | .v4 .. => true
  | .v6 .. => false

/-- `From<ForwardAddr>`. -/
def ForwardAddr.toSocketAddr (addr : ForwardAddr) : SocketAddr :=
  if addr.isIpv6 then .v6 addr.ip addr.port 0 0
  else .v4 #v[addr.ip[0], addr.ip[1], addr.ip[2], addr.ip[3]] addr.port

def v1Header (compat : Bool) (srcAddr dstAddr : SocketAddr) : Bytes :=
  let family := if srcAddr.isIpv4 then "TCP4" else "TCP6"
  ascii "PROXY " ++ ascii family ++ ascii " " ++ srcAddr.ip.display compat ++
    ascii " " ++ dstAddr.ip.display compat ++ ascii " " ++
    write 10 srcAddr.port.toNat ++ ascii " " ++ write 10 dstAddr.port.toNat ++
    ascii "\r\n"

def v2Header (srcAddr dstAddr : SocketAddr) : Bytes :=
  let header : Bytes :=
    [0x0D, 0x0A, 0x0D, 0x0A, 0x00, 0x0D, 0x0A, 0x51, 0x55, 0x49, 0x54, 0x0A] ++
      [0x21]
  match srcAddr, dstAddr with
  | .v4 src srcPort, .v4 dst dstPort =>
      header ++ [0x11] ++ toBe 2 12 ++ src.toList ++ dst.toList ++
        toBe 2 srcPort.toNat ++ toBe 2 dstPort.toNat
  | .v6 src srcPort _ _, .v6 dst dstPort _ _ =>
      header ++ [0x21] ++ toBe 2 36 ++ src.toList ++ dst.toList ++
        toBe 2 srcPort.toNat ++ toBe 2 dstPort.toNat
  | _, _ => []   -- `header.clear()`

/-- What `run_data_channel_for_tcp` writes before it forwards; `localAddr` is
`local.local_addr()`. -/
def proxyHeader (compat : Bool) (proxyProtocol : Option ProxyProtocol)
    (realIp : ForwardAddr) (localAddr : Option SocketAddr) : Bytes :=
  match proxyProtocol with
  | none => []
  | some pp =>
      let srcAddr := realIp.toSocketAddr
      let dstAddr := localAddr.getD srcAddr
      match pp with
      | .v1 => v1Header compat srcAddr dstAddr
      | .v2 => v2Header srcAddr dstAddr

inductive Forwarding where
  /-- The local service has been sent `header`. -/
  | tcp (header : Bytes)
  | udp
deriving DecidableEq

def startForward (compat : Bool) (service : ClientServiceConfig)
    (localAddr : Option SocketAddr) : DataChannelCmd → Except String Forwarding
  | .startForwardTcp realIp =>
      if service.serviceType ≠ .tcp then
        .error "Expect TCP traffic. Please check the configuration."
      else
        .ok (.tcp (proxyHeader compat service.proxyProtocol realIp localAddr))
  | .startForwardUdp _ =>
      if service.serviceType ≠ .udp then
        .error "Expect UDP traffic. Please check the configuration."
      else .ok .udp

/-- Behind the handshake, up to the copying. -/
def runDataChannel (compat : Bool) (service : ClientServiceConfig)
    (localAddr : Option SocketAddr) : Conn String UInt8 Forwarding := do
  let message ← readPacketMessage
  let dataCmd ← liftM (readDataCmd message)
  liftM (startForward compat service localAddr dataCmd)

/-! ## The address on its way -/

theorem toSocketAddr_ofSocketAddr (addr : SocketAddr) :
    (ForwardAddr.ofSocketAddr addr).toSocketAddr = addr.received := by
  cases addr with
  | v4 ip port =>
      show SocketAddr.v4 #v[_, _, _, _] port = .v4 ip port
      congr 1
      apply Vector.ext
      intro i hi
      rcases i with _ | _ | _ | _ | i
      · simp [ForwardAddr.ofSocketAddr]
      · simp [ForwardAddr.ofSocketAddr]
      · simp [ForwardAddr.ofSocketAddr]
      · simp [ForwardAddr.ofSocketAddr]
      · omega
  | v6 ip port flowinfo scopeId => rfl

theorem length_encode_dataCommand_lt (dataCmd : DataChannelCmd) :
    (encodePacketMessage (.dataCommand dataCmd)).length < 2 ^ 32 := by
  cases dataCmd with
  | startForwardTcp addr =>
      simp [encodePacketMessage, PacketMessage.ser, DataChannelCmd.ser,
        ForwardAddr.ser, serVariant, serArray, serU16, serBool, serU8]
  | startForwardUdp addr =>
      simp [encodePacketMessage, PacketMessage.ser, DataChannelCmd.ser,
        ForwardAddr.ser, serVariant, serArray, serU16, serBool, serU8]

/-- **The command that was sent is carried out**, however it is split. -/
theorem reads_runDataChannel {compat : Bool} {service : ClientServiceConfig}
    {localAddr : Option SocketAddr} {dataCmd : DataChannelCmd}
    {forwarding : Forwarding}
    (h : startForward compat service localAddr dataCmd = .ok forwarding) :
    Reads (runDataChannel compat service localAddr)
      (writePacketMessage (.dataCommand dataCmd)) forwarding := by
  unfold runDataChannel
  rw [← List.append_nil (writePacketMessage _)]
  apply (reads_readPacketMessage (length_encode_dataCommand_lt dataCmd)).bind
  rw [← List.append_nil []]
  exact (reads_lift (readDataCmd _) rfl).bind (reads_lift _ h)

/-! ## Version 2 -/

/-- What the header says to the local service, where it is written. -/
def v2Addresses : SocketAddr → SocketAddr → Option Addresses
  | .v4 src srcPort, .v4 dst dstPort =>
      some (.inet src.toList dst.toList srcPort.toNat dstPort.toNat)
  | .v6 src srcPort _ _, .v6 dst dstPort _ _ =>
      some (.inet6 src.toList dst.toList srcPort.toNat dstPort.toNat)
  | _, _ => none

/-- The header of a proxied TCP connection with nothing behind the addresses. -/
def IsV2 (header : Bytes) (addresses : Addresses) : Prop :=
  ∃ length, header.length = 16 + length ∧
    Parses readV2 header
      { command := .proxy
        transport := .stream
        addresses := addresses
        length := length
        extra := [] }

theorem isV2_header {family : UInt8} {block : Bytes} {addresses : Addresses}
    (hstream : family.toNat % 16 = 1)
    (haddresses : Parses (readAddresses (family.toNat / 16)) block addresses)
    (hlength : block.length < 256 ^ 2) :
    IsV2 (signature ++ ([0x21] ++ ([family] ++ (toBe 2 block.length ++ block))))
      addresses := by
  refine ⟨block.length, ?_, ?_⟩
  · simp [signature]
    omega
  · apply parses_readV2 rfl rfl ?_ haddresses hlength
    rw [hstream]
    rfl

theorem v2Header_spec (srcAddr dstAddr : SocketAddr) :
    match v2Addresses srcAddr dstAddr with
    | some addresses => IsV2 (v2Header srcAddr dstAddr) addresses
    | none => v2Header srcAddr dstAddr = [] := by
  have hport (port : UInt16) : port.toNat < 256 ^ 2 := port.toNat_lt
  cases srcAddr with
  | v4 src srcPort =>
      cases dstAddr with
      | v4 dst dstPort =>
          have hread : Parses (readInet 4 .inet) _ _ :=
            parses_readInet src.length_toList dst.length_toList (hport srcPort)
              (hport dstPort)
          have hheader := @isV2_header 0x11 _ _ rfl hread (by simp)
          simpa [v2Header, v2Addresses, signature] using hheader
      | v6 dst dstPort flowinfo scopeId => rfl
  | v6 src srcPort flowinfo scopeId =>
      cases dstAddr with
      | v4 dst dstPort => rfl
      | v6 dst dstPort flowinfo' scopeId' =>
          have hread : Parses (readInet 16 .inet6) _ _ :=
            parses_readInet src.length_toList dst.length_toList (hport srcPort)
              (hport dstPort)
          have hheader := @isV2_header 0x21 _ _ rfl hread (by simp)
          simpa [v2Header, v2Addresses, signature] using hheader

theorem v2Addresses_received (visitor dst : SocketAddr) :
    v2Addresses visitor.received dst = v2Addresses visitor dst := by
  cases visitor <;> cases dst <;> rfl

/-- **The header of version 2 has the visitor's address.** The client reads
the command of the server, and where its own address to the local service is
of the visitor's family the header says the visitor's IP and port and its own;
else there is none. -/
theorem v2_carries_visitor (compat : Bool) (service : ClientServiceConfig)
    (id : ℕ) (visitor dst : SocketAddr) : ∃ header,
    Reads
      (runDataChannel compat
        { service with serviceType := .tcp, proxyProtocol := some .v2 }
        (some dst))
      (writePacketMessage (TcpPool.Visitor.cmd ⟨id, some visitor⟩))
      (.tcp header) ∧
    match v2Addresses visitor dst with
    | some addresses => IsV2 header addresses
    | none => header = [] := by
  refine ⟨v2Header visitor.received dst, ?_, ?_⟩
  · apply reads_runDataChannel
    show Except.ok (Forwarding.tcp (v2Header
      (ForwardAddr.ofSocketAddr visitor).toSocketAddr dst)) = _
    rw [toSocketAddr_ofSocketAddr]
  · rw [← v2Addresses_received]
    exact v2Header_spec visitor.received dst

/-! ## Version 1 -/

/-- A line of version 1 that a receiver has the buffer for. -/
def IsV1 (dotted : Bool) (header : Bytes) : Prop :=
  (∃ addresses, V1Line dotted addresses header) ∧ header.length ≤ 107

theorem v1Header_eq_line (compat : Bool) (srcAddr dstAddr : SocketAddr) :
    v1Header compat srcAddr dstAddr =
      line (ascii (if srcAddr.isIpv4 then "TCP4" else "TCP6"))
        (srcAddr.ip.display compat) (dstAddr.ip.display compat)
        (write 10 srcAddr.port.toNat) (write 10 dstAddr.port.toNat) := by
  have hproxy : ascii "PROXY " = ascii "PROXY" ++ [32] := by decide
  have hspace : ascii " " = [32] := by decide
  have hcrlf : ascii "\r\n" = crlf := by decide
  unfold v1Header line join
  rw [hproxy, hspace, hcrlf]
  simp [List.intercalate_cons_cons]

theorem port_write (port : UInt16) : Port port.toNat (write 10 port.toNat) :=
  ⟨decimal_write _, port.toNat_lt⟩

theorem length_port_write (port : UInt16) :
    (write 10 port.toNat).length ≤ 5 := by
  have hlt : port.toNat < 65536 := port.toNat_lt
  exact length_write_le (by decide) (by decide) (by omega)

theorem length_v1Header_le (compat : Bool) (srcAddr dstAddr : SocketAddr) :
    (v1Header compat srcAddr dstAddr).length ≤ 107 := by
  have hip (ip : IpAddr) : (ip.display compat).length ≤ 39 := by
    cases ip with
    | v4 octets => exact (IpAddr.length_display_v4 octets).trans (by decide)
    | v6 octets => exact IpAddr.length_display_v6
  have hproxy : (ascii "PROXY").length = 5 := by decide
  have hfamily :
      (ascii (if srcAddr.isIpv4 then "TCP4" else "TCP6")).length = 4 := by
    split <;> decide
  have hsrc := hip srcAddr.ip
  have hdst := hip dstAddr.ip
  have hsrcPort := length_port_write srcAddr.port
  have hdstPort := length_port_write dstAddr.port
  rw [v1Header_eq_line]
  unfold line join
  simp only [List.intercalate_cons_cons, List.intercalate_singleton,
    List.length_append, List.length_singleton, hproxy, hfamily]
  show _ + 2 ≤ 107
  omega

/-- Addresses of one family are announced as what they are. -/
theorem v1Line_v1Header {compat dotted : Bool} {srcAddr dstAddr : SocketAddr}
    (hfamily : srcAddr.isIpv4 = dstAddr.isIpv4)
    (hdotted : dotted = true ∨ (srcAddr.ip.embedsIpv4 compat = false ∧
      dstAddr.ip.embedsIpv4 compat = false)) :
    ∃ addresses, V1Line dotted addresses (v1Header compat srcAddr dstAddr) := by
  rw [v1Header_eq_line]
  cases srcAddr with
  | v4 src srcPort =>
      cases dstAddr with
      | v4 dst dstPort =>
          exact ⟨_, V1Line.tcp4 (IpAddr.ipv4_display src)
            (IpAddr.ipv4_display dst) (port_write srcPort) (port_write dstPort)⟩
      | v6 => cases hfamily
  | v6 src srcPort =>
      cases dstAddr with
      | v4 => cases hfamily
      | v6 dst dstPort =>
          have hsrc := IpAddr.ipv6_display (hdotted.imp_right And.left)
          have hdst := IpAddr.ipv6_display (hdotted.imp_right And.right)
          exact ⟨_, V1Line.tcp6 hsrc hdst (port_write srcPort)
            (port_write dstPort)⟩

theorem v1Header_ne_nil (compat : Bool) (srcAddr dstAddr : SocketAddr) :
    v1Header compat srcAddr dstAddr ≠ [] := by
  rw [v1Header_eq_line]
  unfold line crlf
  exact List.append_ne_nil_of_right_ne_nil _ (by decide)

theorem v2Header_ne_nil_iff {srcAddr dstAddr : SocketAddr} :
    v2Header srcAddr dstAddr ≠ [] ↔ srcAddr.isIpv4 = dstAddr.isIpv4 := by
  cases srcAddr <;> cases dstAddr <;> simp [v2Header, SocketAddr.isIpv4]

/-- An IPv4 address at the end of an IPv6 address brings dots into the line. -/
theorem dot_mem_v1Header {compat : Bool} {srcAddr dstAddr : SocketAddr}
    (h : srcAddr.ip.embedsIpv4 compat = true ∨
      dstAddr.ip.embedsIpv4 compat = true) :
    46 ∈ v1Header compat srcAddr dstAddr := by
  have hip (ip : IpAddr) (hembeds : ip.embedsIpv4 compat = true) :
      46 ∈ ip.display compat := by
    cases ip with
    | v4 octets => cases hembeds
    | v6 octets => exact IpAddr.dot_mem_display hembeds
  unfold v1Header
  rcases h with h | h
  · simp [hip srcAddr.ip h]
  · simp [hip dstAddr.ip h]

theorem embedsIpv4_eq_false {compat : Bool} {addr : SocketAddr}
    (h : addr.isIpv4 = true) : addr.ip.embedsIpv4 compat = false := by
  cases addr with
  | v4 => rfl
  | v6 => cases h

/-- A line for IPv6 that has dots is not in the grammar without them. -/
theorem not_embeds_of_v1Line {compat : Bool} {srcAddr dstAddr : SocketAddr}
    (hfamily : srcAddr.isIpv4 = dstAddr.isIpv4) {addresses : V1Header}
    (h : V1Line false addresses (v1Header compat srcAddr dstAddr)) :
    srcAddr.ip.embedsIpv4 compat = false ∧
      dstAddr.ip.embedsIpv4 compat = false := by
  cases hipv4 : srcAddr.isIpv4 with
  | true =>
      exact ⟨embedsIpv4_eq_false hipv4,
        embedsIpv4_eq_false (hfamily.symm.trans hipv4)⟩
  | false =>
      have hprotocol :
          ((v1Header compat srcAddr dstAddr).drop 6).take 4 = ascii "TCP6" := by
        rw [v1Header_eq_line, hipv4]
        exact take_line (by decide)
      have hdot := mt dot_mem_v1Header (h.no_dot hprotocol)
      rw [not_or] at hdot
      exact ⟨Bool.eq_false_of_not_eq_true hdot.1,
        Bool.eq_false_of_not_eq_true hdot.2⟩

/-- What is written first for `visitor` is a line of the protocol or nothing,
and it is nothing where version 2 has nothing to write. -/
def V1Agrees (compat dotted : Bool) (visitor dst : SocketAddr) : Prop :=
  let header (pp : ProxyProtocol) :=
    proxyHeader compat (some pp) (.ofSocketAddr visitor) (some dst)
  (header .v1 = [] ∨ IsV1 dotted (header .v1)) ∧
    (header .v1 ≠ [] ↔ header .v2 ≠ [])

theorem proxyHeader_ofSocketAddr (compat : Bool) (pp : ProxyProtocol)
    (visitor dst : SocketAddr) :
    proxyHeader compat (some pp) (.ofSocketAddr visitor) (some dst) =
      match pp with
      | .v1 => v1Header compat visitor.received dst
      | .v2 => v2Header visitor.received dst := by
  rw [← toSocketAddr_ofSocketAddr]
  rfl

/-- **Version 1 agrees with the protocol and with version 2 for addresses of
one family**, and for no others: an address of each family is announced as if
both were of the visitor's, where version 2 has no header. To a receiver that
takes only hexadecimal groups, moreover, an IPv6 address with an IPv4 address
at its end is no address. -/
theorem v1_agrees_iff (compat dotted : Bool) (visitor dst : SocketAddr) :
    V1Agrees compat dotted visitor dst ↔
      visitor.isIpv4 = dst.isIpv4 ∧
        (dotted = true ∨ (visitor.ip.embedsIpv4 compat = false ∧
          dst.ip.embedsIpv4 compat = false)) := by
  have hipv4 : visitor.isIpv4 = visitor.received.isIpv4 := by
    cases visitor <;> rfl
  have hne := v1Header_ne_nil compat visitor.received dst
  unfold V1Agrees
  simp only [proxyHeader_ofSocketAddr]
  rw [hipv4, visitor.same_received.1, v2Header_ne_nil_iff]
  constructor
  · rintro ⟨hv1, hagree⟩
    have hfamily := hagree.mp hne
    refine ⟨hfamily, ?_⟩
    cases dotted with
    | true => exact Or.inl rfl
    | false =>
        obtain ⟨⟨addresses, hline⟩, -⟩ := hv1.resolve_left hne
        exact Or.inr (not_embeds_of_v1Line hfamily hline)
  · rintro ⟨hfamily, hdotted⟩
    refine ⟨Or.inr ⟨v1Line_v1Header hfamily hdotted, ?_⟩, ?_⟩
    · exact length_v1Header_le compat visitor.received dst
    · exact iff_of_true hne hfamily

/-- A visitor over IPv6 of a service that is reached over IPv4. -/
theorem v1_mixed_families :
    let visitor : SocketAddr :=
      .v6 #v[0x20, 1, 0xd, 0xb8, 0, 0, 0, 0, 0, 0, 0, 0, 0, 0, 0, 1] 50000 0 0
    let dst : SocketAddr := .v4 #v[127, 0, 0, 1] 8080
    proxyHeader true (some .v1) (.ofSocketAddr visitor) (some dst) =
        ascii "PROXY TCP6 2001:db8::1 127.0.0.1 50000 8080\r\n" ∧
      proxyHeader true (some .v2) (.ofSocketAddr visitor) (some dst) = [] ∧
      ¬ V1Agrees true true visitor dst := by
  refine ⟨by decide, by decide, ?_⟩
  rintro ⟨-, hagree⟩
  exact absurd (hagree.mp (by decide)) (by decide)

end Rathole
