import Rathole.Config
import Rathole.Net
import Rathole.Transport.Reliability

/-!
# Messages (`protocol.rs`)

The messages of the control protocol and the reads that expect one kind of
them, with a whole message at hand; its bytes are in `Protocol/Framing.lean`.
`digest` is SHA-256, a parameter wherever it is used.
-/

namespace Rathole

/-- `[u8; 32]`: digests, nonces and session keys. -/
abbrev Digest := Vector UInt8 32

abbrev ProtocolVersion := UInt8

def currentProtoVersion : ProtocolVersion := 1

inductive Hello where
  | controlChannelHello (v : ProtocolVersion) (d : Digest)
  | dataChannelHello (v : ProtocolVersion) (d : Digest)
  | visitorHello (v : ProtocolVersion) (d : Digest)
deriving DecidableEq

structure VisitorAuth where
  tokenDigest : Digest
  bindAddr : String
  serviceType : ServiceType
deriving DecidableEq

inductive VisitorAck where
  | ok | authFailed | portDenied | bindError
deriving DecidableEq

inductive Ack where
  | ok | serviceNotExist | authFailed
deriving DecidableEq

inductive ControlChannelCmd where
  | createDataChannel | heartBeat
deriving DecidableEq

structure ForwardAddr where
  ip : Vector UInt8 16
  port : UInt16
  isIpv6 : Bool
deriving DecidableEq

inductive DataChannelCmd where
  | startForwardTcp (addr : ForwardAddr)
  | startForwardUdp (addr : ForwardAddr)
deriving DecidableEq

inductive PacketMessage where
  | hello (h : Hello)
  | visitorAuth (a : VisitorAuth)
  | visitorAck (a : VisitorAck)
  | auth (d : Digest)
  | ack (a : Ack)
  | control (c : ControlChannelCmd)
  | dataCommand (c : DataChannelCmd)
  | tcpChunk (data : Bytes)
  | udpPacket (source : SocketAddr) (data : Bytes)
deriving DecidableEq

def Hello.version : Hello → ProtocolVersion
  | .controlChannelHello v _ => v
  | .dataChannelHello v _ => v
  | .visitorHello v _ => v

def readHello : PacketMessage → Except String Hello
  | .hello h =>
      if h.version ≠ currentProtoVersion then
        .error ("Protocol version mismatched. Expected " ++
          toString currentProtoVersion.toNat ++ ", got " ++
          toString h.version.toNat ++ ". Please update `rathole`.")
      else .ok h
  | _ => .error "Unexpected packet message for hello"

def readAuth : PacketMessage → Except String Digest
  | .auth d => .ok d
  | _ => .error "Unexpected packet message for auth"

def readVisitorAuth : PacketMessage → Except String VisitorAuth
  | .visitorAuth a => .ok a
  | _ => .error "Unexpected packet message for visitor auth"

/-- `Display`. -/
def Ack.display : Ack → String
  | .ok => "Ok"
  | .serviceNotExist => "Service not exist"
  | .authFailed => "Incorrect token"

def readAck : PacketMessage → Except String Ack
  | .ack a => .ok a
  | _ => .error "Unexpected packet message for ack"

def readControlCmd : PacketMessage → Except String ControlChannelCmd
  | .control c => .ok c
  | _ => .error "Unexpected packet message for control cmd"

def readDataCmd : PacketMessage → Except String DataChannelCmd
  | .dataCommand c => .ok c
  | _ => .error "Unexpected packet message for data cmd"

def readVisitorAck : PacketMessage → Except String VisitorAck
  | .visitorAck a => .ok a
  | _ => .error "Unexpected packet message for visitor ack"

/-- `str::as_bytes`. -/
def utf8 (s : String) : Bytes := s.toUTF8.data.toList

/-- `UDP_BUFFER_SIZE`. -/
def udpBufferSize : Nat := 2048

/-- A datagram of a visitor, or for one. -/
structure UdpTraffic where
  fromAddr : SocketAddr
  data : Bytes
deriving DecidableEq

end Rathole
