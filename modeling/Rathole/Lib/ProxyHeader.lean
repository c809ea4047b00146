import Rathole.Lib.Codec
import Rathole.Lib.Numerals

/-!
# The PROXY protocol

Its two headers as a receiver takes them: the line of version 1 as a grammar,
the binary header of version 2 as a reader.

A line has an IPv6 address in groups of hexadecimal digits. Some receivers
take an IPv4 address for the last two groups, as in other texts; whether the
grammar does is the parameter `dotted`.
-/

namespace ProxyHeader

open Codec Numerals

/-! ## Version 1 -/

structure Octet (n : ℕ) (text : Text) : Prop where
  decimal : Decimal n text
  lt : n < 256

inductive Ipv4 : List ℕ → Text → Prop where
  | octets {octets : List ℕ} {parts : List Text} (hlen : octets.length = 4)
      (h : List.Forall₂ Octet octets parts) : Ipv4 octets (join 46 parts)

/-- Up to four digits, of either case and with zeros in front. -/
structure Group (n : ℕ) (text : Text) : Prop where
  numeral : Numeral 16 n text
  length : text.length ≤ 4

/-- What stands behind the groups that are written in digits. -/
inductive Tail (dotted : Bool) : List ℕ → List Text → Prop where
  | nothing : Tail dotted [] []
  | ipv4 {a b c d : ℕ} {text : Text} (hdotted : dotted = true)
      (h : Ipv4 [a, b, c, d] text) :
      Tail dotted [a * 256 + b, c * 256 + d] [text]

/-- Eight groups, or fewer and a `::` in place of the longest run of zeros. -/
inductive Ipv6 (dotted : Bool) : List ℕ → Text → Prop where
  | whole {groups tail : List ℕ} {parts last : List Text}
      (h : List.Forall₂ Group groups parts) (htail : Tail dotted tail last)
      (hlen : groups.length + tail.length = 8) :
      Ipv6 dotted (groups ++ tail) (join 58 (parts ++ last))
  | short {pre post tail : List ℕ} {parts parts' last : List Text} {n : ℕ}
      (hpre : List.Forall₂ Group pre parts)
      (hpost : List.Forall₂ Group post parts') (htail : Tail dotted tail last)
      (hpos : 0 < n)
      (hlen : pre.length + n + post.length + tail.length = 8)
      (hmax : ∀ m, List.replicate m 0 <:+: pre ++ List.replicate n 0 ++ post →
        m ≤ n) :
      Ipv6 dotted (pre ++ List.replicate n 0 ++ post ++ tail)
        (join 58 parts ++ [58, 58] ++ join 58 (parts' ++ last))

structure Port (n : ℕ) (text : Text) : Prop where
  decimal : Decimal n text
  lt : n < 65536

inductive V1Header where
  | tcp4 (src dst : List ℕ) (srcPort dstPort : ℕ)
  | tcp6 (src dst : List ℕ) (srcPort dstPort : ℕ)

def crlf : Text := [13, 10]

def line (protocol src dst srcPort dstPort : Text) : Text :=
  join 32 [ascii "PROXY", protocol, src, dst, srcPort, dstPort] ++ crlf

/-- The lines of a proxied connection; those for an unknown one are not here. -/
inductive V1Line (dotted : Bool) : V1Header → Text → Prop where
  | tcp4 {src dst : List ℕ} {p q : ℕ} {s d sp dp : Text} (hs : Ipv4 src s)
      (hd : Ipv4 dst d) (hsp : Port p sp) (hdp : Port q dp) :
      V1Line dotted (.tcp4 src dst p q) (line (ascii "TCP4") s d sp dp)
  | tcp6 {src dst : List ℕ} {p q : ℕ} {s d sp dp : Text}
      (hs : Ipv6 dotted src s) (hd : Ipv6 dotted dst d) (hsp : Port p sp)
      (hdp : Port q dp) :
      V1Line dotted (.tcp6 src dst p q) (line (ascii "TCP6") s d sp dp)

section V1

variable {dotted : Bool} {header : V1Header} {text : Text}

theorem take_line {protocol src dst srcPort dstPort : Text}
    (h : protocol.length = 4) :
    ((line protocol src dst srcPort dstPort).drop 6).take 4 = protocol := by
  have hproxy : ascii "PROXY" = [80, 82, 79, 88, 89] := by decide
  unfold line join
  rw [hproxy]
  simp [List.intercalate_cons_cons, h]

theorem digitValue_dot : digitValue 46 = none := by decide

theorem no_dot_groups {groups : List ℕ} {parts : List Text}
    (h : List.Forall₂ Group groups parts) : 46 ∉ join 58 parts := by
  have hparts : ∀ part ∈ parts, 46 ∉ part := by
    induction h with
    | nil => exact fun part hpart => absurd hpart List.not_mem_nil
    | cons hgroup _ ih =>
        intro part hpart hdot
        rcases List.mem_cons.mp hpart with rfl | hpart
        · exact hgroup.numeral.digits 46 hdot digitValue_dot
        · exact ih part hpart hdot
  intro hmem
  rcases mem_join hmem with heq | ⟨part, hpart, hdot⟩
  · exact absurd heq (by decide)
  · exact hparts part hpart hdot

/-- Without IPv4 tails there is no dot in an IPv6 address. -/
theorem Ipv6.no_dot {groups : List ℕ} (h : Ipv6 false groups text) :
    46 ∉ text := by
  cases h with
  | whole h htail =>
      cases htail with
      | nothing =>
          rw [List.append_nil]
          exact no_dot_groups h
      | ipv4 hdotted => cases hdotted
  | short hpre hpost htail =>
      cases htail with
      | nothing =>
          rw [List.append_nil]
          intro hdot
          simp only [List.mem_append] at hdot
          rcases hdot with (hdot | hdot) | hdot
          · exact no_dot_groups hpre hdot
          · exact absurd hdot (by decide)
          · exact no_dot_groups hpost hdot
      | ipv4 hdotted => cases hdotted

/-- Nor in a line for IPv6. -/
theorem V1Line.no_dot (h : V1Line false header text)
    (hprotocol : (text.drop 6).take 4 = ascii "TCP6") : 46 ∉ text := by
  cases h with
  | tcp4 hs hd hsp hdp =>
      rw [take_line (by decide)] at hprotocol
      exact absurd hprotocol (by decide)
  | tcp6 hs hd hsp hdp =>
      intro hmem
      unfold line at hmem
      rcases List.mem_append.mp hmem with hmem | hmem
      · rcases mem_join hmem with heq | ⟨part, hpart, hdot⟩
        · exact absurd heq (by decide)
        · simp only [List.mem_cons, List.not_mem_nil, or_false] at hpart
          rcases hpart with rfl | rfl | rfl | rfl | rfl | rfl
          · exact absurd hdot (by decide)
          · exact absurd hdot (by decide)
          · exact hs.no_dot hdot
          · exact hd.no_dot hdot
          · exact hsp.decimal.numeral.digits 46 hdot digitValue_dot
          · exact hdp.decimal.numeral.digits 46 hdot digitValue_dot
      · exact absurd hmem (by decide)

end V1

/-! ## Version 2 -/

inductive Command where
  | localConn
  | proxy
deriving DecidableEq

inductive Transport where
  | unspec
  | stream
  | dgram
deriving DecidableEq

inductive Addresses where
  | unspec
  | inet (src dst : List UInt8) (srcPort dstPort : ℕ)
  | inet6 (src dst : List UInt8) (srcPort dstPort : ℕ)
  | unix (src dst : List UInt8)
deriving DecidableEq

structure V2Header where
  command : Command
  transport : Transport
  addresses : Addresses
  /-- How many bytes stand behind the length field. -/
  length : ℕ
  /-- Those of them behind the addresses. -/
  extra : List UInt8
deriving DecidableEq

def signature : List UInt8 :=
  [0x0D, 0x0A, 0x0D, 0x0A, 0x00, 0x0D, 0x0A, 0x51, 0x55, 0x49, 0x54, 0x0A]

def toCommand : ℕ → Option Command
  | 0 => some .localConn
  | 1 => some .proxy
  | _ => none

def toTransport : ℕ → Option Transport
  | 0 => some .unspec
  | 1 => some .stream
  | 2 => some .dgram
  | _ => none

def readUint (w : ℕ) : Reader UInt8 ℕ := do
  let bytes ← takeExact w
  return ofBe bytes

def readInet (width : ℕ) (mk : List UInt8 → List UInt8 → ℕ → ℕ → Addresses) :
    Reader UInt8 Addresses := do
  let src ← takeExact width
  let dst ← takeExact width
  let srcPort ← readUint 2
  let dstPort ← readUint 2
  return mk src dst srcPort dstPort

def readAddresses : ℕ → Reader UInt8 Addresses
  | 0 => pure .unspec
  | 1 => readInet 4 .inet
  | 2 => readInet 16 .inet6
  | 3 => do
      let src ← takeExact 108
      let dst ← takeExact 108
      return .unix src dst
  | _ => failure

def readV2 : Reader UInt8 V2Header := do
  let start ← takeExact 12
  guard (start = signature)
  let versionCommand ← readUint 1
  guard (versionCommand / 16 = 2)
  let command ← liftM (toCommand (versionCommand % 16))
  let familyTransport ← readUint 1
  let transport ← liftM (toTransport (familyTransport % 16))
  let length ← readUint 2
  let block ← takeExact length
  let (addresses, extra) ←
    liftM ((readAddresses (familyTransport / 16)).run block)
  return { command, transport, addresses, length, extra }

section V2

theorem parses_readUint {w n : ℕ} (h : n < 256 ^ w) :
    Parses (readUint w) (toBe w n) n := by
  have hread := (parses_takeExact (length_toBe w n)).ret ofBe
  rwa [ofBe_toBe_of_lt h] at hread

theorem parses_readUint_one (b : UInt8) :
    Parses (readUint 1) [b] b.toNat := by
  have htake : Parses (takeExact 1) [b] [b] := parses_takeExact rfl
  exact htake.ret ofBe

theorem parses_readInet {width p q : ℕ} {src dst : List UInt8}
    {mk : List UInt8 → List UInt8 → ℕ → ℕ → Addresses}
    (hsrc : src.length = width) (hdst : dst.length = width)
    (hp : p < 256 ^ 2) (hq : q < 256 ^ 2) :
    Parses (readInet width mk) (src ++ (dst ++ (toBe 2 p ++ toBe 2 q)))
      (mk src dst p q) := by
  unfold readInet
  apply (parses_takeExact hsrc).bind
  apply (parses_takeExact hdst).bind
  apply (parses_readUint hp).bind
  exact (parses_readUint hq).ret _

/-- **A header is read** as its two bytes and its addresses say. -/
theorem parses_readV2 {first second : UInt8} {command : Command}
    {transport : Transport} {block : List UInt8} {addresses : Addresses}
    (hversion : first.toNat / 16 = 2)
    (hcommand : toCommand (first.toNat % 16) = some command)
    (htransport : toTransport (second.toNat % 16) = some transport)
    (haddresses : Parses (readAddresses (second.toNat / 16)) block addresses)
    (hlength : block.length < 256 ^ 2) :
    Parses readV2
      (signature ++ ([first] ++ ([second] ++ (toBe 2 block.length ++ block))))
      { command, transport, addresses, length := block.length,
        extra := [] } := by
  have hblock : (readAddresses (second.toNat / 16)).run block =
      some (addresses, []) := by
    have h := haddresses []
    rwa [List.append_nil] at h
  unfold readV2
  apply (parses_takeExact (show signature.length = 12 from rfl)).bind
  apply (parses_guard rfl).nil_bind
  apply (parses_readUint_one first).bind
  apply (parses_guard hversion).nil_bind
  apply (parses_lift _ hcommand).nil_bind
  apply (parses_readUint_one second).bind
  apply (parses_lift _ htransport).nil_bind
  apply (parses_readUint hlength).bind
  apply (parses_takeExact rfl).bind_nil
  apply (parses_lift _ hblock).nil_bind
  exact parses_pure _

end V2

end ProxyHeader
