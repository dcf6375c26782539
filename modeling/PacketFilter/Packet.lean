import PacketFilter.Flags
import PacketFilter.Flow

/-!
# Packets and verdicts

A packet is what the filter may look at: headers have been read before, and the result is a
record. The transport header fields are there only for the first fragment of a datagram.
-/

namespace PacketFilter

/-! ## Direction -/

/-- Which way a packet travels through the filter. -/
inductive Direction where
  | inbound
  | outbound
  deriving DecidableEq, Repr, Inhabited

namespace Direction

/-- The direction in capitals. -/
def render : Direction → String
  | .inbound => "IN"
  | .outbound => "OUT"

/-- Lower case for the letters of ASCII, every other character as it is. -/
def lowerAscii (cs : List Char) : List Char :=
  cs.map fun c => if 'A' ≤ c ∧ c ≤ 'Z' then Char.ofNat (c.toNat + 32) else c

/-- Read `in` or `out`, in any mix of cases (`Direction::from_str`). -/
def ofText? (s : String) : Option Direction :=
  let lower := String.ofList (lowerAscii s.toList)
  if lower = "in" then some .inbound else if lower = "out" then some .outbound else none

/-- What is said about a text that is no direction. -/
def refusal (s : String) : String := "invalid direction: " ++ s

end Direction

/-! ## Headers -/

/-- The fields of a TCP header (`TcpInfo`). -/
structure TcpHeader where
  seq : UInt32
  ack : UInt32
  window : UInt16
  flags : TcpFlags
  options : TcpOptions
  deriving DecidableEq, Repr, Inhabited

/-- A network interface and its addresses (`Iface`). -/
structure Interface where
  name : String
  addresses : List Ipv4
  deriving DecidableEq, Repr, Inhabited

/-- The bytes of a name. -/
def nameBytes (s : String) : List UInt8 := s.toUTF8.data.toList

/-- A list of bytes as a vector, if it has the right number of them. -/
def octets? (n : Nat) (bytes : List UInt8) : Option (Vector UInt8 n) :=
  if h : bytes.length = n then some ⟨bytes.toArray, by simpa using h⟩ else none

/-- The fields of a link-layer header (`EtherHdr`). -/
structure EtherHeader where
  destination : Vector UInt8 6
  source : Vector UInt8 6
  etherType : UInt16
  deriving DecidableEq, Repr, Inhabited

/-! ## Packets -/

/-- Everything the filter may look at (`PacketDescriptor`). -/
structure Packet where
  flow : Flow
  direction : Direction
  /-- Seen at the link layer and not at the IP layer. -/
  layer2 : Bool := false
  /-- Length of the datagram in bytes. -/
  length : UInt16
  ipVersion : UInt8 := 4
  timeToLive : UInt8 := 64
  ipId : UInt16 := 0
  typeOfService : UInt8 := 0
  ipOptions : IpOptions := .none
  /-- Fragment offset in units of eight bytes, zero for a first fragment. -/
  fragmentOffset : UInt16 := 0
  tcp : Option TcpHeader := none
  icmpType : Option UInt8 := none
  received : Option Interface := none
  transmitted : Option Interface := none
  ether : Option EtherHeader := none
  /-- Broadcast or multicast, at either layer. -/
  broadcast : Bool := false
  sourceIsLocal : Bool := false
  destinationIsLocal : Bool := false
  /-- Built by the filter's own surroundings, and never filtered. -/
  generated : Bool := false
  /-- Number of the rule that diverted a packet coming back from a divert socket. -/
  divertTag : Option UInt16 := none
  deriving DecidableEq, Repr

namespace Packet

/-- Is it a TCP packet? -/
def isTcp (p : Packet) : Bool := p.flow.protocol == Protocol.tcp

/-- Is it a UDP packet? -/
def isUdp (p : Packet) : Bool := p.flow.protocol == Protocol.udp

/-- Is it a control message? -/
def isIcmp (p : Packet) : Bool := p.flow.protocol == Protocol.icmp

/-- A first fragment, whose transport header fields can be looked at (`has_ulp`). -/
def hasTransport (p : Packet) : Bool := p.fragmentOffset == 0

/-- The TCP header, if the packet is a first fragment of a TCP datagram. -/
def tcpHeader? (p : Packet) : Option TcpHeader :=
  if p.isTcp && p.hasTransport then p.tcp else none

/-- The TCP flags the packet came with, none if it has no TCP header. -/
def tcpFlags (p : Packet) : TcpFlags := (p.tcp.map TcpHeader.flags).getD .none

/-- Control messages that ask for an answer: echo, router solicitation, timestamp, information
and address mask requests. -/
def icmpQueries : List UInt8 := [8, 10, 13, 15, 17]

/-- Does the packet carry a control message that asks for an answer? -/
def isIcmpQuery (p : Packet) : Bool :=
  match p.icmpType with
  | some t => icmpQueries.contains t
  | none => false

end Packet

/-! ## Verdicts -/

/-- What is to happen to a packet. -/
inductive Verdict where
  | accept
  | deny
  /-- Dropped, and answered with a reset or an unreachable message. -/
  | reject (code : UInt16)
  | divert (target : UInt16)
  | tee (target : UInt16)
  /-- Queued in a pipe or a queue of the traffic shaper. -/
  | shape (id : UInt16) (pipe : Bool)
  | forward (address : Ipv4) (target : UInt16)
  deriving DecidableEq, Repr, Inhabited

namespace Verdict

/-- Does the packet go on its way, possibly elsewhere (`is_pass`)? -/
def passes : Verdict → Bool
  | .accept | .tee _ | .forward _ _ => true
  | _ => false

/-- The verdict as messages and tables show it. -/
def render : Verdict → String
  | .accept => "Accept"
  | .deny => "Deny"
  | .reject code => "Reject(" ++ hexMarked code.toNat ++ ")"
  | .divert target => "Divert(" ++ toString target.toNat ++ ")"
  | .tee target => "Tee(" ++ toString target.toNat ++ ")"
  | .shape id true => "Pipe(" ++ toString id.toNat ++ ")"
  | .shape id false => "Queue(" ++ toString id.toNat ++ ")"
  | .forward address target =>
    "Forward(" ++ address.render ++ ":" ++ toString target.toNat ++ ")"

end Verdict

end PacketFilter
