import PacketFilter.Glob
import PacketFilter.Insn.Basic

/-!
# Conditions on a packet

`Command.holds` says whether a packet meets the condition that a command states, before the
modifiers of the instruction are taken into account. Conditions on the IP header hold of version
4 only, and conditions on a transport header only where that header can be looked at.

A condition with a probability compares it with a random draw, which is an argument.
-/

namespace PacketFilter

/-- Are all bits of `set` there and none of `clear` (`flags_match`)? -/
def bitsMatch (bits set clear : UInt8) : Bool := bits &&& set == set && bits &&& clear == 0

/-- Is the number in one of the ranges (`ports_match`)? -/
def PortRange.anyContains (ranges : List PortRange) (n : UInt16) : Bool :=
  ranges.any (·.contains n)

/-- Does the interface have the name or address (`iface_match`)? No interface has none. -/
def InterfaceMatch.matches (m : InterfaceMatch) : Option Interface → Bool
  | none => false
  | some i =>
    match m with
    | .address a => i.addresses.contains a
    | .name s => i.name == s
    | .glob pattern => Glob.matchBytes (nameBytes pattern) (nameBytes i.name)

namespace Flow

/-- The address at an end. -/
def address (f : Flow) : Side → Ipv4
  | .source => f.source
  | .destination => f.destination

/-- The port at an end. -/
def port (f : Flow) : Side → UInt16
  | .source => f.sourcePort
  | .destination => f.destinationPort

end Flow

namespace Packet

/-- Is it a datagram of IP version 4? -/
def isIpv4 (p : Packet) : Bool := p.ipVersion == 4

/-- Is the address at an end one of this host's own? -/
def isLocal (p : Packet) : Side → Bool
  | .source => p.sourceIsLocal
  | .destination => p.destinationIsLocal

/-- The interface that an instruction looks at. -/
def interface (p : Packet) : InterfaceRole → Option Interface
  | .received => p.received
  | .transmitted => p.transmitted
  | .either => p.transmitted.or p.received

/-- Can the ports be looked at? -/
def hasPorts (p : Packet) : Bool := (p.isTcp || p.isUdp) && p.hasTransport

/-- Does the TCP header, if it can be looked at, meet a condition? -/
def tcpMeets (p : Packet) (condition : TcpHeader → Bool) : Bool := p.tcpHeader?.any condition

/-- Do the twelve address bytes of the link-layer header agree with those wanted, under a mask? -/
def macMatches (p : Packet) (wanted mask : Vector UInt8 12) : Bool :=
  p.ether.any fun e =>
    ((e.destination.toList ++ e.source.toList).zip (wanted.toList.zip mask.toList)).all
      fun b => b.1 &&& b.2.2 == b.2.1

end Packet

/-- Does the packet meet the condition (`is_match`)? A command that is no condition on the packet is
met. -/
def Command.holds (c : Command) (pkt : Packet) (draw : UInt32) : Bool :=
  match c with
  | .protocol p => pkt.flow.protocol == p
  | .address side a => pkt.isIpv4 && pkt.flow.address side == a
  | .maskedAddress side a mask => pkt.isIpv4 && pkt.flow.address side &&& mask == a
  | .ownAddress side => pkt.isIpv4 && pkt.isLocal side
  | .addressSet side s => pkt.isIpv4 && s.contains (pkt.flow.address side)
  | .ports side ranges => pkt.hasPorts && PortRange.anyContains ranges (pkt.flow.port side)
  | .macAddress wanted mask => pkt.macMatches wanted mask
  | .macType ranges => pkt.ether.any fun e => PortRange.anyContains ranges e.etherType
  | .layer2 => pkt.layer2
  | .inbound => pkt.direction == .inbound
  | .fragment => pkt.fragmentOffset != 0
  | .interface role m => m.matches (pkt.interface role)
  | .ipOptions set clear => pkt.isIpv4 && bitsMatch pkt.ipOptions.bits set.bits clear.bits
  | .ipLength n => pkt.isIpv4 && pkt.length == n
  | .ipId n => pkt.isIpv4 && pkt.ipId == n
  | .typeOfService set clear => pkt.isIpv4 && bitsMatch pkt.typeOfService set clear
  | .precedence n => pkt.isIpv4 && pkt.typeOfService &&& 0xe0 == n
  | .timeToLive n => pkt.isIpv4 && pkt.timeToLive == n
  | .ipVersion n => pkt.ipVersion == n
  | .established => pkt.tcpMeets fun h => h.flags.meets (TcpFlags.rst.union TcpFlags.ack)
  | .tcpFlags set clear => pkt.tcpMeets fun h => bitsMatch h.flags.bits set.bits clear.bits
  | .tcpOptions set clear => pkt.tcpMeets fun h => bitsMatch h.options.bits set.bits clear.bits
  | .tcpWindow n => pkt.tcpMeets fun h => h.window == n
  | .tcpSeq n => pkt.tcpMeets fun h => h.seq == n
  | .tcpAck n => pkt.tcpMeets fun h => h.ack == n
  | .icmpTypes bits =>
    pkt.isIcmp && pkt.hasTransport && pkt.icmpType.any fun t => Word.hasBit bits t.toNat
  | .probability p => p == Command.certain || decide (draw < p)
  | .nop | .probeState | .keepState | .limit _ _ | .log _ | .act _ => true

/-- A packet satisfies an instruction if it meets its condition, or fails it where the sense is
inverted. -/
def Insn.satisfied (i : Insn) (pkt : Packet) (draw : UInt32) : Bool :=
  i.command.holds pkt draw != i.isNot

end PacketFilter
