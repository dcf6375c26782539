import PacketFilter.Schema.Insn

/-!
# Schemas of packets

How flows and packets are written. Of a packet only the flow, the direction and the length must be
given.
-/

namespace PacketFilter.Schema

/-- A flow. -/
def flow : Schema Flow :=
  .record "FlowId"
    (Fields.start Flow.mk
      |>.field "src_ip" word Flow.source
      |>.field "dst_ip" word Flow.destination
      |>.field "src_port" half Flow.sourcePort
      |>.field "dst_port" half Flow.destinationPort
      |>.field "proto" byte Flow.protocol
      |>.field "flags" byte Flow.flags)

/-- The direction of a packet. -/
def direction : Schema Direction := .choice [.bare "In" .inbound, .bare "Out" .outbound]

/-- A TCP header. -/
def tcpHeader : Schema TcpHeader :=
  .record "TcpInfo"
    (Fields.start TcpHeader.mk
      |>.field "seq" word TcpHeader.seq
      |>.field "ack" word TcpHeader.ack
      |>.field "win" half TcpHeader.window
      |>.field "flags" tcpFlags TcpHeader.flags
      |>.field "opts" tcpOptions TcpHeader.options)

/-- An interface and its addresses. -/
def interface : Schema Interface :=
  .record "Iface"
    (Fields.start Interface.mk
      |>.field "name" text Interface.name
      |>.field "addrs" (list word) Interface.addresses)

/-- A link-layer header. -/
def etherHeader : Schema EtherHeader :=
  .record "EtherHdr"
    (Fields.start EtherHeader.mk
      |>.field "dst" (octets 6) EtherHeader.destination
      |>.field "src" (octets 6) EtherHeader.source
      |>.field "ether_type" half EtherHeader.etherType)

/-- A packet. -/
def packet : Schema Packet :=
  .record "PacketDescriptor"
    (Fields.start Packet.mk
      |>.field "flow_id" flow Packet.flow
      |>.field "dir" direction Packet.direction
      |>.field "layer2" switch Packet.layer2 (some false)
      |>.field "ip_len" half Packet.length
      |>.field "ip_ver" byte Packet.ipVersion (some 4)
      |>.field "ip_ttl" byte Packet.timeToLive (some 64)
      |>.field "ip_id" half Packet.ipId (some 0)
      |>.field "ip_tos" byte Packet.typeOfService (some 0)
      |>.field "ip_opts" ipOptions Packet.ipOptions (some .none)
      |>.field "frag_offset" half Packet.fragmentOffset (some 0)
      |>.field "tcp" (optional tcpHeader) Packet.tcp (some none)
      |>.field "icmp_type" (optional byte) Packet.icmpType (some none)
      |>.field "recv_if" (optional interface) Packet.received (some none)
      |>.field "xmit_if" (optional interface) Packet.transmitted (some none)
      |>.field "ether" (optional etherHeader) Packet.ether (some none)
      |>.field "bcast_or_mcast" switch Packet.broadcast (some false)
      |>.field "src_is_local" switch Packet.sourceIsLocal (some false)
      |>.field "dst_is_local" switch Packet.destinationIsLocal (some false)
      |>.field "generated" switch Packet.generated (some false)
      |>.field "divert_tag" (optional half) Packet.divertTag (some none))

end PacketFilter.Schema
