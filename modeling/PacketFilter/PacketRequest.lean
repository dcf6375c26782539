import PacketFilter.Rule.Basic

/-!
# Requests for packets

The filter builds no packets and queues none. Where a reset, an unreachable message, a keepalive
probe, a shaper or a divert socket is needed, it says so, and its surroundings see to it. A packet
that is handed out comes back with the rule that handed it out, and goes on behind that rule.
-/

namespace PacketFilter

/-- What the filter asks of its surroundings (`PacketIo`). -/
inductive PacketRequest where
  /-- Answer a packet of the flow with a reset or an unreachable message
  (`send_reset_or_icmp_unreachable`). -/
  | reject (flow : Flow) (code : UInt16)
  /-- Send an empty TCP segment along the flow (`send_tcp_probe`). -/
  | probe (flow : Flow) (seq ack : UInt32) (flags : TcpFlags)
  /-- Put a packet into a pipe or a queue of the shaper (`enqueue_to_shaper`). -/
  | shape (flow : Flow) (id : UInt16) (pipe : Bool) (rule : Rule)
  /-- Hand a packet, or a copy of it, to a divert socket (`divert_or_tee`). -/
  | divert (flow : Flow) (target : UInt16) (copy : Bool) (rule : Rule)
  deriving DecidableEq, Repr

/-- The rule behind which a packet that is handed out goes on. -/
def PacketRequest.rule? : PacketRequest → Option Rule
  | .shape _ _ _ rule | .divert _ _ _ rule => some rule
  | _ => none

end PacketFilter
