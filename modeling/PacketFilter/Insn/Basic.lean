import PacketFilter.AddressSet
import PacketFilter.Packet

/-!
# Instructions

A rule is a sequence of instructions: conditions on the packet, instructions that look up or
create state, and one action at the end. An instruction may be negated, and it may be joined with
the next one in an or-block.

Many instructions come in pairs that differ only in the end of the flow they look at; those are
one constructor with a `Side`. The interface instructions differ in the interface and are one
constructor with an `InterfaceRole`. Actions are a type of their own, so that what only an action
can do needs no case for anything else.
-/

namespace PacketFilter

/-! ## Parts of instructions -/

/-- An end of the flow. -/
inductive Side where
  | source
  | destination
  deriving DecidableEq, Repr

/-- Which interface an instruction looks at. -/
inductive InterfaceRole where
  /-- The one the packet was received on. -/
  | received
  /-- The one the packet is to be sent on. -/
  | transmitted
  /-- The one it is to be sent on, or if there is none the one it was received on. -/
  | either
  deriving DecidableEq, Repr

/-- How an instruction names an interface (`IfaceMatch`). -/
inductive InterfaceMatch where
  | address (a : Ipv4)
  | name (s : String)
  /-- A pattern with `*` and `?`. -/
  | glob (pattern : String)
  deriving DecidableEq, Repr

/-- A range of ports or link-layer types, both ends included. -/
structure PortRange where
  low : UInt16
  high : UInt16
  deriving DecidableEq, Repr, Inhabited

/-- Is the number in the range? One whose ends are the wrong way round holds nothing. -/
def PortRange.contains (r : PortRange) (n : UInt16) : Bool :=
  decide (r.low ≤ n) && decide (n ≤ r.high)

/-- What a rule does with a packet that it matches (the actions among `Cmd`). -/
inductive Action where
  /-- Look for state, and do nothing else. -/
  | checkState
  | accept
  | deny
  /-- Drop the packet and answer with an unreachable code, or with a reset. -/
  | reject (code : UInt16)
  /-- Count the packet and go on. -/
  | count
  /-- Go on at the first later rule numbered at or above the target. -/
  | skipTo (target : UInt16)
  | pipe (id : UInt16)
  | queue (id : UInt16)
  | divert (target : UInt16)
  | tee (target : UInt16)
  | forward (address : Ipv4) (target : UInt16)
  deriving DecidableEq, Repr, Inhabited

namespace Action

/-- The code that asks for a reset and not for an unreachable message (`ICMP_REJECT_RST`). -/
def resetCode : UInt16 := 0x100

end Action

/-! ## Commands and instructions -/

/-- What an instruction asks for, apart from its modifiers (`Cmd`). -/
inductive Command where
  | nop
  | protocol (p : Protocol)
  | address (side : Side) (a : Ipv4)
  | maskedAddress (side : Side) (a mask : Ipv4)
  /-- The address at that end is one of this host's own. -/
  | ownAddress (side : Side)
  | addressSet (side : Side) (set : AddressSet)
  | ports (side : Side) (ranges : List PortRange)
  /-- Destination and then source address of the link-layer header, under a mask. -/
  | macAddress (wanted mask : Vector UInt8 12)
  | macType (ranges : List PortRange)
  | layer2
  | inbound
  | fragment
  | interface (role : InterfaceRole) (m : InterfaceMatch)
  | ipOptions (set clear : IpOptions)
  | ipLength (n : UInt16)
  | ipId (n : UInt16)
  | typeOfService (set clear : UInt8)
  | precedence (n : UInt8)
  | timeToLive (n : UInt8)
  | ipVersion (n : UInt8)
  | established
  | tcpFlags (set clear : TcpFlags)
  | tcpWindow (n : UInt16)
  | tcpSeq (n : UInt32)
  | tcpAck (n : UInt32)
  /-- Bit `n` of the word stands for control message type `n`. -/
  | icmpTypes (bits : Word)
  | tcpOptions (set clear : TcpOptions)
  /-- True with the probability `p` out of the largest word; the largest word itself is certain. -/
  | probability (p : UInt32)
  | probeState
  | keepState
  /-- At most `connections` entries at a time for each key made of these parts of a flow. -/
  | limit (parts : LimitParts) (connections : UInt16)
  /-- Log at most so many times; zero leaves the number to the configuration. -/
  | log (budget : UInt32)
  | act (a : Action)
  deriving DecidableEq, Repr

namespace Command

/-- Does the command end a rule? -/
def isAction : Command → Bool
  | .act _ => true
  | _ => false

/-- Does the command create state where it is reached? -/
def createsState : Command → Bool
  | .keepState | .limit _ _ => true
  | _ => false

/-- Does the command write a log line? -/
def isLog : Command → Bool
  | .log _ => true
  | _ => false

/-- The probability that stands for certainty. -/
def certain : UInt32 := 0xffffffff

/-- Does the command ask for a random draw? What is certain is not left to one. -/
def isRandom : Command → Bool
  | .probability p => p != certain
  | _ => false

/-- Does the command depend on nothing but the packet and the random draw? -/
def isPredicate : Command → Bool
  | .probeState | .keepState | .limit _ _ | .log _ | .act _ => false
  | _ => true

end Command

/-- A command and its modifiers. -/
structure Insn where
  command : Command
  modifiers : Modifiers := .none
  deriving DecidableEq, Repr

namespace Insn

/-- Is the sense of the instruction inverted? -/
def isNot (i : Insn) : Bool := i.modifiers.includes Modifiers.negated

/-- Is the instruction joined with the next one? -/
def isOr (i : Insn) : Bool := i.modifiers.includes Modifiers.joined

end Insn

/-! ## Operation codes -/

/-- The operation codes of the word encoding. -/
inductive Opcode where
  | nop | proto | ipSrc | ipDst | ipSrcMask | ipDstMask | ipSrcMe | ipDstMe | ipSrcSet | ipDstSet
  | ipSrcPort | ipDstPort | macAddr2 | macType | layer2 | inbound | frag | recv | xmit | via
  | ipOpt | ipLen | ipId | ipTos | ipPrecedence | ipTtl | ipVer | estab | tcpFlags | tcpWin
  | tcpSeq | tcpAck | icmpType | tcpOpts | prob | probeState | keepState | limit | log
  | checkState | accept | deny | reject | count | skipto | pipe | queue | divert | tee | forwardIp
  deriving DecidableEq, Repr

namespace Opcode

/-- Every operation code with its number and its name. Number 39 is not in use. -/
def table : List (Opcode × UInt8 × String) :=
  [(.nop, 0, "Nop"), (.proto, 1, "Proto"), (.ipSrc, 2, "IpSrc"), (.ipDst, 3, "IpDst"),
    (.ipSrcMask, 4, "IpSrcMask"), (.ipDstMask, 5, "IpDstMask"), (.ipSrcMe, 6, "IpSrcMe"),
    (.ipDstMe, 7, "IpDstMe"), (.ipSrcSet, 8, "IpSrcSet"), (.ipDstSet, 9, "IpDstSet"),
    (.ipSrcPort, 10, "IpSrcPort"), (.ipDstPort, 11, "IpDstPort"), (.macAddr2, 12, "MacAddr2"),
    (.macType, 13, "MacType"), (.layer2, 14, "Layer2"), (.inbound, 15, "In"), (.frag, 16, "Frag"),
    (.recv, 17, "Recv"), (.xmit, 18, "Xmit"), (.via, 19, "Via"), (.ipOpt, 20, "IpOpt"),
    (.ipLen, 21, "IpLen"), (.ipId, 22, "IpId"), (.ipTos, 23, "IpTos"),
    (.ipPrecedence, 24, "IpPrecedence"), (.ipTtl, 25, "IpTtl"), (.ipVer, 26, "IpVer"),
    (.estab, 27, "Estab"), (.tcpFlags, 28, "TcpFlags"), (.tcpWin, 29, "TcpWin"),
    (.tcpSeq, 30, "TcpSeq"), (.tcpAck, 31, "TcpAck"), (.icmpType, 32, "IcmpType"),
    (.tcpOpts, 33, "TcpOpts"), (.prob, 34, "Prob"), (.probeState, 35, "ProbeState"),
    (.keepState, 36, "KeepState"), (.limit, 37, "Limit"), (.log, 38, "Log"),
    (.checkState, 40, "CheckState"), (.accept, 41, "Accept"), (.deny, 42, "Deny"),
    (.reject, 43, "Reject"), (.count, 44, "Count"), (.skipto, 45, "Skipto"), (.pipe, 46, "Pipe"),
    (.queue, 47, "Queue"), (.divert, 48, "Divert"), (.tee, 49, "Tee"),
    (.forwardIp, 50, "ForwardIp")]

/-- The number of an operation code. -/
def number (op : Opcode) : UInt8 := ((table.lookup op).map Prod.fst).getD 0

/-- The name of an operation code. -/
def name (op : Opcode) : String := ((table.lookup op).map Prod.snd).getD ""

/-- The operation code with a number (`Opcode::try_from`). -/
def ofNumber? (n : UInt8) : Option Opcode := (table.find? fun row => row.2.1 == n).map Prod.fst

/-- Numbers identify operation codes. -/
@[simp] theorem ofNumber?_number (op : Opcode) : ofNumber? op.number = some op := by
  cases op <;> decide

theorem number_of_ofNumber? {n : UInt8} {op : Opcode} (h : ofNumber? n = some op) :
    op.number = n := by
  obtain ⟨row, hrow, rfl⟩ := Option.map_eq_some_iff.1 h
  have hn := List.find?_some hrow
  have hmem := List.mem_of_find?_eq_some hrow
  have hall : ∀ r ∈ table, r.1.number = r.2.1 := by decide
  rw [hall row hmem]
  simpa using hn

end Opcode

/-- The operation code of an action. -/
def Action.opcode : Action → Opcode
  | .checkState => .checkState
  | .accept => .accept
  | .deny => .deny
  | .reject _ => .reject
  | .count => .count
  | .skipTo _ => .skipto
  | .pipe _ => .pipe
  | .queue _ => .queue
  | .divert _ => .divert
  | .tee _ => .tee
  | .forward _ _ => .forwardIp

/-- The operation code of a command (`Cmd::opcode`). -/
def Command.opcode : Command → Opcode
  | .nop => .nop
  | .protocol _ => .proto
  | .address .source _ => .ipSrc
  | .address .destination _ => .ipDst
  | .maskedAddress .source _ _ => .ipSrcMask
  | .maskedAddress .destination _ _ => .ipDstMask
  | .ownAddress .source => .ipSrcMe
  | .ownAddress .destination => .ipDstMe
  | .addressSet .source _ => .ipSrcSet
  | .addressSet .destination _ => .ipDstSet
  | .ports .source _ => .ipSrcPort
  | .ports .destination _ => .ipDstPort
  | .macAddress _ _ => .macAddr2
  | .macType _ => .macType
  | .layer2 => .layer2
  | .inbound => .inbound
  | .fragment => .frag
  | .interface .received _ => .recv
  | .interface .transmitted _ => .xmit
  | .interface .either _ => .via
  | .ipOptions _ _ => .ipOpt
  | .ipLength _ => .ipLen
  | .ipId _ => .ipId
  | .typeOfService _ _ => .ipTos
  | .precedence _ => .ipPrecedence
  | .timeToLive _ => .ipTtl
  | .ipVersion _ => .ipVer
  | .established => .estab
  | .tcpFlags _ _ => .tcpFlags
  | .tcpWindow _ => .tcpWin
  | .tcpSeq _ => .tcpSeq
  | .tcpAck _ => .tcpAck
  | .icmpTypes _ => .icmpType
  | .tcpOptions _ _ => .tcpOpts
  | .probability _ => .prob
  | .probeState => .probeState
  | .keepState => .keepState
  | .limit _ _ => .limit
  | .log _ => .log
  | .act a => a.opcode

end PacketFilter
