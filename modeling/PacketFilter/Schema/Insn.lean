import PacketFilter.Rule.Image
import PacketFilter.Schema.Basic

/-!
# Schemas of rules

How instructions and rules are written (`Insn`, `RuleDef`, `IocRule`): the names of commands, of
their fields, and of the fields of rules.
-/

namespace PacketFilter.Schema

/-! ## Parts -/

/-- A flag set is the text of its flags, in the tagged style in a wrapper. -/
def flags (k : FlagKind) (type : String) : Schema (Flags k) where
  read
    | .tagged p, l =>
      ((l.wrapped? type p.conventions).bind Literal.string?).bind (Flags.ofText? k)
    | .plain, l => l.string?.bind (Flags.ofText? k)
  write f := .text f.render

/-- Modifiers of an instruction. -/
def modifiers : Schema Modifiers := flags .modifier "InsnFlags"

/-- Flags of a TCP segment. -/
def tcpFlags : Schema TcpFlags := flags .tcpFlag "TcpFlags"

/-- Options of a TCP segment. -/
def tcpOptions : Schema TcpOptions := flags .tcpOption "TcpOpts"

/-- Options of a datagram. -/
def ipOptions : Schema IpOptions := flags .ipOption "IpOpts"

/-- Parts of a flow. -/
def limitParts : Schema LimitParts := flags .limitPart "LimitMask"

/-- So many bytes. -/
def octets (n : Nat) : Schema (Vector UInt8 n) := (tuple byte).convert (octets? n) Vector.toList

/-- A range of ports. -/
def portRange : Schema PortRange :=
  .record "PortRange"
    (Fields.start PortRange.mk
      |>.field "lo" half PortRange.low
      |>.field "hi" half PortRange.high)

/-- Ranges of ports. -/
def portRanges : Schema (List PortRange) := list portRange

/-- A set of addresses. -/
def addressSet : Schema AddressSet :=
  .record "AddrSet"
    (Fields.start AddressSet.mk
      |>.field "base" word AddressSet.base
      |>.field "size" half AddressSet.size
      |>.field "bitmap" (list word) AddressSet.bitmap)

/-- An interface by address, name or pattern. -/
def interfaceMatch : Schema InterfaceMatch :=
  .choice
    [.value "Addr" word .address fun | .address a => some a | _ => none,
      .value "Name" text .name fun | .name s => some s | _ => none,
      .value "Glob" text .glob fun | .glob s => some s | _ => none]

/-! ## Commands -/

/-- The actions. -/
def actionCases : List (Case Action) :=
  [.bare "CheckState" .checkState, .bare "Accept" .accept, .bare "Deny" .deny,
    .value "Reject" half .reject fun | .reject n => some n | _ => none,
    .bare "Count" .count,
    .value "Skipto" half .skipTo fun | .skipTo n => some n | _ => none,
    .value "Pipe" half .pipe fun | .pipe n => some n | _ => none,
    .value "Queue" half .queue fun | .queue n => some n | _ => none,
    .value "Divert" half .divert fun | .divert n => some n | _ => none,
    .value "Tee" half .tee fun | .tee n => some n | _ => none,
    .fields "ForwardIp" (.pair "addr" word "port" half) (fun p => .forward p.1 p.2)
      fun | .forward a n => some (a, n) | _ => none]

/-- A case for each end of the flow. -/
def sided {α : Type} (case : String → Side → Case α) : List (Case α) :=
  [case "Src" .source, case "Dst" .destination]

/-- Conditions on addresses and ports. -/
def endCases : List (Case Command) :=
  sided (fun name side => .value (name ++ "Ip") word (.address side)
      fun | .address s a => if s = side then some a else none | _ => none) ++
    sided (fun name side =>
      .fields (name ++ "IpMask") (.pair "addr" word "mask" word)
        (fun p => .maskedAddress side p.1 p.2)
        fun | .maskedAddress s a m => if s = side then some (a, m) else none | _ => none) ++
    sided (fun name side => .bare (name ++ "IpMe") (.ownAddress side)) ++
    sided (fun name side => .value (name ++ "IpSet") addressSet (.addressSet side)
      fun | .addressSet s set => if s = side then some set else none | _ => none) ++
    sided (fun name side => .value (name ++ "Port") portRanges (.ports side)
      fun | .ports s rs => if s = side then some rs else none | _ => none)

/-- A condition on an interface. -/
def interfaceCase (name : String) (role : InterfaceRole) : Case Command :=
  .value name interfaceMatch (.interface role)
    fun | .interface r m => if r = role then some m else none | _ => none

/-- Conditions on the link-layer header, the direction and the interfaces. -/
def linkCases : List (Case Command) :=
  [.fields "MacAddr" (.pair "addr" (octets 12) "mask" (octets 12))
      (fun p => .macAddress p.1 p.2) fun | .macAddress a m => some (a, m) | _ => none,
    .value "MacType" portRanges .macType fun | .macType rs => some rs | _ => none,
    .bare "Layer2" .layer2, .bare "In" .inbound,
    interfaceCase "Recv" .received, interfaceCase "Xmit" .transmitted,
    interfaceCase "Via" .either]

/-- Conditions on the IP header. -/
def ipCases : List (Case Command) :=
  [.value "Proto" byte .protocol fun | .protocol n => some n | _ => none,
    .bare "Frag" .fragment,
    .fields "IpOpts" (.pair "set" ipOptions "clear" ipOptions) (fun p => .ipOptions p.1 p.2)
      fun | .ipOptions s c => some (s, c) | _ => none,
    .value "IpLen" half .ipLength fun | .ipLength n => some n | _ => none,
    .value "IpId" half .ipId fun | .ipId n => some n | _ => none,
    .fields "IpTos" (.pair "set" byte "clear" byte) (fun p => .typeOfService p.1 p.2)
      fun | .typeOfService s c => some (s, c) | _ => none,
    .value "IpPrecedence" byte .precedence fun | .precedence n => some n | _ => none,
    .value "IpTtl" byte .timeToLive fun | .timeToLive n => some n | _ => none,
    .value "IpVer" byte .ipVersion fun | .ipVersion n => some n | _ => none]

/-- Conditions on transport headers. -/
def transportCases : List (Case Command) :=
  [.bare "Estab" .established,
    .fields "TcpFlags" (.pair "set" tcpFlags "clear" tcpFlags) (fun p => .tcpFlags p.1 p.2)
      fun | .tcpFlags s c => some (s, c) | _ => none,
    .value "TcpWin" half .tcpWindow fun | .tcpWindow n => some n | _ => none,
    .value "TcpSeq" word .tcpSeq fun | .tcpSeq n => some n | _ => none,
    .value "TcpAck" word .tcpAck fun | .tcpAck n => some n | _ => none,
    .value "IcmpTypes" word .icmpTypes fun | .icmpTypes n => some n | _ => none,
    .fields "TcpOpts" (.pair "set" tcpOptions "clear" tcpOptions) (fun p => .tcpOptions p.1 p.2)
      fun | .tcpOptions s c => some (s, c) | _ => none]

/-- Commands that are about state, chance and logging, and the one that does nothing. -/
def controlCases : List (Case Command) :=
  [.bare "Nop" .nop,
    .value "Prob" word .probability fun | .probability p => some p | _ => none,
    .bare "ProbeState" .probeState, .bare "KeepState" .keepState,
    .fields "Limit" (.pair "mask" limitParts "conn_limit" half) (fun p => .limit p.1 p.2)
      fun | .limit m n => some (m, n) | _ => none,
    .fields "Log" (.single "max_log" word) .log fun | .log n => some n | _ => none]

/-- An action. -/
def action : Schema Action := .choice actionCases

/-- A command. -/
def command : Schema Command :=
  .choice (endCases ++ linkCases ++ ipCases ++ transportCases ++ controlCases ++
    actionCases.map fun c => c.embed .act fun | .act a => some a | _ => none)

/-! ## Instructions and rules -/

/-- An instruction. -/
def insn : Schema Insn :=
  .record "Insn"
    (Fields.start Insn.mk
      |>.field "cmd" command Insn.command
      |>.field "flags" modifiers Insn.modifiers (some .none))

/-- A rule as it is drafted. -/
def ruleDraft : Schema RuleDraft :=
  .record "RuleDef"
    (Fields.start RuleDraft.mk
      |>.field "rulenum" half RuleDraft.number (some 0)
      |>.field "set" byte RuleDraft.set (some 0)
      |>.field "matches" (list insn) RuleDraft.conditions (some [])
      |>.field "log" (optional word) RuleDraft.log (some none)
      |>.field "action" command RuleDraft.action)

/-- A rule as it is submitted. -/
def ruleImage : Schema RuleImage :=
  .record "RuleImage"
    (Fields.start RuleImage.mk
      |>.field "rulenum" half RuleImage.number
      |>.field "set" byte RuleImage.set
      |>.field "act_ofs" half RuleImage.actionOffset
      |>.field "cmd" (list word) RuleImage.words)

end PacketFilter.Schema
