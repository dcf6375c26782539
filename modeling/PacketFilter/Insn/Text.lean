import PacketFilter.Insn.Basic

/-!
# Instructions as text

The words by which rules are shown: `not` in front of a negated instruction, `or` behind one that
is joined with the next.
-/

namespace PacketFilter

/-- Numbers joined by commas, a range with two different ends as both ends with a dash between
(`fmt_ranges`). -/
def PortRange.renderList (ranges : List PortRange) : String :=
  ",".intercalate (ranges.map fun r =>
    if r.low = r.high then toString r.low.toNat
    else toString r.low.toNat ++ "-" ++ toString r.high.toNat)

/-- The address, or the name or pattern as it is (`fmt_iface`). -/
def InterfaceMatch.render : InterfaceMatch → String
  | .address a => a.render
  | .name s | .glob s => s

/-- How the end of a flow is called. -/
def Side.label : Side → String
  | .source => "src"
  | .destination => "dst"

/-- How an instruction on an interface begins. -/
def InterfaceRole.label : InterfaceRole → String
  | .received => "recv"
  | .transmitted => "xmit"
  | .either => "via"

/-- Two bytes in hexadecimal, the bits that must be set and those that must be clear. -/
def renderBitPair (set clear : UInt8) : String :=
  hexMarked set.toNat ++ "/" ++ hexMarked clear.toNat

/-- An action as rules show it. -/
def Action.render : Action → String
  | .checkState => "check-state"
  | .accept => "allow"
  | .deny => "deny"
  | .reject code =>
    if code = resetCode then "reset" else "unreach " ++ toString code.toNat
  | .count => "count"
  | .skipTo n => "skipto " ++ toString n.toNat
  | .pipe n => "pipe " ++ toString n.toNat
  | .queue n => "queue " ++ toString n.toNat
  | .divert n => "divert " ++ toString n.toNat
  | .tee n => "tee " ++ toString n.toNat
  | .forward a n => "fwd " ++ a.render ++ "," ++ toString n.toNat

/-- A command as rules show it. -/
def Command.render : Command → String
  | .nop => "nop"
  | .protocol p => "proto " ++ toString p.toNat
  | .address side a => side.label ++ "-ip " ++ a.render
  | .maskedAddress side a mask => side.label ++ "-ip " ++ a.render ++ "/" ++ mask.render
  | .ownAddress side => side.label ++ "-ip me"
  | .addressSet side s =>
    side.label ++ "-ip " ++ s.base.render ++ "/set" ++ toString s.size.toNat
  | .ports side ranges => side.label ++ "-port " ++ PortRange.renderList ranges
  | .macAddress _ _ => "mac"
  | .macType ranges => "mac-type " ++ PortRange.renderList ranges
  | .layer2 => "layer2"
  | .inbound => "in"
  | .fragment => "frag"
  | .interface role m => role.label ++ " " ++ m.render
  | .ipOptions set clear => "ipopts " ++ renderBitPair set.bits clear.bits
  | .ipLength n => "iplen " ++ toString n.toNat
  | .ipId n => "ipid " ++ toString n.toNat
  | .typeOfService set clear => "iptos " ++ renderBitPair set clear
  | .precedence n => "ipprecedence " ++ toString n.toNat
  | .timeToLive n => "ipttl " ++ toString n.toNat
  | .ipVersion n => "ipversion " ++ toString n.toNat
  | .established => "established"
  | .tcpFlags set clear => "tcpflags " ++ renderBitPair set.bits clear.bits
  | .tcpWindow n => "tcpwin " ++ toString n.toNat
  | .tcpSeq n => "tcpseq " ++ toString n.toNat
  | .tcpAck n => "tcpack " ++ toString n.toNat
  | .icmpTypes bits => "icmptypes " ++ hexMarked bits.toNat
  | .tcpOptions set clear => "tcpoptions " ++ renderBitPair set.bits clear.bits
  | .probability p => "prob " ++ hexMarked p.toNat
  | .probeState => "probe-state"
  | .keepState => "keep-state"
  | .limit parts connections =>
    "limit " ++ hexMarked parts.bits.toNat ++ " " ++ toString connections.toNat
  | .log budget => if budget = 0 then "log" else "log logamount " ++ toString budget.toNat
  | .act a => a.render

/-- An instruction as rules show it. -/
def Insn.render (i : Insn) : String :=
  (if i.isNot then "not " else "") ++ i.command.render ++ (if i.isOr then " or" else "")

/-- Instructions as a rule shows them: the state lookup that opens a stateful rule is implied and
left out. -/
def Insn.shown (is : List Insn) : List String :=
  (is.filter fun i => i.command != .probeState).map Insn.render

end PacketFilter
