import PacketFilter.Schema.Packet
import PacketFilter.Snapshot

/-!
# Schemas of snapshots

How the rules and the state entries that clients are told about are written (`DumpRulesResp`,
`DumpStatesResp`).
-/

namespace PacketFilter.Schema

/-- A rule and its counters. -/
def ruleReport : Schema RuleReport :=
  .record "RuleReport"
    (Fields.start RuleReport.mk
      |>.field "rule" ruleImage RuleReport.image
      |>.field "pkt_cnt" long RuleReport.packets
      |>.field "byte_cnt" long RuleReport.bytes
      |>.field "timestamp" long RuleReport.lastMatch)

/-- All rules of a chain. -/
def ruleSnapshot : Schema RuleSnapshot :=
  .record "RuleSnapshot"
    (Fields.start RuleSnapshot.mk
      |>.field "api_version" long RuleSnapshot.version
      |>.field "set_disable" word RuleSnapshot.disabled
      |>.field "rules" (list ruleReport) RuleSnapshot.rules)

/-- What a state entry is for. -/
def entryKind : Schema EntryKind :=
  .choice [.bare "KeepState" .keepState, .bare "Limit" .limit, .bare "LimitParent" .limitParent]

/-- An entry of the state table. -/
def stateReport : Schema StateReport :=
  .record "StateReport"
    (Fields.start StateReport.mk
      |>.field "id" flow StateReport.flow
      |>.field "rulenum" half StateReport.ruleNumber
      |>.field "dyn_type" entryKind StateReport.kind
      |>.field "expire_in" long StateReport.expiresIn
      |>.field "pkt_cnt" long StateReport.packets
      |>.field "byte_cnt" long StateReport.bytes
      |>.field "tcp_state" half StateReport.tcpState
      |>.field "limit_count" word StateReport.children)

/-- All entries of a state table. -/
def stateSnapshot : Schema StateSnapshot :=
  .record "StateSnapshot"
    (Fields.start StateSnapshot.mk
      |>.field "api_version" long StateSnapshot.version
      |>.field "states" (list stateReport) StateSnapshot.states)

end PacketFilter.Schema
