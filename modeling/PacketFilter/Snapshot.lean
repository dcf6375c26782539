import PacketFilter.Rule.Image

/-!
# Snapshots

What a client is told about the filter: the rules with their counters, and the entries of the
state table. Both carry the version of the interface.
-/

namespace PacketFilter

/-- The version of the interface between the filter and its clients (`API_VERSION`). -/
def interfaceVersion : UInt64 := 3

/-- What a state entry is for (`DynType`). -/
inductive EntryKind where
  /-- Kept by a rule that keeps state. -/
  | keepState
  /-- Counted against a connection limit. -/
  | limit
  /-- Stands for the key of a connection limit, and counts the entries under it. -/
  | limitParent
  deriving DecidableEq, Repr, Inhabited

/-- The kind as tables show it. -/
def EntryKind.render : EntryKind → String
  | .keepState => "STATE"
  | .limit => "LIMIT"
  | .limitParent => "PARENT"

/-- A rule and its counters (`RuleDump`). -/
structure RuleReport where
  image : RuleImage
  packets : UInt64
  bytes : UInt64
  /-- The second of the last match. -/
  lastMatch : UInt64
  deriving DecidableEq, Repr

/-- Is it the rule that ends the chain? -/
def RuleReport.isDefault (r : RuleReport) : Bool := r.image.number == defaultRuleNumber

/-- All rules of the chain, and the sets that are disabled (`DumpRulesResp`). -/
structure RuleSnapshot where
  version : UInt64
  disabled : UInt32
  rules : List RuleReport
  deriving DecidableEq, Repr

/-- One entry of the state table (`StateDump`). -/
structure StateReport where
  flow : Flow
  ruleNumber : UInt16
  kind : EntryKind
  /-- Seconds until the entry expires, zero once it has. -/
  expiresIn : UInt64
  packets : UInt64
  bytes : UInt64
  tcpState : UInt16
  children : UInt32
  deriving DecidableEq, Repr

/-- All entries of the state table (`DumpStatesResp`). -/
structure StateSnapshot where
  version : UInt64
  states : List StateReport
  deriving DecidableEq, Repr

end PacketFilter
