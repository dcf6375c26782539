import PacketFilter.Columns
import PacketFilter.Evaluation

/-!
# Reports

Snapshots as tables for people.
-/

namespace PacketFilter

/-- Fields ended by tabs, and a last one ended by the line. -/
def tabbedLine (fields : List String) : String := "\t".intercalate fields ++ "\n"

/-- A 64-bit number in decimal. -/
def decimal (n : UInt64) : String := toString n.toNat

namespace RuleSnapshot

/-- The sets that are disabled, the default rule's left out. -/
def disabledSets (s : RuleSnapshot) : List Nat :=
  (List.range 31).filter fun set => SetMask.has s.disabled (UInt8.ofNat set)

/-- The line of a rule: number, set, counters, second of the last match, and instructions
(`print_rule`). -/
def ruleLine (r : RuleReport) : String :=
  tabbedLine
    [zeroPadded 5 (toString r.image.number.toNat), toString r.image.set.toNat, decimal r.packets,
      decimal r.bytes, decimal r.lastMatch, r.image.renderBody]

/-- The table of rules, after a line with the disabled sets if there are any (`print_rules_into`).
-/
def render (s : RuleSnapshot) : String :=
  let sets := s.disabledSets
  let head :=
    if sets.isEmpty then "" else "Disabled sets: " ++ " ".intercalate (sets.map toString) ++ "\n"
  Columns.align (head ++ tabbedLine ["NUM", "SET", "PKTS", "BYTES", "LAST", "BODY"] ++
    String.join (s.rules.map ruleLine))

end RuleSnapshot

namespace StateSnapshot

/-- The line of an entry (`print_state`). -/
def stateLine (s : StateReport) : String :=
  tabbedLine
    [zeroPadded 5 (toString s.ruleNumber.toNat), s.kind.render, decimal s.expiresIn ++ "s",
      decimal s.packets, decimal s.bytes, "0x" ++ zeroPadded 4 (hexDigits s.tcpState.toNat),
      toString s.children.toNat, s.flow.render]

/-- The table of entries, after a line with their number (`print_states_into`). -/
def render (s : StateSnapshot) : String :=
  Columns.align ("Dynamic states: " ++ toString s.states.length ++ "\n" ++
    tabbedLine ["RULE", "TYPE", "EXPIRE", "PKTS", "BYTES", "TCP", "COUNT", "FLOW"] ++
    String.join (s.states.map stateLine))

end StateSnapshot

end PacketFilter
