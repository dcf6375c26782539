import PacketFilter.Literal.Reader
import PacketFilter.Scenario
import PacketFilter.Schema.Packet

/-!
# Schemas of scenarios

How requests to change rules, steps and scenarios are written, and the reading of the files that
hold rulesets and scenarios.
-/

namespace PacketFilter.Schema

/-- A request to delete rules or to change their sets. -/
def deleteRequest : Schema DeleteRequest :=
  .choice
    [.fields "Rule" (.single "rulenum" half) .rule fun | .rule n => some n | _ => none,
      .fields "Set" (.single "set" byte) .set fun | .set s => some s | _ => none,
      .fields "MoveRule" (.pair "rulenum" half "new_set" byte) (fun p => .moveRule p.1 p.2)
        fun | .moveRule n s => some (n, s) | _ => none,
      .fields "MoveSet" (.pair "set" byte "new_set" byte) (fun p => .moveSet p.1 p.2)
        fun | .moveSet a b => some (a, b) | _ => none,
      .fields "SwapSets" (.pair "set" byte "new_set" byte) (fun p => .swapSets p.1 p.2)
        fun | .swapSets a b => some (a, b) | _ => none]

/-- A step. -/
def step : Schema Step :=
  .choice
    [.value "Packet" packet .packet fun | .packet p => some p | _ => none,
      .value "Advance" long .advance fun | .advance n => some n | _ => none,
      .bare "Tick" .tick,
      .value "Delete" half .delete fun | .delete n => some n | _ => none,
      .fields "SetEnable" (.pair "disable" word "enable" word) (fun p => .setEnable p.1 p.2)
        fun | .setEnable d e => some (d, e) | _ => none]

/-- A scenario. -/
def scenario : Schema Scenario :=
  .record "Scenario"
    (Fields.start Scenario.mk
      |>.field "rules" (list ruleDraft) Scenario.rules (some [])
      |>.field "steps" (list step) Scenario.steps (some []))

end PacketFilter.Schema

namespace PacketFilter

/-- Read the text of a literal by a schema (`parse_ron`). -/
def Schema.ofText? {α : Type} (s : Schema α) (text : String) : Option α :=
  match Literal.ofText? text with
  | some (conventions, l) => s.read (.tagged { conventions }) l
  | none => none

/-- Read the text of a scenario (`load_scenario`). -/
def Scenario.ofText? (text : String) : Option Scenario := Schema.scenario.ofText? text

/-- Read the text of a ruleset, a list of rules (`load_rules`). -/
def RuleDraft.listOfText? (text : String) : Option (List RuleDraft) :=
  (Schema.list Schema.ruleDraft).ofText? text

end PacketFilter
