import PacketFilter.Chain
import PacketFilter.StateTable.Basic

/-!
# Log messages

What the filter writes to the log. A message is kept as what it says; `LogMessage.render` puts it
into words. `log_match`, `install_state` and `evaluate` write about packets, the methods of
`Firewall` about administration.
-/

namespace PacketFilter

/-- How serious a message is. -/
inductive LogLevel where
  | note
  | warning
  | error
  deriving DecidableEq, Repr

/-- The level in brackets. -/
def LogLevel.render : LogLevel → String
  | .note => "[NOTE]"
  | .warning => "[WARN]"
  | .error => "[ERROR]"

/-- A change made by an administrator. -/
inductive AdminEvent where
  /-- A filter was set up; its default rule accepts or denies, and logging is on or off. -/
  | initialized (accepts logging : Bool)
  | ruleAdded (rule : Rule)
  | rulesDeleted (n : Nat) (number : UInt16)
  | rulesFlushed (n : Nat)
  | statesFlushed (n : Nat)
  | budgetsReset
  | countersCleared
  deriving DecidableEq, Repr

/-- The event in words. -/
def AdminEvent.render : AdminEvent → String
  | .initialized accepts logging =>
    "initialized, default to " ++ (if accepts then "Accept" else "Deny") ++ ", logging " ++
      (if logging then "enabled" else "disabled")
  | .ruleAdded rule => "added rule " ++ rule.render
  | .rulesDeleted n number =>
    "deleted " ++ toString n ++ " rule(s) numbered " ++ toString number.toNat
  | .rulesFlushed n => "flushed " ++ toString n ++ " rule(s)"
  | .statesFlushed n => "flushed " ++ toString n ++ " dynamic entries"
  | .budgetsReset => "logging counts reset"
  | .countersCleared => "accounting cleared"

/-- A message. -/
inductive LogMessage where
  /-- A packet has met a log instruction of a rule. -/
  | matched (rule : Rule) (flow : Flow) (direction : Direction) (fragment : Bool)
  /-- The rule has used up its log budget. -/
  | budgetSpent (rule : Rule)
  /-- State was not created, and the packet is denied. -/
  | stateRefused (rule : Rule) (why : StateError) (flow : Flow)
  /-- No rule decided. -/
  | undecided (flow : Flow)
  /-- Something was changed in the filter of this name. -/
  | administrative (filter : String) (event : AdminEvent)
  deriving DecidableEq, Repr

namespace LogMessage

/-- How serious the message is. -/
def level : LogMessage → LogLevel
  | .stateRefused _ _ _ => .warning
  | .undecided _ => .error
  | _ => .note

/-- The message in words. -/
def text : LogMessage → String
  | .matched rule flow direction fragment =>
    "ipfw: " ++ toString rule.number.toNat ++ " " ++
      ((rule.actionPart.getLast?.map Insn.render).getD "") ++ " " ++ flow.render ++ " " ++
      direction.render ++ (if fragment then " (frag)" else "")
  | .budgetSpent rule =>
    "ipfw: limit " ++ toString rule.logBudget.toNat ++ " reached on entry " ++
      toString rule.number.toNat
  | .stateRefused rule why flow =>
    "ipfw: rule " ++ toString rule.number.toNat ++ ": " ++ why.message ++ ", denying " ++
      flow.render
  | .undecided flow => "ipfw: ran off the end of the rules, denying " ++ flow.render
  | .administrative filter event => filter ++ ": " ++ event.render

/-- The level and the message. -/
def render (m : LogMessage) : String := m.level.render ++ " " ++ m.text

end LogMessage

end PacketFilter
