import PacketFilter.Insn.Words
import PacketFilter.Insn.Text

/-!
# Rules as they are submitted

A rule reaches the filter as an image: its number, its set, its words, and the offset in words at
which the action part begins. An image is made from a draft, which lists the instructions, and
nothing in an image has been checked.
-/

namespace PacketFilter

/-- The number of the rule that ends every chain (`DEFAULT_RULENUM`). -/
def defaultRuleNumber : UInt16 := 65535

/-- The set of that rule, which is always enabled (`DEFAULT_SET`). -/
def defaultRuleSet : UInt8 := 31

/-- The highest set for other rules (`MAX_USER_SET`). -/
def maxUserSet : UInt8 := 30

/-- A rule as submitted (`IocRule`). -/
structure RuleImage where
  number : UInt16
  set : UInt8
  /-- The word at which the action part begins: log instructions, if any, and the action. -/
  actionOffset : UInt16
  words : List Word
  deriving DecidableEq, Repr, Inhabited

/-- The instructions of the image as text, or what is wrong with them in angle brackets
(`rule_body`). -/
def RuleImage.renderBody (image : RuleImage) : String :=
  match Insn.decodeAll image.words with
  | .ok insns => " ".intercalate (Insn.shown (insns.map Prod.snd))
  | .error e => "<" ++ e.message ++ ">"

/-- A rule as it is drafted (`RuleDef`). Zero for a number asks for the next free one. -/
structure RuleDraft where
  number : UInt16 := 0
  set : UInt8 := 0
  conditions : List Insn := []
  /-- Log a match, at most so many times. -/
  log : Option UInt32 := none
  action : Command
  deriving DecidableEq, Repr

namespace RuleDraft

/-- Does the rule create state? -/
def createsState (d : RuleDraft) : Bool := d.conditions.any (·.command.createsState)

/-- The instructions before the action part. A rule that creates state first looks for state, so
that a packet of a known flow takes the action without meeting the conditions again. -/
def guard (d : RuleDraft) : List Insn :=
  if d.createsState then ⟨.probeState, .none⟩ :: d.conditions else d.conditions

/-- The log instruction, if one is asked for, and the action. -/
def actionPart (d : RuleDraft) : List Insn :=
  match d.log with
  | some budget => [⟨.log budget, .none⟩, ⟨d.action, .none⟩]
  | none => [⟨d.action, .none⟩]

/-- Put the rule into words (`RuleBuilder::finalize`). -/
def assemble (d : RuleDraft) : RuleImage where
  number := d.number
  set := d.set
  actionOffset := UInt16.ofNat (Insn.encodeAll d.guard).length
  words := Insn.encodeAll d.guard ++ Insn.encodeAll d.actionPart

end RuleDraft

end PacketFilter
