import PacketFilter.Firewall.Basic
import PacketFilter.Wire.Messages

/-!
# Administration

Adding, deleting, moving and enabling rules. State must never outlive its rule: before a rule that
creates state is removed, or ends up in a disabled set, it is barred from creating state and the
entries it has created are dropped. A rule that ends up in an enabled set may create state again.

A request that is refused leaves the firewall as it was.
-/

namespace PacketFilter

/-- A request to delete rules or to change their sets (`DelCmd`). -/
inductive DeleteRequest where
  /-- Delete the rules of a number. -/
  | rule (number : UInt16)
  /-- Delete the rules of a set. -/
  | set (set : UInt8)
  /-- Put the rules of a number into a set. -/
  | moveRule (number : UInt16) (target : UInt8)
  /-- Put the rules of a set into another. -/
  | moveSet (source target : UInt8)
  /-- Exchange the members of two sets. -/
  | swapSets (a b : UInt8)
  deriving DecidableEq, Repr

namespace Firewall

/-! ## Adding rules -/

/-- The number that `add_rule_ioc` gives a rule that asks for the next free one: a step past the
highest in use, or the highest itself if there is no room for a step. -/
def nextNumber (fw : Firewall) : UInt16 :=
  let last := fw.chain.lastNumber?.getD 0
  if last < defaultRuleNumber - fw.config.autoincStep then last + fw.config.autoincStep else last

/-- Check a rule and add it to the chain (`add_rule_ioc`). In a disabled set it is barred from
creating state. -/
def addImage (fw : Firewall) (image : RuleImage) : Except ControlError (Rule × Firewall) :=
  let image := if image.number = 0 then { image with number := fw.nextNumber } else image
  match Rule.ofImage fw.engine.roster.nextId image fw.config.verboseLimit with
  | .error e => .error (.validation e)
  | .ok rule =>
    let status := RuleStatus.fresh image.set rule.logBudget
    let status := if fw.disabled.has image.set then status.disableState else status
    let fw : Firewall :=
      { fw with
        chain := (fw.chain.insert rule).2
        engine := { fw.engine with roster := fw.engine.roster.add status } }
    .ok (rule, fw.write (.ruleAdded rule))

/-- Add a rule that comes as bytes (`add_rule`). -/
def addBytes (fw : Firewall) (bytes : List UInt8) : Except ControlError (Rule × Firewall) :=
  match Wire.ruleImage.decode bytes with
  | .error e => .error (.validation (.malformed e))
  | .ok image => fw.addImage image

/-! ## Taking rules out of service -/

/-- Change the status of rules. -/
def updateRules (fw : Firewall) (rules : List Rule) (f : RuleStatus → RuleStatus) : Firewall :=
  { fw with engine := { fw.engine with roster := fw.engine.roster.updateAll rules f } }

/-- Drop the entries that rules have created, and say so if there are any (the end of `quiesce`). -/
def flushStatesOf (fw : Firewall) (rules : List Rule) : Firewall :=
  let ids := rules.map Rule.id
  let (n, states) := fw.engine.states.flush (fun e => ids.contains e.rule.id) fw.now
  let fw : Firewall := { fw with engine := { fw.engine with states } }
  if n = 0 then fw else fw.write (.statesFlushed n)

/-- Bar rules from creating state, and drop what they have created. Rules that create none are left
alone. -/
def quiesce (fw : Firewall) (rules : List Rule) : Firewall :=
  let stateful := rules.filter Rule.createsState
  if stateful.isEmpty then fw
  else (fw.updateRules stateful RuleStatus.disableState).flushStatesOf stateful

/-- Take on a chain from which rules were removed (`disable_state_then_flush_then_remove`). -/
def withdraw (fw : Firewall) (removed : List Rule) (chain : Chain) : Firewall :=
  if removed.isEmpty then fw
  else ({ fw.quiesce removed with chain }).updateRules removed RuleStatus.markInvalid

/-- Delete the rules of a number. -/
def deleteRule (fw : Firewall) (number : UInt16) : Except ControlError Firewall :=
  match fw.chain.deleteNumber number with
  | .error e => .error e
  | .ok (removed, chain) =>
    .ok ((fw.withdraw removed chain).write (.rulesDeleted removed.length number))

/-- Delete the rules of a set, and say how many there were. -/
def deleteSet (fw : Firewall) (set : UInt8) : Except ControlError (Nat × Firewall) :=
  if maxUserSet < set then .error (.invalidSet set)
  else
    let (removed, chain) := fw.chain.deleteSet fw.engine.roster set
    .ok (removed.length, fw.withdraw removed chain)

/-- Delete every rule but the default one, and say how many there were. -/
def flush (fw : Firewall) : Nat × Firewall :=
  let (removed, chain) := fw.chain.flush
  (removed.length, (fw.withdraw removed chain).write (.rulesFlushed removed.length))

/-! ## Sets -/

/-- Change the sets of rules, or which sets are disabled (`retarget_sets`). Rules that create state
and end up in a disabled set are quiesced before the change; those in an enabled set may create
state after it. The set that a rule ends up in is given by `target`. -/
def retarget (fw : Firewall) (mask : SetMask) (target : Rule → UInt8)
    (change : Firewall → Firewall) : Firewall :=
  let stateful := fw.chain.select fun r => r.createsState && !(fw.status r).invalid
  let disabled := stateful.filter fun r => mask.has (target r)
  let enabled := stateful.filter fun r => !mask.has (target r)
  (change (fw.quiesce disabled)).updateRules enabled RuleStatus.enableState

/-- Change the roster. -/
def mapRoster (fw : Firewall) (f : Roster → Roster) : Firewall :=
  { fw with engine := { fw.engine with roster := f fw.engine.roster } }

/-- The set that a rule is in. -/
def setOf (fw : Firewall) (rule : Rule) : UInt8 := fw.engine.roster.setOf rule

/-- Put the rules of a number into a set, and say how many there are. -/
def moveRule (fw : Firewall) (number : UInt16) (set : UInt8) :
    Except ControlError (Nat × Firewall) :=
  if number = defaultRuleNumber then .error .defaultRule
  else if maxUserSet < set then .error (.invalidSet set)
  else
    let target := fun r : Rule => if r.number = number then set else fw.setOf r
    .ok ((fw.chain.moveNumber fw.engine.roster number set).1,
      fw.retarget fw.disabled target fun fw =>
        fw.mapRoster fun roster => (fw.chain.moveNumber roster number set).2)

/-- Put the rules of a set into another, and say how many there are. -/
def moveSet (fw : Firewall) (source target : UInt8) : Except ControlError (Nat × Firewall) :=
  if maxUserSet < source then .error (.invalidSet source)
  else if maxUserSet < target then .error (.invalidSet target)
  else
    let goal := fun r : Rule => if fw.setOf r = source then target else fw.setOf r
    .ok ((fw.chain.moveSet fw.engine.roster source target).1,
      fw.retarget fw.disabled goal fun fw =>
        fw.mapRoster fun roster => (fw.chain.moveSet roster source target).2)

/-- Exchange the members of two sets. -/
def swapSets (fw : Firewall) (a b : UInt8) : Except ControlError Firewall :=
  if maxUserSet < a then .error (.invalidSet a)
  else if maxUserSet < b then .error (.invalidSet b)
  else
    .ok (fw.retarget fw.disabled (fun r => Chain.exchanged a b (fw.setOf r)) fun fw =>
      fw.mapRoster fun roster => fw.chain.swapSets roster a b)

/-- Disable some sets and enable others; a set that is in both is enabled. The set of the default
rule cannot be disabled. -/
def setEnable (fw : Firewall) (disable enable : SetMask) : Except ControlError Firewall :=
  if disable.has defaultRuleSet then .error (.invalidSet defaultRuleSet)
  else
    let mask := (fw.disabled ||| disable) &&& ~~~(enable ||| 0x80000000)
    .ok (fw.retarget mask fw.setOf fun fw => { fw with disabled := mask })

/-- Carry out a request to delete rules or to change their sets (`handle_del`). -/
def handle (fw : Firewall) : DeleteRequest → Except ControlError Firewall
  | .rule number => fw.deleteRule number
  | .set set => (fw.deleteSet set).map Prod.snd
  | .moveRule number target => (fw.moveRule number target).map Prod.snd
  | .moveSet source target => (fw.moveSet source target).map Prod.snd
  | .swapSets a b => fw.swapSets a b

/-! ## Counters and state -/

/-- Clear the counters of rules, or their log budgets only (`Rule::zero` on each). -/
def zeroRules (fw : Firewall) (rules : List Rule) (logOnly : Bool) : Firewall :=
  fw.mapRoster fun roster =>
    rules.foldl (fun roster r => roster.update r.id (·.zero r.logBudget logOnly)) roster

/-- Clear the counters of all rules, or of the rules of one number, of which there must be one. -/
def zeroCounters (fw : Firewall) (number : Option UInt16) (logOnly : Bool) :
    Except ControlError Firewall :=
  match number with
  | none =>
    let fw := fw.zeroRules fw.chain.rules logOnly
    if logOnly then .ok (fw.write .budgetsReset)
    else .ok ({ fw with undecided := 0 }.write .countersCleared)
  | some n =>
    let rules := fw.chain.rules.filter fun r => r.number == n
    if rules.isEmpty then .error (.ruleNotFound n) else .ok (fw.zeroRules rules logOnly)

/-- Drop all entries of the state table, and say how many there were. -/
def flushStates (fw : Firewall) : Nat × Firewall :=
  let (n, states) := fw.engine.states.flushAll fw.now
  (n, { fw with engine := { fw.engine with states } })

/-- Ask for another number of buckets (`set_dyn_buckets`). -/
def setBuckets (fw : Firewall) (n : UInt32) : Except ControlError Firewall :=
  match fw.engine.states.setBuckets n.toNat with
  | none => .error (.invalidBuckets n)
  | some states => .ok { fw with engine := { fw.engine with states } }

end Firewall

end PacketFilter
