import PacketFilter.Config.Basic
import PacketFilter.Evaluation
import PacketFilter.StateTable.Keepalive

/-!
# The firewall

A firewall holds a chain, the sets that are disabled, and what evaluation changes. It is one
value, and every operation gives the next one. The clock and the random draws belong to its
surroundings; they are fields that the surroundings set.

This module holds the packet path: `check` classifies a packet, `process` also hands packets out
to the shaper and to divert sockets, and `tick` does what is due from time to time.

Operations have the names of `Firewall`'s methods. A name in parentheses is what the filter itself
calls the thing that is defined, where that is another name.
-/

namespace PacketFilter

/-- A packet filter with its rules and its state. -/
structure Firewall where
  name : String
  config : Config
  chain : Chain
  disabled : SetMask := 0
  engine : Engine
  /-- How many packets were denied without a rule that decided. -/
  undecided : UInt64 := 0
  /-- What the clock shows. -/
  now : Moment := ⟨0⟩
  /-- What the random draws give, in the order in which they are made. -/
  draw : Nat → UInt32 := fun _ => 0

/-- What a timer pass did: entries removed because they had expired, and flows probed. -/
structure TickReport where
  expired : Nat
  probed : Nat
  deriving DecidableEq, Repr

namespace Firewall

/-- Write an administrative message. -/
def write (fw : Firewall) (event : AdminEvent) : Firewall :=
  { fw with engine := fw.engine.write (.administrative fw.name event) }

/-- Set up a firewall with the default rule only. The first draw salts the state table. -/
def new (name : String) (config : Config) (now : Moment) (draw : Nat → UInt32) :
    Except ConfigError Firewall :=
  match config.check with
  | .error e => .error e
  | .ok () =>
    let roster : Roster := ({} : Roster).add (.fresh defaultRuleSet 0)
    let engine : Engine := { roster, states := .new config.stateConfig (draw 0), drawn := 1 }
    let fw : Firewall :=
      { name, config, engine, now, draw, chain := .new (.terminal 0 config.acceptByDefault) }
    .ok (fw.write (.initialized config.acceptByDefault config.verbose))

/-- The status of a rule. -/
def status (fw : Firewall) (rule : Rule) : RuleStatus := fw.engine.roster.status rule.id

/-- The number of rules, the default rule included. -/
def ruleCount (fw : Firewall) : Nat := fw.chain.length

/-- The number of entries of the state table. -/
def stateCount (fw : Firewall) : Nat := fw.engine.states.count

/-- Take the messages and requests made so far. -/
def drain (fw : Firewall) : List LogMessage × List PacketRequest × Firewall :=
  (fw.engine.log, fw.engine.requests,
    { fw with engine := { fw.engine with log := [], requests := [] } })

/-! ## Packets -/

/-- What an evaluation reads. -/
def surroundings (fw : Firewall) : Surroundings where
  chain := fw.chain
  disabled := fw.disabled
  onePass := fw.config.onePass
  verbose := fw.config.verbose
  now := fw.now
  draw := fw.draw

/-- Classify a packet, which may have come back from where a rule handed it out. -/
def check (fw : Firewall) (pkt : Packet) (resume : Option Rule) : Outcome × Firewall :=
  let (outcome, engine) := evaluate fw.surroundings pkt resume fw.engine
  let undecided :=
    if outcome.rule.isNone && outcome.verdict == .deny then fw.undecided + 1 else fw.undecided
  (outcome, { fw with engine, undecided })

/-- The request that hands a packet out as the outcome says, if it does (`dispatch`). -/
def handOut? (pkt : Packet) (outcome : Outcome) : Option PacketRequest :=
  match outcome.rule with
  | none => none
  | some rule =>
    match outcome.verdict with
    | .shape id pipe => some (.shape pkt.flow id pipe rule)
    | .divert target => some (.divert pkt.flow target false rule)
    | .tee target => some (.divert pkt.flow target true rule)
    | _ => none

/-- Classify a packet and hand it out as the verdict says (`process_resumed`). -/
def process (fw : Firewall) (pkt : Packet) (resume : Option Rule) : Verdict × Firewall :=
  let (outcome, fw) := fw.check pkt resume
  match handOut? pkt outcome with
  | some r => (outcome.verdict, { fw with engine := fw.engine.request r })
  | none => (outcome.verdict, fw)

/-! ## Timers -/

/-- Remove expired entries, and then probe the connections that are due. -/
def tick (fw : Firewall) : TickReport × Firewall :=
  let (expired, states) := fw.engine.states.sweep fw.now
  let (probed, requests, states) := states.probeDue fw.now
  (⟨expired, probed⟩,
    { fw with engine := { fw.engine with states, requests := fw.engine.requests ++ requests } })

/-! ## Snapshots -/

/-- A rule and its counters (`Rule::dump`). -/
def reportRule (fw : Firewall) (rule : Rule) : RuleReport :=
  let s := fw.status rule
  ⟨rule.image s.set, s.packets, s.bytes, s.lastMatch⟩

/-- All rules of the chain (`get_rules_snapshot`). -/
def ruleSnapshot (fw : Firewall) : RuleSnapshot :=
  ⟨interfaceVersion, fw.disabled, fw.chain.rules.map fw.reportRule⟩

/-- All entries of the state table (`get_dynamic_snapshot`). -/
def stateSnapshot (fw : Firewall) : StateSnapshot :=
  ⟨interfaceVersion, fw.engine.states.report fw.now⟩

end Firewall

end PacketFilter
