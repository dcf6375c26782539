import PacketFilter.Firewall.Admin

/-!
# Scenarios

A scenario is a ruleset and steps: packets, moves of the clock, timer passes, and administration.
It is run on a firewall of its own, whose clock starts at zero and moves only when a step says so.
Rules go in as bytes, the way a client sends them.
-/

namespace PacketFilter

/-- One step of a scenario. -/
inductive Step where
  /-- Classify a packet. -/
  | packet (pkt : Packet)
  /-- Move the clock forward by so many seconds. -/
  | advance (seconds : UInt64)
  /-- Do what is due from time to time. -/
  | tick
  /-- Delete the rules of a number. -/
  | delete (number : UInt16)
  /-- Disable and enable sets. -/
  | setEnable (disable enable : SetMask)
  deriving DecidableEq, Repr

/-- Rules and steps. -/
structure Scenario where
  rules : List RuleDraft := []
  steps : List Step := []
  deriving DecidableEq, Repr

/-- What a step has led to. -/
inductive StepResult where
  | verdict (flow : Flow) (direction : Direction) (verdict : Verdict)
  | advanced (seconds : UInt64)
  | ticked (report : TickReport)
  | done
  deriving DecidableEq, Repr

namespace Firewall

/-- Set up the firewall that a scenario is run on (`IpfwAdm::open`). -/
def forScenario (config : Config) (draw : Nat → UInt32) : Except ConfigError Firewall :=
  Firewall.new "ipfw0" config ⟨0⟩ draw

/-- Add rules one after another, up to the first that is refused (`add_rules`). -/
def addDrafts (fw : Firewall) : List RuleDraft → Option ControlError × Firewall
  | [] => (none, fw)
  | d :: ds =>
    match fw.addBytes (Wire.ruleImage.write d.assemble) with
    | .ok (_, fw) => fw.addDrafts ds
    | .error e => (some e, fw)

/-- Run one step. A step that is refused changes nothing. -/
def runStep (fw : Firewall) (s : Step) : Except ControlError StepResult × Firewall :=
  match s with
  | .packet pkt =>
    let (verdict, fw) := fw.process pkt none
    (.ok (.verdict pkt.flow pkt.direction verdict), fw.drain.2.2)
  | .advance seconds =>
    (.ok (.advanced seconds), { fw with now := fw.now.advance (seconds * 1000) })
  | .tick =>
    let (report, fw) := fw.tick
    (.ok (.ticked report), fw.drain.2.2)
  | .delete number =>
    match fw.deleteRule number with
    | .ok fw => (.ok .done, fw.drain.2.2)
    | .error e => (.error e, fw)
  | .setEnable disable enable =>
    match fw.setEnable disable enable with
    | .ok fw => (.ok .done, fw.drain.2.2)
    | .error e => (.error e, fw)

/-- Run all steps, whether or not some are refused. -/
def runSteps (fw : Firewall) : List Step → List (Except ControlError StepResult) × Firewall
  | [] => ([], fw)
  | s :: ss =>
    let (result, fw) := fw.runStep s
    let (results, fw) := fw.runSteps ss
    (result :: results, fw)

@[simp] theorem length_runSteps (fw : Firewall) (ss : List Step) :
    (fw.runSteps ss).1.length = ss.length := by
  induction ss generalizing fw with
  | nil => rfl
  | cons s ss ih => simp [runSteps, ih]

end Firewall

end PacketFilter
