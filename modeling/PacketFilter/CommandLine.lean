import PacketFilter.Config.Document
import PacketFilter.Report
import PacketFilter.Schema.Scenario

/-!
# The command line

Three commands: one checks a configuration and shows it in full, one loads a ruleset and shows the
chain that it makes, and one runs a scenario and shows what came of it. A command is a function of
the files it names and of the random draws; it ends with a text to print or with an error.

Main statement: `stepLines_eq_ok_iff`, a scenario is shown only if no step was refused.
-/

namespace PacketFilter

/-! ## What is asked -/

/-- A command and the files that it names (`Command`). -/
inductive Request where
  /-- Check a configuration and show it in full. -/
  | checkConfig (config : String)
  /-- Load a ruleset and show the chain. -/
  | showRules (config : Option String) (rules : String)
  /-- Run a scenario. -/
  | simulate (config : Option String) (scenario : String)
  deriving DecidableEq, Repr

namespace Request

/-- How the command is to be called. -/
def usage : String :=
  "usage: check-config CONFIG\n" ++
    "       show-rules [--config CONFIG] RULES\n" ++
    "       simulate [--config CONFIG] SCENARIO\n"

/-- Take the configuration out of arguments; what is left are the files. -/
def splitConfig? : List String → Option (Option String × List String)
  | [] => some (none, [])
  | "-c" :: file :: rest | "--config" :: file :: rest =>
    match splitConfig? rest with
    | some (none, files) => some (some file, files)
    | _ => none
  | file :: rest =>
    if file.startsWith "-" then none
    else (splitConfig? rest).map fun (config, files) => (config, file :: files)

/-- Read the arguments of a call. -/
def ofArgs? : List String → Option Request
  | "check-config" :: rest =>
    match splitConfig? rest with
    | some (none, [config]) => some (.checkConfig config)
    | _ => none
  | "show-rules" :: rest =>
    match splitConfig? rest with
    | some (config, [rules]) => some (.showRules config rules)
    | _ => none
  | "simulate" :: rest =>
    match splitConfig? rest with
    | some (config, [scenario]) => some (.simulate config scenario)
    | _ => none
  | _ => none

end Request

/-! ## What can go wrong -/

/-- Why a command fails. -/
inductive CommandError where
  /-- A file cannot be read, for a reason that its surroundings give. -/
  | unreadable (file why : String)
  /-- A file is not a ruleset or a scenario. -/
  | malformed (file : String)
  | config (why : ConfigError)
  | control (why : ControlError)
  /-- A step of a scenario was refused. -/
  | step (i : Nat) (why : ControlError)
  deriving DecidableEq, Repr

/-- The error as it is printed. -/
def CommandError.render (e : CommandError) : String :=
  "Error: " ++
    (match e with
    | .unreadable file why => "failed to read " ++ file ++ ": " ++ why
    | .malformed file => "failed to parse " ++ file
    | .config why => why.message
    | .control why => why.message
    | .step i why => "step " ++ toString i ++ "\n\nCaused by:\n    " ++ why.message) ++
    "\n"

/-! ## Reading files -/

/-- What is said about a file that is not there. -/
def fileNotFound : String := "No such file or directory (os error 2)"

/-- The contents of files by name, or why a file cannot be read. -/
abbrev Files := String → Except String String

namespace Files

/-- The contents of a file. -/
def read (files : Files) (file : String) : Except CommandError String :=
  (files file).mapError (.unreadable file)

/-- A file that is read as something else. -/
def readAs {α : Type} (files : Files) (file : String) (ofText? : String → Option α) :
    Except CommandError α := do
  match ofText? (← files.read file) with
  | some v => .ok v
  | none => .error (.malformed file)

/-- A configuration (`load_config`). -/
def readConfig (files : Files) (file : String) : Except CommandError Config := do
  (Config.ofDocument (← files.read file)).mapError .config

/-- A configuration, or the defaults if no file is named (`ConfigArg::load`). -/
def readConfigOr (files : Files) : Option String → Except CommandError Config
  | some file => files.readConfig file
  | none => .ok {}

end Files

/-! ## Commands -/

/-- Set up a firewall as its configuration says (`open`). -/
def openFirewall (config : Config) (draw : Nat → UInt32) : Except CommandError Firewall :=
  (Firewall.forScenario config draw).mapError .config

/-- Add all rules; the first that is refused is an error. -/
def installDrafts (fw : Firewall) (drafts : List RuleDraft) : Except CommandError Firewall :=
  match fw.addDrafts drafts with
  | (none, fw) => .ok fw
  | (some e, _) => .error (.control e)

/-- The line of a step: its number, direction and flow, if it was a packet, and the result. -/
def stepLine (i : Nat) (r : StepResult) : String :=
  tabbedLine <| toString i ::
    match r with
    | .verdict flow direction verdict => [direction.render, flow.render, verdict.render]
    | .advanced seconds => ["", "", "clock +" ++ toString seconds.toNat ++ "s"]
    | .ticked report =>
      ["", "", "expired " ++ toString report.expired ++ " probed " ++ toString report.probed]
    | .done => ["", "", "ok"]

/-- The lines of steps, numbered from `i` on; a refused step is an error. -/
def stepLines (i : Nat) : List (Except ControlError StepResult) → Except CommandError (List String)
  | [] => .ok []
  | .error e :: _ => .error (.step i e)
  | .ok r :: rest =>
    match stepLines (i + 1) rest with
    | .ok lines => .ok (stepLine i r :: lines)
    | .error e => .error e

/-- Run the steps of a scenario and show them, and then the rules and the state that is left
(`simulate`). -/
def runScenario (fw : Firewall) (steps : List Step) : Except CommandError String := do
  let (results, fw) := fw.runSteps steps
  let lines ← stepLines 0 results
  let head := tabbedLine ["STEP", "DIR", "FLOW", "RESULT"]
  return Columns.align (head ++ String.join lines) ++ "\n" ++ fw.ruleSnapshot.render ++ "\n" ++
    fw.stateSnapshot.render

/-- Carry out a command: the text to print, or the error. -/
def Request.run (files : Files) (draw : Nat → UInt32) : Request → Except CommandError String
  | .checkConfig file => do
    return (← files.readConfig file).render ++ "\n"
  | .showRules config file => do
    let fw ← openFirewall (← files.readConfigOr config) draw
    let fw ← installDrafts fw (← files.readAs file RuleDraft.listOfText?)
    return fw.ruleSnapshot.render
  | .simulate config file => do
    let fw ← openFirewall (← files.readConfigOr config) draw
    let scenario ← files.readAs file Scenario.ofText?
    let fw ← installDrafts fw scenario.rules
    runScenario fw scenario.steps

/-- A scenario is shown only if no step was refused. -/
theorem stepLines_eq_ok_iff {results : List (Except ControlError StepResult)} (i : Nat) :
    (∃ lines, stepLines i results = .ok lines) ↔ ∀ e, .error e ∉ results := by
  induction results generalizing i with
  | nil => simp [stepLines]
  | cons r rest ih =>
    cases r with
    | error e => exact iff_of_false (by simp [stepLines]) fun h => h e (List.mem_cons_self ..)
    | ok r =>
      simp only [stepLines, List.mem_cons, reduceCtorEq, false_or, ← ih (i + 1)]
      cases stepLines (i + 1) rest <;> simp

end PacketFilter
