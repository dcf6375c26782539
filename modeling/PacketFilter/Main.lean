import PacketFilter.CommandLine

/-!
# The program

Reads the files that the command line names, runs the command, and prints what it answers.
-/

namespace PacketFilter

/-- Why a file cannot be read, in the words of the system. -/
def describeReadFailure : IO.Error → String
  | .noFileOrDirectory _ _ _ => fileNotFound
  | .permissionDenied _ _ _ => "Permission denied (os error 13)"
  | e => toString e

/-- Read a file that may not be there. -/
def readInput (file : String) : IO (Except String String) := do
  match ← (IO.FS.readFile file).toBaseIO with
  | .ok text => return .ok text
  | .error e => return .error (describeReadFailure e)

/-- The files that a command names. -/
def Request.files : Request → List String
  | .checkConfig config => [config]
  | .showRules config rules => config.toList ++ [rules]
  | .simulate config scenario => config.toList ++ [scenario]

/-- The draws that follow from a seed: the seed is mixed with the number of the draw. -/
def drawsFrom (seed : UInt64) (i : Nat) : UInt32 :=
  let z := seed + UInt64.ofNat (i + 1) * 0x9e3779b97f4a7c15
  let z := (z ^^^ (z >>> 30)) * 0xbf58476d1ce4e5b9
  let z := (z ^^^ (z >>> 27)) * 0x94d049bb133111eb
  ((z ^^^ (z >>> 31)) >>> 32).toUInt32

/-- Carry out the command that the arguments ask for, and give the exit code. -/
def runProgram (args : List String) : IO UInt32 := do
  match Request.ofArgs? args with
  | none =>
    IO.eprint Request.usage
    return 2
  | some request =>
    let contents ← request.files.mapM fun file => do return (file, ← readInput file)
    let files : Files := fun file => (contents.lookup file).getD (.error "not read")
    let seed ← IO.rand 0 0xffffffffffffffff
    match request.run files (drawsFrom (UInt64.ofNat seed)) with
    | .ok text =>
      IO.print text
      return 0
    | .error e =>
      IO.eprint e.render
      return 1

end PacketFilter

/-- Run the program. -/
def main (args : List String) : IO UInt32 := PacketFilter.runProgram args
