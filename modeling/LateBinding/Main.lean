import LateBinding.CommandLine.Execute

/-!
# The program

Reads the command line, the environment and the settings file, and prints what the command
yields.
-/

namespace LateBinding.CommandLine

def readFault : IO.Error → ReadFault
  | .inappropriateType none .. => .isDirectory
  | .inappropriateType .. => .notDirectory
  | .invalidArgument _ code _ => if code = 22 then .nulInPath else .pathTooLong
  | .permissionDenied .. => .denied
  | _ => .missing

def readText (path : String) : IO (Except ReadFault String) := do
  try
    match String.fromUTF8? (← IO.FS.readBinFile path) with
    | some s => return .ok s
    | none => return .error .notText
  catch e => return .error (readFault e)

/-- The host with the environment of this process, and with the file that a command asks
for. -/
def Host.ofProcess (file : Option String) : IO Host := do
  let pairs ← Settings.overrideNames.mapM fun name => do return (name, ← IO.getEnv name)
  let content ← match file with
    | none => pure (.error .missing)
    | some path => readText path
  return {
    environment := fun name => (pairs.lookup name).join
    fileText := fun path => if some path = file then content else .error .missing }

def milliseconds (nanoseconds : Nat) : String :=
  Decimal.withPlaces 3 (Decimal.roundDiv nanoseconds 1000)

/-- Print what a command yields; a run took the given time. -/
def Output.print (output : Output) (nanoseconds : Nat) : IO Unit :=
  match output with
  | .text s => IO.print s
  | .report r => IO.print (r.text (milliseconds nanoseconds))
  | .document r =>
    IO.print (unlines [(r.toJson (.float (Float.ofNat nanoseconds / 1000000))).pretty])

def failureText (f : Failure) : String :=
  let causes := match f.causes with
    | [] => []
    | causes => "" :: "Caused by:" :: causes.map ("    " ++ ·)
  unlines (("Error: " ++ f.message) :: causes)

def usage : String :=
  unlines ["Usage: dynsite <COMMAND>", "", "Commands:",
    "  list [--json]",
    "  run <SCENARIO> [--calls <CALLS>] [--json] [TUNING]",
    "  config [--format <toml|json>] [TUNING]", "", "Tuning:",
    "  --config <FILE>", "  --optimize-threshold <CALLS>", "  --fallback-threshold <SHAPES>",
    "  --cache-size <ENTRIES>"]

def explain : UsageFault → IO UInt32
  | .helpAskedFor => do
    IO.print usage
    return 0
  | .versionAskedFor => do
    IO.println "dynsite 0.1.0"
    return 0
  | _ => do
    IO.eprint usage
    return 2

def carryOut (command : Command) : IO UInt32 := do
  let host ← Host.ofProcess command.file?
  let started ← IO.monoNanosNow
  match execute host command with
  | .error f =>
    IO.eprint (failureText f)
    return if f.isPanic then 101 else 1
  | .ok output =>
    output.print ((← IO.monoNanosNow) - started)
    return 0

end LateBinding.CommandLine

open LateBinding.CommandLine in
def main (args : List String) : IO UInt32 :=
  match parse args with
  | .error fault => explain fault
  | .ok command => carryOut command
