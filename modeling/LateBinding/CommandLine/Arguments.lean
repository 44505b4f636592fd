import LateBinding.Numeral
import LateBinding.Path

/-!
# Command lines

A command line names a command and gives its options and arguments. Long options take their
value after an equals sign or as the next argument; two hyphens end the options. An option's
value is looked at when the next known option, the next positional argument or the end of the
line is reached, so an unknown argument right after it is the error that is told.
-/

namespace LateBinding.CommandLine

/-- Why a command line is no command. -/
inductive UsageFault
  | helpAskedFor
  | versionAskedFor
  /-- There is no command at all. -/
  | nothingGiven
  | unknownCommand
  | unknownArgument
  /-- The name of a scenario is missing. -/
  | missingArgument
  /-- An option lacks its value, or the value is none of those that it may have. -/
  | invalidValue
  /-- The value of an option is not of the right form. -/
  | refusedValue
  /-- An option has a value that takes none. -/
  | unexpectedValue
  /-- An option is given twice. -/
  | repeated
deriving DecidableEq

/-- How settings are printed. -/
inductive Layout
  | toml
  | json
deriving DecidableEq

/-- The options that change settings. -/
structure Tuning where
  config : Option String
  optimizeThreshold : Option Nat
  fallbackThreshold : Option Nat
  cacheSize : Option Nat
deriving DecidableEq

/-- What is to be done. -/
inductive Command
  /-- List the scenarios. -/
  | list (json : Bool)
  /-- Run a scenario. -/
  | run (scenario : String) (calls : Option Nat) (tuning : Tuning) (json : Bool)
  /-- Print the settings in effect. -/
  | config (tuning : Tuning) (layout : Layout)
deriving DecidableEq

def Command.file? : Command → Option String
  | list _ => none
  | run _ _ tuning _ => tuning.config
  | config tuning _ => tuning.config

/-! ### Options -/

/-- The options of all commands. -/
inductive Slot
  | json
  | calls
  | config
  | optimizeThreshold
  | fallbackThreshold
  | cacheSize
  | format
deriving DecidableEq

def Slot.name : Slot → String
  | json => "json"
  | calls => "calls"
  | config => "config"
  | optimizeThreshold => "optimize-threshold"
  | fallbackThreshold => "fallback-threshold"
  | cacheSize => "cache-size"
  | format => "format"

def Slot.takesValue : Slot → Bool
  | json => false
  | _ => true

/-- The names of the commands. -/
inductive Verb
  | list
  | run
  | config
deriving DecidableEq

def Verb.ofName? : String → Option Verb
  | "list" => some list
  | "run" => some run
  | "config" => some config
  | _ => none

def Verb.slots : Verb → List Slot
  | list => [.json]
  | run => [.json, .calls, .config, .optimizeThreshold, .fallbackThreshold, .cacheSize]
  | config => [.config, .optimizeThreshold, .fallbackThreshold, .cacheSize, .format]

def Verb.slot? (v : Verb) (name : String) : Option Slot := v.slots.find? (·.name = name)

/-- What was given so far. -/
structure Given where
  taken : List Slot
  scenario : Option String
  calls : Option Nat
  tuning : Tuning
  layout : Layout

def Given.nothing : Given := ⟨[], none, none, ⟨none, none, none, none⟩, .toml⟩

def readWord (value : String) : Except UsageFault Nat :=
  match Numeral.word value.toList with
  | .ok n => .ok n
  | .error _ => .error .refusedValue

def Given.put (g : Given) (slot : Slot) (value : String) : Except UsageFault Given :=
  match slot with
  | .json => .ok g
  | .calls => (readWord value).map fun n => { g with calls := some n }
  | .config =>
    if Path.leadsUp value then .error .refusedValue
    else .ok { g with tuning := { g.tuning with config := some value } }
  | .optimizeThreshold =>
    (readWord value).map fun n => { g with tuning := { g.tuning with optimizeThreshold := some n } }
  | .fallbackThreshold =>
    (readWord value).map fun n => { g with tuning := { g.tuning with fallbackThreshold := some n } }
  | .cacheSize =>
    (readWord value).map fun n => { g with tuning := { g.tuning with cacheSize := some n } }
  | .format =>
    match value with
    | "toml" => .ok { g with layout := .toml }
    | "json" => .ok { g with layout := .json }
    | _ => .error .invalidValue

/-- Take an option with its value, which may not have been taken before. -/
def Given.take (g : Given) (slot : Slot) (value : String) : Except UsageFault Given :=
  if slot ∈ g.taken then .error .repeated
  else { g with taken := slot :: g.taken }.put slot value

/-! ### Going through the arguments -/

/-- An option whose value is not looked at yet. -/
inductive Pending
  | none
  /-- The value is still to come. -/
  | awaiting (slot : Slot)
  | holding (slot : Slot) (value : String)

def settle (g : Given) : Pending → Except UsageFault Given
  | .none => .ok g
  | .awaiting _ => .error .invalidValue
  | .holding slot value => g.take slot value

/-- The name and the value of a long option, given without its hyphens. -/
def splitLong (cs : List Char) : String × Option String :=
  (String.ofList (cs.takeWhile (· ≠ '=')),
    match cs.dropWhile (· ≠ '=') with
    | [] => none
    | _ :: value => some (String.ofList value))

/-- What an argument looks like before options are ended. -/
inductive Look
  | ending
  | long (name : String) (value : Option String)
  | short (first : Char)
  | plain

def Look.ofArgument (arg : String) : Look :=
  match arg.toList with
  | ['-', '-'] => .ending
  | '-' :: '-' :: cs =>
    let (name, value) := splitLong cs
    .long name value
  | '-' :: c :: _ => .short c
  | _ => .plain

def takeLong (v : Verb) (g : Given) (pending : Pending) (name : String)
    (value : Option String) : Except UsageFault (Given × Pending) :=
  match v.slot? name, value with
  | none, none =>
    if name = "help" then (settle g pending).bind fun _ => .error .helpAskedFor
    else .error .unknownArgument
  | none, some _ => if name = "help" then .error .unexpectedValue else .error .unknownArgument
  | some slot, value =>
    if slot.takesValue then
      (settle g pending).bind fun g =>
        match value with
        | none => .ok (g, .awaiting slot)
        | some value => (g.take slot value).map (·, .none)
    else if value.isSome then .error .unexpectedValue
    else (settle g pending).bind fun g => (g.take slot "").map (·, .none)

/-- Take a positional argument of a command: the scenario, once. -/
def takePositional (v : Verb) (g : Given) (pending : Pending) (arg : String) :
    Except UsageFault (Given × Pending) :=
  if v = .run ∧ g.scenario = none then
    (settle g pending).map fun g => ({ g with scenario := some arg }, .none)
  else .error .unknownArgument

def takeArgument (v : Verb) (g : Given) (pending : Pending) (arg : String) :
    Except UsageFault (Given × Pending) :=
  match Look.ofArgument arg, pending with
  | .long name value, pending => takeLong v g pending name value
  | .short c, pending =>
    if c = 'h' then (settle g pending).bind fun _ => .error .helpAskedFor
    else .error .unknownArgument
  | _, .awaiting slot => .ok (g, .holding slot arg)
  | _, pending => takePositional v g pending arg

/-- Take the arguments of a command; the flag tells whether options are ended. -/
def takeAll (v : Verb) : Bool → Given → Pending → List String → Except UsageFault Given
  | _, g, pending, [] => settle g pending
  | true, g, pending, arg :: rest =>
    match takePositional v g pending arg with
    | .error f => .error f
    | .ok (g, pending) => takeAll v true g pending rest
  | false, g, pending, arg :: rest =>
    if arg = "--" then takeAll v true g pending rest
    else
      match takeArgument v g pending arg with
      | .error f => .error f
      | .ok (g, pending) => takeAll v false g pending rest

def Given.command (g : Given) (v : Verb) : Except UsageFault Command :=
  let json := Slot.json ∈ g.taken
  match v with
  | .list => .ok (.list json)
  | .config => .ok (.config g.tuning g.layout)
  | .run =>
    match g.scenario with
    | none => .error .missingArgument
    | some scenario => .ok (.run scenario g.calls g.tuning json)

/-! ### Whole command lines -/

def isCommandName (name : String) : Bool := (Verb.ofName? name).isSome || name = "help"

/-- The error of a command line that does not start with a command. -/
def leadingFault (arg : String) (rest : List String) : UsageFault :=
  match Look.ofArgument arg with
  | .ending =>
    match rest with
    | [] => .nothingGiven
    | next :: _ => if isCommandName next then .unknownArgument else .unknownCommand
  | .long name value =>
    if name ≠ "help" ∧ name ≠ "version" then .unknownArgument
    else if value.isSome then .unexpectedValue
    else if name = "help" then .helpAskedFor
    else .versionAskedFor
  | .short c =>
    if c = 'h' then .helpAskedFor else if c = 'V' then .versionAskedFor else .unknownArgument
  | .plain => .unknownCommand

/-- The error that a request for help is: help is there for one command at a time. -/
def helpFault : List String → UsageFault
  | [] => .helpAskedFor
  | [name] => if isCommandName name then .helpAskedFor else .unknownCommand
  | _ => .unknownCommand

def parse (args : List String) : Except UsageFault Command :=
  match args with
  | [] => .error .nothingGiven
  | arg :: rest =>
    match Verb.ofName? arg with
    | some v =>
      match takeAll v false .nothing .none rest with
      | .error f => .error f
      | .ok g => g.command v
    | none =>
      if arg = "help" then .error (helpFault rest) else .error (leadingFault arg rest)

end LateBinding.CommandLine
