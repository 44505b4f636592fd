import LateBinding.CommandLine.Arguments
import LateBinding.FileTree
import LateBinding.Scenario.Run
import LateBinding.Settings.File

/-!
# Carrying out commands

What a command prints, given the environment variables and how files are read. A run takes
time, which is told in its report but is not known here; it is filled in when the report is
printed.
-/

namespace LateBinding.CommandLine

/-- What a command may ask of the machine that it runs on. -/
structure Host where
  environment : Settings.Environment
  /-- The text of the file at a path. -/
  fileText : String → Except ReadFault String

def Host.inMemory (environment : Settings.Environment) (files : FileTree) : Host :=
  ⟨environment, files.text⟩

/-! ### Settings in effect -/

/-- Put the options of the command line on top of settings. -/
def Tuning.apply (t : Tuning) (s : Settings) : Settings :=
  { s with
    cacheCapacity := t.cacheSize.getD s.cacheCapacity
    optimizeThreshold := t.optimizeThreshold.getD s.optimizeThreshold
    fallbackThreshold := t.fallbackThreshold.getD s.fallbackThreshold }

/-- The settings below the environment: those of the file, or the defaults. -/
def baseSettings (host : Host) (t : Tuning) : Except Failure Settings :=
  match t.config with
  | some path => Settings.ofFile host.fileText path
  | none => .ok .default

/-- The settings in effect: the file's, overridden by the environment, overridden by the
command line. -/
def effectiveSettings (host : Host) (t : Tuning) : Except Failure Settings :=
  match baseSettings host t with
  | .error f => .error f
  | .ok s =>
    match s.withOverrides host.environment with
    | .error f => .error f
    | .ok s => (t.apply s).checked

/-! ### Texts -/

def padRight (width : Nat) (s : String) : String :=
  s ++ String.ofList (List.replicate (width - s.length) ' ')

def padLeft (width : Nat) (s : String) : String :=
  String.ofList (List.replicate (width - s.length) ' ') ++ s

def unlines (lines : List String) : String := String.join (lines.map (· ++ "\n"))

def twoPlaces (x : Float) : String :=
  match Decimal.Parts.ofFloat x with
  | .finite _ m q =>
    Decimal.withPlaces 2 (Decimal.roundDiv (m * Nat.pow 2 q.toNat * 100) (Nat.pow 2 (-q).toNat))
  | _ => Value.floatText x

/-! ### The list of scenarios -/

def scenarioLine (s : Scenario) : String :=
  padRight 20 s.key ++ " " ++ padLeft 8 (toString s.defaultCalls) ++ "  " ++ s.title

def scenarioJson (s : Scenario) : Json :=
  .object [("key", .str s.key), ("title", .str s.title), ("default_calls", .nat s.defaultCalls)]

def listing (json : Bool) : String :=
  if json then unlines [(Json.array (Scenario.all.map scenarioJson)).pretty]
  else unlines (Scenario.all.map scenarioLine)

/-! ### Reports of runs -/

/-- A finished run. -/
structure RunReport where
  settings : Settings
  outcome : Scenario.Outcome

def entryLine (e : EntryReport) : String :=
  "    " ++ e.receiver ++ "(" ++ Value.commaList e.args ++ ") -> " ++ e.target ++ " hits=" ++
    toString e.hits ++ (if e.stale then " stale" else "")

def labelled (name : String) (n : Nat) : String := " " ++ name ++ "=" ++ toString n

def siteLines (s : SiteReport) : List String :=
  ("  site#" ++ toString s.site ++ " " ++ s.access.word ++ " " ++ padRight 12 s.name ++ " " ++
    padRight 11 s.phase.word ++ labelled "calls" s.calls ++ labelled "hits" s.hits ++
    labelled "misses" s.misses ++ labelled "resolutions" s.resolutions ++
    labelled "shapes" s.distinctShapes ++ labelled "penalty" s.missPenalty ++
    labelled "freezes" s.freezes ++ labelled "thaws" s.thaws) :: s.entries.map entryLine

def metricsLine (m : Metrics) : String :=
  "hit ratio " ++ twoPlaces (m.hitRatio * 100) ++ "%, resolver invocations " ++
    toString m.resolverInvocations ++ " (full " ++ toString m.fullResolutions ++ ", memo " ++
    toString m.memoHits ++ "), meta-classes " ++ toString m.classCells

namespace RunReport

/-- A run for a reader; `elapsed` is its time in milliseconds. -/
def text (r : RunReport) (elapsed : String) : String :=
  let o := r.outcome
  let head := "scenario " ++ o.scenario.key ++ " (" ++ o.scenario.title ++ "): " ++
    toString o.calls ++ " calls in " ++ elapsed ++ " ms, checksum " ++ toString o.checksum.toInt
  unlines (head :: o.sites.flatMap siteLines ++ [metricsLine o.metrics])

/-- A run as JSON; `elapsed` is its time in milliseconds. -/
def toJson (r : RunReport) (elapsed : Json) : Json :=
  .object ([("title", .str r.outcome.scenario.title), ("elapsed_ms", elapsed),
    ("config", .object r.settings.listing)] ++ r.outcome.fields)

end RunReport

/-! ### Commands -/

/-- What a command yields. -/
inductive Output
  /-- A text to be printed. -/
  | text (s : String)
  /-- A run to be printed for a reader. -/
  | report (r : RunReport)
  /-- A run to be printed as JSON. -/
  | document (r : RunReport)

def runScenario (host : Host) (key : String) (calls : Option Nat) (t : Tuning) :
    Except Failure RunReport :=
  match Scenario.ofKey? key with
  | none => .error (.ofFault (.unknownScenario key (Scenario.all.map (·.key))))
  | some s =>
    match effectiveSettings host t with
    | .error f => .error f
    | .ok settings =>
      match s.run settings (calls.getD s.defaultCalls) with
      | .error f => .error (f.within ("scenario '" ++ s.key ++ "' failed"))
      | .ok outcome => .ok { settings, outcome }

def printSettings (layout : Layout) (s : Settings) : String :=
  match layout with
  | .json => unlines [(Json.object s.listing).pretty]
  | .toml => s.toToml

def execute (host : Host) : Command → Except Failure Output
  | .list json => .ok (.text (listing json))
  | .run scenario calls tuning json =>
    match runScenario host scenario calls tuning with
    | .error f => .error f
    | .ok r => .ok (if json then .document r else .report r)
  | .config tuning layout =>
    match effectiveSettings host tuning with
    | .error f => .error f
    | .ok s => .ok (.text (printSettings layout s))

/-- A path as it was given, unless it leads upwards. -/
def sanitizePath (raw : String) : Except Failure String :=
  if Path.leadsUp raw then .error (.ofFault .parentDirectory) else .ok raw

end LateBinding.CommandLine
