import LateBinding.Numeral
import LateBinding.Settings
import LateBinding.Text.Blank

/-!
# Settings from the environment

Environment variables override settings. They are looked at in a fixed order, and the first
one that is not written well is the error; after all of them the settings are checked.
-/

namespace LateBinding.Settings

/-- The value of an environment variable, if it is set. -/
abbrev Environment := String → Option String

/-- The variables that override settings, in the order in which they are looked at. -/
def overrideNames : List String :=
  ["DYNSITE_CALLSITE_CACHE_SIZE", "DYNSITE_OPTIMIZE_THRESHOLD", "DYNSITE_FALLBACK_THRESHOLD",
    "DYNSITE_MEGAMORPHIC_MULTIPLIER", "DYNSITE_STABLE_WINDOW", "DYNSITE_MEMOIZE"]

/-- A number with blanks around it and underscores anywhere. -/
def readNumber (raw : String) : Except NumberFault Nat :=
  Numeral.word ((Text.trim raw).toList.filter (· ≠ '_'))

/-- A flag with blanks around it, in capital or small letters. -/
def readFlag (raw : String) : Except Fault Bool :=
  let word := Text.lowerAscii (Text.trim raw)
  if ["1", "true", "on", "yes"].contains word then .ok true
  else if ["0", "false", "off", "no"].contains word then .ok false
  else .error (.flag word)

/-- The number that a variable gives, or what the settings say if it is not set. -/
def numberOf (env : Environment) (name : String) (otherwise : Nat) : Except Failure Nat :=
  match env name with
  | none => .ok otherwise
  | some raw =>
    match readNumber raw with
    | .ok n => .ok n
    | .error f =>
      .error ((Failure.ofFault (.number f)).within (name ++ "=" ++ raw ++ " is not a valid number"))

/-- The flag that a variable gives, or what the settings say if it is not set. -/
def flagOf (env : Environment) (name : String) (otherwise : Bool) : Except Failure Bool :=
  match env name with
  | none => .ok otherwise
  | some raw =>
    match readFlag raw with
    | .ok b => .ok b
    | .error f => .error ((Failure.ofFault f).within (name ++ "=" ++ raw))

def overrideUnchecked (s : Settings) (env : Environment) : Except Failure Settings := do
  let cacheCapacity ← numberOf env "DYNSITE_CALLSITE_CACHE_SIZE" s.cacheCapacity
  let optimizeThreshold ← numberOf env "DYNSITE_OPTIMIZE_THRESHOLD" s.optimizeThreshold
  let fallbackThreshold ← numberOf env "DYNSITE_FALLBACK_THRESHOLD" s.fallbackThreshold
  let megamorphicMultiplier ←
    numberOf env "DYNSITE_MEGAMORPHIC_MULTIPLIER" s.megamorphicMultiplier
  let stableWindow ← numberOf env "DYNSITE_STABLE_WINDOW" s.stableWindow
  let memoizeResolutions ← flagOf env "DYNSITE_MEMOIZE" s.memoizeResolutions
  return { s with
    cacheCapacity, optimizeThreshold, fallbackThreshold, megamorphicMultiplier, stableWindow
    memoizeResolutions }

def checked (s : Settings) : Except Failure Settings :=
  match s.validate with
  | .ok () => .ok s
  | .error e => .error (.ofDispatch e)

def withOverrides (s : Settings) (env : Environment) : Except Failure Settings :=
  match s.overrideUnchecked env with
  | .error f => .error f
  | .ok s => s.checked

end LateBinding.Settings
