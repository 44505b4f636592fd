import LateBinding.Settings

/-!
# Sources of settings

A file format gives either named settings or a bare list of values in the order of listing.
Whatever the format, the same rules hold: settings that are not given keep their defaults,
every name is known and given once, numbers are 64-bit words, and only `memoize_resolutions`
is a truth value.
-/

namespace LateBinding

namespace Settings

/-- A setting by its name. -/
inductive Key
  | cacheCapacity
  | optimizeThreshold
  | fallbackThreshold
  | megamorphicMultiplier
  | stableWindow
  | memoizeResolutions
  | memoCapacity
deriving DecidableEq

def Key.all : List Key :=
  [.cacheCapacity, .optimizeThreshold, .fallbackThreshold, .megamorphicMultiplier,
    .stableWindow, .memoizeResolutions, .memoCapacity]

def Key.name : Key → String
  | cacheCapacity => "cache_capacity"
  | optimizeThreshold => "optimize_threshold"
  | fallbackThreshold => "fallback_threshold"
  | megamorphicMultiplier => "megamorphic_multiplier"
  | stableWindow => "stable_window"
  | memoizeResolutions => "memoize_resolutions"
  | memoCapacity => "memo_capacity"

def Key.ofName? (name : String) : Option Key := Key.all.find? (·.name = name)

/-- A value as a source gives it. -/
inductive Given
  | number (n : Nat)
  | flag (b : Bool)
  /-- A value of another kind, or a number that is no natural number. -/
  | other
deriving DecidableEq

/-- Change one number among the settings; the flag is none. -/
def setNumber (s : Settings) (k : Key) (n : Nat) : Settings :=
  match k with
  | .cacheCapacity => { s with cacheCapacity := n }
  | .optimizeThreshold => { s with optimizeThreshold := n }
  | .fallbackThreshold => { s with fallbackThreshold := n }
  | .megamorphicMultiplier => { s with megamorphicMultiplier := n }
  | .stableWindow => { s with stableWindow := n }
  | .memoizeResolutions => s
  | .memoCapacity => { s with memoCapacity := n }

/-- Change one setting, if the value is of the right kind. -/
def put? (s : Settings) (k : Key) (v : Given) : Option Settings :=
  match k, v with
  | .memoizeResolutions, .flag b => some { s with memoizeResolutions := b }
  | .memoizeResolutions, _ => none
  | k, .number n => if n < Word.size then some (s.setNumber k n) else none
  | _, _ => none

/-- What a source gives. -/
inductive Source
  | named (entries : List (String × Given))
  | listed (values : List Given)

/-- Take over named settings, none of which is in `seen`. -/
def takeNamed (s : Settings) (seen : List Key) : List (String × Given) → Option Settings
  | [] => some s
  | (name, v) :: rest =>
    match Key.ofName? name with
    | none => none
    | some k =>
      if k ∈ seen then none
      else
        match s.put? k v with
        | none => none
        | some s => takeNamed s (k :: seen) rest

/-- Take over values for some settings in order; there are no more values than settings. -/
def takeListed (s : Settings) : List Key → List Given → Option Settings
  | _, [] => some s
  | [], _ :: _ => none
  | k :: ks, v :: vs =>
    match s.put? k v with
    | none => none
    | some s => takeListed s ks vs

/-- The settings that a source gives, with defaults for those that it does not give. -/
def ofSource? : Source → Option Settings
  | .named entries => takeNamed .default [] entries
  | .listed values => takeListed .default Key.all values

end Settings

end LateBinding
