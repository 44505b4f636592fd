import LateBinding.Error
import LateBinding.Json
import LateBinding.Word

/-!
# Settings

The numbers that tune call sites and the resolver. They come from a file, from environment
variables and from the command line, in this order, and are checked after each layer. The
numbers are 64-bit words.
-/

namespace LateBinding

/-- The tuning of an engine. -/
structure Settings where
  /-- Entries that a call site keeps. -/
  cacheCapacity : Nat
  /-- Calls after which a stable site may freeze. -/
  optimizeThreshold : Nat
  /-- Shapes without a hit after which a site gives up caching; zero for never. -/
  fallbackThreshold : Nat
  /-- How many times its capacity a polymorphic site may see in shapes. -/
  megamorphicMultiplier : Nat
  /-- Calls without a new shape that a site needs to freeze. -/
  stableWindow : Nat
  /-- Whether the resolver remembers what methods resolved to. -/
  memoizeResolutions : Bool
  /-- How many resolutions the resolver remembers. -/
  memoCapacity : Nat
deriving DecidableEq

namespace Settings

def default : Settings := ⟨4, 10000, 8, 4, 1000, true, 4096⟩

instance : Inhabited Settings := ⟨default⟩

def fault? (s : Settings) : Option SettingsFault :=
  if !(1 ≤ s.cacheCapacity && s.cacheCapacity ≤ maxCacheCapacity) then
    some (.cacheCapacity s.cacheCapacity)
  else if s.megamorphicMultiplier = 0 then some .zeroMultiplier
  else if s.memoizeResolutions && s.memoCapacity = 0 then some .zeroMemoCapacity
  else none

def validate (s : Settings) : Except DispatchError Unit :=
  match s.fault? with
  | some f => .error (.invalidSettings f)
  | none => .ok ()

/-- The names of the settings and their values as JSON texts, in the order of listing. -/
def listing (s : Settings) : List (String × Json) :=
  [("cache_capacity", .nat s.cacheCapacity), ("optimize_threshold", .nat s.optimizeThreshold),
    ("fallback_threshold", .nat s.fallbackThreshold),
    ("megamorphic_multiplier", .nat s.megamorphicMultiplier),
    ("stable_window", .nat s.stableWindow), ("memoize_resolutions", .bool s.memoizeResolutions),
    ("memo_capacity", .nat s.memoCapacity)]

end Settings

end LateBinding
