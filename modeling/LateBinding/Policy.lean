import LateBinding.Settings

/-!
# The caching policy

After a call, a site asks the policy whether to keep caching as it does, to freeze, or to
give up caching. Only sites with one or several cached shapes get an answer other than
`keep`. The thresholds are shared by all sites of an engine and can be changed while it
runs.

`Policy.decide` answers for any counters. It counts up from the capacity, so there is no
answer if the capacity is the last word and it matters what comes after that. The slots of a
site are in memory, where there is no room for so many; what sites are told is
`Policy.verdict`.
-/

namespace LateBinding

/-- The condition of a call site. -/
inductive Phase
  /-- Nothing is cached yet. -/
  | cold
  /-- One shape is cached. -/
  | monomorphic
  /-- Several shapes were met. -/
  | polymorphic
  /-- Too many shapes were met; nothing is cached any more. -/
  | megamorphic
  /-- The cached shapes were stable for long; nothing else is looked at. -/
  | frozen
deriving DecidableEq, Inhabited

/-- The name of a phase in reports. -/
def Phase.word : Phase → String
  | cold => "COLD"
  | monomorphic => "MONOMORPHIC"
  | polymorphic => "POLYMORPHIC"
  | megamorphic => "MEGAMORPHIC"
  | frozen => "FROZEN"

/-- The name of a phase in inspection texts. -/
def Phase.inspect : Phase → String
  | cold => "Cold"
  | monomorphic => "Monomorphic"
  | polymorphic => "Polymorphic"
  | megamorphic => "Megamorphic"
  | frozen => "Frozen"

def Phase.all : List Phase := [.cold, .monomorphic, .polymorphic, .megamorphic, .frozen]

/-- The phase caches shapes that may still change. -/
def Phase.isAdaptive : Phase → Bool
  | monomorphic | polymorphic => true
  | cold | megamorphic | frozen => false

/-- What a site should do after a call. -/
inductive Verdict
  | keep
  | freeze
  | giveUp
deriving DecidableEq, Inhabited

def Verdict.word : Verdict → String
  | keep => "Keep"
  | freeze => "PromoteToFrozen"
  | giveUp => "DemoteToMegamorphic"

/-- What a verdict is based on. The numbers are 64-bit words. -/
structure Evidence where
  phase : Phase
  calls : Nat
  hits : Nat
  distinctShapes : Nat
  lastNewShapeAt : Nat
  capacity : Nat
deriving DecidableEq

/-- The thresholds of the policy. -/
structure Policy where
  optimizeThreshold : Nat
  fallbackThreshold : Nat
  megamorphicMultiplier : Nat
  stableWindow : Nat
deriving DecidableEq

namespace Policy

/-- The policy that settings ask for. -/
def ofSettings (s : Settings) : Policy :=
  ⟨s.optimizeThreshold, s.fallbackThreshold, s.megamorphicMultiplier, s.stableWindow⟩

/-- Not one hit, and a threshold from which on this is failure. A fallback threshold of zero
never fires. -/
def mayFail (p : Policy) (e : Evidence) : Bool := 0 < p.fallbackThreshold && e.hits = 0

/-- Not one hit, and more shapes than fit. -/
def failsFromStart (p : Policy) (e : Evidence) : Bool :=
  p.mayFail e && max p.fallbackThreshold (e.capacity + 1) ≤ e.distinctShapes

/-- A polymorphic site that saw too many shapes for its capacity. -/
def thrashes (p : Policy) (e : Evidence) : Bool :=
  e.phase = .polymorphic && Word.mulSat e.capacity p.megamorphicMultiplier < e.distinctShapes

/-- Enough calls, and none with a new shape for long enough. -/
def isStable (p : Policy) (e : Evidence) : Bool :=
  p.optimizeThreshold < e.calls &&
    min p.stableWindow p.optimizeThreshold ≤ e.calls - e.lastNewShapeAt

/-- The verdict once it is known whether the site failed from the start. -/
def conclude (p : Policy) (e : Evidence) (fails : Bool) : Verdict :=
  if fails || p.thrashes e then .giveUp
  else if p.isStable e then .freeze
  else .keep

/-- What a site is told. -/
def verdict (p : Policy) (e : Evidence) : Verdict :=
  if !e.phase.isAdaptive then .keep else p.conclude e (p.failsFromStart e)

/-- The verdict for counters that need not be those of a site. The least number of shapes
that do not fit is only asked for where the verdict may depend on it, and need not be a
word. -/
def decide (p : Policy) (e : Evidence) : Except Word.Overflow Verdict :=
  if !e.phase.isAdaptive then .ok .keep
  else if p.mayFail e then do
    let more ← Word.add e.capacity 1
    return p.conclude e (max p.fallbackThreshold more ≤ e.distinctShapes)
  else .ok (p.conclude e false)

/-- For all capacities but the last word, the verdict is what a site is told. -/
theorem decide_of_lt {p : Policy} {e : Evidence} (h : e.capacity < Word.last) :
    p.decide e = .ok (p.verdict e) := by
  have hmore : Word.add e.capacity 1 = .ok (e.capacity + 1) :=
    Word.add_of_lt (Nat.succ_lt_succ h)
  unfold decide verdict failsFromStart
  cases e.phase.isAdaptive <;> cases p.mayFail e <;> simp [hmore, bind, Except.bind, pure,
    Except.pure]

/-- A threshold by name. -/
inductive Threshold
  | optimize
  | fallback
  | multiplier
  | window
deriving DecidableEq

/-- Set a threshold. The multiplier is at least one. -/
def set (p : Policy) (t : Threshold) (value : Nat) : Policy :=
  match t with
  | .optimize => { p with optimizeThreshold := value }
  | .fallback => { p with fallbackThreshold := value }
  | .multiplier => { p with megamorphicMultiplier := max value 1 }
  | .window => { p with stableWindow := value }

/-- Set several thresholds, one after another. -/
def setAll (p : Policy) (changes : List (Threshold × Nat)) : Policy :=
  changes.foldl (fun p c => p.set c.1 c.2) p

end Policy

end LateBinding
