import LateBinding.Scenario
import LateBinding.Scenario.World

/-!
# Fixtures

A fixture is what a scenario sets up before its first call: classes, objects and sites. Its
`step` makes the calls of one round and checks the values that come back; its `verify` looks
at the sites afterwards. The site of a fixture has number 1; where two are needed, the second
is written through and has number 2.
-/

namespace LateBinding.Scenario

/-- What a scenario works with. -/
inductive Fixture
  | hot (receiver : Value)
  | cold (cls : ClassRef)
  | rotation (receivers : Array Value) (shuffled : Bool)
  | finder (receiver : Value)
  | storm (cls : ClassRef) (receiver : Value) (generation : Nat)
  | property (receiver : Value)

/-- After how many calls the storm replaces its method. -/
def stormPeriod : Nat := 500

/-- How many receiver classes there are for each cache entry when there are many. -/
def manyFactor : Nat := 4

/-- A fixed sequence that looks random: a mixing of the bits of the step's number. -/
def mix (step : Nat) : Nat :=
  let z := UInt64.ofNat step + 0x9E3779B97F4A7C15
  let z := (z ^^^ (z >>> 30)) * 0xBF58476D1CE4E5B9
  let z := (z ^^^ (z >>> 27)) * 0x94D049BB133111EB
  (z ^^^ (z >>> 31)).toNat

namespace Fixture

/-! ### Setting up -/

/-- Declare receiver classes number `next` and on and create an object of each. -/
def receivers : Nat → Nat → Array Value → World → Except Failure (Array Value × World)
  | 0, _, done, w => .ok (done, w)
  | left + 1, next, done, w => do
    let tag := Action.constant (.int (Int64.ofNat next))
    let (c, w) ← w.define ("Receiver" ++ toString next) [] [method "receive" [] tag]
    let (receiver, w) := w.create c []
    receivers left (next + 1) (done.push receiver) w

def buildRotation (count : Nat) (shuffled : Bool) (w : World) :
    Except Failure (Fixture × World) := do
  let (values, w) ← receivers count 0 #[] w
  let w ← w.openSite 1 .method "receive"
  return (.rotation values shuffled, w)

def build (s : Scenario) (w : World) : Except Failure (Fixture × World) := do
  let capacity := w.engine.settings.cacheCapacity
  match s with
  | .monomorphicHot =>
    let (c, w) ← w.define "Svc" [] [method "getName" [] (.constant (.str "x"))]
    let w ← w.openSite 1 .method "getName"
    let (receiver, w) := w.create c []
    return (.hot receiver, w)
  | .coldCall =>
    let handle := method "handle" [.ofClass .int] .doubleArgument
    let (c, w) ← w.define "Request" ["id"] [handle]
    return (.cold c, w)
  | .roundRobin => buildRotation capacity false w
  | .megamorphicRandom =>
    let many ← Failure.exact (Word.mul capacity manyFactor)
    let count ← Failure.exact (Word.add many 1)
    buildRotation count true w
  | .dynamicFinder =>
    let (c, w) ← w.define "PersonFinder" [] []
    let w ← w.change c (.setMethodMissing (some .findBy))
    let w ← w.openSite 1 .method "findByName"
    let (receiver, w) := w.create c []
    return (.finder receiver, w)
  | .invalidationStorm =>
    let (c, w) ← w.define "Config" [] [method "generation" [] (.constant (.int 0))]
    let w ← w.openSite 1 .method "generation"
    let (receiver, w) := w.create c []
    return (.storm c receiver 0, w)
  | .propertyAccess =>
    let (c, w) ← w.define "Counter" ["count"] [method "getDoubled" [] .doubleCount]
    let w ← w.openSite 1 .read "doubled"
    let w ← w.openSite 2 .write "count"
    let (receiver, w) := w.create c [("count", .int 0)]
    return (.property receiver, w)

/-! ### Steps -/

/-- Fail unless a value is the expected one. -/
def expect (actual expected : Value) : Except Failure Unit :=
  if actual.equal expected then .ok ()
  else
    .error (.ofFault (.checkFailed
      ("expected " ++ expected.inspect ++ " but observed " ++ actual.inspect)))

/-- Call a fresh object twice through a fresh site that is not kept. -/
def stepCold (c : ClassRef) (step : Nat) (w : World) : Except Failure (Int64 × World) := do
  let site := Site.create step .method "handle" w.engine.settings.cacheCapacity
  let (receiver, w) := w.create c []
  let (key, engine) := w.engine.attach site
  let w := { w with engine }
  let number := Int64.ofNat step
  let (first, w) ← w.call key receiver [.int number]
  let (second, w) ← w.call key receiver [.int number]
  expect first (.int (number * 2))
  expect second first
  return (intOr0 (some first), { w with engine := w.engine.drop key })

def stepRotation (values : Array Value) (shuffled : Bool) (step : Nat) (w : World) :
    Except Failure (Int64 × World) := do
  let turn := (if shuffled then mix step else step) % values.size
  let (v, w) ← w.call (.numbered 1) ((values[turn]?).getD .nil) []
  expect v (.int (Int64.ofNat turn))
  return (Int64.ofNat turn, w)

def stepStorm (c : ClassRef) (receiver : Value) (generation step : Nat) (w : World) :
    Except Failure (Int64 × Nat × World) := do
  let due := 0 < step ∧ step % stormPeriod = 0
  let generation := if due then generation + 1 else generation
  let current := Value.int (Int64.ofNat generation)
  let w ← if due then w.change c (.addMethod (method "generation" [] (.constant current)))
    else .ok w
  let (v, w) ← w.call (.numbered 1) receiver []
  expect v current
  return (Int64.ofNat generation, generation, w)

/-- Write a property, then read the one that depends on it. -/
def stepProperty (receiver : Value) (step : Nat) (w : World) :
    Except Failure (Int64 × World) := do
  let count := Int64.ofNat (step % 100)
  let (written, w) ← w.call (.numbered 2) receiver [.int count]
  expect written (.int count)
  let (v, w) ← w.call (.numbered 1) receiver []
  expect v (.int (count * 2))
  return (count, w)

/-- Make the calls of step number `step`: a number for the checksum, the fixture and the
world afterwards. -/
def step (f : Fixture) (step : Nat) (w : World) : Except Failure (Int64 × Fixture × World) := do
  match f with
  | hot receiver =>
    let (v, w) ← w.call (.numbered 1) receiver []
    expect v (.str "x")
    return (1, f, w)
  | cold c =>
    let (n, w) ← stepCold c step w
    return (n, f, w)
  | rotation values shuffled =>
    let (n, w) ← stepRotation values shuffled step w
    return (n, f, w)
  | finder receiver =>
    let key := Int64.ofNat (step % 1000)
    let (v, w) ← w.call (.numbered 1) receiver [.int key]
    expect v (.int (key + 4))
    return (key, f, w)
  | storm c receiver generation =>
    let (n, generation, w) ← stepStorm c receiver generation step w
    return (n, .storm c receiver generation, w)
  | property receiver =>
    let (n, w) ← stepProperty receiver step w
    return (n, f, w)

/-! ### The end state -/

/-- Fail with a text unless a condition holds. -/
def ensure (condition : Bool) (otherwise : String) : Except Failure Unit :=
  if condition then .ok () else .error (.ofFault (.checkFailed otherwise))

/-- Fail unless a site is in the expected phase. -/
def ensurePhase (site : Site Action) (expected : Phase) : Except Failure Unit :=
  ensure (site.phase = expected) ("site " ++ Site.label site.id ++ " ended " ++
    site.phase.word ++ " instead of " ++ expected.word)

/-- One resolution was enough, and the site froze if there were calls enough. -/
def verifyHot (p : Policy) (site : Site Action) (calls : Nat) : Except Failure Unit := do
  ensure (site.resolutions ≤ 1)
    ("expected a single resolution, got " ++ toString site.resolutions)
  if p.optimizeThreshold < calls then ensurePhase site .frozen

/-- Each receiver class was resolved once, and none was evicted for good. -/
def verifyRotation (site : Site Action) (receivers calls : Nat) : Except Failure Unit := do
  ensure (site.phase ≠ .megamorphic) "rotation within capacity went megamorphic"
  let expected := min receivers calls
  ensure (site.resolutions = expected)
    ("expected " ++ toString expected ++ " resolutions, got " ++ toString site.resolutions)

/-- The site gave up caching if there were calls enough. The bound is a product, which need
not be a word. -/
def verifyShuffled (p : Policy) (site : Site Action) (calls : Nat) : Except Failure Unit := do
  let limit ← Failure.exact (Word.mul site.capacity p.megamorphicMultiplier)
  let enough ← Failure.exact (Word.mul limit 8)
  if enough ≤ calls then ensurePhase site .megamorphic

/-- Each version of the method was resolved at most once. -/
def verifyStorm (site : Site Action) (generation calls : Nat) : Except Failure Unit :=
  let bound := generation + 1
  ensure (site.resolutions ≤ min bound calls)
    ("expected at most " ++ toString bound ++ " resolutions, got " ++ toString site.resolutions)

/-- Either property was resolved at most once. -/
def verifyProperty (read write : Site Action) : Except Failure Unit :=
  ensure (read.resolutions ≤ 1 && write.resolutions ≤ 1)
    ("property sites re-resolved: read " ++ toString read.resolutions ++ " write " ++
      toString write.resolutions)

/-- A numbered site of a fixture, which is there once the fixture is built. -/
def site (w : World) (id : Nat) : Except Failure (Site Action) :=
  match w.site? id with
  | some s => .ok s
  | none => .error (.ofFault .noSite)

def verify (f : Fixture) (calls : Nat) (w : World) : Except Failure Unit := do
  let policy := w.engine.policy
  match f with
  | hot _ | finder _ => verifyHot policy (← site w 1) calls
  | cold _ => ensure (w.engine.siteCount = 0) "cold sites must not be registered"
  | rotation values shuffled =>
    if shuffled then verifyShuffled policy (← site w 1) calls
    else verifyRotation (← site w 1) values.size calls
  | storm _ _ generation => verifyStorm (← site w 1) generation calls
  | property _ => verifyProperty (← site w 1) (← site w 2)

end Fixture

end LateBinding.Scenario
