import LateBinding.Scenario.Fixture

/-!
# Running a scenario

A scenario is prepared for some settings, driven for a number of calls, possibly in several
goes, and finished. Finishing checks the end state and reports what became of the sites.
-/

namespace LateBinding.Scenario

/-- A scenario that is under way. -/
structure Prepared where
  scenario : Scenario
  world : World
  fixture : Fixture
  /-- The calls made so far. -/
  calls : Nat
  /-- The sum of the values of all calls, wrapped around. -/
  checksum : Int64

/-- What a finished scenario tells. -/
structure Outcome where
  scenario : Scenario
  calls : Nat
  checksum : Int64
  sites : List SiteReport
  metrics : Metrics

def Outcome.fields (o : Outcome) : List (String × Json) :=
  [("scenario", .str o.scenario.key), ("calls", .nat o.calls),
    ("checksum", .number (toString o.checksum.toInt)),
    ("sites", .array (o.sites.map (·.toJson))), ("metrics", .object o.metrics.fields)]

/-- Prepare a scenario; nothing is called yet. -/
def prepare (s : Scenario) (settings : Settings) : Except Failure Prepared :=
  match Engine.create settings with
  | .error e => .error ((Failure.ofDispatch e).within "invalid dispatch config for scenario")
  | .ok engine =>
    match Fixture.build s (.start engine) with
    | .error f => .error (f.within ("failed to set up scenario '" ++ s.key ++ "'"))
    | .ok (fixture, world) => .ok { scenario := s, world, fixture, calls := 0, checksum := 0 }

namespace Prepared

def advance (p : Prepared) : Except Failure (Int64 × Prepared) :=
  match p.fixture.step p.calls p.world with
  | .error f =>
    .error (f.within ("scenario '" ++ p.scenario.key ++ "' failed at call " ++
      toString (p.calls + 1)))
  | .ok (n, fixture, world) =>
    .ok (n, { p with world, fixture, calls := p.calls + 1, checksum := p.checksum + n })

def driveFrom (sum : Int64) : Nat → Prepared → Except Failure (Int64 × Prepared)
  | 0, p => .ok (sum, p)
  | calls + 1, p =>
    match p.advance with
    | .error f => .error f
    | .ok (n, p) => driveFrom (sum + n) calls p

/-- Make some calls and sum up their values. Calls are numbered by words; if the numbers do
not suffice no call is made. -/
def drive (p : Prepared) (calls : Nat) : Except Failure (Int64 × Prepared) :=
  match Word.add p.calls calls with
  | .error operation => .error (.ofOverflow operation)
  | .ok _ => driveFrom 0 calls p

def driveAll (p : Prepared) : List Nat → Except Failure (List Int64 × Prepared)
  | [] => .ok ([], p)
  | calls :: rest =>
    match p.drive calls with
    | .error f => .error f
    | .ok (sum, p) =>
      match driveAll p rest with
      | .error f => .error f
      | .ok (sums, p) => .ok (sum :: sums, p)

/-- Set thresholds of the policy while the scenario is under way. -/
def setPolicy (p : Prepared) (changes : List (Policy.Threshold × Nat)) : Prepared :=
  { p with world := { p.world with engine := p.world.engine.setPolicy changes } }

def finish (p : Prepared) : Except Failure Outcome :=
  match p.fixture.verify p.calls p.world with
  | .error f =>
    .error (f.within ("scenario '" ++ p.scenario.key ++ "' ended in an unexpected state"))
  | .ok () =>
    .ok
      { scenario := p.scenario, calls := p.calls, checksum := p.checksum
        sites := p.world.engine.reports, metrics := p.world.engine.metrics }

end Prepared

def run (s : Scenario) (settings : Settings) (calls : Nat) : Except Failure Outcome :=
  match s.prepare settings with
  | .error f => .error f
  | .ok p =>
    match p.drive calls with
    | .error f => .error f
    | .ok (_, p) => p.finish

end LateBinding.Scenario
