/-!
# Scenarios

A scenario is a workload that checks itself: it sets up classes and call sites, makes calls
whose values it knows, and at the end looks at what became of the sites. This module lists
the scenarios with their names.
-/

namespace LateBinding

/-- The built-in workloads. -/
inductive Scenario
  /-- One receiver class at one site. -/
  | monomorphicHot
  /-- A new object and a new site for every call. -/
  | coldCall
  /-- As many receiver classes as a site has entries, in turn. -/
  | roundRobin
  /-- Many more receiver classes than entries, in a random-looking order. -/
  | megamorphicRandom
  /-- Methods served by a hook for missing methods. -/
  | dynamicFinder
  /-- A method that is replaced again and again. -/
  | invalidationStorm
  /-- A property that is written and another one that is read. -/
  | propertyAccess
deriving DecidableEq, Inhabited

namespace Scenario

def all : List Scenario :=
  [monomorphicHot, coldCall, roundRobin, megamorphicRandom, dynamicFinder, invalidationStorm,
    propertyAccess]

def key : Scenario → String
  | monomorphicHot => "monomorphic_hot"
  | coldCall => "cold_call"
  | roundRobin => "round_robin"
  | megamorphicRandom => "megamorphic_random"
  | dynamicFinder => "dynamic_finder"
  | invalidationStorm => "invalidation_storm"
  | propertyAccess => "property_access"

def title : Scenario → String
  | monomorphicHot => "One receiver class hammering one site until it freezes"
  | coldCall => "Short-lived objects and sites called twice then dropped"
  | roundRobin => "As many receiver classes as cache slots, in rotation"
  | megamorphicRandom => "Many receiver classes in pseudo-random order"
  | dynamicFinder => "findByX calls served by a methodMissing hook"
  | invalidationStorm => "Hot site whose method is replaced every 500 calls"
  | propertyAccess => "Field writes and getter reads through property sites"

/-- How many calls a scenario makes if nothing else is asked for. -/
def defaultCalls : Scenario → Nat
  | coldCall => 5000
  | _ => 20000

def benchName (s : Scenario) : String := s.key ++ "_dispatch"

def ofKey? (key : String) : Option Scenario := all.find? (·.key = key)

theorem ofKey?_key (s : Scenario) : ofKey? s.key = some s := by cases s <;> decide

end Scenario

end LateBinding
