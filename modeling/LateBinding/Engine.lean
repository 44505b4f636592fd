import LateBinding.Report

/-!
# The engine

An engine owns the resolver with its registry, the policy and the table of call sites. A
site is asked for by number and created on the first request; asking for the number again
with another member or access is refused. Detached sites share the resolver and the policy
but are left out of counts and reports; each gets a serial of its own, which never comes
back. Calls can also be made without a site.

All operations here change the engine and nothing else: they decide what is to run and leave
the running to the caller.
-/

namespace LateBinding

/-- The identity of a call site. -/
inductive SiteKey
  | numbered (id : Nat)
  | detached (serial : Nat)
deriving DecidableEq

/-- A dispatch engine for bodies of type `β`. -/
structure Engine (β : Type) where
  settings : Settings
  policy : Policy
  resolver : Resolver β
  sites : Table SiteKey (Site β)
  /-- The serial of the next detached site. -/
  nextSerial : Nat

namespace Engine

variable {β : Type}

/-- The engine for some settings, without checking them. -/
def build (s : Settings) : Engine β :=
  { settings := s, policy := .ofSettings s, resolver := .ofSettings s, sites := .empty
    nextSerial := 0 }

def create (s : Settings) : Except DispatchError (Engine β) :=
  match s.validate with
  | .error e => .error e
  | .ok () => .ok (build s)

def registry (g : Engine β) : Registry β := g.resolver.registry

def withRegistry (g : Engine β) (r : Registry β) : Engine β :=
  { g with resolver := { g.resolver with registry := r } }

/-- Keep what an operation on the registry yields; a failed one changes nothing. -/
def onRegistry {α : Type} (g : Engine β)
    (op : Registry β → Except DispatchError (α × Registry β)) :
    Except DispatchError α × Engine β :=
  match op g.registry with
  | .error e => (.error e, g)
  | .ok (a, r) => (.ok a, g.withRegistry r)

/-- The same for an operation without an answer. -/
def onRegistry' (g : Engine β) (op : Registry β → Except DispatchError (Registry β)) :
    Except DispatchError Unit × Engine β :=
  g.onRegistry fun r => (op r).map ((), ·)

/-! ### Classes and members -/

def define (g : Engine β) (d : ClassHeader) (methods : List (MethodDecl β)) :
    Except DispatchError ClassRef × Engine β :=
  g.onRegistry fun r => r.define d methods

def changeClass (g : Engine β) (c : ClassRef) (change : Change β) :
    Except DispatchError Unit × Engine β :=
  g.onRegistry' fun r => r.changeClass c change

/-- Change an object's own members. -/
def changeObject (g : Engine β) (o : ObjectRef) (change : Change β) :
    Except DispatchError Unit × Engine β :=
  g.onRegistry' fun r => r.changeObject o change

def applyCategory (g : Engine β) (c : ClassRef) (methods : List (MethodDecl β)) :
    Except DispatchError Unit × Engine β :=
  g.onRegistry' fun r => r.applyCategory c methods

def applyTrait (g : Engine β) (c iface : ClassRef) : Except DispatchError Unit × Engine β :=
  g.onRegistry' fun r => r.applyTrait c iface

/-- Declare everything about a class and its heirs stale. -/
def invalidate (g : Engine β) (c : ClassRef) : Except DispatchError Unit × Engine β :=
  g.onRegistry' fun r => r.invalidate c

/-- The members of a class, whose cell comes into being. -/
def membersOf (g : Engine β) (c : ClassRef) : Except DispatchError (MemberTable β) × Engine β :=
  g.onRegistry fun r => (r.materialize c).map fun r => (r.members c, r)

/-- The version of a class, whose cell comes into being. -/
def versionOf (g : Engine β) (c : ClassRef) : Except DispatchError Nat × Engine β :=
  g.onRegistry fun r => (r.materialize c).map fun r => ((r.version? (.ofClass c)).getD 0, r)

/-! ### Resolution without a site -/

/-- Resolve a member for a receiver and arguments. -/
def resolve (g : Engine β) (access : Access) (receiver : Value) (name : String)
    (args : List Value) : Except DispatchError (Resolution β) × Engine β :=
  let (result, resolver) :=
    g.resolver.resolve access (.ofValue g.registry receiver) name (.ofArgs args)
  (result, { g with resolver })

/-- Decide what an access without a site runs. -/
def decideUncached (g : Engine β) (access : Access) (receiver : Value) (name : String)
    (args : List Value) : Except DispatchError (Target β) × Engine β :=
  match g.resolve access receiver name args with
  | (.error e, g) => (.error e, g)
  | (.ok found, g) => (.ok found.target, g)

def resolveClass (g : Engine β) (c : ClassRef) (name : String) (args : List ClassRef) :
    Except DispatchError (Target β) × Engine β :=
  let (result, resolver) := g.resolver.resolveClass c name args
  (result, { g with resolver })

/-- Forget all remembered resolutions. -/
def clearMemo (g : Engine β) : Engine β := { g with resolver := g.resolver.clearMemo }

/-! ### Sites -/

/-- The site of a number, created if there is none. -/
def openSite (g : Engine β) (id : Nat) (access : Access) (name : String) :
    Except DispatchError (Site β) × Engine β :=
  match g.sites.get? (.numbered id) with
  | some s =>
    if s.access = access ∧ s.name = name then (.ok s, g)
    else (.error (.siteConflict id (s.access, s.name) (access, name)), g)
  | none =>
    let s := Site.create id access name g.settings.cacheCapacity
    (.ok s, { g with sites := g.sites.insert (.numbered id) s })

def attach (g : Engine β) (s : Site β) : SiteKey × Engine β :=
  let key := SiteKey.detached g.nextSerial
  (key, { g with sites := g.sites.insert key s, nextSerial := g.nextSerial + 1 })

def drop (g : Engine β) (key : SiteKey) : Engine β := { g with sites := g.sites.erase key }

def numberedSites (g : Engine β) : List (Site β) :=
  let pairs := g.sites.entries.filterMap fun p => match p.1 with
    | .numbered id => some (id, p.2)
    | .detached _ => none
  (pairs.mergeSort fun a b => a.1 ≤ b.1).map (·.2)

def siteCount (g : Engine β) : Nat := g.numberedSites.length

/-- Decide what a call through a site runs; nothing if there is no such site. -/
def dispatch (g : Engine β) (key : SiteKey) (receiver : Value) (args : List Value) :
    Option (Except DispatchError (Target β)) × Engine β :=
  match g.sites.get? key with
  | none => (none, g)
  | some s =>
    let (result, s, resolver) := s.dispatch g.policy g.resolver receiver args
    (some result, { g with resolver, sites := g.sites.insert key s })

def resetSite (g : Engine β) (key : SiteKey) : Engine β :=
  { g with sites := g.sites.modify key (·.reset) }

def resetSites (g : Engine β) : Engine β :=
  { g with sites := ⟨g.sites.entries.map fun p => match p.1 with
    | .numbered _ => (p.1, p.2.reset)
    | .detached _ => p⟩ }

def setPolicy (g : Engine β) (changes : List (Policy.Threshold × Nat)) : Engine β :=
  { g with policy := g.policy.setAll changes }

/-- Reports on all numbered sites, by number. -/
def reports (g : Engine β) : List SiteReport := g.numberedSites.map (·.report g.registry)

def metrics (g : Engine β) : Metrics := .ofSites g.resolver g.numberedSites

end Engine

end LateBinding
