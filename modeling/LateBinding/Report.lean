import LateBinding.Site

/-!
# Reports on call sites

Views of sites and engines for monitoring: what a site holds, and sums over all sites
together with the counters of the resolver. Classes are shown by their present names.
-/

namespace LateBinding

/-- One cached entry as shown. -/
structure EntryReport where
  receiver : String
  /-- The number of the object that the entry is for, if it has members of its own. -/
  object : Option Nat
  args : List String
  target : String
  version : Nat
  stale : Bool
  hits : Nat

/-- One site as shown. -/
structure SiteReport where
  site : Nat
  access : Access
  name : String
  phase : Phase
  capacity : Nat
  calls : Nat
  hits : Nat
  misses : Nat
  resolutions : Nat
  distinctShapes : Nat
  missPenalty : Nat
  freezes : Nat
  thaws : Nat
  entries : List EntryReport

/-- How many sites are in each phase. -/
structure PhaseCounts where
  cold : Nat
  monomorphic : Nat
  polymorphic : Nat
  megamorphic : Nat
  frozen : Nat

/-- Sums over the sites of an engine, and its resolver's counters. -/
structure Metrics where
  sites : Nat
  phases : PhaseCounts
  calls : Nat
  hits : Nat
  misses : Nat
  siteResolutions : Nat
  resolverInvocations : Nat
  fullResolutions : Nat
  memoHits : Nat
  classCells : Nat

def Entry.report {β : Type} (e : Entry β) (r : Registry β) : EntryReport :=
  let h := r.hierarchy
  { receiver := h.nameOf e.shape.receiver.cls
    object := e.shape.receiver.object?.map (·.id)
    args := e.shape.args.toList.map h.nameOf
    target := e.target.describe h
    version := e.guard.version
    stale := !e.isCurrent r
    hits := e.hits }

def Site.report {β : Type} (s : Site β) (r : Registry β) : SiteReport :=
  { site := s.id, access := s.access, name := s.name, phase := s.phase, capacity := s.capacity
    calls := s.calls, hits := s.hits, misses := s.misses, resolutions := s.resolutions
    distinctShapes := s.distinctShapes, missPenalty := s.missPenalty, freezes := s.freezes
    thaws := s.thaws, entries := s.live.map (·.report r) }

def PhaseCounts.ofPhases (ps : List Phase) : PhaseCounts :=
  { cold := ps.count .cold, monomorphic := ps.count .monomorphic
    polymorphic := ps.count .polymorphic, megamorphic := ps.count .megamorphic
    frozen := ps.count .frozen }

def Metrics.total {β : Type} (count : Site β → Nat) (sites : List (Site β)) : Nat :=
  sites.foldr (fun s n => count s + n) 0

/-- Sums over some sites with the counters of their resolver. -/
def Metrics.ofSites {β : Type} (r : Resolver β) (sites : List (Site β)) : Metrics :=
  { sites := sites.length
    phases := .ofPhases (sites.map (·.phase))
    calls := total (·.calls) sites
    hits := total (·.hits) sites
    misses := total (·.misses) sites
    siteResolutions := total (·.resolutions) sites
    resolverInvocations := r.invocations
    fullResolutions := r.fullResolutions
    memoHits := r.memoHits
    classCells := r.registry.classCellCount }

namespace Metrics

/-- The share of the calls that were hits, zero if there were no calls. -/
def hitRatio (m : Metrics) : Float :=
  if m.calls = 0 then 0
  else (UInt64.ofNat m.hits).toFloat / (UInt64.ofNat m.calls).toFloat

end Metrics

/-! ### Reports as JSON -/

/-- An entry as JSON; the object is left out where there is none. -/
def EntryReport.toJson (e : EntryReport) : Json :=
  .object ([("receiver", .str e.receiver)] ++
    (match e.object with
      | some n => [("instance", .nat n)]
      | none => []) ++
    [("args", .array (e.args.map .str)), ("target", .str e.target), ("version", .nat e.version),
      ("stale", .bool e.stale), ("hits", .nat e.hits)])

def SiteReport.toJson (s : SiteReport) : Json :=
  .object [("site", .nat s.site), ("kind", .str s.access.reportWord), ("name", .str s.name),
    ("state", .str s.phase.word), ("capacity", .nat s.capacity), ("calls", .nat s.calls),
    ("hits", .nat s.hits), ("misses", .nat s.misses), ("resolutions", .nat s.resolutions),
    ("distinct_shapes", .nat s.distinctShapes), ("miss_penalty", .nat s.missPenalty),
    ("freezes", .nat s.freezes), ("thaws", .nat s.thaws),
    ("entries", .array (s.entries.map (·.toJson)))]

def PhaseCounts.toJson (c : PhaseCounts) : Json :=
  .object [("cold", .nat c.cold), ("monomorphic", .nat c.monomorphic),
    ("polymorphic", .nat c.polymorphic), ("megamorphic", .nat c.megamorphic),
    ("frozen", .nat c.frozen)]

def Metrics.fields (m : Metrics) : List (String × Json) :=
  [("sites", .nat m.sites), ("states", m.phases.toJson), ("calls", .nat m.calls),
    ("hits", .nat m.hits), ("misses", .nat m.misses),
    ("site_resolutions", .nat m.siteResolutions),
    ("resolver_invocations", .nat m.resolverInvocations),
    ("full_resolutions", .nat m.fullResolutions), ("memo_hits", .nat m.memoHits),
    ("meta_classes", .nat m.classCells)]

end LateBinding
