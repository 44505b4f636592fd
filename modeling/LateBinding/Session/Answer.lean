import LateBinding.Inspection

/-!
# Answers of a session

What the commands of a session answer. Reports show classes by their names at the time of the
command, because names are what a reader knows; numbers are given where identity matters.
-/

namespace LateBinding.Session

variable {β : Type}

/-- A method in words and its origin. -/
structure MethodLine where
  text : String
  origin : Origin

def MethodLine.ofMethods (h : Hierarchy) (ms : List (Method β)) : List MethodLine :=
  ms.map fun m => ⟨m.signature.describe h, m.origin⟩

/-! ### Classes and members -/

/-- A declared class. -/
structure ClassReport where
  cls : ClassRef
  name : String
  superclass : Option ClassRef
  interfaces : List String
  isInterface : Bool
  fields : List String
  declared : List MethodLine
  chain : List String
  descendants : List String

/-- A class, declared or not, and the classes related to it. -/
structure LineageReport where
  name : String
  known : Bool
  chain : List ClassRef
  descendants : List ClassRef

/-- How a parameter relates to argument classes, to other parameters and to values. -/
structure ParamReport where
  text : String
  /-- For each argument class: exactly the parameter's, accepted. -/
  accepts : List (Bool × Bool)
  /-- For each other parameter: it is at least as wide, it is at least as narrow. -/
  narrower : List (Bool × Bool)
  widened : List (Option Value)

/-- The members of one name in a table. -/
structure NameReport where
  name : String
  known : Bool
  /-- The fixed methods without parameters, with one, two and three. -/
  fixed : List (List MethodLine)
  variadic : List MethodLine
  property : Option String

/-- A table of members. -/
structure MembersReport where
  owner : Owner
  methods : Nat
  methodMissing : Bool
  propertyMissing : Bool
  text : String
  names : List NameReport

def NameReport.ofTable (h : Hierarchy) (t : MemberTable β) (name : String) : NameReport :=
  { name, known := t.hasMethod name
    fixed := [0, 1, 2, 3].map fun n => MethodLine.ofMethods h (t.candidates name n)
    variadic := MethodLine.ofMethods h (t.variadicCandidates name)
    property := (t.property? name).map (·.inspect) }

def MembersReport.ofTable (h : Hierarchy) (t : MemberTable β) (names : List String) :
    MembersReport :=
  { owner := t.owner, methods := t.methodCount, methodMissing := t.methodMissing.isSome
    propertyMissing := t.propertyMissing.isSome, text := t.inspect
    names := names.map (.ofTable h t) }

def ClassReport.ofClass (r : Registry β) (c : ClassRef) (info : ClassInfo) : ClassReport :=
  let h := r.hierarchy
  { cls := c, name := info.name, superclass := info.superclass
    interfaces := info.interfaces.map h.nameOf, isInterface := info.isInterface
    fields := info.fields, declared := MethodLine.ofMethods h (r.declaredMethods c)
    chain := info.chain.map h.nameOf, descendants := (h.descendants c).map h.nameOf }

def LineageReport.ofClass (h : Hierarchy) (c : ClassRef) : LineageReport :=
  { name := h.nameOf c, known := (h.get? c).isSome, chain := h.chain c
    descendants := h.descendants c }

def ParamReport.ofParam (h : Hierarchy) (p : ParamKind) (args : List ClassRef)
    (others : List ParamKind) (values : List Value) : ParamReport :=
  { text := p.describe h
    accepts := args.map fun c => (p.isExact c, p.accepts h c)
    narrower := others.map fun q => (p.narrowerOrEqual h q, q.narrowerOrEqual h p)
    widened := values.map p.widened? }

/-! ### Values and calls -/

/-- A value in all its forms, and how it compares with another one. -/
structure Comparison where
  display : String
  inspection : String
  json : String
  kind : String
  cls : ClassRef
  asInt : Option Int64
  asText : Option String
  isNil : Bool
  isObject : Bool
  equal : Bool
  equalReversed : Bool
  equalSelf : Bool

/-- Compare `a` with `b`. -/
def Comparison.ofValues (h : Heap) (a b : Value) : Comparison :=
  { display := a.display, inspection := a.inspect, json := (a.toJson h).compact
    kind := a.kindName, cls := a.classOf, asInt := a.asInt?, asText := a.asText?
    isNil := a.isNil, isObject := a.asObject?.isSome, equal := a.equal b
    equalReversed := b.equal a, equalSelf := a.equal a }

/-- The shape of a call. -/
structure ShapeReport where
  cls : ClassRef
  object : Option ObjectRef
  args : String
  size : Nat
  inPlace : Bool
  /-- Whether another call has the same shape, if one was given. -/
  same : Option Bool

/-- A shape, and whether it is the same as another one. -/
def ShapeReport.ofShape (s : Shape) (other : Option Shape) : ShapeReport :=
  { cls := s.receiver.cls, object := s.receiver.object?, args := s.args.inspect
    size := s.args.size, inPlace := s.args.isInPlace
    same := other.map fun o => decide (s = o) }

/-- What a member resolved to. -/
structure TargetReport where
  text : String
  forwarding : Bool
  method : Option (Signature × Origin)

def TargetReport.ofTarget (h : Hierarchy) (t : Target β) : TargetReport :=
  { text := t.describe h, forwarding := t.isForwarding
    method := t.method?.map fun m => (m.signature, m.origin) }

/-- The versions of a guard, and whether they hold now. -/
structure GuardReport where
  version : Nat
  ownVersion : Option Nat
  current : Bool

def GuardReport.ofGuard (r : Registry β) (g : Guard) : GuardReport :=
  { version := g.version, ownVersion := g.own.map (·.2), current := g.isCurrent r }

/-- The counters of the resolver. -/
structure Counters where
  invocations : Nat
  fullResolutions : Nat
  memoHits : Nat
  remembered : Nat

def Counters.ofResolver (r : Resolver β) : Counters :=
  ⟨r.invocations, r.fullResolutions, r.memoHits, r.memo.size⟩

/-- The condition of a site. -/
structure SiteStatus where
  phase : Phase
  calls : Nat
  hits : Nat
  misses : Nat
  resolutions : Nat
  distinctShapes : Nat
  missPenalty : Nat
  live : Nat

def SiteStatus.ofSite (s : Site β) : SiteStatus :=
  { phase := s.phase, calls := s.calls, hits := s.hits, misses := s.misses
    resolutions := s.resolutions, distinctShapes := s.distinctShapes
    missPenalty := s.missPenalty, live := s.live.length }

/-! ### Answers -/

/-- What a command answers. -/
inductive Answer
  /-- The command has nothing to tell. -/
  | done
  | failed (f : Failure)
  /-- There is no call site of the given key. -/
  | noSite
  /-- The command asks for a kept target, or an object, that is none. -/
  | invalid
  | cls (c : Option ClassRef)
  | classReport (r : ClassReport)
  | lineage (r : LineageReport)
  | classNames (names : List String)
  | flag (b : Bool)
  | param (r : ParamReport)
  | members (r : Option MembersReport)
  | preview (label text : String) (r : MembersReport)
  | versions (vs : List (Except DispatchError Nat))
  | count (n : Nat)
  | value (v : Value)
  /-- The value of a field, if it was set. -/
  | field (v : Option Value)
  /-- The value that a field had before, if it was set. -/
  | replaced (v : Option Value)
  | comparison (c : Comparison)
  | shape (r : ShapeReport)
  | result (r : Except Failure Value)
  | target (r : TargetReport)
  | resolution (r : Except DispatchError (TargetReport × GuardReport)) (counters : Counters)
  | counters (c : Counters)
  | guard (r : Option GuardReport)
  /-- The site that was opened, and the number of sites. -/
  | opened (id : Nat) (access : Access) (name : String) (capacity sites : Nat)
  | attached (capacity : Nat)
  | siteResult (r : Except Failure Value) (status : SiteStatus)
  /-- By the number of the call: changes of phase, and results that differ from the one
  before. -/
  | driven (phases : List (Nat × Phase)) (results : List (Nat × Except Failure Value))
      (status : SiteStatus)
  | status (s : SiteStatus)
  | report (r : SiteReport)
  | reports (rs : List SiteReport)
  | metrics (m : Metrics)
  | policy (p : Policy)
  | verdict (v : Verdict)
  | text (s : String)

instance : Inhabited Answer := ⟨.done⟩

/-- The answer to a command, and the answers to the commands that bodies ran meanwhile, in
the order in which they were finished. -/
structure Reply where
  answer : Answer
  inner : List Answer

end LateBinding.Session
