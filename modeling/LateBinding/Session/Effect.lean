import LateBinding.Session.State

/-!
# What commands do by themselves

Each command that makes no calls has a function from the state to its answer and the state
after it. A command that fails leaves its error as answer and the session goes on.
-/

namespace LateBinding.Session

namespace State

def say (s : State) (a : Answer) : Answer × State := (a, s)

def onEngine {α : Type} (s : State)
    (op : Engine Body → Except DispatchError α × Engine Body) (answer : α → Answer) :
    Answer × State :=
  match op s.engine with
  | (.error e, engine) => (.failed (.ofDispatch e), { s with engine })
  | (.ok a, engine) => (answer a, { s with engine })

/-- Answer `done` if an operation on the engine succeeds. -/
def doOnEngine (s : State) (op : Engine Body → Except DispatchError Unit × Engine Body) :
    Answer × State :=
  s.onEngine op fun _ => .done

def onSite (s : State) (key : SiteKey) (answer : Site Body → Answer) : Answer × State :=
  match s.engine.sites.get? key with
  | some site => s.say (answer site)
  | none => s.say .noSite

def withSite (s : State) (t : SiteTerm) (answer : SiteKey → Answer × State) : Answer × State :=
  match s.site? t with
  | some key => answer key
  | none => s.say .noSite

def onSiteOf (s : State) (t : SiteTerm) (answer : Site Body → Answer) : Answer × State :=
  s.withSite t fun key => s.onSite key answer

/-! ### Classes -/

def describeClass (s : State) (c : ClassRef) : Answer × State :=
  match s.hierarchy.find c with
  | .error e => s.say (.failed (.ofDispatch e))
  | .ok info => s.say (.classReport (.ofClass s.registry c info))

/-- Answer how a parameter relates to classes, parameters and values. -/
def examineParam (s : State) (p : ParamTerm) (args : List ClassTerm) (others : List ParamTerm)
    (values : List Term) : Answer × State :=
  s.say (.param (.ofParam s.hierarchy (s.param p) (args.map s.cls) (others.map s.param)
    (s.values values)))

/-! ### Members -/

def members (s : State) (c : ClassRef) (names : List String) : Answer × State :=
  s.onEngine (·.membersOf c) fun t => .members (some (.ofTable s.hierarchy t names))

def ownMembers (s : State) (object : Value) (names : List String) : Answer × State :=
  match object.asObject? with
  | none => s.say .invalid
  | some o =>
    s.say (.members ((s.registry.ownMembers? o).map fun t => .ofTable s.hierarchy t names))

/-- Answer what the members of a class would be after a change that is not made. -/
def preview (s : State) (c : ClassRef) (change : Change Body) (names : List String) :
    Answer × State :=
  s.onEngine (·.membersOf c) fun t =>
    .preview change.label change.inspect
      (.ofTable s.hierarchy (t.apply change s.registry.nextSerial) names)

/-- Answer the versions of some classes, whose cells come into being. -/
def versions (s : State) (cs : List ClassRef) : Answer × State :=
  let step (acc : List (Except DispatchError Nat) × Engine Body) (c : ClassRef) :=
    let (v, engine) := acc.2.versionOf c
    (acc.1 ++ [v], engine)
  let (vs, engine) := cs.foldl step ([], s.engine)
  (.versions vs, { s with engine })

def changeObject (s : State) (object : Value) (change : Change Body) : Answer × State :=
  match object.asObject? with
  | none => s.say .invalid
  | some o => s.doOnEngine (·.changeObject o change)

/-! ### Values -/

def create (s : State) (label : String) (c : ClassRef) (fields : List (String × Value)) :
    Answer × State :=
  let (ref, heap) := s.heap.create c fields
  (.value (.object ref), { s with heap }.bind label (.object ref))

def readField (s : State) (object : Value) (name : String) : Answer × State :=
  match object.asObject? with
  | none => s.say .invalid
  | some o => s.say (.field (s.heap.field? o name))

def writeField (s : State) (object : Value) (name : String) (v : Value) : Answer × State :=
  match object.asObject? with
  | none => s.say .invalid
  | some o => (.replaced (s.heap.field? o name), { s with heap := s.heap.setField o name v })

def shape (s : State) (receiver : Value) (args : List Value)
    (other : Option (Value × List Value)) : Answer × State :=
  s.say (.shape (.ofShape (.ofCall s.registry receiver args)
    (other.map fun o => .ofCall s.registry o.1 o.2)))

/-! ### Resolution -/

/-- Resolve a method for a class, and keep what was found if a label is given. -/
def resolveClass (s : State) (c : ClassRef) (name : String) (args : List ClassRef)
    (label : Option String) : Answer × State :=
  match s.engine.resolveClass c name args with
  | (.error e, engine) => (.failed (.ofDispatch e), { s with engine })
  | (.ok t, engine) =>
    (.target (.ofTarget s.hierarchy t), { s with engine }.keep label t none)

/-- Resolve a member for a receiver, and keep what was found if a label is given. -/
def resolve (s : State) (access : Access) (receiver : Value) (name : String)
    (args : List Value) (label : Option String) : Answer × State :=
  let (found, engine) := s.engine.resolve access receiver name args
  let s := { s with engine }
  let counters := Counters.ofResolver engine.resolver
  match found with
  | .error e => s.say (.resolution (.error e) counters)
  | .ok r =>
    let report := (TargetReport.ofTarget s.hierarchy r.target,
      GuardReport.ofGuard s.registry r.guard)
    (.resolution (.ok report) counters, s.keep label r.target (some r.guard))

/-- Answer the counters of the resolver, after forgetting all resolutions if asked to. -/
def memo (s : State) (clear : Bool) : Answer × State :=
  let engine := if clear then s.engine.clearMemo else s.engine
  (.counters (.ofResolver engine.resolver), { s with engine })

def guard (s : State) (label : String) : Answer × State :=
  match s.kept.get? label with
  | none => s.say .invalid
  | some k => s.say (.guard (k.guard.map (.ofGuard s.registry)))

def sameTarget (s : State) (a b : String) : Answer × State :=
  match s.kept.get? a, s.kept.get? b with
  | some x, some y => s.say (.flag (x.target.same y.target))
  | _, _ => s.say .invalid

/-! ### Call sites -/

def openSite (s : State) (id : Nat) (access : Access) (name : String) : Answer × State :=
  match s.engine.openSite id access name with
  | (.error e, engine) => (.failed (.ofDispatch e), { s with engine })
  | (.ok site, engine) =>
    (.opened id access name site.capacity engine.siteCount, { s with engine })

def attachSite (s : State) (label : String) (id : Nat) (access : Access) (name : String)
    (capacity : Nat) : Answer × State :=
  let site := Site.create id access name capacity
  let (key, engine) := s.engine.attach site
  (.attached site.capacity, { s with engine, labels := s.labels.insert label key })

def resetSite (s : State) (key : SiteKey) : Answer × State :=
  { s with engine := s.engine.resetSite key }.onSite key fun site => .status (.ofSite site)

def setPolicy (s : State) (changes : List (Policy.Threshold × Nat)) : Answer × State :=
  let engine := s.engine.setPolicy changes
  (.policy engine.policy, { s with engine })

def inspect (s : State) (subject : Subject) : Answer × State :=
  match subject with
  | .registry => s.say (.text s.registry.inspect)
  | .resolver => s.say (.text s.engine.resolver.inspect)
  | .engine => s.say (.text s.engine.inspect)
  | .site t => s.onSiteOf t fun site => .text site.inspect
  | .target label =>
    match s.kept.get? label with
    | none => s.say .invalid
    | some k => s.say (.text k.target.inspect)
  | .object t =>
    match (s.value t).asObject? with
    | none => s.say .invalid
    | some o => s.say (.text (o.inspect (s.registry.hasOwnMembers o)))

end State

end LateBinding.Session
