import LateBinding.Engine

/-!
# The world of a scenario

A scenario runs on an engine and its objects. The bodies of its methods and hooks are
`Action`s, which look at the receiver's fields and at the arguments but change nothing.
-/

namespace LateBinding.Scenario

/-- What a method or hook of a scenario computes. -/
inductive Action
  /-- A fixed value. -/
  | constant (v : Value)
  /-- Twice the first argument. -/
  | doubleArgument
  /-- The first argument plus the length of what follows `findBy` in the name. -/
  | findBy
  /-- Twice the field `count` of the receiver. -/
  | doubleCount

/-- The engine and the objects of a scenario. -/
structure World where
  engine : Engine Action
  heap : Heap

/-- The integer that a value is, zero for any other value. -/
def intOr0 (v : Option Value) : Int64 := ((v.bind Value.asInt?).getD 0)

/-- The part of a name after `findBy`, if it starts so. -/
def afterFindBy? (name : String) : Option String :=
  if "findBy".toList.isPrefixOf name.toList then some (String.ofList (name.toList.drop 6))
  else none

/-- An integer as one of 64 bits, if it is in range. -/
def inRange (operation : Word.Overflow) (n : Int) : Except Failure Int64 :=
  if (Int64.ofInt n).toInt = n then .ok (Int64.ofInt n) else .error (.ofOverflow operation)

def Action.value (h : Heap) (action : Action) (receiver : Value) (name : String)
    (args : List Value) : Except Failure Value :=
  match action with
  | .constant v => .ok v
  | .doubleArgument => (inRange .multiply ((intOr0 args.head?).toInt * 2)).map .int
  | .findBy =>
    match afterFindBy? name with
    | none => .error (.ofFault (.raised ("no finder for " ++ name)))
    | some column =>
      (inRange .add ((intOr0 args.head?).toInt + column.utf8ByteSize)).map .int
  | .doubleCount =>
    let count := intOr0 (receiver.asObject?.bind fun o => h.field? o "count")
    (inRange .multiply (count.toInt * 2)).map .int

namespace World

def start (engine : Engine Action) : World := ⟨engine, .empty⟩

def define (w : World) (name : String) (fields : List String)
    (methods : List (MethodDecl Action)) : Except Failure (ClassRef × World) :=
  match w.engine.define ⟨name, none, [], false, fields⟩ methods with
  | (.error e, _) => .error (.ofDispatch e)
  | (.ok c, engine) => .ok (c, { w with engine })

def change (w : World) (c : ClassRef) (change : Change Action) : Except Failure World :=
  match w.engine.changeClass c change with
  | (.error e, _) => .error (.ofDispatch e)
  | (.ok (), engine) => .ok { w with engine }

def openSite (w : World) (id : Nat) (access : Access) (name : String) : Except Failure World :=
  match w.engine.openSite id access name with
  | (.error e, _) => .error (.ofDispatch e)
  | (.ok _, engine) => .ok { w with engine }

def create (w : World) (c : ClassRef) (fields : List (String × Value)) : Value × World :=
  let (ref, heap) := w.heap.create c fields
  (.object ref, { w with heap })

def call (w : World) (key : SiteKey) (receiver : Value) (args : List Value) :
    Except Failure (Value × World) :=
  match w.engine.dispatch key receiver args with
  | (none, _) => .error (.ofFault .noSite)
  | (some (.error e), _) => .error (.ofDispatch e)
  | (some (.ok t), engine) =>
    match t.enter receiver args w.heap with
    | .finished (.error f) _ => .error (.ofFault f)
    | .finished (.ok v) heap => .ok (v, { engine, heap })
    | .running action name args written =>
      match action.value w.heap receiver name args with
      | .error f => .error f
      | .ok v => .ok (written.getD v, { w with engine })

def site? (w : World) (id : Nat) : Option (Site Action) := w.engine.sites.get? (.numbered id)

end World

def method (name : String) (params : List ParamKind) (action : Action) : MethodDecl Action :=
  ⟨⟨name, params, false⟩, .body action⟩

end LateBinding.Scenario
