import LateBinding.Session.Answer
import LateBinding.Session.Command

/-!
# The state of a session

A session holds an engine, its objects, variables, kept targets and labels of detached sites,
and the answers that inner commands gave since the last command of the session itself. Terms
are evaluated in a state: a variable that was never bound is nil, and a class name that was
never declared stands for the class that would be declared next. A label stands for the site
that was last created under it; a command that uses a site looks it up once, at its start.
-/

namespace LateBinding.Session

/-- A target that was kept for later, with its guard if it was resolved for a receiver. -/
structure Kept where
  target : Target Body
  guard : Option Guard

/-- Everything that a session remembers. -/
structure State where
  engine : Engine Body
  heap : Heap
  bindings : Table String Value
  kept : Table String Kept
  labels : Table String SiteKey
  /-- The answers of inner commands, newest first. -/
  inner : List Answer

namespace State

def start (engine : Engine Body) : State := ⟨engine, .empty, .empty, .empty, .empty, []⟩

def registry (s : State) : Registry Body := s.engine.registry

def hierarchy (s : State) : Hierarchy := s.registry.hierarchy

def bind (s : State) (name : String) (v : Value) : State :=
  { s with bindings := s.bindings.insert name v }

def keep (s : State) (label : Option String) (t : Target Body) (guard : Option Guard) : State :=
  match label with
  | none => s
  | some l => { s with kept := s.kept.insert l ⟨t, guard⟩ }

def note (s : State) (a : Answer) : State := { s with inner := a :: s.inner }

/-- The reply to a command of the session itself, whose inner answers are then forgotten. -/
def reply (s : State) (a : Answer) : Reply × State :=
  (⟨a, s.inner.reverse⟩, { s with inner := [] })

/-! ### Terms -/

mutual

def value (s : State) : Term → Value
  | .nil => .nil
  | .bool b => .bool b
  | .int n => .int n
  | .float x => .float x
  | .str t => .str t
  | .list items => .list (values s items)
  | .variable name => (s.bindings.get? name).getD .nil

def values (s : State) : List Term → List Value
  | [] => []
  | t :: ts => value s t :: values s ts

end

def cls (s : State) : ClassTerm → ClassRef
  | .named name => (s.hierarchy.byName? name).getD ⟨s.hierarchy.size⟩
  | .numbered n => ⟨n⟩

def site? (s : State) : SiteTerm → Option SiteKey
  | .numbered id => if s.engine.sites.contains (.numbered id) then some (.numbered id) else none
  | .labelled label => s.labels.get? label

def param (s : State) : ParamTerm → ParamKind
  | none => .any
  | some c => .ofClass (s.cls c)

def method (s : State) (m : MethodTerm Body) : MethodDecl Body :=
  ⟨⟨m.name, m.params.map s.param, m.variadic⟩, .body m.body⟩

def header (s : State) (d : ClassDecl Body) : ClassHeader :=
  { name := d.name, superclass := d.superclass.map s.cls, interfaces := d.interfaces.map s.cls
    isInterface := d.isInterface, fields := d.fields }

def change (s : State) : ChangeTerm Body → Change Body
  | .addMethod m => .addMethod (s.method m)
  | .addCategoryMethod m => .addCategoryMethod (s.method m)
  | .removeMethod name params => .removeMethod name (params.map s.param)
  | .setProperty name getter setter => .setProperty name getter setter
  | .removeProperty name => .removeProperty name
  | .setMethodMissing hook => .setMethodMissing hook
  | .setPropertyMissing hook => .setPropertyMissing hook

end State

end LateBinding.Session
