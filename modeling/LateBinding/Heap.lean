import LateBinding.Json
import LateBinding.Table

/-!
# Objects

Objects are numbered from 1 in the order of their creation and are never removed. An object
keeps its class; its fields are set one at a time, and a field that was never set is absent.
-/

namespace LateBinding

/-- The fields of an object, and its class. -/
structure Object where
  cls : ClassRef
  fields : Table String Value

instance : Inhabited Object := ⟨⟨default, .empty⟩⟩

/-- All objects created so far; object `n` stands at position `n - 1`. -/
structure Heap where
  objects : Array Object

namespace Heap

def empty : Heap := ⟨#[]⟩

def get? (h : Heap) (ref : ObjectRef) : Option Object :=
  if ref.id = 0 then none else h.objects[ref.id - 1]?

/-- Create an object with the given fields, later ones replacing earlier ones. -/
def create (h : Heap) (cls : ClassRef) (fields : List (String × Value)) : ObjectRef × Heap :=
  let table := fields.foldl (fun t p => t.insert p.1 p.2) Table.empty
  (⟨h.objects.size + 1, cls⟩, ⟨h.objects.push ⟨cls, table⟩⟩)

/-- The value of a field, if it was ever set. -/
def field? (h : Heap) (ref : ObjectRef) (name : String) : Option Value :=
  (h.get? ref).bind fun o => o.fields.get? name

def setField (h : Heap) (ref : ObjectRef) (name : String) (v : Value) : Heap :=
  if ref.id = 0 then h
  else ⟨h.objects.modify (ref.id - 1) fun o => { o with fields := o.fields.insert name v }⟩

def size (h : Heap) : Nat := h.objects.size

end Heap

/-! ### Values as JSON

An object shows its class, its number and its fields in the order of their names. References
from object to object are followed as many times as there are objects, which is enough unless
objects refer to each other in a circle; a reference beyond that is shown as null. -/

mutual

def Value.toJsonWith (object : ObjectRef → Json) : Value → Json
  | .nil => .null
  | .bool b => .bool b
  | .int n => .number (toString n.toInt)
  | .float x => .float x
  | .str s => .str s
  | .list items => .array (Value.allToJsonWith object items)
  | .object ref => object ref

def Value.allToJsonWith (object : ObjectRef → Json) : List Value → List Json
  | [] => []
  | v :: vs => v.toJsonWith object :: Value.allToJsonWith object vs

end

def Heap.objectToJson (h : Heap) (value : Value → Json) (ref : ObjectRef) : Json :=
  let fields := match h.get? ref with
    | some o => o.fields.entries
    | none => []
  let sorted := fields.mergeSort fun a b => a.1 ≤ b.1
  .object (("@class", .nat ref.cls.index) :: ("@id", .nat ref.id) ::
    sorted.map fun p => (p.1, value p.2))

/-- A value as JSON, following at most `depth` references one after another. -/
def Heap.valueToJson (h : Heap) : Nat → Value → Json
  | 0, v => v.toJsonWith fun _ => .null
  | depth + 1, v => v.toJsonWith (h.objectToJson (valueToJson h depth))

def Value.toJson (h : Heap) (v : Value) : Json := h.valueToJson h.size v

end LateBinding
