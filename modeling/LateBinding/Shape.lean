import LateBinding.Registry

/-!
# Shapes of calls

What dispatch depends on in a call, apart from the member's name: the class of the receiver,
or the object itself when it has members of its own, and the classes of the arguments. Call
sites and the resolver remember what they found by shape.

Short argument lists are kept in place, padded by the root class, longer ones as a list;
either way two shapes are equal exactly when the classes are.
-/

namespace LateBinding

/-- How many argument classes are kept in place. -/
def inPlaceArgs : Nat := 6

/-- The classes of the arguments of a call. -/
inductive ArgShape
  /-- Up to six classes; the places after the first `size` hold the root class. -/
  | inPlace (size : Nat) (tags : Vector ClassRef inPlaceArgs)
  /-- More than six classes. -/
  | spilled (tags : List ClassRef)
deriving DecidableEq

namespace ArgShape

/-- The shape of arguments with the given classes. -/
def ofClasses (cs : List ClassRef) : ArgShape :=
  if cs.length ≤ inPlaceArgs then
    .inPlace cs.length (Vector.ofFn fun i => (cs[i.val]?).getD .object)
  else .spilled cs

def ofArgs (args : List Value) : ArgShape := ofClasses (args.map Value.classOf)

def toList : ArgShape → List ClassRef
  | inPlace size tags => tags.toList.take size
  | spilled tags => tags

def size : ArgShape → Nat
  | inPlace size _ => size
  | spilled tags => tags.length

/-- Whether the classes are kept in place. -/
def isInPlace : ArgShape → Bool
  | inPlace .. => true
  | spilled _ => false

def inspect (a : ArgShape) : String :=
  "[" ++ Value.commaList (a.toList.map fun c => toString c.index) ++ "]"

/-! ### A shape shows the classes that it was made of -/

@[simp] theorem toList_ofClasses (cs : List ClassRef) : (ofClasses cs).toList = cs := by
  unfold ofClasses
  split
  · next h =>
    apply List.ext_getElem?
    intro i
    by_cases hi : i < cs.length
    · simp [toList, hi, Nat.lt_of_lt_of_le hi h]
    · have hi' := Nat.le_of_not_lt hi
      rw [List.getElem?_eq_none hi', toList,
        List.getElem?_eq_none (Nat.le_trans (List.length_take_le ..) hi')]
  · rfl

theorem ofClasses_inj {a b : List ClassRef} : ofClasses a = ofClasses b ↔ a = b :=
  ⟨fun h => by rw [← toList_ofClasses a, h, toList_ofClasses], congrArg _⟩

end ArgShape

/-- The receiver of a call as dispatch sees it. -/
inductive Receiver
  /-- A value without members of its own. -/
  | plain (c : ClassRef)
  /-- An object with members of its own. -/
  | own (o : ObjectRef)
deriving DecidableEq

namespace Receiver

def cls : Receiver → ClassRef
  | plain c => c
  | own o => o.cls

/-- The object, if it has members of its own. -/
def object? : Receiver → Option ObjectRef
  | plain _ => none
  | own o => some o

def ofValue {β : Type} (r : Registry β) (v : Value) : Receiver :=
  match v with
  | .object o => if r.hasOwnMembers o then .own o else .plain o.cls
  | v => .plain v.classOf

end Receiver

/-- The receiver and the argument classes of a call. -/
structure Shape where
  receiver : Receiver
  args : ArgShape
deriving DecidableEq

def Shape.ofCall {β : Type} (r : Registry β) (receiver : Value) (args : List Value) : Shape :=
  ⟨.ofValue r receiver, .ofArgs args⟩

/-! ### Guards -/

/-- The versions under which something was found: that of the receiver's class and that of
its own members. -/
structure Guard where
  cls : ClassRef
  version : Nat
  own : Option (ObjectRef × Nat)
deriving DecidableEq

namespace Guard

/-- The versions that hold now for a receiver whose cells have come into being. -/
def ofReceiver {β : Type} (r : Registry β) (receiver : Receiver) : Guard :=
  { cls := receiver.cls
    version := (r.version? (.ofClass receiver.cls)).getD 0
    own := receiver.object?.map fun o => (o, (r.version? (.ofObject o)).getD 0) }

/-- The versions have not changed since. -/
def isCurrent {β : Type} (r : Registry β) (g : Guard) : Bool :=
  r.version? (.ofClass g.cls) = some g.version &&
    match g.own with
    | none => true
    | some (o, v) => r.version? (.ofObject o) = some v

end Guard

end LateBinding
