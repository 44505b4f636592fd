import LateBinding.Method
import LateBinding.Table

/-!
# Member tables

Each class, and each object with members of its own, has a table of members: methods in
buckets by name and arity, variadic methods in a bucket of their name, properties, and the
two hooks for missing members. A `Change` is applied to a whole table and yields a new one.

Methods of one bucket keep the order in which they were installed. A method replaces the one
with its signature, but methods from categories and other methods never replace each other.
A bucket that loses its last method is removed.
-/

namespace LateBinding

/-- Whom a member table belongs to. -/
inductive Owner
  | ofClass (c : ClassRef)
  | ofObject (o : ObjectRef)
deriving DecidableEq

def Owner.cls : Owner → ClassRef
  | ofClass c => c
  | ofObject o => o.cls

/-- Where the overloads of a name are kept: together by arity, the variadic ones apart. -/
structure BucketKey where
  name : String
  arity : Option Nat
deriving DecidableEq

/-- The bucket in which methods of a signature are kept. -/
def Signature.bucket (s : Signature) : BucketKey :=
  ⟨s.name, if s.variadic then none else some s.params.length⟩

/-- The members of a class or object. -/
structure MemberTable (β : Type) where
  owner : Owner
  overloads : Table BucketKey (List (Method β))
  properties : Table String (Accessor β)
  methodMissing : Option (Hook β)
  propertyMissing : Option (Hook β)

/-- A change to a member table. -/
inductive Change (β : Type)
  | addMethod (d : MethodDecl β)
  | removeMethod (name : String) (params : List ParamKind)
  | addCategoryMethod (d : MethodDecl β)
  | setProperty (name : String) (getter setter : Option β)
  | removeProperty (name : String)
  | setMethodMissing (hook : Option β)
  | setPropertyMissing (hook : Option β)

def Change.label {β : Type} : Change β → String
  | addMethod _ => "add_method"
  | removeMethod .. => "remove_method"
  | addCategoryMethod _ => "add_category_method"
  | setProperty .. => "set_property"
  | removeProperty _ => "remove_property"
  | setMethodMissing _ => "set_method_missing"
  | setPropertyMissing _ => "set_property_missing"

namespace MemberTable

variable {β : Type}

/-- The table of an owner without members. -/
def empty (owner : Owner) : MemberTable β := ⟨owner, .empty, .empty, none, none⟩

/-! ### Queries -/

/-- The methods of a bucket, oldest first. -/
def bucket (t : MemberTable β) (k : BucketKey) : List (Method β) := (t.overloads.get? k).getD []

/-- The fixed methods of a name and arity. -/
def candidates (t : MemberTable β) (name : String) (arity : Nat) : List (Method β) :=
  t.bucket ⟨name, some arity⟩

/-- The variadic methods of a name. -/
def variadicCandidates (t : MemberTable β) (name : String) : List (Method β) :=
  t.bucket ⟨name, none⟩

/-- Whether there is a bucket for a name. -/
def hasMethod (t : MemberTable β) (name : String) : Bool :=
  t.overloads.keys.any fun k => k.name = name

def methodCount (t : MemberTable β) : Nat := t.overloads.values.flatten.length

/-- How a property is read and written. -/
def property? (t : MemberTable β) (name : String) : Option (Accessor β) := t.properties.get? name

/-! ### Changes -/

/-- Whether `m` takes the place of `old`: same signature, and both from categories or both
not. -/
def replaces (m old : Method β) : Bool :=
  old.signature = m.signature && old.origin.isNative == m.origin.isNative

/-- Put a method in place of the first that it replaces, or at the end. -/
def install (m : Method β) : List (Method β) → List (Method β)
  | [] => [m]
  | old :: rest => if replaces m old then m :: rest else old :: install m rest

def addMethod (t : MemberTable β) (m : Method β) : MemberTable β :=
  let k := m.signature.bucket
  { t with overloads := t.overloads.insert k (install m (t.bucket k)) }

/-- Remove the methods with the given parameters from a bucket, and the bucket if it is then
empty. -/
def prune (t : MemberTable β) (k : BucketKey) (params : List ParamKind) : MemberTable β :=
  match t.overloads.get? k with
  | none => t
  | some ms =>
    match ms.filter fun m => m.signature.params ≠ params with
    | [] => { t with overloads := t.overloads.erase k }
    | kept => { t with overloads := t.overloads.insert k kept }

/-- Remove all methods of a name with the given parameters, fixed and variadic. -/
def removeMethod (t : MemberTable β) (name : String) (params : List ParamKind) :
    MemberTable β :=
  (t.prune ⟨name, some params.length⟩ params).prune ⟨name, none⟩ params

/-- Apply a change; what it installs gets the given serial number. -/
def apply (t : MemberTable β) (change : Change β) (serial : Nat) : MemberTable β :=
  let hook (b : β) : Hook β := ⟨b, serial⟩
  match change with
  | .addMethod d => t.addMethod (d.install .injected serial)
  | .addCategoryMethod d => t.addMethod (d.install .category serial)
  | .removeMethod name params => t.removeMethod name params
  | .setProperty name getter setter =>
    { t with properties := t.properties.insert name ⟨getter.map hook, setter.map hook⟩ }
  | .removeProperty name => { t with properties := t.properties.erase name }
  | .setMethodMissing b => { t with methodMissing := b.map hook }
  | .setPropertyMissing b => { t with propertyMissing := b.map hook }

/-- The table of a class with the methods of its declaration. -/
def ofDeclared (c : ClassRef) (declared : List (Method β)) : MemberTable β :=
  declared.foldl addMethod (empty (.ofClass c))

/-! ### What each change does to the buckets -/

@[simp] theorem bucket_empty (o : Owner) (k : BucketKey) :
    (empty o : MemberTable β).bucket k = [] := rfl

theorem bucket_addMethod (t : MemberTable β) (m : Method β) (k : BucketKey) :
    (t.addMethod m).bucket k =
      if m.signature.bucket = k then install m (t.bucket k) else t.bucket k := by
  simp only [addMethod, bucket, Table.get?_insert]
  by_cases h : m.signature.bucket = k
  · subst h; simp
  · simp [h]

theorem bucket_prune (t : MemberTable β) (k k' : BucketKey) (params : List ParamKind) :
    (t.prune k params).bucket k' =
      if k = k' then (t.bucket k').filter (·.signature.params ≠ params) else t.bucket k' := by
  simp only [prune, bucket]
  by_cases h : k = k'
  · subst h
    cases hk : t.overloads.get? k with
    | none => simp [hk]
    | some ms =>
      simp only [Option.getD_some]
      split
      · next hf => rw [hf]; simp
      · simp
  · split
    · simp [h]
    · split <;> simp [h]

end MemberTable

end LateBinding
