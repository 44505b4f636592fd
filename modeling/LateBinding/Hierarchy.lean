import LateBinding.Error

/-!
# The class hierarchy

Classes are numbered in the order of their declaration. A class has at most one superclass
and any number of interfaces; interfaces have interfaces but no superclass. Members are
looked up along a class's chain: the class itself, its superclasses nearest first, then the
interfaces breadth first, with the root class at the end if it was not met before. The chain
is computed when a class is declared, and for all classes again when a trait is applied.
-/

namespace LateBinding

/-- What is known of a declared class. -/
structure ClassInfo where
  name : String
  superclass : Option ClassRef
  interfaces : List ClassRef
  isInterface : Bool
  fields : List String
  /-- Where members are looked up, in this order. -/
  chain : List ClassRef

instance : Inhabited ClassInfo := ⟨⟨"", none, [], false, [], []⟩⟩

/-- What is said of a class to declare it, its methods apart. -/
structure ClassHeader where
  name : String
  superclass : Option ClassRef
  interfaces : List ClassRef
  isInterface : Bool
  fields : List String

/-- All declared classes; class `n` stands at position `n`. -/
structure Hierarchy where
  classes : Array ClassInfo

namespace Hierarchy

def get? (h : Hierarchy) (c : ClassRef) : Option ClassInfo := h.classes[c.index]?

/-- What is known of a class that has to be declared. -/
def find (h : Hierarchy) (c : ClassRef) : Except DispatchError ClassInfo :=
  match h.get? c with
  | some info => .ok info
  | none => .error (.unknownClass c)

/-- The number of declared classes. -/
def size (h : Hierarchy) : Nat := h.classes.size

/-- All declared classes, in order. -/
def all (h : Hierarchy) : List ClassRef := (List.range h.size).map ClassRef.mk

def nameOf (h : Hierarchy) (c : ClassRef) : String :=
  match h.get? c with
  | some info => info.name
  | none => "<unknown>"

def byName? (h : Hierarchy) (name : String) : Option ClassRef :=
  h.all.find? fun c => h.nameOf c = name

/-- The superclass of a class, if it has one. -/
def superclassOf (h : Hierarchy) (c : ClassRef) : Option ClassRef :=
  (h.get? c).bind (·.superclass)

/-- The interfaces that a class lists. -/
def interfacesOf (h : Hierarchy) (c : ClassRef) : List ClassRef :=
  match h.get? c with
  | some info => info.interfaces
  | none => []

/-- The lookup chain of a class; empty for an undeclared one. -/
def chain (h : Hierarchy) (c : ClassRef) : List ClassRef :=
  match h.get? c with
  | some info => info.chain
  | none => []

/-- A value of class `a` is a value of class `b`. -/
def isAssignable (h : Hierarchy) (a b : ClassRef) : Bool := a = b || (h.chain a).contains b

/-- The classes that find members of `c`, including `c` itself. -/
def descendants (h : Hierarchy) (c : ClassRef) : List ClassRef :=
  h.all.filter fun d => (h.chain d).contains c

/-- Whether a class declares a field itself. -/
def declaresField (h : Hierarchy) (c : ClassRef) (field : String) : Bool :=
  match h.get? c with
  | some info => info.fields.contains field
  | none => false

/-! ### Lookup chains -/

/-- Follow superclass links from `next`, adding to the classes `seen`, until there is none or
it was seen. A class is added at most once, so the number of classes bounds the steps. -/
def ascend (h : Hierarchy) : Nat → List ClassRef → Option ClassRef → List ClassRef
  | 0, seen, _ => seen
  | _ + 1, seen, none => seen
  | steps + 1, seen, some c =>
    if c ∈ seen then seen else ascend h steps (seen ++ [c]) (h.superclassOf c)

/-- The members of `frontier` that are not yet `seen`, each once, in order. -/
def unseen (seen : List ClassRef) : List ClassRef → List ClassRef
  | [] => []
  | c :: rest => if c ∈ seen then unseen seen rest else c :: unseen (seen ++ [c]) rest

/-- Add a frontier of interfaces, then the interfaces that those list, and so on. Every round
but the last adds a class, so the number of classes bounds the rounds. -/
def spread (h : Hierarchy) : Nat → List ClassRef → List ClassRef → List ClassRef
  | 0, seen, _ => seen
  | rounds + 1, seen, frontier =>
    match unseen seen frontier with
    | [] => seen
    | fresh => spread h rounds (seen ++ fresh) (fresh.flatMap h.interfacesOf)

/-- The lookup chain of a class with the given links. -/
def linearize (h : Hierarchy) (own : ClassRef) (superclass : Option ClassRef)
    (interfaces : List ClassRef) : List ClassRef :=
  let line := h.ascend (h.size + 1) [own] superclass
  let full := h.spread (h.size + 1) line (interfaces ++ line.tail.flatMap h.interfacesOf)
  if ClassRef.object ∈ full then full else full ++ [.object]

/-- The lookup chain that the links of a declared class give now. -/
def linearizeOf (h : Hierarchy) (c : ClassRef) : List ClassRef :=
  h.linearize c (h.superclassOf c) (h.interfacesOf c)

/-! ### Growing the hierarchy -/

/-- Declare a class without any check. A class other than the root and the interfaces has a
superclass, the root by default. -/
def push (h : Hierarchy) (d : ClassHeader) : Hierarchy :=
  let own : ClassRef := ⟨h.size⟩
  let superclass := match d.superclass with
    | some c => some c
    | none => if d.isInterface || own = .object then none else some .object
  ⟨h.classes.push
    { name := d.name, superclass, interfaces := d.interfaces, isInterface := d.isInterface
      fields := d.fields, chain := h.linearize own superclass d.interfaces }⟩

/-- The first error in the interfaces that a class declaration lists. -/
def checkInterfaces (h : Hierarchy) (name : String) : List ClassRef → Except DispatchError Unit
  | [] => .ok ()
  | c :: rest =>
    match h.find c with
    | .error e => .error e
    | .ok info =>
      if info.isInterface then checkInterfaces h name rest
      else .error (.invalidClass name (.notAnInterface info.name))

/-- The first error in the superclass that a class declaration names. -/
def checkSuperclass (h : Hierarchy) (d : ClassHeader) : Except DispatchError Unit :=
  match d.superclass with
  | none => .ok ()
  | some c =>
    if d.isInterface then .error (.invalidClass d.name .interfaceWithSuperclass)
    else
      match h.find c with
      | .error e => .error e
      | .ok info =>
        if info.isInterface then .error (.invalidClass d.name (.superclassIsInterface info.name))
        else .ok ()

/-- Declare a class: its name is new, its superclass is a class, its interfaces are
interfaces. -/
def define (h : Hierarchy) (d : ClassHeader) : Except DispatchError Hierarchy :=
  if (h.byName? d.name).isSome then .error (.duplicateClass d.name)
  else
    match h.checkSuperclass d with
    | .error e => .error e
    | .ok () =>
      match h.checkInterfaces d.name d.interfaces with
      | .error e => .error e
      | .ok () => .ok (h.push d)

/-- All chains computed again from the links. -/
def relinearize (h : Hierarchy) : Hierarchy :=
  ⟨h.classes.mapIdx fun i info =>
    { info with chain := h.linearize ⟨i⟩ info.superclass info.interfaces }⟩

/-- Add an interface at the end of those that a class lists, without any check. -/
def addInterface (h : Hierarchy) (c iface : ClassRef) : Hierarchy :=
  relinearize ⟨h.classes.modify c.index fun info =>
    { info with interfaces := info.interfaces ++ [iface] }⟩

/-- Mix a trait into a class, unless the trait is not one or already is a kind of the class.
Mixing in a trait that is listed changes nothing. -/
def withInterface (h : Hierarchy) (c iface : ClassRef) : Except DispatchError Hierarchy :=
  match h.find c with
  | .error e => .error e
  | .ok target =>
    match h.find iface with
    | .error e => .error e
    | .ok added =>
      if !added.isInterface then .error (.invalidClass target.name (.notATrait added.name))
      else if h.isAssignable iface c then
        .error (.invalidClass target.name (.inheritanceCycle added.name))
      else if target.interfaces.contains iface then .ok h
      else .ok (h.addInterface c iface)

/-! ### The builtin classes -/

/-- A class with a name and nothing else. -/
def ClassHeader.plain (name : String) (superclass : Option ClassRef) : ClassHeader :=
  ⟨name, superclass, [], false, []⟩

/-- The builtin classes: the root, and one for each kind of value. -/
def builtin : Hierarchy :=
  [ClassHeader.plain "Object" none, ClassHeader.plain "NullObject" none,
    ClassHeader.plain "Bool" none, ClassHeader.plain "Number" none,
    ClassHeader.plain "Int" (some .number), ClassHeader.plain "Float" (some .number),
    ClassHeader.plain "String" none, ClassHeader.plain "List" none].foldl push ⟨#[]⟩

end Hierarchy

end LateBinding
