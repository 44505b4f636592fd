import LateBinding.Shape
import LateBinding.Target

/-!
# Member lookup

Given the member tables along which to look (an object's own first, then those of the
classes on the chain), what a member resolves to. Nothing is remembered here and nothing is
changed.

For a method the first of these that applies decides:

1. table by table, the most specific fixed method that takes the argument classes exactly,
   else the most specific one that takes them through conversions;
2. table by table, the most specific variadic method;
3. the first hook for missing methods.

For a property: the first table with an accessor; then a method `getX`, `isX` or `setX`;
then a declared field; then the first hook for missing properties.
-/

namespace LateBinding

namespace Lookup

variable {β : Type}

/-- The methods that no other one beats: none is at least as specific without the converse
holding too. -/
def maximal (h : Hierarchy) (applicable : List (Method β)) : List (Method β) :=
  applicable.filter fun m => !applicable.any fun other =>
    other.signature.atLeastAsSpecific h m.signature &&
      !m.signature.atLeastAsSpecific h other.signature

/-- Of methods with one signature, the first that is native, else the newest. -/
def preferNative (first : Method β) (ms : List (Method β)) : Method β :=
  match ms.find? (·.origin.isNative) with
  | some m => m
  | none => ms.getLast?.getD first

def classTexts (h : Hierarchy) (cs : List ClassRef) : List String := cs.map h.nameOf

/-- The most specific of the applicable methods, if there is any. Methods that cannot be
compared are refused, unless they have the same signature. -/
def mostSpecific (h : Hierarchy) (cls : ClassRef) (name : String) (args : List ClassRef)
    (applicable : List (Method β)) : Except DispatchError (Option (Method β)) :=
  match maximal h applicable with
  | [] => .ok none
  | [m] => .ok (some m)
  | first :: rest =>
    if rest.all fun m => m.signature = first.signature then
      .ok (some (preferNative first (first :: rest)))
    else
      .error (.ambiguousOverload (h.nameOf cls) name (classTexts h args)
        ((first :: rest).map (·.signature.describe h)))

/-- The fixed method that one table offers for some argument classes. -/
def fixedIn (h : Hierarchy) (cls : ClassRef) (name : String) (args : List ClassRef)
    (t : MemberTable β) : Except DispatchError (Option (Method β)) :=
  let candidates := t.candidates name args.length
  match mostSpecific h cls name args (candidates.filter (·.signature.acceptsExactly args)) with
  | .error e => .error e
  | .ok (some m) => .ok (some m)
  | .ok none => mostSpecific h cls name args (candidates.filter (·.signature.accepts h args))

/-- The variadic method that one table offers for some argument classes. -/
def variadicIn (h : Hierarchy) (cls : ClassRef) (name : String) (args : List ClassRef)
    (t : MemberTable β) : Except DispatchError (Option (Method β)) :=
  mostSpecific h cls name args
    ((t.variadicCandidates name).filter (·.signature.acceptsMany h args))

/-- What the first table that offers anything offers, or the first error. -/
def firstOffer {α : Type} (offer : MemberTable β → Except DispatchError (Option α)) :
    List (MemberTable β) → Except DispatchError (Option α)
  | [] => .ok none
  | t :: rest =>
    match offer t with
    | .error e => .error e
    | .ok (some a) => .ok (some a)
    | .ok none => firstOffer offer rest

/-- The fixed method that a path of tables offers. -/
def findFixed (h : Hierarchy) (path : List (MemberTable β)) (cls : ClassRef) (name : String)
    (args : List ClassRef) : Except DispatchError (Option (Method β)) :=
  firstOffer (fixedIn h cls name args) path

/-- The variadic method that a path of tables offers. -/
def findVariadic (h : Hierarchy) (path : List (MemberTable β)) (cls : ClassRef) (name : String)
    (args : List ClassRef) : Except DispatchError (Option (Method β)) :=
  firstOffer (variadicIn h cls name args) path

def findMethod (h : Hierarchy) (path : List (MemberTable β)) (cls : ClassRef) (name : String)
    (args : List ClassRef) : Except DispatchError (Target β) :=
  match findFixed h path cls name args with
  | .error e => .error e
  | .ok (some m) => .ok (.method m)
  | .ok none =>
    match findVariadic h path cls name args with
    | .error e => .error e
    | .ok (some m) => .ok (.method m)
    | .ok none =>
      match path.findSome? (·.methodMissing) with
      | some hook => .ok (.methodMissing name hook)
      | none => .error (.unresolvedMethod (h.nameOf cls) name (classTexts h args))

/-- The method that stands for reading a property: `getX`, else `isX`. -/
def findReader (h : Hierarchy) (path : List (MemberTable β)) (cls : ClassRef) (name : String) :
    Except DispatchError (Option (Method β)) :=
  match findFixed h path cls ("get" ++ Text.capitalize name) [] with
  | .ok none => findFixed h path cls ("is" ++ Text.capitalize name) []
  | found => found

/-- The method that stands for writing a property with a value of some class. -/
def findWriter (h : Hierarchy) (path : List (MemberTable β)) (cls : ClassRef) (name : String)
    (value : ClassRef) : Except DispatchError (Option (Method β)) :=
  findFixed h path cls ("set" ++ Text.capitalize name) [value]

/-- Whether a class on the chain declares a field. -/
def hasField (h : Hierarchy) (cls : ClassRef) (name : String) : Bool :=
  (h.chain cls).any fun c => h.declaresField c name

/-- What reading a property resolves to. -/
def findRead (h : Hierarchy) (path : List (MemberTable β)) (cls : ClassRef) (name : String) :
    Except DispatchError (Target β) :=
  match path.findSome? (·.property? name) with
  | some accessor =>
    match accessor.getter with
    | some hook => .ok (.getter hook)
    | none => .error (.propertyNotReadable (h.nameOf cls) name)
  | none =>
    match findReader h path cls name with
    | .error e => .error e
    | .ok (some m) => .ok (.method m)
    | .ok none =>
      if hasField h cls name then .ok (.readField name)
      else
        match path.findSome? (·.propertyMissing) with
        | some hook => .ok (.propertyMissing name hook)
        | none => .error (.unresolvedProperty (h.nameOf cls) name)

/-- What writing a property resolves to. -/
def findWrite (h : Hierarchy) (path : List (MemberTable β)) (cls : ClassRef) (name : String)
    (value : ClassRef) : Except DispatchError (Target β) :=
  match path.findSome? (·.property? name) with
  | some accessor =>
    match accessor.setter with
    | some hook => .ok (.setter hook)
    | none => .error (.propertyNotWritable (h.nameOf cls) name)
  | none =>
    match findWriter h path cls name value with
    | .error e => .error e
    | .ok (some m) => .ok (.method m)
    | .ok none =>
      if hasField h cls name then .ok (.writeField name)
      else
        match path.findSome? (·.propertyMissing) with
        | some hook => .ok (.propertyMissing name hook)
        | none => .error (.unresolvedProperty (h.nameOf cls) name)

/-- What a member resolves to along a path of tables. A write without a value counts as a
write of nil. -/
def find (h : Hierarchy) (path : List (MemberTable β)) (access : Access) (cls : ClassRef)
    (name : String) (args : List ClassRef) : Except DispatchError (Target β) :=
  match access with
  | .method => findMethod h path cls name args
  | .read => findRead h path cls name
  | .write => findWrite h path cls name (args.headD .null)

end Lookup

namespace Registry

variable {β : Type}

/-- The member tables along which a class's members are looked up. -/
def classPath (r : Registry β) (c : ClassRef) : List (MemberTable β) :=
  (r.hierarchy.chain c).map r.members

/-- The member tables along which a receiver's members are looked up: its own first. -/
def path (r : Registry β) (receiver : Receiver) : List (MemberTable β) :=
  let own := match receiver with
    | .plain _ => []
    | .own o => (r.ownMembers? o).toList
  own ++ r.classPath receiver.cls

/-- What a member of a receiver resolves to now. -/
def lookup (r : Registry β) (access : Access) (receiver : Receiver) (name : String)
    (args : List ClassRef) : Except DispatchError (Target β) :=
  match r.hierarchy.find receiver.cls with
  | .error e => .error e
  | .ok _ => Lookup.find r.hierarchy (r.path receiver) access receiver.cls name args

end Registry

end LateBinding
