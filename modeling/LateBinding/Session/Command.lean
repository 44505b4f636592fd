import LateBinding.Engine

/-!
# Commands of a session

A session drives one engine by commands: they declare classes, change members, create
objects, open call sites, make calls and ask for reports. Values and classes are given by
terms, which may refer to variables and to names. Methods have a `Body`, a small expression
over the receiver, the name and the arguments of a call, which may in turn run commands.
-/

namespace LateBinding.Session

/-- A value, or a variable that stands for one, possibly inside lists. -/
inductive Term
  | nil
  | bool (b : Bool)
  | int (n : Int64)
  | float (x : Float)
  | str (s : String)
  | list (items : List Term)
  | variable (name : String)

instance : Inhabited Term := ⟨.nil⟩

/-- A class by its name or by its number. -/
inductive ClassTerm
  | named (name : String)
  | numbered (index : Nat)

instance : Inhabited ClassTerm := ⟨.numbered 0⟩

/-- A call site by its number, or by the label of a detached one. -/
inductive SiteTerm
  | numbered (id : Nat)
  | labelled (label : String)

abbrev ParamTerm := Option ClassTerm

/-- A method to be declared. -/
structure MethodTerm (β : Type) where
  name : String
  params : List ParamTerm
  variadic : Bool
  body : β
deriving Inhabited

/-- A class to be declared. -/
structure ClassDecl (β : Type) where
  name : String
  isInterface : Bool
  superclass : Option ClassTerm
  interfaces : List ClassTerm
  fields : List String
  methods : List (MethodTerm β)

/-- A change to members. -/
inductive ChangeTerm (β : Type)
  | addMethod (m : MethodTerm β)
  | addCategoryMethod (m : MethodTerm β)
  | removeMethod (name : String) (params : List ParamTerm)
  | setProperty (name : String) (getter setter : Option β)
  | removeProperty (name : String)
  | setMethodMissing (hook : Option β)
  | setPropertyMissing (hook : Option β)
deriving Inhabited

/-- What an inspection text is asked of. -/
inductive Subject
  | registry
  | resolver
  | engine
  | site (site : SiteTerm)
  | target (label : String)
  | object (t : Term)
deriving Inhabited

mutual

/-- What a method, a hook or one half of a property does. -/
inductive Body
  /-- The value of a term. -/
  | constant (t : Term)
  /-- The list of the arguments. -/
  | arguments
  /-- The receiver. -/
  | receiver
  /-- The list of the receiver, the name and the list of the arguments. -/
  | everything
  /-- The text of the list of the arguments. -/
  | argumentText
  /-- A failure. -/
  | failure (text : String)
  /-- The value of a field of the receiver, nil if there is none. -/
  | readField (name : String)
  /-- Set a field of the receiver to the first argument; the value before, or nil. -/
  | writeField (name : String)
  /-- The same arguments passed to another method of the receiver. -/
  | invoke (method : String)
  /-- The same receiver and arguments passed to a call site. -/
  | viaSite (site : SiteTerm)
  /-- Run commands with `self` and `args` as variables, then another body. -/
  | program (commands : List Command) (result : Body)

/-- A command of a session. -/
inductive Command
  -- classes
  | define (decl : ClassDecl Body)
  | describeClass (c : ClassTerm)
  | findClass (name : String)
  | lineage (c : ClassTerm)
  | listClasses
  | assignable (a b : ClassTerm)
  | examineParam (p : ParamTerm) (args : List ClassTerm) (others : List ParamTerm)
      (values : List Term)
  -- members
  | members (c : ClassTerm) (names : List String)
  | ownMembers (object : Term) (names : List String)
  | preview (c : ClassTerm) (change : ChangeTerm Body) (names : List String)
  | versions (cs : List ClassTerm)
  | countCells
  | invalidate (c : ClassTerm)
  | changeClass (c : ClassTerm) (change : ChangeTerm Body)
  | changeObject (object : Term) (change : ChangeTerm Body)
  | applyCategory (c : ClassTerm) (methods : List (MethodTerm Body))
  | applyTrait (c trait : ClassTerm)
  -- values
  | create (label : String) (c : ClassTerm) (fields : List (String × Term))
  | bind (label : String) (t : Term)
  | readField (object : Term) (name : String)
  | writeField (object : Term) (name : String) (value : Term)
  | compare (a b : Term)
  | shape (receiver : Term) (args : List Term) (other : Option (Term × List Term))
  | runMethod (m : MethodTerm Body) (receiver : Term) (args : List Term)
  -- resolution
  | resolveClass (c : ClassTerm) (name : String) (args : List ClassTerm) (keep : Option String)
  | resolve (access : Access) (receiver : Term) (name : String) (args : List Term)
      (keep : Option String)
  | memo (clear : Bool)
  | guard (label : String)
  | callTarget (label : String) (receiver : Term) (args : List Term)
  | sameTarget (a b : String)
  | call (access : Access) (receiver : Term) (name : String) (args : List Term)
  -- call sites
  | openSite (id : Nat) (access : Access) (name : String)
  | attachSite (label : String) (id : Nat) (access : Access) (name : String) (capacity : Nat)
  | callSite (site : SiteTerm) (receiver : Term) (args : List Term)
  | drive (site : SiteTerm) (calls : List (Term × List Term)) (order : List Nat) (times : Nat)
  | resetSite (site : SiteTerm)
  | resetSites
  | report (site : SiteTerm)
  | reports
  | metrics
  | setPolicy (changes : List (Policy.Threshold × Nat))
  | decide (site : SiteTerm)
  | inspect (subject : Subject)

end

instance : Inhabited Body := ⟨.arguments⟩

instance : Inhabited Command := ⟨.reports⟩

end LateBinding.Session
