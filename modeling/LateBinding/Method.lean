import LateBinding.Hierarchy
import LateBinding.Text.UpperCase

/-!
# Methods

A method has a signature (name, parameters, whether it is variadic), an origin and code. The
code is one of the builtin operations or a body of the embedding program, of which nothing
is assumed: everything here works for any type `β` of bodies. Every definition that is
installed gets a serial number of its own, so two definitions are the same target exactly
when their serials agree.

Main facts: a fixed method is applicable to argument classes exactly, or through
conversions; methods of one arity are compared by their parameters; and `Method.arguments`
turns the arguments of a call into those that the code receives.
-/

namespace LateBinding

/-- What a parameter accepts: anything, or the values of a class. -/
inductive ParamKind
  | any
  | ofClass (c : ClassRef)
deriving DecidableEq

namespace ParamKind

/-- An argument of class `arg` matches without conversion. -/
def isExact (p : ParamKind) (arg : ClassRef) : Bool := p = .ofClass arg

/-- An argument of class `arg` can be passed: the parameter takes anything, the class is a
kind of the parameter's, an integer stands for a float, or nil for anything but a
primitive. -/
def accepts (h : Hierarchy) (p : ParamKind) (arg : ClassRef) : Bool :=
  match p with
  | any => true
  | ofClass c =>
    h.isAssignable arg c || (arg = .int && c = .float) || (arg = .null && !c.isPrimitive)

/-- Every value that `p` takes, `q` takes too, as far as their classes tell. -/
def narrowerOrEqual (h : Hierarchy) (p q : ParamKind) : Bool :=
  match p, q with
  | _, any => true
  | any, ofClass _ => false
  | ofClass a, ofClass b => h.isAssignable a b || (a = .int && b = .float)

/-- The float that a float parameter makes of an integer. -/
def widened? (p : ParamKind) (v : Value) : Option Value :=
  match p, v with
  | ofClass c, .int n => if c = .float then some (.float (floatOfInt n)) else none
  | _, _ => none

/-- The value that a parameter passes on. -/
def convert (p : ParamKind) (v : Value) : Value := (p.widened? v).getD v

def describe (h : Hierarchy) : ParamKind → String
  | any => "Object"
  | ofClass c => h.nameOf c

end ParamKind

/-- Where a method comes from. -/
inductive Origin
  /-- The declaration of its class. -/
  | declared
  /-- A later change. -/
  | injected
  /-- A category, which extends a class from outside. -/
  | category
deriving DecidableEq, Inhabited

/-- Methods that do not come from a category win against those that do. -/
def Origin.isNative : Origin → Bool
  | declared | injected => true
  | category => false

def Origin.word : Origin → String
  | declared => "Declared"
  | injected => "Injected"
  | category => "Category"

/-- What tells methods of a class apart. The last parameter of a variadic method is that of
each further argument. -/
structure Signature where
  name : String
  params : List ParamKind
  variadic : Bool
deriving DecidableEq

/-- The operations that come with the builtin classes. -/
inductive Builtin
  | displayText
  | equals
  | textSize
  | upperCase
  | listSize
deriving DecidableEq

/-- What a method runs: a builtin operation or a body of the embedding program. -/
inductive Code (β : Type)
  | builtin (op : Builtin)
  | body (b : β)

/-- A method before it is installed. -/
structure MethodDecl (β : Type) where
  signature : Signature
  code : Code β

/-- An installed method. -/
structure Method (β : Type) where
  signature : Signature
  code : Code β
  origin : Origin
  serial : Nat

/-- An installed body that is not a method: a hook for missing members, or one half of a
property. -/
structure Hook (β : Type) where
  body : β
  serial : Nat

/-- An installed property: how it is read and how it is written, where it can be. -/
structure Accessor (β : Type) where
  getter : Option (Hook β)
  setter : Option (Hook β)

namespace Signature

def arity (s : Signature) : Nat := s.params.length

/-- The parameters before the last one. -/
def leading (s : Signature) : List ParamKind := s.params.dropLast

/-- A fixed method whose parameters are exactly the argument classes. -/
def acceptsExactly (s : Signature) (args : List ClassRef) : Bool :=
  !s.variadic && s.params = args.map .ofClass

/-- All arguments fit the parameters in their places. -/
def fits (h : Hierarchy) (params : List ParamKind) (args : List ClassRef) : Bool :=
  params.length = args.length && (params.zip args).all fun p => p.1.accepts h p.2

/-- A fixed method to which the arguments can be passed. -/
def accepts (h : Hierarchy) (s : Signature) (args : List ClassRef) : Bool :=
  !s.variadic && fits h s.params args

/-- A variadic method to which the arguments can be passed. -/
def acceptsMany (h : Hierarchy) (s : Signature) (args : List ClassRef) : Bool :=
  match s.params.getLast? with
  | none => false
  | some element =>
    s.variadic && s.leading.length ≤ args.length &&
      fits h s.leading (args.take s.leading.length) &&
      (args.drop s.leading.length).all (element.accepts h)

/-- Every parameter is at least as narrow as the one in its place. -/
def atLeastAsSpecific (h : Hierarchy) (s t : Signature) : Bool :=
  s.params.length = t.params.length &&
    (s.params.zip t.params).all fun p => p.1.narrowerOrEqual h p.2

/-- The texts of the parameters; the last one of a variadic method has dots. -/
def paramTexts (h : Hierarchy) (s : Signature) : List String :=
  let texts := s.params.map (·.describe h)
  match s.variadic, texts.getLast? with
  | true, some last => texts.dropLast ++ [last ++ "..."]
  | _, _ => texts

def describe (h : Hierarchy) (s : Signature) : String :=
  s.name ++ "(" ++ Value.commaList (s.paramTexts h) ++ ")"

/-- What the code receives of the arguments of a call. Integers become floats where a float
is asked for, and the further arguments of a variadic method become one list. -/
def arguments (s : Signature) (args : List Value) : Except Fault (List Value) :=
  if s.variadic then
    let fixed := s.leading.length
    if args.length < fixed then .error (.tooFewArguments s.name fixed args.length)
    else
      let element := s.params.getLast?.getD .any
      .ok ((s.leading.zip args).map (fun p => p.1.convert p.2) ++
        [.list ((args.drop fixed).map element.convert)])
  else
    .ok ((s.params.zip args).map (fun p => p.1.convert p.2) ++ args.drop s.params.length)

end Signature

/-- The method that a declaration becomes when it is installed. -/
def MethodDecl.install {β : Type} (d : MethodDecl β) (origin : Origin) (serial : Nat) :
    Method β :=
  ⟨d.signature, d.code, origin, serial⟩

namespace Builtin

def run (op : Builtin) (receiver : Value) (args : List Value) : Except Fault Value :=
  match op with
  | displayText => .ok (.str receiver.display)
  | equals =>
    match args with
    | [] => .ok (.bool false)
    | other :: _ => .ok (.bool (receiver.equal other))
  | textSize =>
    match receiver with
    | .str s => .ok (.int (Int64.ofNat s.toList.length))
    | _ => .error (.receiverNotText "size")
  | upperCase =>
    match receiver with
    | .str s => .ok (.str (Text.upperCase s))
    | _ => .error (.receiverNotText "toUpperCase")
  | listSize =>
    match receiver with
    | .list items => .ok (.int (Int64.ofNat items.length))
    | other => .error (.receiverNotList "size" other.kindName)

end Builtin

/-- The methods of the builtin classes, in the order of the classes. -/
def builtinMethods (β : Type) : List (List (MethodDecl β)) :=
  let plain (name : String) (op : Builtin) : MethodDecl β := ⟨⟨name, [], false⟩, .builtin op⟩
  [[plain "toString" .displayText, ⟨⟨"equals", [.any], false⟩, .builtin .equals⟩], [], [], [], [],
    [], [plain "size" .textSize, plain "toUpperCase" .upperCase], [plain "size" .listSize]]

end LateBinding
