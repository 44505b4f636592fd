import LateBinding.Decimal.Shortest
import LateBinding.Text.Quoted

/-!
# Values

A value of the dynamic language is nil, a truth value, a 64-bit integer, a float, a text, a
list of values or a reference to an object. Every value has a runtime class, and dispatch
looks at nothing else of it. Integers and floats compare as numbers, lists by their items,
objects by identity.
-/

namespace LateBinding

/-- The identity of a class: its position in the hierarchy. -/
structure ClassRef where
  index : Nat
deriving DecidableEq, Inhabited

namespace ClassRef

def object : ClassRef := ⟨0⟩
def null : ClassRef := ⟨1⟩
def bool : ClassRef := ⟨2⟩
def number : ClassRef := ⟨3⟩
def int : ClassRef := ⟨4⟩
def float : ClassRef := ⟨5⟩
def string : ClassRef := ⟨6⟩
def list : ClassRef := ⟨7⟩

/-- Parameters of these classes refuse nil. -/
def isPrimitive (c : ClassRef) : Bool := c = bool || c = int || c = float

/-- The name of a class by number, for values whose class table is not at hand. -/
def label (c : ClassRef) : String := "class#" ++ toString c.index

end ClassRef

/-- The identity of an object, with the class that it keeps for life. -/
structure ObjectRef where
  id : Nat
  cls : ClassRef
deriving DecidableEq

/-- A value of the dynamic language. -/
inductive Value
  | nil
  | bool (b : Bool)
  | int (n : Int64)
  | float (x : Float)
  | str (s : String)
  | list (items : List Value)
  | object (ref : ObjectRef)

instance : Inhabited Value := ⟨.nil⟩

/-- The float nearest to an integer; of two equally near, the one with an even mantissa. -/
def floatOfInt (n : Int64) : Float :=
  let size := (UInt64.ofNat n.toInt.natAbs).toFloat
  if n < 0 then -size else size

namespace Value

def classOf : Value → ClassRef
  | nil => .null
  | bool _ => .bool
  | int _ => .int
  | float _ => .float
  | str _ => .string
  | list _ => .list
  | object ref => ref.cls

/-- The kind of a value; all objects are of one kind. -/
def kindName : Value → String
  | nil => "Nil"
  | bool _ => "Bool"
  | int _ => "Int"
  | float _ => "Float"
  | str _ => "String"
  | list _ => "List"
  | object _ => "Object"

def asObject? : Value → Option ObjectRef
  | object ref => some ref
  | _ => none

def asInt? : Value → Option Int64
  | int n => some n
  | _ => none

def asText? : Value → Option String
  | str s => some s
  | _ => none

def isNil : Value → Bool
  | nil => true
  | _ => false

/-! ### Equality -/

mutual

/-- Equality of values: an integer equals a float if its nearest float does. -/
def equal : Value → Value → Bool
  | nil, nil => true
  | bool a, bool b => a == b
  | int a, int b => a == b
  | float a, float b => a == b
  | int a, float b => floatOfInt a == b
  | float a, int b => floatOfInt b == a
  | str a, str b => a == b
  | list as, list bs => equalLists as bs
  | object a, object b => a == b
  | _, _ => false

def equalLists : List Value → List Value → Bool
  | [], [] => true
  | a :: as, b :: bs => equal a b && equalLists as bs
  | _, _ => false

end

/-! ### Texts -/

/-- A float in positional notation with the fewest digits that read back. -/
def floatText (x : Float) : String :=
  match Decimal.Parts.ofFloat x with
  | .notANumber => "NaN"
  | .infinite negative => if negative then "-inf" else "inf"
  | .finite negative m q =>
    (if negative then "-" else "") ++
      (if m = 0 then "0" else (Decimal.shortest .up m q).positional "")

def boolText (b : Bool) : String := if b then "true" else "false"

/-- Texts one after another, separated by comma and space. -/
def commaList (texts : List String) : String := ", ".intercalate texts

mutual

/-- The text that a program sees: texts as they are, lists in brackets. -/
def display : Value → String
  | nil => "nil"
  | bool b => boolText b
  | int n => toString n.toInt
  | float x => floatText x
  | str s => s
  | list items => "[" ++ commaList (displayAll items) ++ "]"
  | object ref => "<" ++ ref.cls.label ++ "#" ++ toString ref.id ++ ">"

def displayAll : List Value → List String
  | [] => []
  | v :: vs => display v :: displayAll vs

end

mutual

/-- The text for a reader who wants to see what kind of value it is. -/
def inspect : Value → String
  | nil => "Nil"
  | bool b => "Bool(" ++ boolText b ++ ")"
  | int n => "Int(" ++ toString n.toInt ++ ")"
  | float x => "Float(" ++ floatText x ++ ")"
  | str s => "Str(" ++ Text.inspect s ++ ")"
  | list items => "[" ++ commaList (inspectAll items) ++ "]"
  | object ref => "Object(#" ++ toString ref.id ++ " class=" ++ ref.cls.label ++ ")"

def inspectAll : List Value → List String
  | [] => []
  | v :: vs => inspect v :: inspectAll vs

end

end Value

end LateBinding
