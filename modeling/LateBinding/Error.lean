import LateBinding.Access
import LateBinding.Value
import LateBinding.Word

/-!
# Errors

`DispatchError` lists what can go wrong when members are resolved and when classes, sites or
settings are declared. `Fault` adds what can go wrong while a resolved target runs, and
`Failure` is a fault with the circumstances under which it was met, outermost first. Each
cause has its own constructor; the wording is in the `message` functions. An overflow is a
fault that nobody hands on: it stops the program where it is met.
-/

namespace LateBinding

/-- Why a class cannot be declared or changed as asked. -/
inductive ClassFault
  | interfaceWithSuperclass
  | superclassIsInterface (name : String)
  | notAnInterface (name : String)
  | notATrait (name : String)
  | inheritanceCycle (name : String)
deriving DecidableEq

def ClassFault.message : ClassFault → String
  | interfaceWithSuperclass => "interfaces cannot extend a class"
  | superclassIsInterface name => "cannot extend interface " ++ name
  | notAnInterface name => name ++ " is not an interface"
  | notATrait name => name ++ " is not a trait or interface"
  | inheritanceCycle name => "applying " ++ name ++ " would create an inheritance cycle"

/-- The most cache entries that a call site may be given. -/
def maxCacheCapacity : Nat := 64

/-- Why settings are not valid. -/
inductive SettingsFault
  | cacheCapacity (got : Nat)
  | zeroMultiplier
  | zeroMemoCapacity
deriving DecidableEq

def SettingsFault.message : SettingsFault → String
  | cacheCapacity got =>
    "cache_capacity must be within 1..=" ++ toString maxCacheCapacity ++ ", got " ++ toString got
  | zeroMultiplier => "megamorphic_multiplier must be at least 1"
  | zeroMemoCapacity => "memo_capacity must be positive when memoization is on"

/-- What can go wrong in resolving a member or declaring a class, site or setting. Classes
appear by their names. -/
inductive DispatchError
  | unresolvedMethod (cls method : String) (args : List String)
  | ambiguousOverload (cls method : String) (args candidates : List String)
  | unresolvedProperty (cls property : String)
  | propertyNotReadable (cls property : String)
  | propertyNotWritable (cls property : String)
  | siteConflict (site : Nat) (bound asked : Access × String)
  | unknownClass (cls : ClassRef)
  | duplicateClass (name : String)
  | invalidClass (name : String) (fault : ClassFault)
  | invalidSettings (fault : SettingsFault)
deriving DecidableEq

namespace DispatchError

def accessText (a : Access × String) : String := a.1.word ++ " " ++ a.2

def message : DispatchError → String
  | unresolvedMethod cls method args =>
    "no signature of method " ++ cls ++ "." ++ method ++
      "() is applicable for argument types (" ++ Value.commaList args ++ ")"
  | ambiguousOverload cls method args candidates =>
    "ambiguous method overloading for " ++ cls ++ "." ++ method ++ "(" ++
      Value.commaList args ++ "); candidates: " ++ Value.commaList candidates
  | unresolvedProperty cls property =>
    "no such property: " ++ property ++ " for class " ++ cls
  | propertyNotReadable cls property =>
    "cannot read write-only property " ++ property ++ " of class " ++ cls
  | propertyNotWritable cls property =>
    "cannot set read-only property " ++ property ++ " of class " ++ cls
  | siteConflict site bound asked =>
    "call site " ++ toString site ++ " is bound to " ++ accessText bound ++
      ", cannot reuse it for " ++ accessText asked
  | unknownClass cls => "unknown class id " ++ toString cls.index
  | duplicateClass name => "class " ++ name ++ " is already defined"
  | invalidClass name fault =>
    "invalid class definition for " ++ name ++ ": " ++ fault.message
  | invalidSettings fault => "invalid dispatch configuration: " ++ fault.message

/-- Whether the error says that there is nothing to call, as opposed to a wrong
declaration. -/
def isResolutionFailure : DispatchError → Bool
  | unresolvedMethod .. | ambiguousOverload .. | unresolvedProperty ..
  | propertyNotReadable .. | propertyNotWritable .. => true
  | siteConflict .. | unknownClass .. | duplicateClass .. | invalidClass ..
  | invalidSettings .. => false

end DispatchError

/-- Why a text is not a number below `2 ^ 64`. -/
inductive NumberFault
  | empty
  | invalidDigit
  | tooLarge
deriving DecidableEq

def NumberFault.message : NumberFault → String
  | empty => "cannot parse integer from empty string"
  | invalidDigit => "invalid digit found in string"
  | tooLarge => "number too large to fit in target type"

/-- Why a file cannot be read as a text. -/
inductive ReadFault
  /-- There is no file at the path. -/
  | missing
  /-- Something on the way to the file is no directory. -/
  | notDirectory
  /-- There is a directory in place of a file. -/
  | isDirectory
  /-- The path or one of its parts is too long. -/
  | pathTooLong
  /-- The path has a NUL in it. -/
  | nulInPath
  /-- The file is there but may not be read. -/
  | denied
  /-- The bytes of the file are no text. -/
  | notText
deriving DecidableEq

def ReadFault.message : ReadFault → String
  | missing => "No such file or directory (os error 2)"
  | notDirectory => "Not a directory (os error 20)"
  | isDirectory => "Is a directory (os error 21)"
  | pathTooLong => "File name too long (os error 36)"
  | nulInPath => "file name contained an unexpected NUL byte"
  | denied => "Permission denied (os error 13)"
  | notText => "stream did not contain valid UTF-8"

/-- What can go wrong anywhere. -/
inductive Fault
  /-- A member did not resolve, or a declaration was refused. -/
  | dispatch (error : DispatchError)
  /-- A method body or hook failed with a text of its own. -/
  | raised (text : String)
  /-- A variadic method got fewer arguments than it has leading parameters. -/
  | tooFewArguments (method : String) (atLeast got : Nat)
  /-- A method of the texts ran on another receiver. -/
  | receiverNotText (method : String)
  /-- A method of the lists ran on another receiver. -/
  | receiverNotList (method kind : String)
  /-- A field of something that is not an object was read. -/
  | readOfNonObject (field kind : String)
  /-- A field of something that is not an object was written. -/
  | writeOfNonObject (field kind : String)
  /-- A property was written with no value or with several. -/
  | writtenValues (got : Nat)
  /-- Bodies called each other without end. -/
  | endless
  /-- A body called a call site that does not exist. -/
  | noSite
  /-- A number is not written as one. -/
  | number (fault : NumberFault)
  /-- A flag is not written as one. -/
  | flag (got : String)
  /-- A check that a program makes on itself did not hold. -/
  | checkFailed (text : String)
  /-- A file could not be read. -/
  | unread (fault : ReadFault)
  /-- A text does not have the form that its format asks for; the circumstances say which. -/
  | malformed
  /-- A settings file has a format that is not known. -/
  | unknownFormat (extension path : String)
  /-- A path leads upwards. -/
  | parentDirectory
  /-- There is no scenario of this name. -/
  | unknownScenario (key : String) (known : List String)
  /-- A sum or product left the range of its numbers. -/
  | overflow (operation : Word.Overflow)
deriving DecidableEq

def Fault.message : Fault → String
  | dispatch error => error.message
  | raised text => text
  | tooFewArguments method atLeast got =>
    method ++ "() expects at least " ++ toString atLeast ++ " argument(s), got " ++ toString got
  | receiverNotText method => method ++ "() receiver is not a String"
  | receiverNotList method kind => method ++ "() receiver is not a List: " ++ kind
  | readOfNonObject field kind => "cannot read field " ++ field ++ " of " ++ kind
  | writeOfNonObject field kind => "cannot write field " ++ field ++ " of " ++ kind
  | writtenValues got => "property write expects exactly 1 value, got " ++ toString got
  | endless => "method bodies call each other without end"
  | noSite => "there is no such call site"
  | number fault => fault.message
  | flag got => "expected a boolean flag, got '" ++ got ++ "'"
  | checkFailed text => text
  | unread fault => fault.message
  | malformed => "not well formed"
  | unknownFormat extension path =>
    "unsupported config format '" ++ extension ++ "' for " ++ path
  | parentDirectory => "Parent directory components ('..') are not allowed in file paths."
  | unknownScenario key known =>
    "unknown scenario '" ++ key ++ "' (available: " ++ Value.commaList known ++ ")"
  | overflow operation => operation.message

/-- A fault and the circumstances under which it was met, outermost first. -/
structure Failure where
  circumstances : List String
  fault : Fault
deriving DecidableEq

namespace Failure

def ofFault (f : Fault) : Failure := ⟨[], f⟩

def ofDispatch (e : DispatchError) : Failure := ⟨[], .dispatch e⟩

def ofOverflow (operation : Word.Overflow) : Failure := ⟨[], .overflow operation⟩

/-- The failure stops the program instead of being handed on to whoever asked. -/
def isPanic (f : Failure) : Bool :=
  match f.fault with
  | .overflow _ => true
  | _ => false

/-- Add an outer circumstance to a failure that is handed on. -/
def within (circumstance : String) (f : Failure) : Failure :=
  if f.isPanic then f else { f with circumstances := circumstance :: f.circumstances }

/-- What arithmetic yields, if it stays in range. -/
def exact {α : Type} (result : Except Word.Overflow α) : Except Failure α :=
  result.mapError ofOverflow

def isDispatchError (f : Failure) : Bool :=
  match f.fault with
  | .dispatch _ => true
  | _ => false

/-- All texts of a failure, outermost first; the last one is the fault itself. -/
def texts (f : Failure) : List String := f.circumstances ++ [f.fault.message]

def message (f : Failure) : String := f.texts.headD ""

def causes (f : Failure) : List String := f.texts.tail

end Failure

end LateBinding
