import LateBinding.Engine

/-!
# Inspection texts

Every part of an engine can be shown as one line for its developer: the name of the part and
its fields between braces, or the name and its contents between parentheses.
-/

namespace LateBinding

namespace Inspection

def record (name : String) (fields : List (String × String)) : String :=
  name ++ " \x7b " ++ Value.commaList (fields.map fun f => f.1 ++ ": " ++ f.2) ++ " \x7d"

def wrap (name content : String) : String := name ++ "(" ++ content ++ ")"

def list (items : List String) : String := "[" ++ Value.commaList items ++ "]"

end Inspection

open Inspection

/-! ### Classes and members -/

def ClassRef.inspect (c : ClassRef) : String := wrap "ClassId" (toString c.index)

def ParamKind.inspect : ParamKind → String
  | any => "Any"
  | ofClass c => wrap "Class" c.inspect

def ParamKind.inspectAll (ps : List ParamKind) : String := list (ps.map ParamKind.inspect)

def Signature.inspect (s : Signature) (origin : Origin) : String :=
  record "MethodDef" [("name", Text.inspect s.name), ("params", ParamKind.inspectAll s.params),
    ("varargs", Value.boolText s.variadic), ("origin", origin.word)]

def Accessor.inspectParts (readable writable : Bool) : String :=
  record "PropertyAccessor"
    [("readable", Value.boolText readable), ("writable", Value.boolText writable)]

def Owner.inspect : Owner → String
  | ofClass c => wrap "Class" c.inspect
  | ofObject o => record "Instance" [("class", o.cls.inspect), ("instance", toString o.id)]

def ObjectRef.inspect (o : ObjectRef) (hasOwnMembers : Bool) : String :=
  record "Instance" [("id", toString o.id), ("class", o.cls.inspect),
    ("expando", Value.boolText hasOwnMembers)]

variable {β : Type}

def Accessor.inspect (a : Accessor β) : String :=
  inspectParts a.getter.isSome a.setter.isSome

def MemberTable.inspect (t : MemberTable β) : String :=
  record "MetaClass" [("owner", t.owner.inspect), ("methods", toString t.methodCount),
    ("properties", toString t.properties.size),
    ("method_missing", Value.boolText t.methodMissing.isSome),
    ("property_missing", Value.boolText t.propertyMissing.isSome)]

/-- A change; the methods that it would install count as declared until it is applied. -/
def Change.inspect (change : Change β) : String :=
  let present (hook : Option β) : String := "present=" ++ Value.boolText hook.isSome
  wrap change.label (match change with
    | addMethod d | addCategoryMethod d => d.signature.inspect .declared
    | removeMethod name params => name ++ ", " ++ ParamKind.inspectAll params
    | setProperty name getter setter =>
      name ++ ", " ++ Accessor.inspectParts getter.isSome setter.isSome
    | removeProperty name => name
    | setMethodMissing hook | setPropertyMissing hook => present hook)

def Target.inspect : Target β → String
  | method m => wrap "Direct" (m.signature.inspect m.origin)
  | methodMissing name _ => wrap "Forwarding" ("methodMissing " ++ name)
  | propertyMissing name _ => wrap "Forwarding" ("propertyMissing " ++ name)
  | getter _ => wrap "Property" "getter"
  | setter _ => wrap "Property" "setter"
  | readField name => wrap "Property" ("read " ++ name)
  | writeField name => wrap "Property" ("write " ++ name)

/-! ### Engines and their parts -/

def Registry.inspect (r : Registry β) : String :=
  record "MetaClassRegistry" [("classes", toString r.hierarchy.size),
    ("meta_classes", toString r.classCellCount)]

def Resolver.inspect (r : Resolver β) : String :=
  record "MethodResolver" [("memoize", Value.boolText r.memoize),
    ("memo_entries", toString r.memo.size), ("invocations", toString r.invocations),
    ("full_resolutions", toString r.fullResolutions)]

def Settings.inspect (s : Settings) : String :=
  record "DispatchConfig" (s.listing.map fun f => (f.1, f.2.compact))

def Site.inspect (s : Site β) : String :=
  record "AdaptiveCallSite" [("id", wrap "SiteId" (toString s.id)), ("kind", s.access.inspect),
    ("name", Text.inspect s.name), ("state", s.phase.inspect), ("calls", toString s.calls)]

def Engine.inspect (g : Engine β) : String :=
  record "Dispatcher" [("config", g.settings.inspect), ("registry", g.registry.inspect),
    ("sites", toString g.siteCount)]

end LateBinding
