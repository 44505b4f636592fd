import LateBinding.Numeral
import LateBinding.Settings.Source
import LateBinding.Yaml.Document

/-!
# Settings in YAML

One mapping from names to natural numbers and truth values, and nothing else. A document
without content gives the defaults. Tags make no difference, except that a literal block
scalar is read like a plain one if its tag says that it is a number or a truth value.
-/

namespace LateBinding.Settings

namespace Given

/-! ### Words -/

/-- The number that digits write, decimal ones or others after a mark. A zero at the start of
further decimal digits makes a text of them. -/
def digits? : List Char → Option Nat
  | '0' :: 'x' :: rest => Numeral.natural? 16 rest
  | '0' :: 'o' :: rest => Numeral.natural? 8 rest
  | '0' :: 'b' :: rest => Numeral.natural? 2 rest
  | '0' :: _ :: _ => none
  | cs => Numeral.natural? 10 cs

/-- The number that a word stands for: digits after an optional plus sign. -/
def ofNumberWord (cs : List Char) : Given :=
  let number? := match cs with
    | '+' :: rest => digits? rest
    | cs => digits? cs
  match number? with
  | some n => .number n
  | none => .other

/-- The truth value that a word stands for, in small letters, capital letters or with one
capital letter. -/
def ofFlagWord (cs : List Char) : Given :=
  if ["true", "True", "TRUE"].contains (String.ofList cs) then .flag true
  else if ["false", "False", "FALSE"].contains (String.ofList cs) then .flag false
  else .other

def ofWord (cs : List Char) : Given :=
  match ofFlagWord cs with
  | .other => ofNumberWord cs
  | v => v

/-! ### Scalars -/

/-- The tag of numbers. -/
def numberTag : List Char := "tag:yaml.org,2002:int".toList

/-- The tag of truth values. -/
def flagTag : List Char := "tag:yaml.org,2002:bool".toList

def ofScalar (s : Yaml.Scalar) : Given :=
  match s.style with
  | .plain => ofWord s.text
  | .literal =>
    if s.tag = some numberTag then ofNumberWord s.text
    else if s.tag = some flagTag then ofFlagWord s.text
    else .other
  | .singleQuoted | .doubleQuoted | .folded => .other

end Given

/-- The name and the value that an entry of a document gives. -/
def entryOfYaml? (d : Yaml.Document) (e : Yaml.Node × Yaml.Node) : Option (String × Given) :=
  match d.anchors.scalar? e.1, d.anchors.scalar? e.2 with
  | some name, some value => some (String.ofList name.text, .ofScalar value)
  | _, _ => none

def Source.ofYaml? (d : Yaml.Document) : Option Source :=
  (d.entries.mapM (entryOfYaml? d)).map .named

def ofYaml? (text : String) : Option Settings :=
  match Yaml.Document.read? text.toList with
  | none => none
  | some d => (Source.ofYaml? d).bind ofSource?

end LateBinding.Settings
