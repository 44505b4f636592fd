import LateBinding.Json.Reader
import LateBinding.Settings.Source

/-!
# Settings in JSON

An object of named settings, or an array of values in the order of listing. A number is taken
only if it is written by digits alone.
-/

namespace LateBinding.Settings

def Given.ofJson : LateBinding.Json → Given
  | .number text =>
    match Numeral.natural? 10 text.toList with
    | some n => .number n
    | none => .other
  | .bool b => .flag b
  | _ => .other

def Source.ofJson? : LateBinding.Json → Option Source
  | .object fields => some (.named (fields.map fun f => (f.1, .ofJson f.2)))
  | .array items => some (.listed (items.map .ofJson))
  | _ => none

def ofJson? (text : String) : Option Settings :=
  match Json.read? text with
  | none => none
  | some j => (Source.ofJson? j).bind ofSource?

end LateBinding.Settings
