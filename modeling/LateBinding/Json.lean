import LateBinding.Value

/-!
# JSON documents

The documents that the library writes, in two layouts: compact on one line, and indented by
two spaces with a field or item per line. Numbers are kept as the text that is written.
-/

namespace LateBinding

/-- A JSON document to be written. -/
inductive Json
  | null
  | bool (b : Bool)
  | number (text : String)
  | str (s : String)
  | array (items : List Json)
  | object (fields : List (String × Json))

instance : Inhabited Json := ⟨.null⟩

namespace Json

def nat (n : Nat) : Json := number (toString n)

/-- A float with the fewest digits that read back. Powers of ten from `-5` to `15` are
written out, the others with an exponent; what is not finite is null. -/
def float (x : Float) : Json :=
  match Decimal.Parts.ofFloat x with
  | .notANumber | .infinite _ => null
  | .finite negative m q =>
    let sign := if negative then "-" else ""
    if m = 0 then number (sign ++ "0.0")
    else
      let d := Decimal.shortest .toEven m q
      if -5 ≤ d.leading ∧ d.leading ≤ 15 then number (sign ++ d.positional ".0")
      else number (sign ++ d.exponential)

mutual

def compact : Json → String
  | null => "null"
  | bool b => Value.boolText b
  | number text => text
  | str s => Text.json s
  | array items => "[" ++ ",".intercalate (compactItems items) ++ "]"
  | object fields => "\x7b" ++ ",".intercalate (compactFields fields) ++ "\x7d"

def compactItems : List Json → List String
  | [] => []
  | j :: js => compact j :: compactItems js

def compactFields : List (String × Json) → List String
  | [] => []
  | (k, j) :: rest => (Text.json k ++ ":" ++ compact j) :: compactFields rest

end

/-- A line break followed by `depth` steps of indentation. -/
def newline (depth : Nat) : String := "\n" ++ String.ofList (List.replicate (2 * depth) ' ')

/-- Items between brackets, one per line and one step deeper than the brackets. -/
def block (opening closing : String) (depth : Nat) (items : List String) : String :=
  if items.isEmpty then opening ++ closing
  else
    opening ++ newline (depth + 1) ++ ("," ++ newline (depth + 1)).intercalate items ++
      newline depth ++ closing

mutual

/-- The document with a field or item per line, `depth` steps in. -/
def prettyAt (depth : Nat) : Json → String
  | array items => block "[" "]" depth (prettyItems (depth + 1) items)
  | object fields => block "\x7b" "\x7d" depth (prettyFields (depth + 1) fields)
  | null => "null"
  | bool b => Value.boolText b
  | number text => text
  | str s => Text.json s

def prettyItems (depth : Nat) : List Json → List String
  | [] => []
  | j :: js => prettyAt depth j :: prettyItems depth js

def prettyFields (depth : Nat) : List (String × Json) → List String
  | [] => []
  | (k, j) :: rest => (Text.json k ++ ": " ++ prettyAt depth j) :: prettyFields depth rest

end

def pretty (j : Json) : String := prettyAt 0 j

end Json

end LateBinding
