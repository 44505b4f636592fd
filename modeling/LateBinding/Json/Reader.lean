import LateBinding.Json
import LateBinding.Json.Token

/-!
# Reading JSON

The reader follows the grammar of JSON strictly: no comments, no trailing commas, nothing
after the document, numbers without leading zeros or a plus sign. It works on the tokens of
the text. A number is kept as it is written.
-/

namespace LateBinding.Json

/-! ### Numbers -/

def areDigits (cs : List Char) : Bool := !cs.isEmpty && cs.all Char.isDigit

/-- A number without its sign, its whole part, fraction and exponent being checked in turn. -/
def isUnsigned (cs : List Char) : Bool :=
  let whole := cs.takeWhile Char.isDigit
  let rest := cs.dropWhile Char.isDigit
  let (fraction, rest) := match rest with
    | '.' :: r => (areDigits (r.takeWhile Char.isDigit), r.dropWhile Char.isDigit)
    | r => (true, r)
  let exponent := match rest with
    | [] => true
    | e :: r => (e = 'e' || e = 'E') && areDigits (match r with
      | '+' :: r | '-' :: r => r
      | r => r)
  areDigits whole && (whole.length = 1 || whole.head? ≠ some '0') && fraction && exponent

def isNumber : List Char → Bool
  | '-' :: cs => isUnsigned cs
  | cs => isUnsigned cs

def ofWord? (cs : List Char) : Option Json :=
  match String.ofList cs with
  | "null" => some .null
  | "true" => some (.bool true)
  | "false" => some (.bool false)
  | text => if isNumber cs then some (.number text) else none

/-! ### Documents -/

mutual

/-- A document at the start of some tokens, and the tokens after it. -/
def readValue : Nat → List Token → Option (Json × List Token)
  | _, .text s :: rest => some (.str s, rest)
  | _, .word cs :: rest => (ofWord? cs).map (·, rest)
  | fuel + 1, .mark '[' :: rest =>
    match rest with
    | .mark ']' :: rest => some (.array [], rest)
    | _ => readItems fuel [] rest
  | fuel + 1, .mark '\x7b' :: rest =>
    match rest with
    | .mark '\x7d' :: rest => some (.object [], rest)
    | _ => readFields fuel [] rest
  | _, _ => none

/-- The items of an array up to its closing bracket, after those in `done`. -/
def readItems : Nat → List Json → List Token → Option (Json × List Token)
  | 0, _, _ => none
  | fuel + 1, done, tokens =>
    match readValue fuel tokens with
    | some (j, .mark ',' :: rest) => readItems fuel (j :: done) rest
    | some (j, .mark ']' :: rest) => some (.array (j :: done).reverse, rest)
    | _ => none

/-- The fields of an object up to its closing brace, after those in `done`. -/
def readFields : Nat → List (String × Json) → List Token → Option (Json × List Token)
  | 0, _, _ => none
  | fuel + 1, done, tokens =>
    match tokens with
    | .text k :: .mark ':' :: rest =>
      match readValue fuel rest with
      | some (j, .mark ',' :: rest) => readFields fuel ((k, j) :: done) rest
      | some (j, .mark '\x7d' :: rest) => some (.object ((k, j) :: done).reverse, rest)
      | _ => none
    | _ => none

end

/-- The document that a text writes. A level of nesting takes two calls and two tokens, a
further item one call and two tokens, so the number of tokens bounds the depth of calls. -/
def read? (s : String) : Option Json :=
  match tokens? s.toList with
  | none => none
  | some ts =>
    match readValue (ts.length + 1) ts with
    | some (j, []) => some j
    | _ => none

end LateBinding.Json
