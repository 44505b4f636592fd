import LateBinding.Numeral
import LateBinding.Settings.Source
import LateBinding.Text.Escape
import LateBinding.Text.Lines

/-!
# Settings in TOML

Settings need no more of TOML than lines of the form `key = value` with a natural number or a
truth value, blank lines and comments. Whatever else is TOML (tables, texts, dates, negative
numbers) gives no settings, as a text does that is no TOML at all.
-/

namespace LateBinding.Settings

namespace Toml

/-- A control character other than the tab, which is allowed nowhere in a line. -/
def isControl (c : Char) : Bool := (c.toNat < 0x20 && c ≠ '\t') || c = '\x7f'

/-- A line holds nothing from here on: blanks, or a comment. -/
def isRest (cs : List Char) : Bool :=
  match Text.skipSpaces cs with
  | [] => true
  | '#' :: comment => !comment.any isControl
  | _ => false

/-! ### Values -/

/-- Digits with single underscores between them, without the underscores. -/
def ungroup? (cs : List Char) : Option (List Char) :=
  let groups := Text.splitOn (· = '_') cs
  if groups.any List.isEmpty then none else some groups.flatten

def inRadix? (radix : Nat) (cs : List Char) : Option Nat :=
  (ungroup? cs).bind (Numeral.natural? radix)

/-- A decimal number, which has no zero at its start unless it is zero. -/
def decimal? (cs : List Char) : Option Nat :=
  match cs with
  | '0' :: _ :: _ => none
  | cs => inRadix? 10 cs

def given (cs : List Char) : Given :=
  let number (n : Option Nat) : Given := match n with
    | some n => .number n
    | none => .other
  match cs with
  | ['t', 'r', 'u', 'e'] => .flag true
  | ['f', 'a', 'l', 's', 'e'] => .flag false
  | '0' :: 'x' :: rest => number (inRadix? 16 rest)
  | '0' :: 'o' :: rest => number (inRadix? 8 rest)
  | '0' :: 'b' :: rest => number (inRadix? 2 rest)
  | ['-', '0'] => .number 0
  | '+' :: rest => number (decimal? rest)
  | cs => number (decimal? cs)

/-! ### Keys -/

/-- The character that a backslash and a character stand for. -/
def shortEscape? : Char → Option Char
  | 'b' => some '\x08'
  | 't' => some '\t'
  | 'n' => some '\n'
  | 'f' => some '\x0c'
  | 'r' => some '\r'
  | 'e' => some '\x1b'
  | '"' => some '"'
  | '\\' => some '\\'
  | _ => none

/-- The text up to a double quote, and the line after it. -/
def untilDoubleQuote? : List Char → Option (List Char × List Char)
  | [] => none
  | '"' :: rest => some ([], rest)
  | '\\' :: c :: rest =>
    match Text.escapeDigits? c with
    | some n =>
      match Text.codePoint? n rest with
      | none => none
      | some d => (untilDoubleQuote? (rest.drop n)).map fun p => (d :: p.1, p.2)
    | none =>
      match shortEscape? c with
      | none => none
      | some d => (untilDoubleQuote? rest).map fun p => (d :: p.1, p.2)
  | c :: rest => if isControl c then none else (untilDoubleQuote? rest).map fun p => (c :: p.1, p.2)
termination_by cs => cs.length
decreasing_by
  all_goals simp only [List.length_cons, List.length_drop]
  all_goals omega

/-- The key at the start of a line, and the line after it. Between single quotes a backslash
has no meaning. -/
def key? : List Char → Option (List Char × List Char)
  | '"' :: rest => untilDoubleQuote? rest
  | '\'' :: rest => Text.untilQuote '\'' rest
  | cs => some (cs.takeWhile Text.isWord, cs.dropWhile Text.isWord)

/-! ### Lines -/

def setting? (line : List Char) : Option (String × Given) :=
  match key? line with
  | none => none
  | some (key, rest) =>
    match Text.skipSpaces rest with
    | '=' :: rest =>
      let rest := Text.skipSpaces rest
      let isValue (c : Char) : Bool := !Text.isSpace c && c ≠ '#'
      if isRest (rest.dropWhile isValue) then
        some (String.ofList key, given (rest.takeWhile isValue))
      else none
    | _ => none

def settings? : List (List Char) → Option (List (String × Given))
  | [] => some []
  | line :: rest =>
    if isRest line then settings? rest
    else
      match setting? (Text.skipSpaces line) with
      | none => none
      | some s => (settings? rest).map (s :: ·)

end Toml

def ofToml? (text : String) : Option Settings :=
  match Toml.settings? (Text.lines (Text.dropMark text.toList)) with
  | none => none
  | some entries => ofSource? (.named entries)

/-! ### Writing -/

def toToml (s : Settings) : String :=
  String.join (s.listing.map fun f => f.1 ++ " = " ++ f.2.compact ++ "\n")

end LateBinding.Settings
