import LateBinding.Text.Lines

/-!
# Places in a YAML text

The characters that YAML tells apart, and a place in a text: what stands before it and what
comes after. Columns are counted from the last line break.
-/

namespace LateBinding.Yaml

/-! ### Characters -/

/-- Whether a character ends a line. A carriage return and a line feed after it end one line
together. -/
def isBreak (c : Char) : Bool :=
  c = '\n' || c = '\r' || c = '\x85' || c = '\u2028' || c = '\u2029'

/-- Whether a character may stand in a text, be it in a comment. -/
def isAllowed (c : Char) : Bool :=
  let n := c.toNat
  n = 0x09 || n = 0x0A || n = 0x0D || (0x20 ≤ n && n ≤ 0x7E) || n = 0x85 ||
    (0xA0 ≤ n && n ≤ 0xD7FF) || (0xE000 ≤ n && n ≤ 0xFFFD) || 0x10000 ≤ n

/-- Whether a text is at its end or goes on with a blank or a line break. -/
def atGap : List Char → Bool
  | [] => true
  | c :: _ => Text.isSpace c || isBreak c

/-- Whether a text is at its end or goes on with a line break. -/
def atLineEnd : List Char → Bool
  | [] => true
  | c :: _ => isBreak c

/-- A line break as the text of a scalar has it, and the text after it. -/
def takeBreak : List Char → List Char × List Char
  | '\r' :: '\n' :: rest => (['\n'], rest)
  | c :: rest =>
    if c = '\u2028' || c = '\u2029' then ([c], rest)
    else if isBreak c then (['\n'], rest)
    else ([], c :: rest)
  | [] => ([], [])

/-- The rest of a line without its blanks and its comment, and without its end. None if
anything else stands there. -/
def afterLine? (cs : List Char) : Option (List Char) :=
  let rest := Text.skipSpaces cs
  let rest := if rest.head? = some '#' then rest.dropWhile (!isBreak ·) else rest
  if atLineEnd rest then some (takeBreak rest).2 else none

/-! ### Places -/

/-- A place in a text. The characters before it are listed backwards. -/
structure Place where
  before : List Char
  rest : List Char

namespace Place

def start (cs : List Char) : Place := ⟨[], cs⟩

def index (p : Place) : Nat := p.before.length

/-- How many characters stand before a place in its line. -/
def column (p : Place) : Nat := (p.before.takeWhile (!isBreak ·)).length

/-- The place some characters later. -/
def drop (n : Nat) (p : Place) : Place := ⟨(p.rest.take n).reverse ++ p.before, p.rest.drop n⟩

/-- The later place from which the given text is left. -/
def moveTo (rest : List Char) (p : Place) : Place := p.drop (p.rest.length - rest.length)

/-- Whether a line ends between an earlier place, given by its index, and a place. -/
def isBelow (p : Place) (index : Nat) : Bool := (p.before.take (p.index - index)).any isBreak

end Place

end LateBinding.Yaml
