import LateBinding.Text.Escape
import LateBinding.Yaml.Place

/-!
# YAML scalars

The texts of quoted, plain and block scalars. Only scalars that fit on one line are read in
the first two styles, except that a backslash may join lines: what settings are made of has
no blanks inside, so a scalar that goes on in another line is none of it.
-/

namespace LateBinding.Yaml

/-- How a scalar is written. -/
inductive Style
  | plain
  | singleQuoted
  | doubleQuoted
  | literal
  | folded
deriving DecidableEq

/-! ### Quoted scalars -/

/-- The text up to a quote, which is written twice inside, and what comes after it. -/
def single? : List Char → Option (List Char × List Char)
  | [] => none
  | '\'' :: '\'' :: rest => (single? rest).map fun p => ('\'' :: p.1, p.2)
  | '\'' :: rest => some ([], rest)
  | c :: rest => if isBreak c then none else (single? rest).map fun p => (c :: p.1, p.2)

/-- The character that a backslash and a character stand for. -/
def shortEscape? : Char → Option Char
  | '0' => some '\x00'
  | 'a' => some '\x07'
  | 'b' => some '\x08'
  | 't' => some '\t'
  | '\t' => some '\t'
  | 'n' => some '\n'
  | 'v' => some '\x0b'
  | 'f' => some '\x0c'
  | 'r' => some '\r'
  | 'e' => some '\x1b'
  | ' ' => some ' '
  | '"' => some '"'
  | '/' => some '/'
  | '\\' => some '\\'
  | 'N' => some '\x85'
  | '_' => some '\xa0'
  | 'L' => some '\u2028'
  | 'P' => some '\u2029'
  | _ => none

theorem length_skipSpaces_le (cs : List Char) : (Text.skipSpaces cs).length ≤ cs.length :=
  (List.dropWhile_suffix _).length_le

/-- The text up to a double quote and what comes after it. A backslash at the end of a line
joins the line with what stands after the blanks of the next one. -/
def double? : List Char → Option (List Char × List Char)
  | [] => none
  | '"' :: rest => some ([], rest)
  | '\\' :: '\r' :: '\n' :: rest => double? (Text.skipSpaces rest)
  | '\\' :: c :: rest =>
    if isBreak c then double? (Text.skipSpaces rest)
    else
      match Text.escapeDigits? c with
      | some n =>
        match Text.codePoint? n rest with
        | none => none
        | some d => (double? (rest.drop n)).map fun p => (d :: p.1, p.2)
      | none =>
        match shortEscape? c with
        | none => none
        | some d => (double? rest).map fun p => (d :: p.1, p.2)
  | c :: rest => if isBreak c then none else (double? rest).map fun p => (c :: p.1, p.2)
termination_by cs => cs.length
decreasing_by
  all_goals simp only [List.length_cons, List.length_drop]
  · have := length_skipSpaces_le rest; omega
  · have := length_skipSpaces_le rest; omega
  · omega
  · omega
  · omega

/-! ### Plain scalars -/

/-- A character that separates or encloses in flow style. -/
def isFlowMark (c : Char) : Bool := [',', '[', ']', '\x7b', '\x7d'].contains c

/-- Whether a plain scalar ends here: before a gap, before a colon with a gap after it, and in
flow style before a mark. -/
def endsPlain (inFlow : Bool) : List Char → Bool
  | [] => true
  | c :: rest =>
    Text.isSpace c || isBreak c || (c = ':' && atGap rest) || (inFlow && isFlowMark c)

/-- The word at the start of a text, and what comes after it. -/
def plainWord (inFlow : Bool) : List Char → List Char × List Char
  | [] => ([], [])
  | c :: rest =>
    if endsPlain inFlow (c :: rest) then ([], c :: rest)
    else (c :: (plainWord inFlow rest).1, (plainWord inFlow rest).2)

/-- What comes after the blanks and line breaks at the start of a text. -/
structure Gap where
  /-- Whether there is a line break. -/
  isBroken : Bool
  /-- The column after the last line break. -/
  column : Nat
  rest : List Char

/-- The gap after a word of a plain scalar. None if a tab stands left of the indentation. -/
def plainGap? (indent : Nat) (isBroken : Bool) (column : Nat) : List Char → Option Gap
  | [] => some ⟨isBroken, column, []⟩
  | c :: rest =>
    if isBreak c then plainGap? indent true 0 rest
    else if Text.isSpace c then
      if isBroken && column < indent && c = '\t' then none
      else plainGap? indent isBroken (column + 1) rest
    else some ⟨isBroken, column, c :: rest⟩

def Gap.continues (inFlow : Bool) (indent : Nat) (g : Gap) : Bool :=
  !endsPlain inFlow g.rest && g.rest.head? ≠ some '#' &&
    (inFlow || !g.isBroken || indent ≤ g.column)

def plain? (inFlow : Bool) (indent : Nat) (cs : List Char) : Option (List Char × Gap) :=
  let word := plainWord inFlow cs
  match plainGap? indent false 0 word.2 with
  | none => none
  | some g => if word.2 ≠ g.rest && g.continues inFlow indent then none else some (word.1, g)

/-! ### Block scalars -/

/-- What becomes of the line breaks at the end of a block scalar. -/
inductive Chomping
  | strip
  | clip
  | keep
deriving DecidableEq

/-- What the first line of a block scalar says. -/
structure BlockHeader where
  chomping : Chomping
  /-- The indentation relative to the parent, if it is given. -/
  increment : Option Nat

/-- The indentation that a text gives at its start, and what comes after it. -/
def takeIncrement : List Char → Option Nat × List Char
  | [] => (none, [])
  | c :: rest => if c.isDigit then (some (c.toNat - '0'.toNat), rest) else (none, c :: rest)

/-- The chomping that a text gives at its start, and what comes after it. -/
def takeChomping : List Char → Chomping × List Char
  | '+' :: rest => (.keep, rest)
  | '-' :: rest => (.strip, rest)
  | rest => (.clip, rest)

/-- The header after the mark of a block scalar, and what comes after it. Chomping and
indentation come in any order. -/
def blockHeader (cs : List Char) : BlockHeader × List Char :=
  match takeIncrement cs with
  | (some n, rest) =>
    let (chomping, rest) := takeChomping rest
    (⟨chomping, some n⟩, rest)
  | (none, rest) =>
    let (chomping, rest) := takeChomping rest
    if chomping = .clip then (⟨.clip, none⟩, rest)
    else
      let (increment, rest) := takeIncrement rest
      (⟨chomping, increment⟩, rest)

/-- The empty lines at the start of a text, and the place after them. -/
structure EmptyLines where
  breaks : List Char
  /-- The spaces before the place, as far as they are indentation. -/
  column : Nat
  /-- The most spaces at the start of one of the lines and before the place. -/
  widest : Nat
  rest : List Char

/-- The empty lines where spaces count as indentation up to the given one, or all of them if
none is given. None if a tab stands there instead. -/
def emptyLines? (indent : Option Nat) (column widest : Nat) : List Char → Option EmptyLines
  | [] => some ⟨[], column, max widest column, []⟩
  | '\r' :: '\n' :: rest =>
    (emptyLines? indent 0 (max widest column) rest).map fun e =>
      { e with breaks := '\n' :: e.breaks }
  | c :: rest =>
    let isIndentation := match indent with
      | some n => decide (column < n)
      | none => true
    if c = ' ' && isIndentation then emptyLines? indent (column + 1) widest rest
    else if c = '\t' && isIndentation then none
    else if isBreak c then
      (emptyLines? indent 0 (max widest column) rest).map fun e =>
        { e with breaks := (takeBreak (c :: rest)).1 ++ e.breaks }
    else some ⟨[], column, max widest column, c :: rest⟩

/-- A line of a block scalar, its line break, and the breaks of the empty lines after it. -/
structure BlockLine where
  text : List Char
  lineBreak : List Char
  breaks : List Char

/-- The lines at an indentation, and what comes after them. Each line takes a character, so
the fuel is enough if it exceeds the length of the text. -/
def blockLines? (indent : Nat) : Nat → Nat → List Char → Option (List BlockLine × List Char)
  | 0, _, rest => some ([], rest)
  | fuel + 1, column, rest =>
    if column = indent && !rest.isEmpty then
      let ended := takeBreak (rest.dropWhile (!isBreak ·))
      match emptyLines? (some indent) 0 0 ended.2 with
      | none => none
      | some e =>
        (blockLines? indent fuel e.column e.rest).map fun p =>
          (⟨rest.takeWhile (!isBreak ·), ended.1, e.breaks⟩ :: p.1, p.2)
    else some ([], rest)

def BlockLine.isIndented (l : BlockLine) : Bool := l.text.head?.any Text.isSpace

/-- What stands between two lines. Folding makes a space of a single line break between lines
that do not start with blanks. -/
def BlockLine.joint (style : Style) (l next : BlockLine) : List Char :=
  if style = .folded && l.lineBreak = ['\n'] && !l.isIndented && !next.isIndented then
    if l.breaks.isEmpty then [' '] else l.breaks
  else l.lineBreak ++ l.breaks

def blockText (style : Style) (chomping : Chomping) : List BlockLine → List Char
  | [] => []
  | [l] =>
    match chomping with
    | .strip => l.text
    | .clip => l.text ++ l.lineBreak
    | .keep => l.text ++ l.lineBreak ++ l.breaks
  | l :: next :: rest => l.text ++ l.joint style next ++ blockText style chomping (next :: rest)

/-- The block scalar after its mark, and what comes after it. Unless it is given, the
indentation is that of the widest of the first lines, and deeper than that of the parent. -/
def block? (style : Style) (parent : Option Nat) (cs : List Char) :
    Option (List Char × List Char) := do
  let (header, rest) := blockHeader cs
  if header.increment = some 0 then none
  let rest ← afterLine? rest
  let given := header.increment.map (· + parent.getD 0)
  let first ← emptyLines? given 0 0 rest
  let least := match parent with
    | some n => n + 1
    | none => 1
  let indent := given.getD (max first.widest least)
  let (lines, rest) ← blockLines? indent (first.rest.length + 1) first.column first.rest
  if lines.isEmpty then
    return (if header.chomping = .keep then first.breaks else [], rest)
  else
    return (first.breaks ++ blockText style header.chomping lines, rest)

end LateBinding.Yaml
