import LateBinding.Yaml.Scalar

/-!
# The tokens of a YAML text

What the settings' mapping can be made of: document marks and directives, the marks of one
mapping in block or flow style, anchors, tags and scalars. Whatever shows that there is a
sequence or a mapping inside another one has no token, so such texts have no tokens at all.

A key without a question mark is known for one only when its colon comes. The token list is
therefore kept in two parts, before and after the place where the next key may have started.
-/

namespace LateBinding.Yaml

/-- A token of a YAML text. -/
inductive Token
  /-- The version that a directive gives. -/
  | version (major minor : Nat)
  /-- The prefix that a directive gives to a tag handle. -/
  | tagHandle (handle start : List Char)
  | documentStart
  | documentEnd
  | blockStart
  | blockEnd
  | flowStart
  | flowEnd
  /-- A comma. -/
  | separator
  | key
  | value
  | anchor (name : List Char)
  /-- A use of an anchor. -/
  | reference (name : List Char)
  /-- A tag; without a handle it is complete. -/
  | tag (handle suffix : List Char)
  | scalar (style : Style) (text : List Char)
deriving DecidableEq

/-! ### Directives, anchors and tags -/

/-- A document mark of three characters at the start of a text. -/
def startsWithMark (c : Char) : List Char → Bool
  | a :: b :: d :: rest => a = c && b = c && d = c && atGap rest
  | _ => false

def anchorName? (cs : List Char) : Option (List Char × List Char) :=
  let rest := cs.dropWhile Text.isWord
  let isEnded := match rest with
    | [] => true
    | c :: _ => atGap rest || ['?', ':', ',', ']', '\x7d', '%', '@', '\x60'].contains c
  let name := cs.takeWhile Text.isWord
  if name.isEmpty || !isEnded then none else some (name, rest)

/-- Whether a character may stand in a tag as it is. Inside angle brackets and in a directive
these are some more. -/
def isTagChar (isWide : Bool) (c : Char) : Bool :=
  Text.isWord c || [';', '/', '?', ':', '@', '&', '=', '+', '$', '.', '!', '~', '*', '\'', '(',
    ')'].contains c || (isWide && [',', '[', ']'].contains c)

/-- How many octets follow the first octet of an encoded character. -/
def octetsAfter? (octet : Nat) : Option Nat :=
  if octet < 0x80 then some 0
  else if 0xC0 ≤ octet && octet < 0xE0 then some 1
  else if 0xE0 ≤ octet && octet < 0xF0 then some 2
  else if 0xF0 ≤ octet && octet < 0xF8 then some 3
  else none

/-- The text of a tag, and what comes after it. Octets that a percent sign names are written
as characters; `missing` of them are still to come. -/
def tagText? (isWide : Bool) (missing : Nat) : List Char → Option (List Char × List Char)
  | [] => if missing = 0 then some ([], []) else none
  | '%' :: a :: b :: rest =>
    match Numeral.natural? 16 [a, b] with
    | none => none
    | some octet =>
      let more :=
        if missing = 0 then octetsAfter? octet
        else if 0x80 ≤ octet && octet < 0xC0 then some (missing - 1)
        else none
      match more with
      | none => none
      | some n => (tagText? isWide n rest).map fun p => (Char.ofNat octet :: p.1, p.2)
  | c :: rest =>
    if c = '%' || missing ≠ 0 then none
    else if isTagChar isWide c then (tagText? isWide 0 rest).map fun p => (c :: p.1, p.2)
    else some ([], c :: rest)

/-- The text of a tag of one character or more, and what comes after it. -/
def someTagText? (isWide : Bool) (cs : List Char) : Option (List Char × List Char) :=
  (tagText? isWide 0 cs).filter fun p => cs.length ≠ p.2.length

/-- A NUL ends a tag. -/
def untilNul (cs : List Char) : List Char := cs.takeWhile (· ≠ '\x00')

/-- The tag without its exclamation mark, and what comes after it. -/
def tag? : List Char → Option (Token × List Char)
  | '<' :: rest =>
    match someTagText? true rest with
    | some (text, '>' :: rest) => some (.tag [] (untilNul text), rest)
    | _ => none
  | cs =>
    let word := cs.takeWhile Text.isWord
    match cs.dropWhile Text.isWord with
    | '!' :: rest =>
      (someTagText? false rest).map fun p => (.tag ('!' :: word ++ ['!']) (untilNul p.1), p.2)
    | rest =>
      (tagText? false 0 rest).map fun p =>
        let suffix := untilNul (word ++ p.1)
        (if suffix.isEmpty then .tag [] ['!'] else .tag ['!'] suffix, p.2)

def versionNumber? (cs : List Char) : Option (Nat × List Char) :=
  let digits := cs.takeWhile Char.isDigit
  if digits.length ≤ 9 then (Numeral.natural? 10 digits).map (·, cs.dropWhile Char.isDigit)
  else none

def version? (cs : List Char) : Option (Token × List Char) :=
  match versionNumber? (Text.skipSpaces cs) with
  | some (major, '.' :: rest) => (versionNumber? rest).map fun p => (.version major p.1, p.2)
  | _ => none

/-- The handle of a tag and the text that it stands for, and what comes after them. -/
def tagHandle? (cs : List Char) : Option (Token × List Char) :=
  match Text.skipSpaces cs with
  | '!' :: rest =>
    let word := rest.takeWhile Text.isWord
    let named? : Option (List Char × List Char) := match rest.dropWhile Text.isWord with
      | '!' :: rest => some ('!' :: word ++ ['!'], rest)
      | rest => if word.isEmpty then some (['!'], rest) else none
    match named? with
    | none => none
    | some (handle, rest) =>
      if !rest.head?.any Text.isSpace then none
      else
        match someTagText? true (Text.skipSpaces rest) with
        | none => none
        | some (text, rest) =>
          if atGap rest then some (.tagHandle handle (untilNul text), rest) else none
  | _ => none

/-- A directive without its percent sign, and the lines after it. -/
def directive? (cs : List Char) : Option (Token × List Char) :=
  let rest := cs.dropWhile Text.isWord
  if !atGap rest then none
  else
    let read? : Option (Token × List Char) :=
      if cs.takeWhile Text.isWord = ['Y', 'A', 'M', 'L'] then version? rest
      else if cs.takeWhile Text.isWord = ['T', 'A', 'G'] then tagHandle? rest
      else none
    match read? with
    | none => none
    | some (t, rest) => (afterLine? rest).map (t, ·)

/-! ### The lexer -/

/-- A place where a key may have started. -/
structure Candidate where
  index : Nat
  column : Nat
  /-- Whether nothing else but a key may start there. -/
  isRequired : Bool
  /-- The tokens from there on, newest first. -/
  tokens : List Token

/-- A text that has been read up to some place. -/
structure Lexer where
  place : Place
  isInFlow : Bool
  /-- The column of the mapping in block style, once there is one. -/
  indent : Option Nat
  /-- Whether a key may start here. -/
  isKeyAllowed : Bool
  candidate : Option Candidate
  /-- The tokens before the candidate, newest first. -/
  tokens : List Token

namespace Lexer

def start (cs : List Char) : Lexer := ⟨.start cs, false, none, true, none, []⟩

def emit (l : Lexer) (t : Token) : Lexer :=
  match l.candidate with
  | some k => { l with candidate := some { k with tokens := t :: k.tokens } }
  | none => { l with tokens := t :: l.tokens }

/-- Go on at a later place. -/
def goTo (l : Lexer) (rest : List Char) : Lexer := { l with place := l.place.moveTo rest }

/-- Give up the candidate; none if it had to be a key. -/
def settle (l : Lexer) : Option Lexer :=
  match l.candidate with
  | none => some l
  | some k =>
    if k.isRequired then none
    else some { l with candidate := none, tokens := k.tokens ++ l.tokens }

/-- Give up a candidate in an earlier line or more than 1024 characters before. -/
def settleFar (l : Lexer) : Option Lexer :=
  match l.candidate with
  | none => some l
  | some k =>
    if l.place.isBelow k.index || k.index + 1024 < l.place.index then l.settle else some l

/-- Take this place for a candidate, if a key may start here. In block style there has to be
one in the column of the mapping. -/
def propose (l : Lexer) : Option Lexer :=
  if l.isKeyAllowed then
    l.settle.map fun l =>
      let column := l.place.column
      let isRequired := !l.isInFlow && l.indent = some column
      { l with candidate := some ⟨l.place.index, column, isRequired, []⟩ }
  else some l

/-- Start a mapping in block style at a column, unless it has started there. None if the
column is inside the mapping. -/
def openBlock (l : Lexer) (column : Nat) : Option Lexer :=
  if l.isInFlow then some l
  else
    match l.indent with
    | none => some { l with indent := some column, tokens := .blockStart :: l.tokens }
    | some n => if n < column then none else some l

/-- End the mapping in block style, if there is one whose column satisfies `p`. -/
def closeBlock (l : Lexer) (p : Nat → Bool) : Lexer :=
  if !l.isInFlow && l.indent.any p then { l.emit .blockEnd with indent := none } else l

/-! ### Between tokens -/

/-- What the lexer is in the middle of between tokens. -/
inductive GapPart
  | lineStart
  | blank
  | comment

/-- What comes after blanks, comments and line breaks, and whether a key may start there. In
block style it may at the start of a line, and tabs are blanks only where it may not. -/
def skip (isInFlow isKeyAllowed : Bool) : GapPart → List Char → Bool × List Char
  | _, [] => (isKeyAllowed, [])
  | part, c :: rest =>
    if isBreak c then skip isInFlow (isKeyAllowed || !isInFlow) .lineStart rest
    else
      match part with
      | .comment => skip isInFlow isKeyAllowed .comment rest
      | part =>
        let isMark := match part with
          | .lineStart => c = '\uFEFF'
          | _ => false
        if isMark || c = ' ' || (c = '\t' && (isInFlow || !isKeyAllowed)) then
          skip isInFlow isKeyAllowed .blank rest
        else if c = '#' then skip isInFlow isKeyAllowed .comment rest
        else (isKeyAllowed, c :: rest)

def advance (l : Lexer) : Lexer :=
  let part := if l.place.column = 0 then GapPart.lineStart else .blank
  let (isKeyAllowed, rest) := skip l.isInFlow l.isKeyAllowed part l.place.rest
  { l with place := l.place.moveTo rest, isKeyAllowed }

/-! ### One token -/

/-- Read a directive, whose percent sign has been seen. -/
def directive (l : Lexer) (cs : List Char) : Option Lexer :=
  if l.isInFlow then none
  else
    match (l.closeBlock fun _ => true).settle, directive? cs with
    | some l, some (t, rest) => some ({ l with isKeyAllowed := false }.emit t |>.goTo rest)
    | _, _ => none

def documentMark (l : Lexer) (t : Token) : Option Lexer :=
  if l.isInFlow then none
  else
    (l.closeBlock fun _ => true).settle.map fun l =>
      { l with isKeyAllowed := false }.emit t |>.goTo (l.place.rest.drop 3)

def openFlow (l : Lexer) (rest : List Char) : Option Lexer :=
  if l.isInFlow || l.indent.isSome then none
  else
    l.settle.map fun l =>
      { l with isInFlow := true, isKeyAllowed := true }.emit .flowStart |>.goTo rest

def closeFlow (l : Lexer) (rest : List Char) : Option Lexer :=
  if l.isInFlow then
    l.settle.map fun l =>
      { l with isInFlow := false, isKeyAllowed := false }.emit .flowEnd |>.goTo rest
  else none

def separator (l : Lexer) (rest : List Char) : Option Lexer :=
  if l.isInFlow then
    l.settle.map fun l => { l with isKeyAllowed := true }.emit .separator |>.goTo rest
  else none

def key (l : Lexer) (rest : List Char) : Option Lexer :=
  if l.isInFlow || l.isKeyAllowed then do
    let l ← l.openBlock l.place.column
    let l ← l.settle
    return { l with isKeyAllowed := !l.isInFlow }.emit .key |>.goTo rest
  else none

/-- Read the colon before a value. If there is a candidate for its key, that is the key. -/
def value (l : Lexer) (rest : List Char) : Option Lexer :=
  match l.candidate with
  | some k =>
    (l.openBlock k.column).map fun l =>
      { l with
        candidate := none, isKeyAllowed := false
        tokens := Token.value :: (k.tokens ++ Token.key :: l.tokens) }.goTo rest
  | none =>
    if l.isInFlow || l.isKeyAllowed then
      (l.openBlock l.place.column).map fun l =>
        { l with isKeyAllowed := !l.isInFlow }.emit .value |>.goTo rest
    else none

/-- Read something that a key may start with, given as its token and what comes after it. -/
def part (l : Lexer) (read? : Option (Token × List Char)) : Option Lexer :=
  match l.propose, read? with
  | some l, some (t, rest) => some ({ l with isKeyAllowed := false }.emit t |>.goTo rest)
  | _, _ => none

/-- Read a tag, after which there is a gap, or a comma in flow style. -/
def tag (l : Lexer) (cs : List Char) : Option Lexer :=
  l.part ((tag? cs).filter fun p => (l.isInFlow && p.2.head? = some ',') || atGap p.2)

/-- Read a plain scalar. A key may start after it if its gap has a line break. -/
def plain (l : Lexer) : Option Lexer :=
  let least := match l.indent with
    | some n => n + 1
    | none => 0
  match plain? l.isInFlow least l.place.rest with
  | none => none
  | some (text, g) =>
    (l.part (some (.scalar .plain text, g.rest))).map fun l =>
      { l with isKeyAllowed := l.isKeyAllowed || g.isBroken }

def blockScalar (l : Lexer) (style : Style) (cs : List Char) : Option Lexer :=
  if l.isInFlow then none
  else
    match l.settle, block? style l.indent cs with
    | some l, some (text, rest) =>
      some ({ l with isKeyAllowed := true }.emit (.scalar style text) |>.goTo rest)
    | _, _ => none

/-- Read the token that starts with the given character at the given column. -/
def token (l : Lexer) (column : Nat) (c : Char) (rest : List Char) : Option Lexer :=
  if column = 0 && c = '%' then l.directive rest
  else if column = 0 && startsWithMark '-' (c :: rest) then l.documentMark .documentStart
  else if column = 0 && startsWithMark '.' (c :: rest) then l.documentMark .documentEnd
  else
    match c with
    | '\x7b' => l.openFlow rest
    | '\x7d' => l.closeFlow rest
    | ',' => l.separator rest
    | '?' => if l.isInFlow || atGap rest then l.key rest else l.plain
    | ':' => if l.isInFlow || atGap rest then l.value rest else l.plain
    | '-' => if atGap rest then none else l.plain
    | '*' => l.part ((anchorName? rest).map fun p => (.reference p.1, p.2))
    | '&' => l.part ((anchorName? rest).map fun p => (.anchor p.1, p.2))
    | '!' => l.tag rest
    | '|' => l.blockScalar .literal rest
    | '>' => l.blockScalar .folded rest
    | '\'' => l.part ((single? rest).map fun p => (.scalar .singleQuoted p.1, p.2))
    | '"' => l.part ((double? rest).map fun p => (.scalar .doubleQuoted p.1, p.2))
    | c => if c = '\t' || ['[', ']', '%', '@', '\x60'].contains c then none else l.plain

/-- Read the remaining tokens. Each takes a character, so the fuel is enough if it exceeds the
length of the text. -/
def run : Nat → Lexer → Option (List Token)
  | 0, _ => none
  | fuel + 1, l =>
    match l.advance.settleFar with
    | none => none
    | some l =>
      let column := l.place.column
      let l := l.closeBlock (column < ·)
      match l.place.rest with
      | [] =>
        if l.isInFlow then none
        else (l.closeBlock fun _ => true).settle.map (·.tokens.reverse)
      | c :: rest => (l.token column c rest).bind (run fuel)

end Lexer

def tokens? (cs : List Char) : Option (List Token) :=
  if cs.all isAllowed then Lexer.run (cs.length + 1) (.start cs) else none

end LateBinding.Yaml
