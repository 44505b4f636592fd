import LateBinding.Numeral

/-!
# The tokens of a JSON text

A JSON text is a sequence of marks, quoted texts and words, with blanks between them. The
scanner goes through the text once; what it has met so far is its `Mode`. Escapes in quoted
texts name UTF-16 units, so a character beyond the basic plane takes two of them.
-/

namespace LateBinding.Json

/-- A token of a JSON text. -/
inductive Token
  /-- A bracket, brace, comma or colon. -/
  | mark (c : Char)
  /-- A quoted text. -/
  | text (s : String)
  /-- Anything else that stands together: a number, a truth value, null. -/
  | word (cs : List Char)
deriving DecidableEq

/-- A piece of a quoted text. -/
inductive Piece
  | char (c : Char)
  /-- A UTF-16 unit that was written as an escape. -/
  | unit (n : Nat)

/-- The first of the two units of a character beyond the basic plane. -/
def isHighUnit (n : Nat) : Bool := 0xD800 ≤ n && n < 0xDC00

/-- The second of the two units of a character beyond the basic plane. -/
def isLowUnit (n : Nat) : Bool := 0xDC00 ≤ n && n < 0xE000

/-- The characters that the pieces of a text make up; none if a unit lacks its partner. -/
def joinPieces : List Piece → Option (List Char)
  | [] => some []
  | .char c :: rest => (joinPieces rest).map (c :: ·)
  | .unit high :: .unit low :: rest =>
    if isHighUnit high then
      if isLowUnit low then
        (joinPieces rest).map
          (Char.ofNat (0x10000 + (high - 0xD800) * 0x400 + (low - 0xDC00)) :: ·)
      else none
    else if isLowUnit high then none
    else (joinPieces (.unit low :: rest)).map (Char.ofNat high :: ·)
  | .unit n :: rest =>
    if isHighUnit n || isLowUnit n then none else (joinPieces rest).map (Char.ofNat n :: ·)

/-- What the scanner is in the middle of. Pieces and characters are kept newest first. -/
inductive Mode
  | between
  | word (cs : List Char)
  | quoted (ps : List Piece)
  | escape (ps : List Piece)
  | unit (ps : List Piece) (digits value : Nat)

/-- The tokens met so far, newest first, and what the scanner is in the middle of. -/
structure Scanner where
  tokens : List Token
  mode : Mode

namespace Scanner

def isGap (c : Char) : Bool := c = ' ' || c = '\n' || c = '\t' || c = '\r'

def isMark (c : Char) : Bool := ['[', ']', '\x7b', '\x7d', ',', ':'].contains c

def shortEscape? : Char → Option Char
  | '"' => some '"'
  | '\\' => some '\\'
  | '/' => some '/'
  | 'b' => some '\x08'
  | 'f' => some '\x0c'
  | 'n' => some '\n'
  | 'r' => some '\r'
  | 't' => some '\t'
  | _ => none

/-- The tokens with the one that ends here, if there is one. -/
def flush (s : Scanner) : List Token :=
  match s.mode with
  | .word cs => .word cs.reverse :: s.tokens
  | _ => s.tokens

def outside (s : Scanner) (c : Char) : Scanner :=
  if isGap c then ⟨s.flush, .between⟩
  else if c = '"' then ⟨s.flush, .quoted []⟩
  else if isMark c then ⟨.mark c :: s.flush, .between⟩
  else
    match s.mode with
    | .word cs => { s with mode := .word (c :: cs) }
    | _ => { s with mode := .word [c] }

def inside (s : Scanner) (ps : List Piece) (c : Char) : Option Scanner :=
  if c = '"' then
    (joinPieces ps.reverse).map fun cs => ⟨.text (String.ofList cs) :: s.tokens, .between⟩
  else if c = '\\' then some { s with mode := .escape ps }
  else if c.toNat < 0x20 then none
  else some { s with mode := .quoted (.char c :: ps) }

def unitDigit (s : Scanner) (ps : List Piece) (digits value : Nat) (c : Char) :
    Option Scanner :=
  (Numeral.digit? 16 c).map fun d =>
    if digits = 3 then { s with mode := .quoted (.unit (16 * value + d) :: ps) }
    else { s with mode := .unit ps (digits + 1) (16 * value + d) }

def step (s : Scanner) (c : Char) : Option Scanner :=
  match s.mode with
  | .between | .word _ => some (s.outside c)
  | .quoted ps => s.inside ps c
  | .escape ps =>
    if c = 'u' then some { s with mode := .unit ps 0 0 }
    else (shortEscape? c).map fun e => { s with mode := .quoted (.char e :: ps) }
  | .unit ps digits value => s.unitDigit ps digits value c

end Scanner

/-- The tokens of a text, unless a quoted text is malformed or not closed. -/
def tokens? (cs : List Char) : Option (List Token) :=
  match cs.foldlM Scanner.step ⟨[], .between⟩ with
  | none => none
  | some s =>
    match s.mode with
    | .between | .word _ => some s.flush.reverse
    | .quoted _ | .escape _ | .unit .. => none

end LateBinding.Json
