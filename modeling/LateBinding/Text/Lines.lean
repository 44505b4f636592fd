/-!
# Lines

A text as the list of its lines, and the parts of a line before and after a character.
-/

namespace LateBinding.Text

/-- The parts of a text between the characters that satisfy `p`; one more than there are such
characters. -/
def splitOn (p : Char → Bool) : List Char → List (List Char)
  | [] => [[]]
  | c :: rest =>
    if p c then [] :: splitOn p rest
    else
      match splitOn p rest with
      | [] => [[c]]
      | part :: parts => (c :: part) :: parts

/-- The lines of a text. A line ends with a line feed, before which a carriage return counts
as part of the end. -/
def lines (cs : List Char) : List (List Char) :=
  let parts := splitOn (· = '\n') cs
  let ended := parts.dropLast.map fun l => if l.getLast? = some '\r' then l.dropLast else l
  ended ++ parts.getLast?.toList

/-- A text without the mark of byte order that may stand at its start. -/
def dropMark : List Char → List Char
  | '\uFEFF' :: rest => rest
  | cs => cs

/-- Spaces and tabs, which separate within a line. -/
def isSpace (c : Char) : Bool := c = ' ' || c = '\t'

/-- An ASCII letter, a digit, an underscore or a hyphen. -/
def isWord (c : Char) : Bool := c.isAlphanum || c = '_' || c = '-'

def skipSpaces (cs : List Char) : List Char := cs.dropWhile isSpace

/-- The part before the first quote and the part after it, if there is a quote. -/
def untilQuote (quote : Char) : List Char → Option (List Char × List Char)
  | [] => none
  | c :: rest =>
    if c = quote then some ([], rest)
    else (untilQuote quote rest).map fun p => (c :: p.1, p.2)

end LateBinding.Text
