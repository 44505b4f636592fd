import LateBinding.Text.Blank
import LateBinding.Text.Lines

/-!
# Paths

A path is a text of parts between slashes. Empty parts, and parts that are a single dot, say
nothing. The extension of a path is that of its last part.
-/

namespace LateBinding.Path

def parts (path : String) : List String :=
  ((Text.splitOn (· = '/') path.toList).map String.ofList).filter fun p => p ≠ "" && p ≠ "."

def leadsUp (path : String) : Bool := (parts path).contains ".."

def name? (path : String) : Option String := (parts path).getLast?.filter (· ≠ "..")

/-- The text after the last dot, if there is a dot after the first character. -/
def afterLastDot (cs : List Char) : Option (List Char) :=
  match Text.splitOn (· = '.') (cs.drop 1) with
  | [] | [_] => none
  | pieces => pieces.getLast?

/-- The extension of a path in small letters; empty if there is none. -/
def extension (path : String) : String :=
  match (name? path).bind fun n => afterLastDot n.toList with
  | some cs => Text.lowerAscii (String.ofList cs)
  | none => ""

end LateBinding.Path
