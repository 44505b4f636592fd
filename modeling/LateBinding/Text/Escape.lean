import LateBinding.Numeral

/-!
# Characters by number

Quoted texts where a backslash and a letter announce a number of hexadecimal digits, which
name a character by its code point.
-/

namespace LateBinding.Text

/-- How many hexadecimal digits follow a backslash and a character. -/
def escapeDigits? : Char → Option Nat
  | 'x' => some 2
  | 'u' => some 4
  | 'U' => some 8
  | _ => none

/-- The character that the given number of hexadecimal digits at the start of a text names. -/
def codePoint? (digits : Nat) (cs : List Char) : Option Char :=
  if cs.length < digits then none
  else
    match Numeral.natural? 16 (cs.take digits) with
    | none => none
    | some n => if n.isValidChar then some (Char.ofNat n) else none

end LateBinding.Text
