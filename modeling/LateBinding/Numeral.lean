import LateBinding.Error
import LateBinding.Word

/-!
# Numerals

Reading natural numbers in some radix, and 64-bit words in decimal with the reason why a
text is none.
-/

namespace LateBinding.Numeral

/-- The value of a digit, letters standing for ten and above. -/
def digit? (radix : Nat) (c : Char) : Option Nat :=
  let value? : Option Nat :=
    if '0' ≤ c ∧ c ≤ '9' then some (c.toNat - '0'.toNat)
    else if 'a' ≤ c ∧ c ≤ 'z' then some (c.toNat - 'a'.toNat + 10)
    else if 'A' ≤ c ∧ c ≤ 'Z' then some (c.toNat - 'A'.toNat + 10)
    else none
  value?.filter (· < radix)

def extend? (radix n : Nat) : List Char → Option Nat
  | [] => some n
  | c :: rest =>
    match digit? radix c with
    | none => none
    | some d => extend? radix (radix * n + d) rest

/-- The number that a text of one digit or more writes. -/
def natural? (radix : Nat) : List Char → Option Nat
  | [] => none
  | cs => extend? radix 0 cs

/-- Continue a word by decimal digits; the first fault from the left counts. -/
def extendWord (n : Nat) : List Char → Except NumberFault Nat
  | [] => .ok n
  | c :: rest =>
    match digit? 10 c with
    | none => .error .invalidDigit
    | some d =>
      if 10 * n + d < Word.size then extendWord (10 * n + d) rest else .error .tooLarge

/-- The word that a text writes: digits after an optional plus sign. -/
def word : List Char → Except NumberFault Nat
  | [] => .error .empty
  | ['+'] => .error .invalidDigit
  | '+' :: rest => extendWord 0 rest
  | cs => extendWord 0 cs

end LateBinding.Numeral
