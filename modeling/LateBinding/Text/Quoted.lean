import LateBinding.Text.Printable

/-!
# Quoted texts

Two ways to write a text between double quotes. The inspected form, for messages and
listings, shows what a reader cannot see as `\u{…}` with the code point in hexadecimal. The
JSON form escapes what JSON requires and nothing more. Both write the quote and the
backslash with a backslash before them.
-/

namespace LateBinding.Text

/-- A natural number in hexadecimal with small letters. -/
def hex (n : Nat) : List Char := Nat.toDigits 16 n

def inspectChar (c : Char) : List Char :=
  if c = '\x00' then ['\\', '0']
  else if c = '\t' then ['\\', 't']
  else if c = '\r' then ['\\', 'r']
  else if c = '\n' then ['\\', 'n']
  else if c = '"' then ['\\', '"']
  else if c = '\\' then ['\\', '\\']
  else if isJoining c || !isVisible c then '\\' :: 'u' :: '\x7b' :: hex c.toNat ++ ['\x7d']
  else [c]

/-- A text between quotes with everything invisible spelled out. -/
def inspect (s : String) : String :=
  String.ofList ('"' :: s.toList.flatMap inspectChar ++ ['"'])

/-- One character of a JSON text: controls by their short name or as four digits. -/
def jsonChar (c : Char) : List Char :=
  if c = '"' then ['\\', '"']
  else if c = '\\' then ['\\', '\\']
  else if c = '\n' then ['\\', 'n']
  else if c = '\r' then ['\\', 'r']
  else if c = '\t' then ['\\', 't']
  else if c = '\x08' then ['\\', 'b']
  else if c = '\x0c' then ['\\', 'f']
  else if c.toNat < 0x20 then
    '\\' :: 'u' :: '0' :: '0' :: (if c.toNat < 0x10 then '0' :: hex c.toNat else hex c.toNat)
  else [c]

def json (s : String) : String :=
  String.ofList ('"' :: s.toList.flatMap jsonChar ++ ['"'])

end LateBinding.Text
