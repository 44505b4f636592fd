import LateBinding.Text.Blank

/-!
# Switching traces on

An environment variable switches traces on. It holds a word for on or off, or a filter that
says what is to be traced.
-/

namespace LateBinding.CommandLine

/-- Whether a text switches traces on: it is neither blank nor a word for off. -/
def traceEnabled (raw : String) : Bool :=
  !(["", "0", "false", "off"].contains (Text.lowerAscii (Text.trim raw)))

/-- The filter that a text gives, if it is neither blank nor a word for on. -/
def traceFilter? (raw : String) : Option String :=
  if ["", "1", "true", "on"].contains (Text.lowerAscii (Text.trim raw)) then none
  else some (Text.trim raw)

end LateBinding.CommandLine
