/-!
# Ways to access a member

A call site, and a resolution, either invokes a method, reads a property or writes one.
-/

namespace LateBinding

/-- What is done with a member. -/
inductive Access
  | method
  | read
  | write
deriving DecidableEq, Inhabited

def Access.word : Access → String
  | .method => "method"
  | .read => "get"
  | .write => "set"

def Access.reportWord : Access → String
  | .method => "method"
  | .read => "get_property"
  | .write => "set_property"

def Access.inspect : Access → String
  | .method => "Method"
  | .read => "GetProperty"
  | .write => "SetProperty"

end LateBinding
