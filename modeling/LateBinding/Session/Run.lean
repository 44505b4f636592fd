import LateBinding.Session.Machine

/-!
# Running a session

The commands of a session run one after another on one engine, and each is replied to. The
answers of the commands that ran inside bodies go with the reply to the command that called
them.
-/

namespace LateBinding.Session

/-- Run the commands of a session and collect the replies. -/
def State.runAll (s : State) : List Command → List Reply × State
  | [] => ([], s)
  | c :: rest =>
    let (a, s) := c.run s
    let (reply, s) := s.reply a
    let (replies, s) := runAll s rest
    (reply :: replies, s)

/-- Run a session from its start: an engine is created for some settings, then the commands
run. -/
def run (settings : Settings) (commands : List Command) : Except DispatchError (List Reply) :=
  match Engine.create settings with
  | .error e => .error e
  | .ok engine => .ok ((State.start engine).runAll commands).1

end LateBinding.Session
