import LateBinding.Session.State

/-!
# Driving a call site

Many calls through one site, of which only what is new is answered: the calls after which the
site was in another phase than before, and the results that differ from the one before for
the same call.
-/

namespace LateBinding.Session

/-! ### Results that look the same -/

mutual

/-- Two values are the same datum: floats by their bits, all that are no number alike. -/
def identical : Value → Value → Bool
  | .nil, .nil => true
  | .bool a, .bool b => a == b
  | .int a, .int b => a == b
  | .float a, .float b => (a.isNaN && b.isNaN) || a.toBits == b.toBits
  | .str a, .str b => a == b
  | .list as, .list bs => identicalLists as bs
  | .object a, .object b => a == b
  | _, _ => false

def identicalLists : List Value → List Value → Bool
  | [], [] => true
  | a :: as, b :: bs => identical a b && identicalLists as bs
  | _, _ => false

end

/-- Two failures read the same. The text of a dispatch error tells which one it is, so it is
enough that both or neither are dispatch errors. -/
def sameFailure (f g : Failure) : Bool :=
  f.texts = g.texts && f.isDispatchError == g.isDispatchError

/-- Two results are the same value or read like the same failure. -/
def sameResult : Except Failure Value → Except Failure Value → Bool
  | .ok a, .ok b => identical a b
  | .error f, .error g => sameFailure f g
  | _, _ => false

/-! ### What a drive has told so far -/

/-- What a drive has told so far, newest first. -/
structure Trace where
  phase : Phase
  /-- The last result of each call, by its position in the list of calls. -/
  last : Table Nat (Except Failure Value)
  phases : List (Nat × Phase)
  results : List (Nat × Except Failure Value)

namespace Trace

/-- A drive of a site in some phase before its first call. -/
def start (phase : Phase) : Trace := ⟨phase, .empty, [], []⟩

def notePhase (t : Trace) (number : Nat) (phase : Phase) : Trace :=
  if phase = t.phase then t else { t with phase, phases := (number, phase) :: t.phases }

/-- Note the result of a call, if it differs from the last one of the same call. -/
def noteResult (t : Trace) (number call : Nat) (r : Except Failure Value) : Trace :=
  match t.last.get? call with
  | some before =>
    if sameResult before r then t
    else { t with last := t.last.insert call r, results := (number, r) :: t.results }
  | none => { t with last := t.last.insert call r, results := (number, r) :: t.results }

end Trace

/-! ### The drive -/

/-- A drive under way. -/
structure Drive where
  key : SiteKey
  /-- The calls to be made: receivers and arguments. -/
  calls : Array (Value × List Value)
  /-- Positions of calls, gone through round and round. -/
  order : Array Nat
  /-- How many calls were made. -/
  number : Nat
  /-- How many calls are left. -/
  left : Nat
  trace : Trace

namespace Drive

/-- The next call: its position, its receiver and its arguments; nothing if the drive is
over. -/
def next? (d : Drive) : Option (Nat × Value × List Value) :=
  if d.left = 0 then none
  else
    match d.order[d.number % d.order.size]? with
    | none => none
    | some position => (d.calls[position]?).map (position, ·)

def advance (d : Drive) : Drive := { d with number := d.number + 1, left := d.left - 1 }

/-- Note what came of the last call: the phase of the site and the result. -/
def note (d : Drive) (position : Nat) (phase : Phase) (r : Except Failure Value) : Drive :=
  { d with trace := (d.trace.notePhase d.number phase).noteResult d.number position r }

/-- What the drive has told, when the site is in some condition. -/
def answer (d : Drive) (site : Site Body) : Answer :=
  .driven d.trace.phases.reverse d.trace.results.reverse (.ofSite site)

end Drive

end LateBinding.Session
