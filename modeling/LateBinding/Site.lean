import LateBinding.Policy
import LateBinding.Resolver

/-!
# Call sites

A call site stands for one place in a program that accesses one member. It has a fixed
number of slots, in which it keeps what the member resolved to for the shapes it met lately,
the most recent first, each entry with the guard under which it holds. A frozen site
dispatches through the entries that were valid when it froze and looks at nothing else; a
megamorphic one keeps nothing. `dispatch` decides what one call runs and does all bookkeeping
for it before anything runs.
-/

namespace LateBinding

/-- What a member resolved to for one shape. -/
structure Entry (β : Type) where
  shape : Shape
  target : Target β
  guard : Guard
  hits : Nat
  /-- The number of the call that used the entry last. -/
  lastUsed : Nat

namespace Entry

variable {β : Type}

/-- The entry holds under the present versions. -/
def isCurrent (r : Registry β) (e : Entry β) : Bool := e.guard.isCurrent r

/-- Count a hit by the call of a given number. -/
def hit (e : Entry β) (call : Nat) : Entry β := { e with hits := e.hits + 1, lastUsed := call }

/-- Count a hit by a call of a given number if the call has the shape of the entry. -/
def hitBy (shape : Shape) (call : Nat) (e : Entry β) : Entry β :=
  if e.shape = shape then e.hit call else e

end Entry

/-- A call site. -/
structure Site (β : Type) where
  id : Nat
  access : Access
  name : String
  phase : Phase
  /-- Room for entries, the most recently used first while the site is not frozen. -/
  slots : List (Option (Entry β))
  /-- The entries through which a frozen site dispatches. It shares them with the slots, so a
  hit on one of them counts in both places. -/
  frozen : Option (List (Entry β))
  calls : Nat
  hits : Nat
  misses : Nat
  /-- Resolutions that the site asked for. -/
  resolutions : Nat
  /-- Shapes met for the first time, or again after they were evicted. -/
  distinctShapes : Nat
  /-- Entries that were evicted. -/
  missPenalty : Nat
  /-- The number of the call that last met a new shape. -/
  lastNewShapeAt : Nat
  freezes : Nat
  thaws : Nat

namespace Site

variable {β : Type}

def label (id : Nat) : String := "site#" ++ toString id

/-! ### Slots -/

/-- Slots that are filled with entries from the front, as far as there is room. -/
def fill (room : Nat) (entries : List (Entry β)) : List (Option (Entry β)) :=
  (List.range room).map fun i => entries[i]?

/-- Whether a slot holds an entry for a shape. -/
def holds (shape : Shape) (slot : Option (Entry β)) : Bool :=
  match slot with
  | some e => e.shape = shape
  | none => false

/-- Change the first entry for a shape. -/
def updateEntry (shape : Shape) (f : Entry β → Entry β) :
    List (Option (Entry β)) → List (Option (Entry β))
  | [] => []
  | slot :: rest =>
    if holds shape slot then slot.map f :: rest else slot :: updateEntry shape f rest

/-- Move the first entry for a shape to the front; the slots before it move back by one. -/
def moveToFront (shape : Shape) (slots : List (Option (Entry β))) : List (Option (Entry β)) :=
  match slots.find? (holds shape) with
  | none => slots
  | some slot => slot :: slots.eraseP (holds shape)

def capacity (s : Site β) : Nat := s.slots.length

/-- The entries in the slots, in order. -/
def entries (s : Site β) : List (Entry β) := s.slots.filterMap fun slot => slot

/-- A site that was never called, with room for at least one entry. -/
def create (id : Nat) (access : Access) (name : String) (capacity : Nat) : Site β :=
  { id, access, name, phase := .cold, slots := fill (max capacity 1) [], frozen := none
    calls := 0, hits := 0, misses := 0, resolutions := 0, distinctShapes := 0, missPenalty := 0
    lastNewShapeAt := 0, freezes := 0, thaws := 0 }

/-- What the policy is told of the site. -/
def evidence (s : Site β) : Evidence :=
  { phase := s.phase, calls := s.calls, hits := s.hits, distinctShapes := s.distinctShapes
    lastNewShapeAt := s.lastNewShapeAt, capacity := s.capacity }

def entryFor? (s : Site β) (shape : Shape) : Option (Entry β) :=
  s.entries.find? (·.shape = shape)

/-- The entries through which the site dispatches now. -/
def live (s : Site β) : List (Entry β) :=
  match s.phase with
  | .frozen => s.frozen.getD []
  | _ => s.entries

/-! ### Hits -/

/-- The entry through which a frozen site serves a shape, if it is still valid. -/
def frozenFor? (s : Site β) (r : Registry β) (shape : Shape) : Option (Entry β) :=
  ((s.frozen.getD []).find? (·.shape = shape)).filter (·.isCurrent r)

/-- The entry through which a site with entries serves a shape, if it is still valid. -/
def currentFor? (s : Site β) (r : Registry β) (shape : Shape) : Option (Entry β) :=
  (s.entryFor? shape).filter (·.isCurrent r)

/-- Count a hit on the entry of a shape. -/
def recordHit (s : Site β) (shape : Shape) : Site β :=
  { s with
    slots := updateEntry shape (·.hit s.calls) s.slots
    frozen := s.frozen.map (List.map (Entry.hitBy shape s.calls))
    hits := s.hits + 1 }

/-! ### Changes of phase -/

/-- Dispatch through the valid entries only, if there are any. -/
def freeze (s : Site β) (r : Registry β) : Site β :=
  match s.entries.filter (·.isCurrent r) with
  | [] => s
  | valid =>
    { s with frozen := some valid, freezes := s.freezes + 1, phase := .frozen }

/-- Stop being frozen because a shape cannot be served. If the shape is one of those through
which the site dispatched, only its entry is kept, to be bound anew; otherwise all are. -/
def thaw (s : Site β) (shape : Shape) : Site β :=
  let bound := (s.frozen.getD []).any (·.shape = shape)
  { s with
    frozen := none
    thaws := s.thaws + 1
    lastNewShapeAt := s.calls
    slots := if bound then fill s.capacity (s.entryFor? shape).toList else s.slots
    phase := if bound then .monomorphic else .polymorphic }

/-- Give up caching. -/
def giveUp (s : Site β) : Site β :=
  { s with slots := fill s.capacity [], frozen := none, phase := .megamorphic }

/-- Do what the policy says. -/
def follow (s : Site β) (r : Registry β) (v : Verdict) : Site β :=
  match v with
  | .keep => s
  | .freeze => s.freeze r
  | .giveUp => s.giveUp

/-- Freeze after a hit, if the policy says so. -/
def considerFreezing (s : Site β) (p : Policy) (r : Registry β) : Site β :=
  if p.optimizeThreshold < s.calls && p.verdict s.evidence = .freeze then s.freeze r else s

/-- Forget all entries and start over. The totals of calls, resolutions, freezes and thaws
stay. -/
def reset (s : Site β) : Site β :=
  { s with
    slots := fill s.capacity [], frozen := none, hits := 0, misses := 0, distinctShapes := 0
    missPenalty := 0, lastNewShapeAt := s.calls, phase := .cold }

/-! ### Misses -/

/-- The position of the least recently used of some entries, the first of several. -/
def oldest : List (Entry β) → Nat
  | [] => 0
  | [_] => 0
  | e :: rest =>
    let i := oldest rest
    match rest[i]? with
    | some o => if e.lastUsed ≤ o.lastUsed then 0 else i + 1
    | none => 0

/-- The position of the entry that makes room: one that is not valid, else the oldest. -/
def victim (r : Registry β) (entries : List (Entry β)) : Nat :=
  match entries.findIdx? fun e => !e.isCurrent r with
  | some i => i
  | none => oldest entries

/-- Put a new entry in front; if the site is full, one of the others makes room. -/
def install (s : Site β) (r : Registry β) (e : Entry β) : Site β :=
  if s.capacity ≤ s.entries.length then
    { s with slots := fill s.capacity (e :: s.entries.eraseIdx (victim r s.entries))
             missPenalty := s.missPenalty + 1 }
  else { s with slots := fill s.capacity (e :: s.entries) }

def phaseAfterNewShape (s : Site β) : Phase :=
  match s.phase with
  | .cold => .monomorphic
  | .monomorphic => if 2 ≤ s.distinctShapes then .polymorphic else .monomorphic
  | phase => phase

/-- Keep an entry for a shape that the site has no entry for. -/
def learn (s : Site β) (r : Registry β) (e : Entry β) : Site β :=
  let s := { s with distinctShapes := s.distinctShapes + 1, lastNewShapeAt := s.calls }
  let s := s.install r e
  { s with phase := s.phaseAfterNewShape }

/-- Keep an entry: in the place of the one for its shape, or as a new one. -/
def keep (s : Site β) (r : Registry β) (e : Entry β) : Site β :=
  match s.entryFor? e.shape with
  | some _ => { s with slots := updateEntry e.shape (fun _ => e) s.slots }
  | none => s.learn r e

/-- Resolve the site's member, counting a miss. -/
def resolve (s : Site β) (r : Resolver β) (shape : Shape) :
    Except DispatchError (Resolution β) × Site β × Resolver β :=
  let s := { s with misses := s.misses + 1, resolutions := s.resolutions + 1 }
  let (result, r) := r.resolve s.access shape.receiver s.name shape.args
  (result, s, r)

/-- Serve a shape that the site has no valid entry for. -/
def miss (s : Site β) (p : Policy) (r : Resolver β) (shape : Shape) :
    Except DispatchError (Target β) × Site β × Resolver β :=
  match s.resolve r shape with
  | (.error e, s, r) => (.error e, s, r)
  | (.ok found, s, r) =>
    let s := s.keep r.registry ⟨shape, found.target, found.guard, 0, s.calls⟩
    (.ok found.target, s.follow r.registry (p.verdict s.evidence), r)

def bypass (s : Site β) (r : Resolver β) (shape : Shape) :
    Except DispatchError (Target β) × Site β × Resolver β :=
  match s.resolve r shape with
  | (.error e, s, r) => (.error e, s, r)
  | (.ok found, s, r) => (.ok found.target, s, r)

/-! ### Calls -/

/-- Decide what a call of some shape runs. -/
def dispatchShape (s : Site β) (p : Policy) (r : Resolver β) (shape : Shape) :
    Except DispatchError (Target β) × Site β × Resolver β :=
  let s := { s with calls := s.calls + 1 }
  match s.phase with
  | .cold => s.miss p r shape
  | .megamorphic => s.bypass r shape
  | .frozen =>
    match s.frozenFor? r.registry shape with
    | some e => (.ok e.target, s.recordHit shape, r)
    | none => (s.thaw shape).miss p r shape
  | .monomorphic | .polymorphic =>
    match s.currentFor? r.registry shape with
    | some e =>
      let s := s.recordHit shape
      let s := { s with slots := moveToFront shape s.slots }
      (.ok e.target, s.considerFreezing p r.registry, r)
    | none => s.miss p r shape

def dispatch (s : Site β) (p : Policy) (r : Resolver β) (receiver : Value) (args : List Value) :
    Except DispatchError (Target β) × Site β × Resolver β :=
  s.dispatchShape p r (.ofCall r.registry receiver args)

end Site

end LateBinding
