import LateBinding.Lookup
import LateBinding.Settings

/-!
# The resolver

The resolver looks members up in the registry and remembers what methods resolved to, by the
receiver's class, the name and the shape of the arguments. What it remembers is valid as
long as the version of the receiver's class is the one it was found under. Receivers with
members of their own and properties are always looked up.
-/

namespace LateBinding

/-- Under what a resolution is remembered. -/
structure MemoKey where
  cls : ClassRef
  name : String
  args : ArgShape
deriving DecidableEq

/-- The number of arguments of a remembered resolution. -/
def MemoKey.arity (k : MemoKey) : Nat := k.args.size

/-- A remembered resolution and the version it was found under. -/
structure Memo (β : Type) where
  version : Nat
  target : Target β

/-- What a member resolved to, and the versions under which that holds. -/
structure Resolution (β : Type) where
  target : Target β
  guard : Guard

/-- The registry, what was resolved so far, and counters. -/
structure Resolver (β : Type) where
  registry : Registry β
  memoize : Bool
  memoCapacity : Nat
  memo : Table MemoKey (Memo β)
  /-- Resolutions asked for. -/
  invocations : Nat
  /-- Resolutions that were looked up. -/
  fullResolutions : Nat
  /-- Resolutions that were remembered. -/
  memoHits : Nat

namespace Resolver

variable {β : Type}

/-- A resolver over the builtin classes that remembers nothing yet. -/
def ofSettings (s : Settings) : Resolver β :=
  { registry := .initial, memoize := s.memoizeResolutions, memoCapacity := max s.memoCapacity 1
    memo := .empty, invocations := 0, fullResolutions := 0, memoHits := 0 }

/-- Under what the resolution of a call would be remembered, if it would. -/
def memoKey? (r : Resolver β) (access : Access) (receiver : Receiver) (name : String)
    (args : ArgShape) : Option MemoKey :=
  match r.memoize, access, receiver with
  | true, .method, .plain c => some ⟨c, name, args⟩
  | _, _, _ => none

/-- The target remembered for a call under the present version of the receiver's class. -/
def remembered? (r : Resolver β) (key : Option MemoKey) (version : Nat) : Option (Target β) :=
  match key.bind r.memo.get? with
  | some m => if m.version = version then some m.target else none
  | none => none

/-- Remember a resolution, forgetting all others first if there is no room. -/
def remember (r : Resolver β) (key : Option MemoKey) (version : Nat) (target : Target β) :
    Resolver β :=
  match key with
  | none => r
  | some k =>
    let memo := if r.memoCapacity ≤ r.memo.size then .empty else r.memo
    { r with memo := memo.insert k ⟨version, target⟩ }

/-- Look a member up, bringing the cells of the receiver's chain into being. -/
def lookUp (r : Resolver β) (access : Access) (receiver : Receiver) (name : String)
    (args : ArgShape) : Except DispatchError (Target β) × Resolver β :=
  let registry := r.registry.materializeAll (r.registry.hierarchy.chain receiver.cls)
  (registry.lookup access receiver name args.toList, { r with registry })

/-- Resolve a member for a receiver, whose class's cell comes into being first. -/
def resolve (r : Resolver β) (access : Access) (receiver : Receiver) (name : String)
    (args : ArgShape) : Except DispatchError (Resolution β) × Resolver β :=
  let r := { r with invocations := r.invocations + 1 }
  match r.registry.materialize receiver.cls with
  | .error e => (.error e, r)
  | .ok registry =>
    let r := { r with registry }
    let guard := Guard.ofReceiver registry receiver
    let key := r.memoKey? access receiver name args
    match r.remembered? key guard.version with
    | some target => (.ok ⟨target, guard⟩, { r with memoHits := r.memoHits + 1 })
    | none =>
      let r := { r with fullResolutions := r.fullResolutions + 1 }
      match r.lookUp access receiver name args with
      | (.error e, r) => (.error e, r)
      | (.ok target, r) => (.ok ⟨target, guard⟩, r.remember key guard.version target)

/-- Resolve a method for a class, remembering and counting nothing. -/
def resolveClass (r : Resolver β) (c : ClassRef) (name : String) (args : List ClassRef) :
    Except DispatchError (Target β) × Resolver β :=
  match r.registry.hierarchy.find c with
  | .error e => (.error e, r)
  | .ok _ =>
    let registry := r.registry.materializeAll (r.registry.hierarchy.chain c)
    (registry.lookup .method (.plain c) name args, { r with registry })

def clearMemo (r : Resolver β) : Resolver β := { r with memo := .empty }

end Resolver

end LateBinding
