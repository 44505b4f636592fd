import LateBinding.MemberTable

/-!
# The registry of classes and their members

The registry holds the hierarchy and a cell for every class whose members were ever asked
for, and for every object that has members of its own. A cell is a member table under a
version, a stamp drawn from a clock that never repeats. Changing members stamps the cell
anew, and also the cells of all classes that inherit from the changed one, so whoever
remembers what it found together with the stamp can tell whether it may still rely on it.

Cells of classes come into being when they are first needed; what they hold before any
change is what the class declares, so `members` is the same before and after.
-/

namespace LateBinding

/-- A member table and the stamp of its last change. -/
structure Cell (β : Type) where
  members : MemberTable β
  version : Nat

/-- The classes with their members. -/
structure Registry (β : Type) where
  hierarchy : Hierarchy
  /-- The methods that each class declares; class `n` stands at position `n`. -/
  declared : Array (List (Method β))
  cells : Table Owner (Cell β)
  /-- The last stamp that was handed out. -/
  clock : Nat
  /-- The serial number of the next definition. -/
  nextSerial : Nat

namespace Registry

variable {β : Type}

/-- Give consecutive serial numbers to declared methods. -/
def number (serial : Nat) : List (MethodDecl β) → List (Method β)
  | [] => []
  | d :: rest => d.install .declared serial :: number (serial + 1) rest

/-- The registry with the builtin classes only. -/
def initial : Registry β :=
  let step (acc : Array (List (Method β)) × Nat) (ds : List (MethodDecl β)) :=
    (acc.1.push (number acc.2 ds), acc.2 + ds.length)
  let built := (builtinMethods β).foldl step (#[], 0)
  { hierarchy := .builtin, declared := built.1, cells := .empty, clock := 1
    nextSerial := built.2 }

/-! ### Cells -/

/-- The cell of an owner, if it has come into being. -/
def cell? (r : Registry β) (o : Owner) : Option (Cell β) := r.cells.get? o

/-- The version of an owner's cell. -/
def version? (r : Registry β) (o : Owner) : Option Nat := (r.cell? o).map (·.version)

/-- The methods that a class declares. -/
def declaredMethods (r : Registry β) (c : ClassRef) : List (Method β) :=
  (r.declared[c.index]?).getD []

/-- What a class's member table holds before any change. -/
def fresh (r : Registry β) (c : ClassRef) : MemberTable β := .ofDeclared c (r.declaredMethods c)

/-- The members of a class, whether or not its cell has come into being. -/
def members (r : Registry β) (c : ClassRef) : MemberTable β :=
  match r.cell? (.ofClass c) with
  | some cell => cell.members
  | none => r.fresh c

/-- The members that an object has of its own. -/
def ownMembers? (r : Registry β) (o : ObjectRef) : Option (MemberTable β) :=
  (r.cell? (.ofObject o)).map (·.members)

/-- Whether an object has members of its own. -/
def hasOwnMembers (r : Registry β) (o : ObjectRef) : Bool := (r.cell? (.ofObject o)).isSome

/-- Bring a cell into being under the next stamp, unless it is there. -/
def ensureCell (r : Registry β) (o : Owner) (content : MemberTable β) : Registry β :=
  match r.cell? o with
  | some _ => r
  | none => { r with cells := r.cells.insert o ⟨content, r.clock + 1⟩, clock := r.clock + 1 }

/-- Bring the cell of a class into being, unless it is there. What it holds is made up only
if it is needed. -/
def ensureClass (r : Registry β) (c : ClassRef) : Registry β :=
  match r.cell? (.ofClass c) with
  | some _ => r
  | none => r.ensureCell (.ofClass c) (r.fresh c)

/-- Bring the cell of a class into being, unless it is there or the class is not declared. -/
def materialize (r : Registry β) (c : ClassRef) : Except DispatchError (Registry β) :=
  match r.cell? (.ofClass c) with
  | some _ => .ok r
  | none =>
    match r.hierarchy.find c with
    | .error e => .error e
    | .ok _ => .ok (r.ensureClass c)

/-- Bring the cells of some declared classes into being. -/
def materializeAll (r : Registry β) (cs : List ClassRef) : Registry β := cs.foldl ensureClass r

/-- The number of classes whose cell has come into being. -/
def classCellCount (r : Registry β) : Nat :=
  (r.cells.keys.filter fun o => match o with
    | .ofClass _ => true
    | .ofObject _ => false).length

/-- Stamp the cell of an owner anew, if it is there. -/
def bump (r : Registry β) (o : Owner) : Registry β :=
  match r.cell? o with
  | none => r
  | some cell =>
    { r with cells := r.cells.insert o { cell with version := r.clock + 1 }, clock := r.clock + 1 }

/-- Apply a change to the members in a cell and stamp it anew. -/
def mutate (r : Registry β) (o : Owner) (change : Change β) : Registry β :=
  match r.cell? o with
  | none => r
  | some cell =>
    { r with
      cells := r.cells.insert o ⟨cell.members.apply change r.nextSerial, r.clock + 1⟩
      clock := r.clock + 1
      nextSerial := r.nextSerial + 1 }

/-! ### What each change does to the cells -/

theorem cell?_ensureCell (r : Registry β) (o o' : Owner) (t : MemberTable β) :
    (r.ensureCell o t).cell? o' =
      if o = o' then some ((r.cell? o').getD ⟨t, r.clock + 1⟩) else r.cell? o' := by
  unfold ensureCell
  by_cases h : o = o'
  · subst h
    cases hc : r.cell? o with
    | none => simp [cell?]
    | some c => simp [hc]
  · split
    · simp [h]
    · simp [cell?, h]

/-- Bringing a cell into being that is there changes nothing. -/
theorem ensureClass_eq (r : Registry β) (c : ClassRef) :
    r.ensureClass c = r.ensureCell (.ofClass c) (r.fresh c) := by
  unfold ensureClass ensureCell
  cases r.cell? (.ofClass c) <;> rfl

theorem cell?_bump (r : Registry β) (o o' : Owner) :
    (r.bump o).cell? o' =
      if o = o' then (r.cell? o').map ({ · with version := r.clock + 1 }) else r.cell? o' := by
  unfold bump
  by_cases h : o = o'
  · subst h
    cases hc : r.cell? o with
    | none => simp [hc]
    | some c => simp [cell?]
  · split
    · simp [h]
    · simp [cell?, h]

theorem cell?_mutate (r : Registry β) (o o' : Owner) (change : Change β) :
    (r.mutate o change).cell? o' =
      if o = o' then
        (r.cell? o').map fun c => ⟨c.members.apply change r.nextSerial, r.clock + 1⟩
      else r.cell? o' := by
  unfold mutate
  by_cases h : o = o'
  · subst h
    cases hc : r.cell? o with
    | none => simp [hc]
    | some c => simp [cell?]
  · split
    · simp [h]
    · simp [cell?, h]

/-- Bringing the cell of a class into being changes no class's members. -/
theorem members_ensureCell_fresh (r : Registry β) (c d : ClassRef) :
    (r.ensureCell (.ofClass c) (r.fresh c)).members d = r.members d := by
  unfold members
  rw [cell?_ensureCell]
  by_cases h : Owner.ofClass c = .ofClass d
  · cases h
    rw [if_pos rfl]
    cases r.cell? (.ofClass c) <;> rfl
  · rw [if_neg h]
    cases hd : r.cell? (.ofClass d) with
    | some _ => rfl
    | none =>
      show fresh _ d = fresh r d
      unfold ensureCell
      split <;> rfl

/-! ### Operations -/

/-- Declare a class with its methods. -/
def define (r : Registry β) (d : ClassHeader) (methods : List (MethodDecl β)) :
    Except DispatchError (ClassRef × Registry β) :=
  match r.hierarchy.define d with
  | .error e => .error e
  | .ok h =>
    .ok (⟨r.hierarchy.size⟩,
      { r with
        hierarchy := h
        declared := r.declared.push (number r.nextSerial methods)
        nextSerial := r.nextSerial + methods.length })

/-- Stamp the cells of some classes anew, in order. -/
def bumpAll (r : Registry β) (cs : List ClassRef) : Registry β :=
  cs.foldl (fun r c => r.bump (.ofClass c)) r

/-- Stamp the cells of a class and of all that inherit from it anew. -/
def invalidate (r : Registry β) (c : ClassRef) : Except DispatchError (Registry β) :=
  match r.hierarchy.find c with
  | .error e => .error e
  | .ok _ => .ok (r.bumpAll (r.hierarchy.descendants c))

def changeClass (r : Registry β) (c : ClassRef) (change : Change β) :
    Except DispatchError (Registry β) :=
  match r.materialize c with
  | .error e => .error e
  | .ok r => (r.mutate (.ofClass c) change).invalidate c

/-- Change the members that an object has of its own; no other object is concerned. -/
def changeObject (r : Registry β) (o : ObjectRef) (change : Change β) :
    Except DispatchError (Registry β) :=
  match r.hierarchy.find o.cls with
  | .error e => .error e
  | .ok _ => .ok ((r.ensureCell (.ofObject o) (.empty (.ofObject o))).mutate (.ofObject o) change)

/-- Extend a class by the methods of a category. -/
def applyCategory (r : Registry β) (c : ClassRef) (methods : List (MethodDecl β)) :
    Except DispatchError (Registry β) :=
  match r.materialize c with
  | .error e => .error e
  | .ok r =>
    (methods.foldl (fun r d => r.mutate (.ofClass c) (.addCategoryMethod d)) r).invalidate c

def applyTrait (r : Registry β) (c iface : ClassRef) : Except DispatchError (Registry β) :=
  match r.hierarchy.withInterface c iface with
  | .error e => .error e
  | .ok h => ({ r with hierarchy := h } : Registry β).invalidate c

end Registry

end LateBinding
