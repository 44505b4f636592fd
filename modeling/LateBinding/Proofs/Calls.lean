import LateBinding.Site

/-!
# A call in parts

`Site.dispatchShape` and `Resolver.resolve` do several things in a row. Here each step of them
gets a name, and one equation says how they are made of these steps.
-/

namespace LateBinding

/-! ## Resolution -/

namespace Resolver

variable {β : Type}

/-- What a resolution can come to. The cell of the receiver's class comes into being first, and
those of its chain if nothing was remembered. -/
inductive Outcome (q : Resolver β) (access : Access) (receiver : Receiver) (name : String)
    (args : ArgShape) : Except DispatchError (Resolution β) × Resolver β → Prop
  | unknown {e} (hmat : q.registry.materialize receiver.cls = .error e) :
    Outcome q access receiver name args (.error e, { q with invocations := q.invocations + 1 })
  | remembered {r t} (hmat : q.registry.materialize receiver.cls = .ok r)
    (hmemo : q.remembered? (q.memoKey? access receiver name args)
      (Guard.ofReceiver r receiver).version = some t) :
    Outcome q access receiver name args (.ok ⟨t, .ofReceiver r receiver⟩,
      { q with registry := r, invocations := q.invocations + 1, memoHits := q.memoHits + 1 })
  | failed {r e} (hmat : q.registry.materialize receiver.cls = .ok r)
    (hmemo : q.remembered? (q.memoKey? access receiver name args)
      (Guard.ofReceiver r receiver).version = none)
    (hlookup : (r.materializeAll (r.hierarchy.chain receiver.cls)).lookup access receiver name
      args.toList = .error e) :
    Outcome q access receiver name args (.error e,
      { q with
        registry := r.materializeAll (r.hierarchy.chain receiver.cls)
        invocations := q.invocations + 1, fullResolutions := q.fullResolutions + 1 })
  | found {r t} (hmat : q.registry.materialize receiver.cls = .ok r)
    (hmemo : q.remembered? (q.memoKey? access receiver name args)
      (Guard.ofReceiver r receiver).version = none)
    (hlookup : (r.materializeAll (r.hierarchy.chain receiver.cls)).lookup access receiver name
      args.toList = .ok t) :
    Outcome q access receiver name args (.ok ⟨t, .ofReceiver r receiver⟩,
      { q with
        registry := r.materializeAll (r.hierarchy.chain receiver.cls)
        invocations := q.invocations + 1
        fullResolutions := q.fullResolutions + 1 }.remember
        (q.memoKey? access receiver name args) (Guard.ofReceiver r receiver).version t)

theorem resolve_outcome (q : Resolver β) (access : Access) (receiver : Receiver) (name : String)
    (args : ArgShape) :
    Outcome q access receiver name args (q.resolve access receiver name args) := by
  -- the class is found, then the memo is asked, and then it is looked up
  unfold resolve
  dsimp only
  split
  · next hmat => exact .unknown hmat
  · next r hmat =>
    split
    · next t hmemo => exact .remembered hmat hmemo
    · next hmemo =>
      unfold lookUp
      dsimp only
      split
      · next heq =>
        obtain ⟨hlookup, rfl⟩ := Prod.mk.inj heq
        exact .failed hmat hmemo hlookup
      · next heq =>
        obtain ⟨hlookup, rfl⟩ := Prod.mk.inj heq
        exact .found hmat hmemo hlookup

end Resolver

/-! ## Call sites -/

namespace Site

variable {β : Type} {s : Site β} {e : Entry β} {shape : Shape}
variable {p : Policy} {r : Registry β} {q : Resolver β}

/-! ### Misses -/

/-- A new entry takes the place of the victim, or a free slot. -/
theorem learn_eq :
    (s.learn r e = { s with
      distinctShapes := s.distinctShapes + 1, lastNewShapeAt := s.calls
      slots := fill s.capacity (e :: s.entries.eraseIdx (victim r s.entries))
      missPenalty := s.missPenalty + 1
      phase := { s with distinctShapes := s.distinctShapes + 1 }.phaseAfterNewShape }) ∨
    (s.learn r e = { s with
      distinctShapes := s.distinctShapes + 1, lastNewShapeAt := s.calls
      slots := fill s.capacity (e :: s.entries)
      phase := { s with distinctShapes := s.distinctShapes + 1 }.phaseAfterNewShape }) := by
  -- whether a full site evicts is the one thing that tells the two outcomes apart
  have hinstall : ∀ s : Site β, (s.install r e = { s with
      slots := fill s.capacity (e :: s.entries.eraseIdx (victim r s.entries))
      missPenalty := s.missPenalty + 1 }) ∨
      s.install r e = { s with slots := fill s.capacity (e :: s.entries) } := by
    intro s
    unfold Site.install
    split
    · exact .inl rfl
    · exact .inr rfl
  simp only [Site.learn]
  rcases hinstall { s with distinctShapes := s.distinctShapes + 1, lastNewShapeAt := s.calls }
    with h | h <;> rw [h]
  · exact .inl rfl
  · exact .inr rfl

/-- A resolution is counted. -/
def ask (s : Site β) : Site β := { s with misses := s.misses + 1, resolutions := s.resolutions + 1 }

/-- What was resolved is kept, and the policy followed. -/
def absorb (s : Site β) (p : Policy) (r : Registry β) (shape : Shape) (found : Resolution β) :
    Site β :=
  let kept := s.keep r ⟨shape, found.target, found.guard, 0, s.calls⟩
  kept.follow r (p.verdict kept.evidence)

theorem miss_of_error {err : DispatchError} {q' : Resolver β}
    (hq : q.resolve s.access shape.receiver s.name shape.args = (.error err, q')) :
    s.miss p q shape = (.error err, s.ask, q') := by
  simp only [Site.miss, Site.resolve, hq, ask]

theorem miss_of_ok {found : Resolution β} {q' : Resolver β}
    (hq : q.resolve s.access shape.receiver s.name shape.args = (.ok found, q')) :
    s.miss p q shape = (.ok found.target, s.ask.absorb p q'.registry shape found, q') := by
  simp only [Site.miss, Site.resolve, hq, ask, absorb]

theorem bypass_eq : s.bypass q shape =
    ((q.resolve s.access shape.receiver s.name shape.args).1.map (·.target), s.ask,
      (q.resolve s.access shape.receiver s.name shape.args).2) := by
  rcases hq : q.resolve s.access shape.receiver s.name shape.args with ⟨err | found, q'⟩ <;>
    simp only [bypass, Site.resolve, hq, Site.ask] <;> rfl

/-! ### Calls -/

/-- A call is counted. -/
def count (s : Site β) : Site β := { s with calls := s.calls + 1 }

/-- A hit on the entry of a shape, which moves to the front. -/
def promote (s : Site β) (shape : Shape) : Site β :=
  { s.recordHit shape with slots := moveToFront shape (s.recordHit shape).slots }

/-- A call through a site that is frozen. -/
def serveFrozen (s : Site β) (p : Policy) (q : Resolver β) (shape : Shape) :
    Except DispatchError (Target β) × Site β × Resolver β :=
  match s.frozenFor? q.registry shape with
  | some e => (.ok e.target, s.recordHit shape, q)
  | none => (s.thaw shape).miss p q shape

/-- A call through a site with entries that is not frozen. -/
def serveAdaptive (s : Site β) (p : Policy) (q : Resolver β) (shape : Shape) :
    Except DispatchError (Target β) × Site β × Resolver β :=
  match s.currentFor? q.registry shape with
  | some e => (.ok e.target, (s.promote shape).considerFreezing p q.registry, q)
  | none => s.miss p q shape

/-- A call in terms of its parts. -/
theorem dispatchShape_eq : s.dispatchShape p q shape =
    match s.phase with
    | .cold => s.count.miss p q shape
    | .megamorphic => s.count.bypass q shape
    | .frozen => s.count.serveFrozen p q shape
    | .monomorphic | .polymorphic => s.count.serveAdaptive p q shape := by
  rfl

end Site

end LateBinding
