import LateBinding.Engine
import Mathlib.Logic.Relation

/-!
# Runs of an engine

Everything that a program does to an engine is one of finitely many kinds of operations, and a
run is a sequence of them, in any order, starting with a fresh engine. Bodies that run inside a
call work on the same engine, so what they do is part of the run as well.

`Engine.Run allowed` relates an engine to those that allowed operations lead to; an engine is
`Reachable` if any operations lead to it from a fresh one. `Run.preserves` is the induction
that proves an invariant of all of them.
-/

namespace LateBinding

namespace Engine

/-- What a program asks of an engine. -/
inductive Operation (β : Type)
  | define (d : ClassHeader) (methods : List (MethodDecl β))
  | changeClass (c : ClassRef) (change : Change β)
  | changeObject (o : ObjectRef) (change : Change β)
  | applyCategory (c : ClassRef) (methods : List (MethodDecl β))
  | applyTrait (c iface : ClassRef)
  | invalidate (c : ClassRef)
  | membersOf (c : ClassRef)
  | versionOf (c : ClassRef)
  | resolve (access : Access) (receiver : Value) (name : String) (args : List Value)
  | resolveClass (c : ClassRef) (name : String) (args : List ClassRef)
  | clearMemo
  | openSite (id : Nat) (access : Access) (name : String)
  /-- Create a detached site with room for some entries. -/
  | attach (id : Nat) (access : Access) (name : String) (capacity : Nat)
  | drop (key : SiteKey)
  | dispatch (key : SiteKey) (receiver : Value) (args : List Value)
  | resetSite (key : SiteKey)
  | resetSites
  | setPolicy (changes : List (Policy.Threshold × Nat))

variable {β : Type}

/-- The engine after an operation. -/
def perform (g : Engine β) : Operation β → Engine β
  | .define d methods => (g.define d methods).2
  | .changeClass c change => (g.changeClass c change).2
  | .changeObject o change => (g.changeObject o change).2
  | .applyCategory c methods => (g.applyCategory c methods).2
  | .applyTrait c iface => (g.applyTrait c iface).2
  | .invalidate c => (g.invalidate c).2
  | .membersOf c => (g.membersOf c).2
  | .versionOf c => (g.versionOf c).2
  | .resolve access receiver name args => (g.resolve access receiver name args).2
  | .resolveClass c name args => (g.resolveClass c name args).2
  | .clearMemo => g.clearMemo
  | .openSite id access name => (g.openSite id access name).2
  | .attach id access name capacity => (g.attach (.create id access name capacity)).2
  | .drop key => g.drop key
  | .dispatch key receiver args => (g.dispatch key receiver args).2
  | .resetSite key => g.resetSite key
  | .resetSites => g.resetSites
  | .setPolicy changes => g.setPolicy changes

/-! ## Runs -/

/-- `g'` comes of `g` by one operation of a kind that is allowed in `g`. -/
def Step (allowed : Engine β → Operation β → Prop) (g g' : Engine β) : Prop :=
  ∃ op, allowed g op ∧ g' = g.perform op

/-- `g'` comes of `g` by allowed operations. -/
def Run (allowed : Engine β → Operation β → Prop) : Engine β → Engine β → Prop :=
  Relation.ReflTransGen (Step allowed)

/-- All operations are allowed. -/
def Anything (_ : Engine β) (_ : Operation β) : Prop := True

/-- The engine comes of a fresh one by allowed operations. -/
def ReachableBy (allowed : Engine β → Operation β → Prop) (g : Engine β) : Prop :=
  ∃ settings, Run allowed (build settings) g

/-- The engine comes of a fresh one. -/
def Reachable (g : Engine β) : Prop := ReachableBy Anything g

section

variable {allowed : Engine β → Operation β → Prop} {P : Engine β → Prop} {g g' : Engine β}

/-- What every allowed operation preserves, every run preserves. -/
theorem Run.preserves (hrun : Run allowed g g')
    (step : ∀ g op, allowed g op → P g → P (g.perform op)) (hg : P g) : P g' := by
  induction hrun with
  | refl => exact hg
  | tail _ hstep ih =>
    obtain ⟨op, hop, rfl⟩ := hstep
    exact step _ op hop ih

/-- What holds of fresh engines and is preserved by allowed operations holds of all that they
lead to. -/
theorem ReachableBy.invariant (hg : ReachableBy allowed g) (fresh : ∀ s, P (build s))
    (step : ∀ g op, allowed g op → P g → P (g.perform op)) : P g := by
  obtain ⟨s, hrun⟩ := hg
  exact hrun.preserves step (fresh s)

theorem ReachableBy.mono {more : Engine β → Operation β → Prop} (hg : ReachableBy allowed g)
    (hmore : ∀ g op, allowed g op → more g op) : ReachableBy more g := by
  obtain ⟨s, hrun⟩ := hg
  exact ⟨s, Relation.ReflTransGen.mono (fun _ _ ⟨op, hop, h⟩ => ⟨op, hmore _ op hop, h⟩) _ _ hrun⟩

theorem ReachableBy.reachable (hg : ReachableBy allowed g) : g.Reachable :=
  hg.mono fun _ _ _ => trivial

theorem Reachable.run (hg : g.Reachable) (hrun : Run allowed g g') : g'.Reachable := by
  obtain ⟨s, hbefore⟩ := hg
  exact ⟨s, hbefore.trans
    (Relation.ReflTransGen.mono (fun _ _ ⟨op, _, h⟩ => ⟨op, trivial, h⟩) _ _ hrun)⟩

theorem ReachableBy.perform (hg : ReachableBy allowed g) {op : Operation β} (hop : allowed g op) :
    ReachableBy allowed (g.perform op) := by
  obtain ⟨s, hrun⟩ := hg
  exact ⟨s, hrun.tail ⟨op, hop, rfl⟩⟩

end

/-- An engine that was created is the one for its settings, and these are valid. -/
theorem eq_build_of_create {g : Engine β} {settings : Settings} (h : create settings = .ok g) :
    g = build settings ∧ settings.fault? = none := by
  unfold create Settings.validate at h
  cases hfault : settings.fault? with
  | some f =>
    rw [hfault] at h
    cases h
  | none =>
    rw [hfault] at h
    cases h
    exact ⟨rfl, rfl⟩

/-! ## Operations on the registry -/

/-- What an operation on classes or members makes of the registry. -/
def Operation.change? : Operation β → Option (Registry β → Except DispatchError (Registry β))
  | .define d methods => some fun r => (r.define d methods).map (·.2)
  | .changeClass c change => some (·.changeClass c change)
  | .changeObject o change => some (·.changeObject o change)
  | .applyCategory c methods => some (·.applyCategory c methods)
  | .applyTrait c iface => some (·.applyTrait c iface)
  | .invalidate c => some (·.invalidate c)
  | .membersOf c => some (·.materialize c)
  | .versionOf c => some (·.materialize c)
  | _ => none

theorem onRegistry_fst {α : Type} (g : Engine β)
    (op : Registry β → Except DispatchError (α × Registry β)) :
    (g.onRegistry op).1 = (op g.registry).map (·.1) := by
  unfold onRegistry
  cases op g.registry <;> rfl

theorem onRegistry_snd {α : Type} (g : Engine β)
    (op : Registry β → Except DispatchError (α × Registry β)) :
    (g.onRegistry op).2 = match (op g.registry).map (·.2) with
      | .ok r => g.withRegistry r
      | .error _ => g := by
  unfold onRegistry
  cases op g.registry <;> rfl

theorem onRegistry'_fst (g : Engine β) (op : Registry β → Except DispatchError (Registry β)) :
    (g.onRegistry' op).1 = (op g.registry).map fun _ => () := by
  rw [onRegistry', onRegistry_fst]
  cases op g.registry <;> rfl

theorem onRegistry'_snd (g : Engine β) (op : Registry β → Except DispatchError (Registry β)) :
    (g.onRegistry' op).2 = match op g.registry with
      | .ok r => g.withRegistry r
      | .error _ => g := by
  rw [onRegistry', onRegistry_snd]
  cases op g.registry <;> rfl

/-- An operation on classes or members changes the registry and nothing else, and nothing at
all if it fails. -/
theorem perform_of_change {g : Engine β} {op : Operation β}
    {f : Registry β → Except DispatchError (Registry β)} (hf : op.change? = some f) :
    g.perform op = match f g.registry with
      | .ok r => g.withRegistry r
      | .error _ => g := by
  cases op with
  | define => cases hf; exact onRegistry_snd _ _
  | changeClass | changeObject | applyCategory | applyTrait | invalidate =>
    cases hf
    exact onRegistry'_snd _ _
  -- the two that only look bring the cells of a class into being
  | membersOf c | versionOf c =>
    cases hf
    refine (onRegistry_snd _ _).trans ?_
    dsimp only
    cases g.registry.materialize c <;> rfl
  | _ => cases hf

/-- Only a change of the policy changes it, and only attaching a site hands out a serial. -/
theorem frame_perform (g : Engine β) (op : Operation β) :
    (g.perform op).policy = (match op with
      | .setPolicy changes => g.policy.setAll changes
      | _ => g.policy) ∧
    (g.perform op).nextSerial = match op with
      | .attach .. => g.nextSerial + 1
      | _ => g.nextSerial := by
  cases op with
  -- operations on the registry leave the policy and the serials alone as a whole
  | define | changeClass | changeObject | applyCategory | applyTrait | invalidate | membersOf
    | versionOf =>
    rw [perform_of_change rfl]
    split <;> exact ⟨rfl, rfl⟩
  | openSite =>
    simp only [perform, openSite]
    split
    · split <;> exact ⟨rfl, rfl⟩
    · exact ⟨rfl, rfl⟩
  | dispatch =>
    simp only [perform, dispatch]
    split <;> exact ⟨rfl, rfl⟩
  | _ => exact ⟨rfl, rfl⟩

/-- A call without a site leaves the engine as the resolution does. -/
theorem decideUncached_snd {g : Engine β} {access : Access} {receiver : Value} {name : String}
    {args : List Value} :
    (g.decideUncached access receiver name args).2 = (g.resolve access receiver name args).2 := by
  unfold decideUncached
  split <;> next h => rw [h]

/-! ## A short run

Used below where a statement about runs is shown at work. -/

/-- A trait, a class and a class whose method `m` takes anything or instances of the trait. -/
def sampleClasses : Engine Unit :=
  (((build .default).perform (.define ⟨"T", none, [], true, []⟩ [])).perform
    (.define ⟨"A", none, [], false, []⟩ [])).perform
    (.define ⟨"R", none, [], false, []⟩
      [⟨⟨"m", [.any], false⟩, .body ()⟩, ⟨⟨"m", [.ofClass ⟨8⟩], false⟩, .body ()⟩])

/-- An instance of the second class. -/
def sampleArgument : Value := .object ⟨1, ⟨9⟩⟩

/-- An instance of the third class. -/
def sampleReceiver : Value := .object ⟨2, ⟨10⟩⟩

/-- The method was called through a site, with an instance of the second class. -/
def sampleCall : Engine Unit :=
  (sampleClasses.perform (.openSite 0 .method "m")).perform
    (.dispatch (.numbered 0) sampleReceiver [sampleArgument])

theorem reachableBy_sampleClasses {allowed : Engine Unit → Operation Unit → Prop}
    (hdefine : ∀ g d methods, allowed g (.define d methods)) :
    ReachableBy allowed sampleClasses := by
  have hfresh : ReachableBy allowed (build .default) := ⟨.default, .refl⟩
  exact ((hfresh.perform (hdefine _ _ _)).perform (hdefine _ _ _)).perform (hdefine _ _ _)

theorem reachable_sampleCall : sampleCall.Reachable :=
  ((reachableBy_sampleClasses fun _ _ _ => trivial).perform trivial).perform trivial

end Engine

end LateBinding
