import LateBinding.Proofs.Choice
import LateBinding.Proofs.Sound

/-!
# What a method resolves to

The method that a class, a name and argument classes resolve to, without reference to how it is
looked for:

1. the fixed choice of the first class on the lookup chain that has a fixed method which fits;
2. else the variadic choice of the first class that has a variadic method which fits;
3. else the first hook for missing methods on the chain.

If the deciding class has methods that fit but none that is its choice, the call is ambiguous;
if there is not even a hook, the method is unresolved. `Engine.Reachable.resolveClass_spec`
states this of every engine.
-/

namespace LateBinding

namespace Lookup

variable {β α : Type} {t : MemberTable β} {before after path : List (MemberTable β)}
variable {offer : MemberTable β → Except DispatchError (Option α)}

/-! ## The first offer on a path -/

/-- The first table that offers anything, or fails to, decides. -/
theorem firstOffer_of_first (hbefore : ∀ s ∈ before, offer s = .ok none)
    (ht : offer t ≠ .ok none) : firstOffer offer (before ++ t :: after) = offer t := by
  induction before with
  | nil =>
    rw [List.nil_append, firstOffer]
    split
    · next h => exact h.symm
    · next h => exact h.symm
    · next h => exact absurd h ht
  | cons s rest ih =>
    rw [List.cons_append, firstOffer, hbefore s List.mem_cons_self]
    exact ih fun s' hs' => hbefore s' (List.mem_cons_of_mem _ hs')

theorem firstOffer_eq_none (hpath : ∀ s ∈ path, offer s = .ok none) :
    firstOffer offer path = .ok none := by
  induction path with
  | nil => rfl
  | cons s rest ih =>
    rw [firstOffer, hpath s List.mem_cons_self]
    exact ih fun s' hs' => hpath s' (List.mem_cons_of_mem _ hs')

end Lookup

namespace Registry

variable {β : Type} {r : Registry β} {c d : ClassRef} {name : String} {args : List ClassRef}

/-! ## The deciding class -/

/-- The first class with a property on the lookup chain of a class. -/
def FirstOn (r : Registry β) (c : ClassRef) (P : ClassRef → Prop) (d : ClassRef) : Prop :=
  ∃ before after, r.hierarchy.chain c = before ++ d :: after ∧ P d ∧ ∀ b ∈ before, ¬ P b

/-- The class has a fixed method which fits. -/
def HasFixed (r : Registry β) (name : String) (args : List ClassRef) (d : ClassRef) : Prop :=
  ∃ m, Lookup.Fits r.hierarchy (r.members d) name args m

/-- The class has a variadic method which fits. -/
def HasVariadic (r : Registry β) (name : String) (args : List ClassRef) (d : ClassRef) : Prop :=
  ∃ m, Lookup.FitsMany r.hierarchy (r.members d) name args m

/-- The answer to a call is the choice of the deciding class; if that has methods which fit but
no choice, the call is ambiguous between those that no other beats. -/
def DecidedBy (r : Registry β) (c : ClassRef) (name : String) (args : List ClassRef)
    (Fit Choice : Method β → Prop) (answer : Except DispatchError (Target β)) : Prop :=
  (∀ t, answer = .ok t ↔ ∃ m, t = .method m ∧ Choice m) ∧
  ((∀ m, ¬ Choice m) → ∃ ms : List (Method β),
    (∀ m, m ∈ ms ↔ Fit m ∧ ∀ x, Fit x → ¬ Lookup.Beats r.hierarchy x m) ∧
    answer = .error (.ambiguousOverload (r.hierarchy.nameOf c) name
      (Lookup.classTexts r.hierarchy args) (ms.map (·.signature.describe r.hierarchy))))

theorem decidedBy_of {Fit Choice : Method β → Prop} {otherwise : Except DispatchError (Target β)}
    {offer : Except DispatchError (Option (Method β))}
    (hsome : ∀ m, offer = .ok (some m) ↔ Choice m) (hnone : offer ≠ .ok none)
    (herror : (∀ m, ¬ Choice m) → ∃ ms : List (Method β),
      (∀ m, m ∈ ms ↔ Fit m ∧ ∀ x, Fit x → ¬ Lookup.Beats r.hierarchy x m) ∧
      offer = .error (.ambiguousOverload (r.hierarchy.nameOf c) name
        (Lookup.classTexts r.hierarchy args) (ms.map (·.signature.describe r.hierarchy)))) :
    r.DecidedBy c name args Fit Choice (match offer with
      | .error e => .error e
      | .ok (some m) => .ok (.method m)
      | .ok none => otherwise) := by
  -- the answers of the class are its choices, and the texts of the error list what is unbeaten
  constructor
  · intro t
    cases offer with
    | error e => exact iff_of_false nofun fun ⟨m, _, hm⟩ => nomatch (hsome m).mpr hm
    | ok found =>
      cases found with
      | none => exact absurd rfl hnone
      | some m =>
        constructor
        · rintro ⟨⟩
          exact ⟨m, rfl, (hsome m).mp rfl⟩
        · rintro ⟨m', rfl, hm'⟩
          cases (hsome m').mpr hm'
          rfl
  · intro hno
    obtain ⟨ms, hms, rfl⟩ := herror hno
    exact ⟨ms, hms, rfl⟩

theorem firstOffer_classPath {α : Type} {P : ClassRef → Prop}
    {offer : MemberTable β → Except DispatchError (Option α)}
    (hd : r.FirstOn c P d) (hoffer : ∀ b, offer (r.members b) = .ok none ↔ ¬ P b) :
    Lookup.firstOffer offer (r.classPath c) = offer (r.members d) := by
  obtain ⟨before, after, hchain, hPd, hbefore⟩ := hd
  rw [classPath, hchain, List.map_append, List.map_cons]
  refine Lookup.firstOffer_of_first ?_ fun h => (hoffer d).mp h hPd
  rintro _ hs
  obtain ⟨b, hb, rfl⟩ := List.mem_map.mp hs
  exact (hoffer b).mpr (hbefore b hb)

theorem firstOffer_classPath_none {α : Type} {P : ClassRef → Prop}
    {offer : MemberTable β → Except DispatchError (Option α)}
    (hnone : ∀ b ∈ r.hierarchy.chain c, ¬ P b)
    (hoffer : ∀ b, offer (r.members b) = .ok none ↔ ¬ P b) :
    Lookup.firstOffer offer (r.classPath c) = .ok none := by
  refine Lookup.firstOffer_eq_none ?_
  rintro _ hs
  obtain ⟨b, hb, rfl⟩ := List.mem_map.mp hs
  exact (hoffer b).mpr (hnone b hb)

/-- For a declared class, a method is looked up along the tables of its chain. -/
theorem lookup_method (hc : r.hierarchy.Declares c) :
    r.lookup .method (.plain c) name args =
      Lookup.findMethod r.hierarchy (r.classPath c) c name args := by
  obtain ⟨info, hinfo⟩ := hc.find
  unfold lookup
  simp only [Receiver.cls, hinfo]
  rfl

section Sound

variable (hr : r.Sound)
include hr

theorem fixedIn_members_eq_none (cls b : ClassRef) :
    Lookup.fixedIn r.hierarchy cls name args (r.members b) = .ok none ↔
      ¬ r.HasFixed name args b := by
  rw [Lookup.fixedIn_eq_none_iff (hr.members_wellKept b) hr.hierarchy, HasFixed, not_exists]

theorem variadicIn_members_eq_none (cls b : ClassRef) :
    Lookup.variadicIn r.hierarchy cls name args (r.members b) = .ok none ↔
      ¬ r.HasVariadic name args b := by
  rw [Lookup.variadicIn_eq_none_iff (hr.members_wellKept b) hr.hierarchy, HasVariadic, not_exists]

/-- The fixed choice of the deciding class is what the method resolves to. -/
theorem lookup_of_fixed (hc : r.hierarchy.Declares c)
    (hd : r.FirstOn c (r.HasFixed name args) d) :
    r.DecidedBy c name args (Lookup.Fits r.hierarchy (r.members d) name args)
      (Lookup.FixedChoice r.hierarchy (r.members d) name args)
      (r.lookup .method (.plain c) name args) := by
  have hfind : Lookup.findFixed r.hierarchy (r.classPath c) c name args =
      Lookup.fixedIn r.hierarchy c name args (r.members d) :=
    firstOffer_classPath hd fun b => fixedIn_members_eq_none hr c b
  have ht := hr.members_wellKept d
  -- some method of the deciding class fits, so the class offers something or fails to
  obtain ⟨_, _, -, ⟨m, hm⟩, -⟩ := hd
  rw [lookup_method hc, Lookup.findMethod, hfind]
  refine decidedBy_of (fun _ => Lookup.fixedIn_eq_some_iff ht hr.hierarchy) (fun hnone => ?_)
    (fun hno => ⟨_, fun x => ?_, Lookup.fixedIn_eq_error ht hr.hierarchy hm hno⟩)
  · exact (Lookup.fixedIn_eq_none_iff ht hr.hierarchy).mp hnone m hm
  · simp only [Lookup.mem_maximal, Lookup.mem_fittingIn ht]

/-- If no class on the chain has a fixed method which fits, the variadic methods decide. -/
theorem lookup_of_variadic (hc : r.hierarchy.Declares c)
    (hfixed : ∀ b ∈ r.hierarchy.chain c, ¬ r.HasFixed name args b)
    (hd : r.FirstOn c (r.HasVariadic name args) d) :
    r.DecidedBy c name args (Lookup.FitsMany r.hierarchy (r.members d) name args)
      (Lookup.VariadicChoice r.hierarchy (r.members d) name args)
      (r.lookup .method (.plain c) name args) := by
  -- the fixed stage of the search finds nothing on the whole chain
  have hnone : Lookup.findFixed r.hierarchy (r.classPath c) c name args = .ok none :=
    firstOffer_classPath_none hfixed fun b => fixedIn_members_eq_none hr c b
  have hfind : Lookup.findVariadic r.hierarchy (r.classPath c) c name args =
      Lookup.variadicIn r.hierarchy c name args (r.members d) :=
    firstOffer_classPath hd fun b => variadicIn_members_eq_none hr c b
  have ht := hr.members_wellKept d
  -- some variadic method of the class fits, so it offers one or fails to
  obtain ⟨_, _, -, ⟨m, hm⟩, -⟩ := hd
  rw [lookup_method hc, Lookup.findMethod, hnone, hfind]
  refine decidedBy_of (fun _ => Lookup.variadicIn_eq_some_iff ht) (fun hnone => ?_)
    (fun hno => ⟨_, fun x => ?_, Lookup.variadicIn_eq_error ht hr.hierarchy hm hno⟩)
  · exact (Lookup.variadicIn_eq_none_iff ht hr.hierarchy).mp hnone m hm
  · simp only [Lookup.mem_maximal, Lookup.mem_variadicFittingIn ht]

/-- If no method fits, the first hook for missing methods answers, if there is one. -/
theorem lookup_of_neither (hc : r.hierarchy.Declares c)
    (hfixed : ∀ b ∈ r.hierarchy.chain c, ¬ r.HasFixed name args b)
    (hvariadic : ∀ b ∈ r.hierarchy.chain c, ¬ r.HasVariadic name args b) :
    r.lookup .method (.plain c) name args =
      match (r.classPath c).findSome? (·.methodMissing) with
      | some hook => .ok (.methodMissing name hook)
      | none => .error (.unresolvedMethod (r.hierarchy.nameOf c) name
          (Lookup.classTexts r.hierarchy args)) := by
  have hnoFixed : Lookup.findFixed r.hierarchy (r.classPath c) c name args = .ok none :=
    firstOffer_classPath_none hfixed fun b => fixedIn_members_eq_none hr c b
  have hnoVariadic : Lookup.findVariadic r.hierarchy (r.classPath c) c name args = .ok none :=
    firstOffer_classPath_none hvariadic fun b => variadicIn_members_eq_none hr c b
  -- both searches for methods come to nothing, and the hooks are what is left
  rw [lookup_method hc]
  cases hhook : (r.classPath c).findSome? (·.methodMissing) <;>
    simp only [Lookup.findMethod, hnoFixed, hnoVariadic, hhook]

end Sound

/-- The nearest hook for missing methods. -/
theorem findSome?_of_firstOn {hook : Hook β}
    (hd : r.FirstOn c (fun b => ((r.members b).methodMissing).isSome) d)
    (hhook : (r.members d).methodMissing = some hook) :
    (r.classPath c).findSome? (·.methodMissing) = some hook := by
  obtain ⟨before, after, hchain, -, hbefore⟩ := hd
  rw [classPath, hchain, List.map_append, List.findSome?_append, List.map_cons,
    List.findSome?_cons, hhook]
  have hnone : (before.map r.members).findSome? (·.methodMissing) = none := by
    simpa using hbefore
  rw [hnone]
  rfl

end Registry

namespace Engine

variable {β : Type} {g : Engine β} {c : ClassRef}

theorem resolveClass_eq_lookup (hc : g.registry.hierarchy.Declares c) (name : String)
    (args : List ClassRef) :
    (g.resolveClass c name args).1 = g.registry.lookup .method (.plain c) name args := by
  obtain ⟨info, hinfo⟩ := hc.find
  unfold registry at hinfo
  simp only [resolveClass, Resolver.resolveClass, hinfo]
  exact Registry.lookup_materializeAll _

/-- What a method resolves to for a declared class, in every engine: the choice of the first
class on the chain that has a fixed method which fits, else that of the first class that has a
variadic method which fits, else the nearest hook for missing methods. -/
theorem Reachable.resolveClass_spec (hg : g.Reachable) (hc : g.registry.hierarchy.Declares c)
    (name : String) (args : List ClassRef) :
    (∀ d, g.registry.FirstOn c (g.registry.HasFixed name args) d →
      g.registry.DecidedBy c name args
        (Lookup.Fits g.registry.hierarchy (g.registry.members d) name args)
        (Lookup.FixedChoice g.registry.hierarchy (g.registry.members d) name args)
        (g.resolveClass c name args).1) ∧
    ((∀ b ∈ g.registry.hierarchy.chain c, ¬ g.registry.HasFixed name args b) →
      (∀ d, g.registry.FirstOn c (g.registry.HasVariadic name args) d →
        g.registry.DecidedBy c name args
          (Lookup.FitsMany g.registry.hierarchy (g.registry.members d) name args)
          (Lookup.VariadicChoice g.registry.hierarchy (g.registry.members d) name args)
          (g.resolveClass c name args).1) ∧
      ((∀ b ∈ g.registry.hierarchy.chain c, ¬ g.registry.HasVariadic name args b) →
        (∀ d hook,
          g.registry.FirstOn c (fun b => ((g.registry.members b).methodMissing).isSome) d →
          (g.registry.members d).methodMissing = some hook →
          (g.resolveClass c name args).1 = .ok (.methodMissing name hook)) ∧
        ((∀ b ∈ g.registry.hierarchy.chain c, (g.registry.members b).methodMissing = none) →
          (g.resolveClass c name args).1 =
            .error (.unresolvedMethod (g.registry.hierarchy.nameOf c) name
              (Lookup.classTexts g.registry.hierarchy args))))) := by
  rw [resolveClass_eq_lookup hc]
  refine ⟨fun d hd => Registry.lookup_of_fixed hg.sound hc hd, fun hfixed =>
    ⟨fun d hd => Registry.lookup_of_variadic hg.sound hc hfixed hd, fun hvariadic => ?_⟩⟩
  -- what is left is whether some class on the chain has a hook
  rw [Registry.lookup_of_neither hg.sound hc hfixed hvariadic]
  constructor
  · intro d hook hd hhook
    rw [Registry.findSome?_of_firstOn hd hhook]
  · intro hnone
    have : (g.registry.classPath c).findSome? (·.methodMissing) = none := by
      simpa [Registry.classPath] using hnone
    rw [this]

/-- The sample class decides a call of its method, by a choice among its own methods. -/
theorem resolveClass_sampleClasses : sampleClasses.registry.hierarchy.Declares ⟨10⟩ ∧
    ∃ m, (sampleClasses.resolveClass ⟨10⟩ "m" [⟨9⟩]).1 = .ok (.method m) ∧
      Lookup.FixedChoice sampleClasses.registry.hierarchy (sampleClasses.registry.members ⟨10⟩)
        "m" [⟨9⟩] m := by
  have hreach : sampleClasses.Reachable := reachableBy_sampleClasses fun _ _ _ => trivial
  have hdeclares : sampleClasses.registry.hierarchy.Declares ⟨10⟩ := by decide
  have hfits : sampleClasses.registry.HasFixed "m" [⟨9⟩] ⟨10⟩ := by
    obtain ⟨m, hm⟩ := List.exists_mem_of_ne_nil (Lookup.fittingIn sampleClasses.registry.hierarchy
      (sampleClasses.registry.members ⟨10⟩) "m" [⟨9⟩]) (by decide)
    exact ⟨m, (Lookup.mem_fittingIn (hreach.sound.members_wellKept ⟨10⟩)).mp hm⟩
  have hspec := (hreach.resolveClass_spec hdeclares "m" [⟨9⟩]).1 ⟨10⟩ ⟨[], _, rfl, hfits, nofun⟩
  obtain ⟨t, ht⟩ : ∃ t, (sampleClasses.resolveClass ⟨10⟩ "m" [⟨9⟩]).1 = .ok t := ⟨_, rfl⟩
  obtain ⟨m, rfl, hm⟩ := (hspec.1 t).mp ht
  exact ⟨hdeclares, m, ht, hm⟩

end Engine

end LateBinding
