import LateBinding.Proofs.Invalidation
import LateBinding.Proofs.Resolution
import LateBinding.Proofs.TwinRegistries

/-!
# Classes with one method of a name

If a class itself has exactly one method of a name and arity, calls with the arguments of its
parameters resolve to it (`Registry.SoleMethod.lookup`). A class that is declared under a new name
has the method of its declaration so, and has another one after that is replaced.
-/

namespace LateBinding

/-! ## Chains -/

namespace Hierarchy

variable {h : Hierarchy} {seen frontier : List ClassRef} {c own : ClassRef}

theorem prefix_ascend (steps : Nat) (next : Option ClassRef) :
    seen <+: h.ascend steps seen next := by
  induction steps generalizing seen next with
  | zero => exact List.prefix_refl _
  | succ steps ih =>
    cases next with
    | none => exact List.prefix_refl _
    | some c =>
      rw [ascend]
      split
      · exact List.prefix_refl _
      · exact (List.prefix_append _ _).trans (ih _)

theorem prefix_spread (rounds : Nat) : seen <+: h.spread rounds seen frontier := by
  induction rounds generalizing seen frontier with
  | zero => exact List.prefix_refl _
  | succ rounds ih =>
    rw [spread]
    split
    · exact List.prefix_refl _
    · exact (List.prefix_append _ _).trans ih

/-- The chain of a class starts with the class. -/
theorem linearize_eq_cons (own : ClassRef) (superclass : Option ClassRef)
    (interfaces : List ClassRef) : ∃ rest, h.linearize own superclass interfaces = own :: rest := by
  obtain ⟨rest, hrest⟩ : [own] <+: h.linearize own superclass interfaces := by
    unfold linearize
    dsimp only
    have hline : [own] <+: h.ascend (h.size + 1) [own] superclass := prefix_ascend _ _
    split
    · exact hline.trans (prefix_spread _)
    · exact (hline.trans (prefix_spread _)).trans (List.prefix_append _ _)
  exact ⟨rest, hrest.symm⟩

end Hierarchy

namespace Registry

variable {β : Type} {r r' : Registry β} {c : ClassRef} {m : Method β} {d : MethodDecl β}
variable {args : List ClassRef} {name : String} {fields : List String}

/-- The class comes first when its members are looked up, and has no other method that is kept
where `m` is. -/
structure SoleMethod (r : Registry β) (c : ClassRef) (m : Method β) : Prop where
  chain : ∃ rest, r.hierarchy.chain c = c :: rest
  bucket : (r.members c).bucket m.signature.bucket = [m]

/-- A method is as specific as itself. -/
theorem mostSpecific_singleton {h : Hierarchy} : Lookup.mostSpecific h c name args [m] =
    .ok (some m) := by
  have hmaximal : Lookup.maximal h [m] = [m] := by
    simp [Lookup.maximal]
  rw [Lookup.mostSpecific, hmaximal]

theorem SoleMethod.declares (h : r.SoleMethod c m) : r.hierarchy.Declares c := by
  obtain ⟨rest, hchain⟩ := h.chain
  rw [Hierarchy.declares_iff_get?]
  cases hget : r.hierarchy.get? c with
  | none =>
    rw [Hierarchy.chain, hget] at hchain
    cases hchain
  | some info => exact ⟨info, rfl⟩

theorem SoleMethod.findFixed (h : r.SoleMethod c m) (args : List ClassRef)
    (hexact : m.signature.acceptsExactly args) :
    Lookup.findFixed r.hierarchy (r.classPath c) c m.signature.name args = .ok (some m) := by
  obtain ⟨rest, hchain⟩ := h.chain
  obtain ⟨hfixed, hparams⟩ : m.signature.variadic = false ∧
      m.signature.params = args.map .ofClass := by
    simpa [Signature.acceptsExactly] using hexact
  have hcandidates : (r.members c).candidates m.signature.name args.length = [m] := by
    have hkey : m.signature.bucket = ⟨m.signature.name, some args.length⟩ := by
      simp [Signature.bucket, hfixed, hparams]
    rw [MemberTable.candidates, ← hkey, h.bucket]
  have hoffer : Lookup.fixedIn r.hierarchy c m.signature.name args (r.members c) =
      .ok (some m) := by
    simp only [Lookup.fixedIn, hcandidates, List.filter_cons, hexact, if_true, List.filter_nil,
      mostSpecific_singleton]
  -- the class is the first on its own path, so its offer is the first one
  simp [Lookup.findFixed, Registry.classPath, hchain, Lookup.firstOffer, hoffer]

theorem SoleMethod.lookup (h : r.SoleMethod c m) (args : List ClassRef)
    (hexact : m.signature.acceptsExactly args) :
    r.lookup .method (.plain c) m.signature.name args = .ok (.method m) := by
  rw [lookup_method h.declares, Lookup.findMethod, h.findFixed args hexact]

theorem SoleMethod.materializeAll (h : r.SoleMethod c m) (cs : List ClassRef) :
    (r.materializeAll cs).SoleMethod c m := by
  induction cs generalizing r with
  | nil => exact h
  | cons x rest ih =>
    rw [materializeAll_cons]
    -- bringing cells into being changes neither the chain nor the members of the class
    have hx : (r.ensureClass x).SoleMethod c m := by
      refine ⟨?_, ?_⟩
      · rw [extends_ensureClass.hierarchy]
        exact h.chain
      · rw [members_ensureClass]
        exact h.bucket
    exact ih hx

/-! ## Declaring a class -/

/-- A class without links can be declared if its name is new. -/
theorem define_of_new_name (hname : r.hierarchy.byName? name = none)
    (methods : List (MethodDecl β)) : r.define ⟨name, none, [], false, fields⟩ methods =
      .ok (⟨r.hierarchy.size⟩, { r with
        hierarchy := r.hierarchy.push ⟨name, none, [], false, fields⟩
        declared := r.declared.push (number r.nextSerial methods)
        nextSerial := r.nextSerial + methods.length }) := by
  simp [define, Hierarchy.define, hname, Hierarchy.checkSuperclass, Hierarchy.checkInterfaces]

/-- What a class declares under a new name is its sole method of the name. -/
theorem soleMethod_define (fields : List String) (d : MethodDecl β) (hr : r.Housed)
    (hsize : r.declared.size = r.hierarchy.size)
    (hname : r.hierarchy.byName? name = none) : ∃ r',
      r.define ⟨name, none, [], false, fields⟩ [d] = .ok (⟨r.hierarchy.size⟩, r') ∧
        r'.SoleMethod ⟨r.hierarchy.size⟩ (d.install .declared r.nextSerial) := by
  refine ⟨_, define_of_new_name hname [d], ?_, ?_⟩
  · obtain ⟨rest, hrest⟩ := r.hierarchy.linearize_eq_cons ⟨r.hierarchy.size⟩
      (r.hierarchy.newSuperclass ⟨name, none, [], false, fields⟩) []
    refine ⟨rest, ?_⟩
    dsimp only
    rw [Hierarchy.chain, Hierarchy.get?_push_new]
    exact hrest
  -- no class has had this number yet, so there is no cell for it
  · have hnone : r.cell? (.ofClass ⟨r.hierarchy.size⟩) = none := by
      cases hcell : r.cell? (.ofClass ⟨r.hierarchy.size⟩) with
      | none => rfl
      | some cell => exact absurd (hr _ (by simp [hcell])) Hierarchy.not_declares_new
    -- hence its members are the declared ones, in a table that was empty
    have hfresh : ({ r with
        hierarchy := r.hierarchy.push ⟨name, none, [], false, fields⟩
        declared := r.declared.push (number r.nextSerial [d])
        nextSerial := r.nextSerial + 1 } : Registry β).members ⟨r.hierarchy.size⟩ =
        (MemberTable.empty (.ofClass ⟨r.hierarchy.size⟩)).addMethod
          (d.install .declared r.nextSerial) := by
      have hdeclared : (r.declared.push (number r.nextSerial [d]))[r.hierarchy.size]? =
          some (number r.nextSerial [d]) := by
        rw [← hsize, Array.getElem?_push_size]
      have hcell : r.cells.get? (.ofClass ⟨r.hierarchy.size⟩) = none := hnone
      simp only [members, cell?, hcell, fresh, declaredMethods, hdeclared]
      rfl
    have hbucket := congrArg (·.bucket (d.install .declared r.nextSerial).signature.bucket) hfresh
    refine hbucket.trans ?_
    rw [MemberTable.bucket_addMethod, if_pos rfl, MemberTable.bucket_empty, MemberTable.install]

/-! ## Replacing the method -/

/-- A class that is declared can be changed. -/
theorem changeClass_of_declares (hc : r.hierarchy.Declares c) (change : Change β) :
    ∃ r', r.changeClass c change = .ok r' := by
  obtain ⟨info, hfind⟩ := hc.find
  have hext := (extends_mutate (o := .ofClass c) change).trans
    (extends_ensureClass (r := r) (c := c))
  have hmat : r.materialize c = .ok (r.ensureClass c) := by
    unfold materialize
    cases hcell : r.cell? (.ofClass c) with
    | none => simp [hfind]
    | some cell => simp [ensureClass, hcell]
  exact ⟨((r.ensureClass c).mutate (.ofClass c) change).bumpAll (r.hierarchy.descendants c),
    by simp only [changeClass, hmat, invalidate, hext.hierarchy, hfind]⟩

/-- A change to a class changes its members and no others. What it installs gets the next serial
number. -/
theorem members_changeClass {change : Change β} (hok : r.changeClass c change = .ok r') :
    r'.hierarchy = r.hierarchy ∧ ∀ b, r'.members b =
      if b = c then (r.members c).apply change r.nextSerial else r.members b := by
  unfold changeClass at hok
  split at hok
  · cases hok
  · next r₁ hmat =>
    cases materialize_eq_ok hmat
    obtain ⟨-, rfl⟩ := invalidate_eq_ok hok
    refine ⟨?_, fun b => ?_⟩
    · rw [(extends_bumpAll _).hierarchy, (extends_mutate _).hierarchy,
        extends_ensureClass.hierarchy]
    · have hrestamp : ∀ r : Registry β, (r.bumpAll (r.hierarchy.descendants c)).members b =
          r.members b := fun _ => members_restamp
      rw [hrestamp]
      -- the change is made in the class's cell, which `materialize` has just seen to
      by_cases hb : b = c
      · subst hb
        obtain ⟨cell, hcell, hmembers⟩ : ∃ cell, (r.ensureClass b).cell? (.ofClass b) = some cell ∧
            cell.members = r.members b := by
          rw [ensureClass_eq, cell?_ensureCell, if_pos rfl]
          exact ⟨_, rfl, by cases hc : r.cell? (.ofClass b) <;> simp [members, hc]⟩
        have hserial : (r.ensureClass b).nextSerial = r.nextSerial := twins_ensureClass.nextSerial
        rw [members, cell?_mutate, if_pos rfl, hcell, if_pos rfl, ← hmembers, ← hserial]
        rfl
      -- another class has another cell, and stamping cells anew leaves the members alone
      · have hne : Owner.ofClass c ≠ .ofClass b := fun heq => hb (Owner.ofClass.inj heq).symm
        rw [if_neg hb, members_congr (extends_mutate change) (by rw [cell?_mutate, if_neg hne]),
          members_ensureClass]

/-- If a method of the same signature is added, it is the sole one from then on. -/
theorem soleMethod_changeClass (h : r.SoleMethod c m) (hnative : m.origin.isNative)
    (hsame : d.signature = m.signature) (hok : r.changeClass c (.addMethod d) = .ok r') :
    ∃ serial, r'.SoleMethod c (d.install .injected serial) := by
  obtain ⟨hhierarchy, hmembers⟩ := members_changeClass hok
  refine ⟨r.nextSerial, hhierarchy ▸ h.chain, ?_⟩
  have hreplaces : MemberTable.replaces (d.install .injected r.nextSerial) m :=
    MemberTable.replaces_iff.mpr ⟨hsame.symm, hnative⟩
  have hkey : (d.install .injected r.nextSerial).signature.bucket = m.signature.bucket :=
    congrArg Signature.bucket hsame
  rw [hmembers, if_pos rfl, MemberTable.apply, MemberTable.bucket_addMethod, if_pos rfl, hkey,
    h.bucket, MemberTable.install, if_pos hreplaces]

end Registry

end LateBinding
