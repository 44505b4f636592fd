import LateBinding.Proofs.Calls
import LateBinding.Proofs.Members
import LateBinding.Proofs.Runs
import LateBinding.Proofs.WellFormed

/-!
# Sound registries

In a sound registry the hierarchy is well-formed, all member tables are well-kept, and no cell
has a stamp that was not handed out yet. The registry of every engine is sound
(`Engine.Reachable.sound`).

Apart from declarations and traits, operations touch the cells only; `Registry.Extends` says
that, and that the clock does not go back.
-/

namespace LateBinding

namespace Registry

variable {β : Type} {r r' r'' : Registry β} {o o' : Owner} {c d : ClassRef}

/-! ## Changes to cells -/

/-- `r'` comes of `r` by changes to cells. -/
structure Extends (r' r : Registry β) : Prop where
  hierarchy : r'.hierarchy = r.hierarchy
  declared : r'.declared = r.declared
  clock : r.clock ≤ r'.clock

theorem Extends.refl (r : Registry β) : r.Extends r := ⟨rfl, rfl, Nat.le_refl _⟩

theorem Extends.trans (h' : r''.Extends r') (h : r'.Extends r) : r''.Extends r :=
  ⟨h'.hierarchy.trans h.hierarchy, h'.declared.trans h.declared, Nat.le_trans h.clock h'.clock⟩

theorem extends_ensureCell (t : MemberTable β) : (r.ensureCell o t).Extends r := by
  unfold ensureCell
  split
  · exact .refl r
  · exact ⟨rfl, rfl, Nat.le_succ _⟩

theorem extends_ensureClass : (r.ensureClass c).Extends r :=
  ensureClass_eq r c ▸ extends_ensureCell _

theorem extends_bump : (r.bump o).Extends r := by
  unfold bump
  split
  · exact .refl r
  · exact ⟨rfl, rfl, Nat.le_succ _⟩

theorem extends_mutate (change : Change β) : (r.mutate o change).Extends r := by
  unfold mutate
  split
  · exact .refl r
  · exact ⟨rfl, rfl, Nat.le_succ _⟩

/-- What a change of the registry does to it for each of several things, it does for all. -/
theorem extends_foldl {α : Type} {f : Registry β → α → Registry β}
    (hf : ∀ r a, (f r a).Extends r) (l : List α) (r : Registry β) : (l.foldl f r).Extends r := by
  induction l generalizing r with
  | nil => exact .refl r
  | cons a rest ih => exact (ih (f r a)).trans (hf r a)

theorem materializeAll_cons (cs : List ClassRef) :
    r.materializeAll (c :: cs) = (r.ensureClass c).materializeAll cs := rfl

theorem extends_bumpAll (cs : List ClassRef) : (r.bumpAll cs).Extends r :=
  extends_foldl (fun _ _ => extends_bump) cs r

/-! ## Bringing cells into being

No lookup sees whether the cell of a class is there. -/

theorem members_ensureClass : (r.ensureClass c).members d = r.members d := by
  rw [ensureClass_eq, members_ensureCell_fresh]

theorem cell?_ensureClass_ofObject (obj : ObjectRef) :
    (r.ensureClass c).cell? (.ofObject obj) = r.cell? (.ofObject obj) := by
  rw [ensureClass_eq, cell?_ensureCell, if_neg nofun]

/-- What a lookup depends on: the hierarchy, the members of the classes on the receiver's
chain, and the members of its own. -/
theorem lookup_congr {receiver : Receiver} (hhier : r'.hierarchy = r.hierarchy)
    (hmembers : ∀ d ∈ r.hierarchy.chain receiver.cls, r'.members d = r.members d)
    (hown : ∀ obj, receiver = .own obj → r'.ownMembers? obj = r.ownMembers? obj)
    (access : Access) (name : String) (args : List ClassRef) :
    r'.lookup access receiver name args = r.lookup access receiver name args := by
  -- the path is made of these parts and of nothing else
  have hclass : r'.classPath receiver.cls = r.classPath receiver.cls := by
    unfold classPath
    rw [hhier]
    exact List.map_congr_left hmembers
  have hpath : r'.path receiver = r.path receiver := by
    unfold path
    rw [hclass]
    cases receiver with
    | plain => rfl
    | own obj => simp only [hown obj rfl]
  unfold lookup
  rw [hhier, hpath]

theorem lookup_ensureClass {access : Access} {receiver : Receiver} {name : String}
    {args : List ClassRef} :
    (r.ensureClass c).lookup access receiver name args = r.lookup access receiver name args := by
  refine lookup_congr extends_ensureClass.hierarchy (fun _ _ => members_ensureClass)
    (fun obj _ => ?_) access name args
  unfold ownMembers?
  rw [cell?_ensureClass_ofObject]

theorem lookup_materializeAll {access : Access} {receiver : Receiver} {name : String}
    {args : List ClassRef} (cs : List ClassRef) :
    (r.materializeAll cs).lookup access receiver name args =
      r.lookup access receiver name args := by
  induction cs generalizing r with
  | nil => rfl
  | cons c rest ih => rw [materializeAll_cons, ih, lookup_ensureClass]

/-- Only declared classes have members to look up. -/
theorem declares_of_lookup {access : Access} {receiver : Receiver} {name : String}
    {args : List ClassRef} {t : Target β} (hok : r.lookup access receiver name args = .ok t) :
    r.hierarchy.Declares receiver.cls := by
  unfold lookup at hok
  split at hok
  · cases hok
  · next hfind => exact Hierarchy.declares_of_get? (Hierarchy.find_eq_ok_iff.mp hfind)

theorem ensureClass_of_isSome (hcell : (r.cell? (.ofClass c)).isSome) : r.ensureClass c = r := by
  obtain ⟨cell, hcell⟩ := Option.isSome_iff_exists.mp hcell
  simp only [ensureClass, hcell]

theorem materialize_eq_ok (hok : r.materialize c = .ok r') : r' = r.ensureClass c := by
  unfold materialize at hok
  -- a cell that is there stays, and one that is not comes with what was declared
  split at hok
  · next hcell =>
    cases hok
    exact (ensureClass_of_isSome (by simp [hcell])).symm
  · split at hok
    · cases hok
    · cases hok
      rfl

theorem define_of_map {header : ClassHeader} {methods : List (MethodDecl β)}
    (hok : (r.define header methods).map (·.2) = .ok r') :
    ∃ p, r.define header methods = .ok p ∧ p.2 = r' := by
  cases hp : r.define header methods with
  | error e =>
    rw [hp] at hok
    cases hok
  | ok p =>
    rw [hp] at hok
    exact ⟨p, rfl, Except.ok.inj hok⟩

/-! ## Soundness -/

/-- What holds of a registry at all times. -/
structure Sound (r : Registry β) : Prop where
  hierarchy : r.hierarchy.WellFormed
  declared : r.declared.size = r.hierarchy.size
  kept : ∀ {o cell}, r.cell? o = some cell → cell.members.WellKept
  stamped : ∀ {o cell}, r.cell? o = some cell → cell.version ≤ r.clock

namespace Sound

theorem fresh_wellKept (r : Registry β) (c : ClassRef) : (r.fresh c).WellKept :=
  .ofDeclared c _

/-- The members of a class are well-kept whether or not its cell has come into being. -/
theorem members_wellKept (hr : r.Sound) (c : ClassRef) : (r.members c).WellKept := by
  unfold members
  split
  · next hcell => exact hr.kept hcell
  · exact fresh_wellKept r c

theorem ownMembers_wellKept (hr : r.Sound) {o : ObjectRef} {t : MemberTable β}
    (ht : r.ownMembers? o = some t) : t.WellKept := by
  obtain ⟨cell, hcell, rfl⟩ := Option.map_eq_some_iff.mp ht
  exact hr.kept hcell

/-- A change to one cell that leaves its table well-kept and its stamp in range. -/
theorem of_extends (hr : r.Sound) (hext : r'.Extends r)
    (hcells : ∀ o cell, r'.cell? o = some cell → r.cell? o = some cell ∨
      cell.members.WellKept ∧ cell.version ≤ r'.clock) : r'.Sound where
  hierarchy := hext.hierarchy ▸ hr.hierarchy
  declared := by rw [hext.declared, hext.hierarchy, hr.declared]
  kept hcell := (hcells _ _ hcell).elim hr.kept And.left
  stamped hcell :=
    (hcells _ _ hcell).elim (fun h => Nat.le_trans (hr.stamped h) hext.clock) And.right

theorem ensureCell (hr : r.Sound) {t : MemberTable β} (ht : t.WellKept) (o : Owner) :
    (r.ensureCell o t).Sound := by
  refine hr.of_extends (extends_ensureCell t) fun o' cell hcell => ?_
  rw [cell?_ensureCell] at hcell
  split at hcell
  -- an owner with a cell keeps it, and one without gets the given members
  · next ho =>
    subst ho
    cases hold : r.cell? o with
    | some old =>
      rw [hold] at hcell
      exact .inl hcell
    | none =>
      rw [hold] at hcell
      cases hcell
      have hclock : (r.ensureCell o t).clock = r.clock + 1 := by simp [Registry.ensureCell, hold]
      exact .inr ⟨ht, Nat.le_of_eq hclock.symm⟩
  · exact .inl hcell

theorem ensureClass (hr : r.Sound) (c : ClassRef) : (r.ensureClass c).Sound :=
  ensureClass_eq r c ▸ hr.ensureCell (fresh_wellKept r c) _

theorem bump (hr : r.Sound) (o : Owner) : (r.bump o).Sound := by
  refine hr.of_extends extends_bump fun o' cell hcell => ?_
  rw [cell?_bump] at hcell
  split at hcell
  · next ho =>
    subst ho
    obtain ⟨old, hold, rfl⟩ := Option.map_eq_some_iff.mp hcell
    have hclock : (r.bump o).clock = r.clock + 1 := by simp [Registry.bump, hold]
    -- a bump stamps anew, and keeps the members
    have hkept : old.members.WellKept := hr.kept hold
    exact .inr ⟨hkept, Nat.le_of_eq hclock.symm⟩
  · exact .inl hcell

theorem mutate (hr : r.Sound) (o : Owner) (change : Change β) : (r.mutate o change).Sound := by
  refine hr.of_extends (extends_mutate change) fun o' cell hcell => ?_
  rw [cell?_mutate] at hcell
  split at hcell
  · next ho =>
    subst ho
    obtain ⟨old, hold, rfl⟩ := Option.map_eq_some_iff.mp hcell
    have hclock : (r.mutate o change).clock = r.clock + 1 := by simp [Registry.mutate, hold]
    exact .inr ⟨(hr.kept hold).apply change _, Nat.le_of_eq hclock.symm⟩
  · exact .inl hcell

theorem foldl {α : Type} {f : Registry β → α → Registry β}
    (hf : ∀ r a, r.Sound → (f r a).Sound) (l : List α) (hr : r.Sound) : (l.foldl f r).Sound := by
  induction l generalizing r with
  | nil => exact hr
  | cons a rest ih => exact ih (hf r a hr)

theorem materializeAll (hr : r.Sound) (cs : List ClassRef) : (r.materializeAll cs).Sound :=
  foldl (fun _ c h => h.ensureClass c) cs hr

theorem materialize (hr : r.Sound) (hok : r.materialize c = .ok r') : r'.Sound :=
  materialize_eq_ok hok ▸ hr.ensureClass c

theorem invalidate (hr : r.Sound) (hok : r.invalidate c = .ok r') : r'.Sound := by
  unfold Registry.invalidate at hok
  split at hok
  · cases hok
  · cases hok
    exact foldl (fun _ _ h => h.bump _) _ hr

theorem define {header : ClassHeader} {methods : List (MethodDecl β)} {p : ClassRef × Registry β}
    (hr : r.Sound) (hok : r.define header methods = .ok p) : p.2.Sound := by
  unfold Registry.define at hok
  split at hok
  · cases hok
  · next h hh =>
    cases hok
    -- a class more in the hierarchy, and its methods behind those of the others
    have hsize : h.size = r.hierarchy.size + 1 := by
      rw [(Hierarchy.define_eq_ok hh).2, Hierarchy.size_push]
    -- the cells are those of before
    exact
      { hierarchy := hr.hierarchy.define hh
        declared := by simp [hr.declared, hsize]
        kept := hr.kept
        stamped := hr.stamped }

theorem changeClass (hr : r.Sound) {change : Change β} (hok : r.changeClass c change = .ok r') :
    r'.Sound := by
  unfold Registry.changeClass at hok
  split at hok
  · cases hok
  · next hmat => exact ((hr.materialize hmat).mutate _ _).invalidate hok

theorem changeObject (hr : r.Sound) {o : ObjectRef} {change : Change β}
    (hok : r.changeObject o change = .ok r') : r'.Sound := by
  unfold Registry.changeObject at hok
  split at hok
  · cases hok
  · cases hok
    exact (hr.ensureCell (.empty _) _).mutate _ _

theorem applyCategory (hr : r.Sound) {methods : List (MethodDecl β)}
    (hok : r.applyCategory c methods = .ok r') : r'.Sound := by
  unfold Registry.applyCategory at hok
  split at hok
  · cases hok
  · next hmat => exact (foldl (fun _ _ h => h.mutate _ _) _ (hr.materialize hmat)).invalidate hok

theorem applyTrait (hr : r.Sound) (hok : r.applyTrait c d = .ok r') : r'.Sound := by
  unfold Registry.applyTrait at hok
  split at hok
  · cases hok
  · next h hh =>
    have hsize := Hierarchy.size_withInterface hh
    have hmixed : ({ r with hierarchy := h } : Registry β).Sound :=
      { hierarchy := hr.hierarchy.withInterface hh
        -- a trait links classes that are there, and adds none
        declared := hr.declared.trans hsize.symm
        kept := hr.kept
        stamped := hr.stamped }
    exact hmixed.invalidate hok

theorem initial : (Registry.initial : Registry β).Sound where
  hierarchy := .builtin
  declared := by
    rw [show Registry.initial.hierarchy = Hierarchy.builtin from rfl, Hierarchy.size_builtin]
    rfl
  kept hcell := by cases hcell
  stamped hcell := by cases hcell

end Sound

end Registry

/-! ## The registry of an engine -/

theorem Resolver.registry_remember {β : Type} (q : Resolver β) (key : Option MemoKey)
    (version : Nat) (target : Target β) :
    (q.remember key version target).registry = q.registry := by
  cases key <;> rfl

namespace Engine

variable {β : Type} {g : Engine β}

/-- A resolution brings cells into being: that of the receiver's class, and if nothing was
remembered those of its chain. -/
theorem resolve_registry (q : Resolver β) (access : Access) (receiver : Receiver)
    (name : String) (args : ArgShape) : ∃ cs,
      (q.resolve access receiver name args).2.registry = q.registry.materializeAll cs := by
  have hout := q.resolve_outcome access receiver name args
  generalize q.resolve access receiver name args = out at hout
  -- a failed resolution leaves the cells it brought into being
  cases hout with
  | unknown => exact ⟨[], rfl⟩
  | remembered hmat => exact ⟨[receiver.cls], Registry.materialize_eq_ok hmat⟩
  | @failed r _ hmat =>
    refine ⟨receiver.cls :: r.hierarchy.chain receiver.cls, ?_⟩
    rw [Registry.materializeAll_cons, ← Registry.materialize_eq_ok hmat]
  | @found r _ hmat =>
    refine ⟨receiver.cls :: r.hierarchy.chain receiver.cls, ?_⟩
    rw [Resolver.registry_remember, Registry.materializeAll_cons, ← Registry.materialize_eq_ok hmat]

theorem miss_registry (s : Site β) (p : Policy) (q : Resolver β) (shape : Shape) :
    ∃ cs, (s.miss p q shape).2.2.registry = q.registry.materializeAll cs := by
  obtain ⟨cs, hcs⟩ := resolve_registry q s.access shape.receiver s.name shape.args
  refine ⟨cs, ?_⟩
  rcases hq : q.resolve s.access shape.receiver s.name shape.args with ⟨e | found, q'⟩ <;>
    rw [hq] at hcs
  · rwa [Site.miss_of_error hq]
  · rwa [Site.miss_of_ok hq]

theorem dispatchShape_registry (s : Site β) (p : Policy) (q : Resolver β) (shape : Shape) :
    ∃ cs, (s.dispatchShape p q shape).2.2.registry = q.registry.materializeAll cs := by
  rw [Site.dispatchShape_eq]
  -- whatever the phase, a call asks the resolver once or not at all
  split
  · exact miss_registry _ p q shape
  · rw [Site.bypass_eq]
    exact resolve_registry q _ _ _ _
  · unfold Site.serveFrozen
    split
    · exact ⟨[], rfl⟩
    · exact miss_registry _ p q shape
  all_goals
    unfold Site.serveAdaptive
    split
    · exact ⟨[], rfl⟩
    · exact miss_registry _ p q shape

/-- An operation changes classes and members, or it brings cells into being. -/
theorem registry_perform (g : Engine β) (op : Operation β) :
    (∃ f, op.change? = some f ∧ f g.registry = .ok (g.perform op).registry) ∨
      ∃ cs, (g.perform op).registry = g.registry.materializeAll cs := by
  -- an operation that fails leaves the registry as it is
  cases hop : op.change? with
  | some f =>
    rw [perform_of_change hop]
    split
    · next r hr => exact .inl ⟨f, rfl, hr⟩
    · exact .inr ⟨[], rfl⟩
  | none =>
    right
    cases op with
    | define | changeClass | changeObject | applyCategory | applyTrait | invalidate | membersOf
      | versionOf => cases hop
    -- what is left of the operations changes neither classes nor members
    | resolve access receiver name args => exact resolve_registry _ _ _ _ _
    | resolveClass c name args =>
      simp only [perform, resolveClass, Resolver.resolveClass]
      split
      · exact ⟨[], rfl⟩
      · exact ⟨_, rfl⟩
    | openSite id access name =>
      simp only [perform, openSite]
      split
      · split <;> exact ⟨[], rfl⟩
      · exact ⟨[], rfl⟩
    | dispatch key receiver args =>
      simp only [perform, dispatch]
      split
      · exact ⟨[], rfl⟩
      · exact dispatchShape_registry _ _ _ _
    | _ => exact ⟨[], rfl⟩

theorem sound_of_change {op : Operation β} {f : Registry β → Except DispatchError (Registry β)}
    {r r' : Registry β} (hf : op.change? = some f) (hr : r.Sound) (hok : f r = .ok r') :
    r'.Sound := by
  cases op with
  | define d methods =>
    cases hf
    obtain ⟨p, hp, rfl⟩ := Registry.define_of_map hok
    exact hr.define hp
  | changeClass => cases hf; exact hr.changeClass hok
  | changeObject => cases hf; exact hr.changeObject hok
  | applyCategory => cases hf; exact hr.applyCategory hok
  | applyTrait => cases hf; exact hr.applyTrait hok
  | invalidate => cases hf; exact hr.invalidate hok
  | membersOf => cases hf; exact hr.materialize hok
  | versionOf => cases hf; exact hr.materialize hok
  | _ => cases hf

/-- The registry of every engine is sound. -/
theorem Reachable.sound (hg : g.Reachable) : g.registry.Sound := by
  -- by induction on the run; cells that come into being hold what was declared
  refine hg.invariant (P := fun g => g.registry.Sound) (fun _ => .initial) fun g op _ hr => ?_
  rcases registry_perform g op with ⟨f, hf, hok⟩ | ⟨cs, hcs⟩
  · exact sound_of_change hf hr hok
  · rw [hcs]
    exact hr.materializeAll cs

end Engine

end LateBinding
