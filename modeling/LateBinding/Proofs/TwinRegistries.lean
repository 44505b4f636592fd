import LateBinding.Proofs.Invalidation

/-!
# Registries that cannot be told apart

Two registries are twins if they have the same classes with the same members. They may differ in
stamps and in which cells have come into being: neither shows in a lookup (`Registry.Twins.lookup`).
The same operation on twins fails in both for the same reason, or makes twins of them.

That needs one fact about cells: only declared classes have them (`Engine.Reachable.housed`). A cell
that was there before its class would keep the methods of the declaration out.
-/

namespace LateBinding

namespace Registry

variable {β : Type} {r r' r'' : Registry β} {o : Owner} {c d : ClassRef}

/-! ## Cells belong to declared classes -/

/-- Only declared classes have cells. -/
def Housed (r : Registry β) : Prop :=
  ∀ c, (r.cell? (.ofClass c)).isSome → r.hierarchy.Declares c

theorem Housed.of_extends (hr : r.Housed) (hext : r'.Extends r)
    (hcells : ∀ c, (r'.cell? (.ofClass c)).isSome →
      (r.cell? (.ofClass c)).isSome ∨ r.hierarchy.Declares c) : r'.Housed :=
  fun c hc => hext.hierarchy ▸ (hcells c hc).elim (hr c) id

theorem Housed.ensureClass (hr : r.Housed) (hc : r.hierarchy.Declares c) :
    (r.ensureClass c).Housed := by
  refine hr.of_extends extends_ensureClass fun d hd => ?_
  rw [ensureClass_eq, cell?_ensureCell] at hd
  split at hd
  · next heq =>
    cases heq
    exact .inr hc
  · exact .inl hd

theorem Housed.ensureOwn (hr : r.Housed) (obj : ObjectRef) (t : MemberTable β) :
    (r.ensureCell (.ofObject obj) t).Housed := by
  refine hr.of_extends (extends_ensureCell t) fun d hd => ?_
  rw [cell?_ensureCell, if_neg nofun] at hd
  exact .inl hd

theorem Housed.bump (hr : r.Housed) : (r.bump o).Housed := by
  refine hr.of_extends extends_bump fun d hd => ?_
  rw [cell?_bump] at hd
  split at hd
  · exact .inl (by simpa using hd)
  · exact .inl hd

theorem Housed.mutate (hr : r.Housed) (change : Change β) : (r.mutate o change).Housed := by
  refine hr.of_extends (extends_mutate change) fun d hd => ?_
  rw [cell?_mutate] at hd
  split at hd
  · exact .inl (by simpa using hd)
  · exact .inl hd

theorem Housed.foldl {α : Type} {f : Registry β → α → Registry β}
    (hf : ∀ r a, r.Housed → (f r a).Housed) (l : List α) (hr : r.Housed) :
    (l.foldl f r).Housed := by
  induction l generalizing r with
  | nil => exact hr
  | cons a rest ih => exact ih (hf r a hr)

theorem Housed.materialize (hr : r.Housed) (hok : r.materialize c = .ok r') :
    r'.Housed ∧ r.hierarchy.Declares c := by
  -- a cell there already tells that the class is declared, and otherwise it is looked up first
  have hc : r.hierarchy.Declares c := by
    unfold Registry.materialize at hok
    split at hok
    · next hcell => exact hr c (by rw [hcell]; rfl)
    · split at hok
      · cases hok
      · next hfind => exact Hierarchy.declares_of_get? (Hierarchy.find_eq_ok_iff.mp hfind)
  exact ⟨materialize_eq_ok hok ▸ hr.ensureClass hc, hc⟩

theorem Housed.materializeAll (hr : r.Housed) {cs : List ClassRef}
    (hcs : ∀ c ∈ cs, r.hierarchy.Declares c) : (r.materializeAll cs).Housed := by
  induction cs generalizing r with
  | nil => exact hr
  | cons c rest ih =>
    rw [materializeAll_cons]
    refine ih (hr.ensureClass (hcs c List.mem_cons_self)) fun d hd => ?_
    rw [extends_ensureClass.hierarchy]
    exact hcs d (List.mem_cons_of_mem _ hd)

theorem Housed.invalidate (hr : r.Housed) (hok : r.invalidate c = .ok r') : r'.Housed :=
  (invalidate_eq_ok hok).2 ▸ Housed.foldl (fun _ _ h => h.bump) _ hr

theorem housed_initial : (Registry.initial : Registry β).Housed := nofun

theorem Housed.define (hr : r.Housed) {header : ClassHeader} {methods : List (MethodDecl β)}
    {p : ClassRef × Registry β} (hok : r.define header methods = .ok p) : p.2.Housed := by
  have hdeclares := (later_define hok).declares
  unfold Registry.define at hok
  split at hok
  · cases hok
  · cases hok
    exact fun c hc => hdeclares c (hr c hc)

theorem Housed.changeClass (hr : r.Housed) {change : Change β}
    (hok : r.changeClass c change = .ok r') : r'.Housed := by
  unfold Registry.changeClass at hok
  split at hok
  · cases hok
  · next hmat => exact ((hr.materialize hmat).1.mutate change).invalidate hok

theorem Housed.changeObject (hr : r.Housed) {obj : ObjectRef} {change : Change β}
    (hok : r.changeObject obj change = .ok r') : r'.Housed :=
  changeObject_eq_ok hok ▸ (hr.ensureOwn _ _).mutate change

theorem Housed.applyCategory (hr : r.Housed) {methods : List (MethodDecl β)}
    (hok : r.applyCategory c methods = .ok r') : r'.Housed := by
  unfold Registry.applyCategory at hok
  split at hok
  · cases hok
  · next hmat =>
    exact (Housed.foldl (fun _ _ h => h.mutate _) _ (hr.materialize hmat).1).invalidate hok

theorem Housed.applyTrait (hr : r.Housed) (hok : r.applyTrait c d = .ok r') : r'.Housed := by
  have hdeclares := (later_applyTrait hok).declares
  unfold Registry.applyTrait at hok
  split at hok
  · cases hok
  · next h hh =>
    -- cells are neither made nor dropped, and what was declared still is
    have hext : r'.Extends { r with hierarchy := h } := by
      rw [(invalidate_eq_ok hok).2]
      exact extends_bumpAll _
    have hmixed : ({ r with hierarchy := h } : Registry β).Housed :=
      fun x hx => hext.hierarchy ▸ hdeclares x (hr x hx)
    exact hmixed.invalidate hok

end Registry

/-! ## The cells of an engine -/

theorem Resolver.housed_resolve {β : Type} {q : Resolver β} (hr : q.registry.Housed)
    (hsound : q.registry.Sound) {access : Access} {receiver : Receiver} {name : String}
    {args : ArgShape} : (q.resolve access receiver name args).2.registry.Housed := by
  -- cells come into being for classes of the chain, which are declared
  have hchain : ∀ r, q.registry.materialize receiver.cls = .ok r →
      r.Housed ∧ (r.materializeAll (r.hierarchy.chain receiver.cls)).Housed := by
    intro r hmat
    have hhoused := (hr.materialize hmat).1
    refine ⟨hhoused, hhoused.materializeAll fun d hd => ?_⟩
    exact (hsound.materialize hmat).hierarchy.declares_mem_chain hd
  have hout := q.resolve_outcome access receiver name args
  generalize q.resolve access receiver name args = out at hout
  cases hout with
  | unknown => exact hr
  | remembered hmat => exact (hchain _ hmat).1
  | failed hmat => exact (hchain _ hmat).2
  | found hmat =>
    rw [registry_remember]
    exact (hchain _ hmat).2

namespace Engine

variable {β : Type} {g : Engine β} {op : Operation β}

theorem housed_of_change {f : Registry β → Except DispatchError (Registry β)} {r r' : Registry β}
    (hf : op.change? = some f) (hr : r.Housed) (hok : f r = .ok r') : r'.Housed := by
  cases op with
  | define =>
    cases hf
    obtain ⟨p, hp, rfl⟩ := Registry.define_of_map hok
    exact hr.define hp
  | changeClass => cases hf; exact hr.changeClass hok
  | changeObject => cases hf; exact hr.changeObject hok
  | applyCategory => cases hf; exact hr.applyCategory hok
  | applyTrait => cases hf; exact hr.applyTrait hok
  | invalidate => cases hf; exact hr.invalidate hok
  | membersOf | versionOf => cases hf; exact (hr.materialize hok).1
  | _ => cases hf

/-- Only declared classes ever have cells. -/
theorem Reachable.housed (hg : g.Reachable) : g.registry.Housed := by
  suffices h : g.Reachable ∧ g.registry.Housed from h.2
  refine hg.invariant (P := fun g => g.Reachable ∧ g.registry.Housed)
    (fun settings => ⟨⟨settings, .refl⟩, Registry.housed_initial⟩) ?_
  -- reachability goes along, as a resolution needs the chain to be declared
  rintro g op - ⟨hg, hr⟩
  refine ⟨hg.perform trivial, ?_⟩
  cases hop : op.change? with
  | some f =>
    rw [perform_of_change hop]
    split
    · next hok => exact housed_of_change hop hr hok
    · exact hr
  | none =>
    cases op with
    | define | changeClass | changeObject | applyCategory | applyTrait | invalidate | membersOf
      | versionOf => cases hop
    | resolve => exact Resolver.housed_resolve hr hg.sound
    | resolveClass c name args =>
      simp only [perform, resolveClass, Resolver.resolveClass]
      split
      · exact hr
      · exact hr.materializeAll fun d hd => hg.sound.hierarchy.declares_mem_chain hd
    | openSite id access name =>
      simp only [perform, openSite]
      split
      · split <;> exact hr
      · exact hr
    -- through a site, only a call that asks the resolver creates cells
    | dispatch key receiver args =>
      cases hs : g.sites.get? key with
      | none => simpa only [perform, dispatch, hs] using hr
      | some s =>
        rw [registry, resolver_perform_dispatch hs]
        have hserved : s.Served g.resolver (.ofCall g.registry receiver args)
          (s.dispatch g.policy g.resolver receiver args) := Site.served_dispatch
        generalize s.dispatch g.policy g.resolver receiver args = out at hserved
        cases hserved with
        | hit => exact hr
        | asked => exact Resolver.housed_resolve hr hg.sound
    | _ => exact hr

end Engine

/-! ## Twin registries -/

namespace Registry

variable {β : Type} {r r' r'' : Registry β} {o o' : Owner} {c : ClassRef} {t : MemberTable β}
variable {change : Change β}

/-- The members of a class, or those that an object has of its own. -/
def table? (r : Registry β) : Owner → Option (MemberTable β)
  | .ofClass c => some (r.members c)
  | .ofObject obj => r.ownMembers? obj

/-- The registries have the same classes and members. Stamps may differ, and which classes have
cells. -/
structure Twins (r' r : Registry β) : Prop where
  hierarchy : r'.hierarchy = r.hierarchy
  declared : r'.declared = r.declared
  nextSerial : r'.nextSerial = r.nextSerial
  tables : ∀ o, r'.table? o = r.table? o

namespace Twins

theorem refl (r : Registry β) : r.Twins r := ⟨rfl, rfl, rfl, fun _ => rfl⟩

theorem symm (h : r'.Twins r) : r.Twins r' :=
  ⟨h.hierarchy.symm, h.declared.symm, h.nextSerial.symm, fun o => (h.tables o).symm⟩

theorem trans (h' : r''.Twins r') (h : r'.Twins r) : r''.Twins r :=
  ⟨h'.hierarchy.trans h.hierarchy, h'.declared.trans h.declared, h'.nextSerial.trans h.nextSerial,
    fun o => (h'.tables o).trans (h.tables o)⟩

theorem members (h : r'.Twins r) (c : ClassRef) : r'.members c = r.members c :=
  Option.some.inj (h.tables (.ofClass c))

theorem ownMembers? (h : r'.Twins r) (obj : ObjectRef) : r'.ownMembers? obj = r.ownMembers? obj :=
  h.tables (.ofObject obj)

theorem hasOwnMembers (h : r'.Twins r) (obj : ObjectRef) :
    r'.hasOwnMembers obj = r.hasOwnMembers obj := by
  have hsome := congrArg Option.isSome (h.ownMembers? obj)
  simpa [Registry.ownMembers?, Registry.hasOwnMembers] using hsome

theorem ofValue (h : r'.Twins r) (v : Value) : Receiver.ofValue r' v = Receiver.ofValue r v := by
  cases v with
  | object obj => simp only [Receiver.ofValue, h.hasOwnMembers obj]
  | _ => rfl

/-- In twins every member resolves to the same. -/
theorem lookup (h : r'.Twins r) (access : Access) (receiver : Receiver) (name : String)
    (args : List ClassRef) :
    r'.lookup access receiver name args = r.lookup access receiver name args :=
  lookup_congr h.hierarchy (fun d _ => h.members d) (fun obj _ => h.ownMembers? obj) access name
    args

end Twins

/-! ### Stamps and cells that come into being -/

theorem table?_congr (hext : r'.Extends r)
    (hcell : (r'.cell? o).map (·.members) = (r.cell? o).map (·.members)) :
    r'.table? o = r.table? o := by
  cases o with
  | ofClass c => exact congrArg some (members_congr hext hcell)
  | ofObject obj => exact hcell

theorem twins_ensureClass : (r.ensureClass c).Twins r where
  hierarchy := extends_ensureClass.hierarchy
  declared := extends_ensureClass.declared
  nextSerial := by
    rw [ensureClass_eq]
    unfold ensureCell
    split <;> rfl
  tables o := by
    cases o with
    | ofClass d => exact congrArg some members_ensureClass
    | ofObject obj => exact congrArg (Option.map (·.members)) (cell?_ensureClass_ofObject obj)

theorem twins_bump : (r.bump o).Twins r where
  hierarchy := extends_bump.hierarchy
  declared := extends_bump.declared
  nextSerial := by
    unfold bump
    split <;> rfl
  tables o' := by
    -- a new stamp changes the version of a cell and not its table
    refine table?_congr extends_bump ?_
    rw [cell?_bump]
    split
    · rw [Option.map_map]
      rfl
    · rfl

theorem twins_foldl {α : Type} {f : Registry β → α → Registry β} (hf : ∀ r a, (f r a).Twins r)
    (l : List α) (r : Registry β) : (l.foldl f r).Twins r := by
  induction l generalizing r with
  | nil => exact .refl r
  | cons a rest ih => exact (ih (f r a)).trans (hf r a)

theorem twins_bumpAll (cs : List ClassRef) : (r.bumpAll cs).Twins r :=
  twins_foldl (fun _ _ => twins_bump) cs r

theorem twins_materializeAll (cs : List ClassRef) : (r.materializeAll cs).Twins r :=
  twins_foldl (fun _ _ => twins_ensureClass) cs r

/-! ### Changes of members -/

theorem table?_mutate (hcell : (r.cell? o).isSome) : (r.mutate o change).table? o' =
    if o = o' then (r.table? o').map (·.apply change r.nextSerial) else r.table? o' := by
  obtain ⟨cell, hcell⟩ := Option.isSome_iff_exists.mp hcell
  have hmutate := cell?_mutate r o o' change
  -- the table that is changed is the one under this owner, read off the class or the object
  split
  · next ho =>
    subst ho
    rw [if_pos rfl, hcell] at hmutate
    cases o <;> simp [table?, Registry.members, Registry.ownMembers?, hmutate, hcell]
  · next ho =>
    rw [if_neg ho] at hmutate
    exact table?_congr (extends_mutate change) (by rw [hmutate])

theorem nextSerial_mutate (hcell : (r.cell? o).isSome) :
    (r.mutate o change).nextSerial = r.nextSerial + 1 := by
  obtain ⟨cell, hcell⟩ := Option.isSome_iff_exists.mp hcell
  simp [mutate, hcell]

theorem isSome_cell?_mutate : ((r.mutate o change).cell? o').isSome = (r.cell? o').isSome := by
  rw [cell?_mutate]
  split
  · rw [Option.isSome_map]
  · rfl

/-- A change of an owner that has a cell in both. -/
theorem Twins.mutate (h : r'.Twins r) (hcell' : (r'.cell? o).isSome) (hcell : (r.cell? o).isSome) :
    (r'.mutate o change).Twins (r.mutate o change) where
  hierarchy := by
    rw [(extends_mutate change).hierarchy, (extends_mutate change).hierarchy, h.hierarchy]
  declared := by
    rw [(extends_mutate change).declared, (extends_mutate change).declared, h.declared]
  nextSerial := by rw [nextSerial_mutate hcell', nextSerial_mutate hcell, h.nextSerial]
  tables o' := by rw [table?_mutate hcell', table?_mutate hcell, h.tables, h.nextSerial]

theorem Twins.mutateAll {α : Type} {f : α → Change β} (l : List α) (h : r'.Twins r)
    (hcell' : (r'.cell? o).isSome) (hcell : (r.cell? o).isSome) :
    (l.foldl (fun r a => r.mutate o (f a)) r').Twins (l.foldl (fun r a => r.mutate o (f a)) r) := by
  induction l generalizing r r' with
  | nil => exact h
  | cons a rest ih =>
    exact ih (h.mutate hcell' hcell) (isSome_cell?_mutate.trans hcell')
      (isSome_cell?_mutate.trans hcell)

theorem table?_ensureOwn (obj : ObjectRef) : (r.ensureCell (.ofObject obj) t).table? o =
    if .ofObject obj = o then some ((r.table? o).getD t) else r.table? o := by
  have hcell := cell?_ensureCell r (.ofObject obj) o t
  split
  · next ho =>
    subst ho
    rw [if_pos rfl] at hcell
    simp only [table?, Registry.ownMembers?, hcell]
    cases r.cell? (.ofObject obj) <;> rfl
  · next ho =>
    rw [if_neg ho] at hcell
    exact table?_congr (extends_ensureCell t) (by rw [hcell])

theorem Twins.ensureOwn (h : r'.Twins r) (obj : ObjectRef) :
    (r'.ensureCell (.ofObject obj) t).Twins (r.ensureCell (.ofObject obj) t) where
  hierarchy := by
    rw [(extends_ensureCell t).hierarchy, (extends_ensureCell t).hierarchy, h.hierarchy]
  declared := by
    rw [(extends_ensureCell t).declared, (extends_ensureCell t).declared, h.declared]
  nextSerial := by
    have hsame : ∀ r : Registry β, (r.ensureCell (.ofObject obj) t).nextSerial = r.nextSerial := by
      intro r
      unfold ensureCell
      split <;> rfl
    rw [hsame, hsame, h.nextSerial]
  tables o := by rw [table?_ensureOwn, table?_ensureOwn, h.tables]

/-! ### Operations -/

/-- Both fail with the same error, or both yield registries that are twins. -/
inductive TwinResults :
    Except DispatchError (Registry β) → Except DispatchError (Registry β) → Prop
  | error (e : DispatchError) : TwinResults (.error e) (.error e)
  | ok {r' r : Registry β} (h : r'.Twins r) : TwinResults (.ok r') (.ok r)

theorem Twins.invalidate (h : r'.Twins r) : TwinResults (r'.invalidate c) (r.invalidate c) := by
  unfold Registry.invalidate
  rw [h.hierarchy]
  split
  · exact .error _
  · exact .ok ((twins_bumpAll _).trans (h.trans (twins_bumpAll _).symm))

theorem Housed.materialize_eq (hr : r.Housed) :
    r.materialize c = (r.hierarchy.find c).map fun _ => r.ensureClass c := by
  unfold Registry.materialize
  cases hcell : r.cell? (.ofClass c) with
  | some cell =>
    obtain ⟨info, hinfo⟩ := (hr c (by rw [hcell]; rfl)).find
    rw [hinfo]
    exact congrArg Except.ok (ensureClass_of_isSome (by rw [hcell]; rfl)).symm
  | none => cases r.hierarchy.find c <;> rfl

theorem isSome_cell?_ensureClass : ((r.ensureClass c).cell? (.ofClass c)).isSome := by
  rw [ensureClass_eq, cell?_ensureCell, if_pos rfl]
  rfl

theorem Twins.ensureClass (h : r'.Twins r) : (r'.ensureClass c).Twins (r.ensureClass c) :=
  twins_ensureClass.trans (h.trans twins_ensureClass.symm)

theorem Twins.changeObject (h : r'.Twins r) (obj : ObjectRef) :
    TwinResults (r'.changeObject obj change) (r.changeObject obj change) := by
  unfold Registry.changeObject
  rw [h.hierarchy]
  have hcell : ∀ r : Registry β,
      ((r.ensureCell (.ofObject obj) (.empty (.ofObject obj))).cell? (.ofObject obj)).isSome := by
    intro r
    rw [cell?_ensureCell, if_pos rfl]
    rfl
  -- both refuse the object's class or both find it, and then bring the same table into being
  split
  · exact .error _
  · exact .ok ((h.ensureOwn obj).mutate (hcell r') (hcell r))

section

variable (h : r'.Twins r) (hr' : r'.Housed) (hr : r.Housed)
include h hr' hr

theorem Twins.materialize : TwinResults (r'.materialize c) (r.materialize c) := by
  rw [hr'.materialize_eq, hr.materialize_eq, h.hierarchy]
  cases r.hierarchy.find c with
  | error e => exact .error e
  | ok => exact .ok h.ensureClass

theorem Twins.changeClass : TwinResults (r'.changeClass c change) (r.changeClass c change) := by
  unfold Registry.changeClass
  rw [hr'.materialize_eq, hr.materialize_eq, h.hierarchy]
  cases r.hierarchy.find c with
  | error e => exact .error e
  | ok =>
    exact (h.ensureClass.mutate isSome_cell?_ensureClass isSome_cell?_ensureClass).invalidate

theorem Twins.applyCategory (methods : List (MethodDecl β)) :
    TwinResults (r'.applyCategory c methods) (r.applyCategory c methods) := by
  unfold Registry.applyCategory
  rw [hr'.materialize_eq, hr.materialize_eq, h.hierarchy]
  cases r.hierarchy.find c with
  | error e => exact .error e
  | ok =>
    exact (h.ensureClass.mutateAll methods isSome_cell?_ensureClass
      isSome_cell?_ensureClass).invalidate

end

/-- The tables after a declaration: the new class has what it declares, because it had no cell. -/
theorem Housed.table?_define (hr : r.Housed) (hsound : r.Sound) {header : ClassHeader}
    {methods : List (MethodDecl β)} {p : ClassRef × Registry β}
    (hok : r.define header methods = .ok p) : p.2.table? o =
      if o = .ofClass ⟨r.hierarchy.size⟩ then
        some (.ofDeclared ⟨r.hierarchy.size⟩ (number r.nextSerial methods))
      else r.table? o := by
  unfold Registry.define at hok
  split at hok
  · cases hok
  · cases hok
    cases o with
    | ofObject obj => rfl
    | ofClass d =>
      by_cases hd : d = ⟨r.hierarchy.size⟩
      · subst hd
        -- a class that is not there yet has no cell, so the table is read off the declaration
        have hnone : r.cells.get? (.ofClass ⟨r.hierarchy.size⟩) = none := by
          rw [← Option.not_isSome_iff_eq_none]
          exact fun hcell => Hierarchy.not_declares_new (hr _ hcell)
        have hnew : (r.declared.push (number r.nextSerial methods))[r.hierarchy.size]? =
            some (number r.nextSerial methods) := by
          rw [← hsound.declared]
          exact Array.getElem?_push_size
        simp [table?, Registry.members, cell?, hnone, fresh, declaredMethods, hnew]
      -- the list of another class is where it was
      · have hindex : d.index ≠ r.declared.size := by
          rw [hsound.declared]
          exact fun h => hd (by rw [← h])
        simp [table?, Registry.members, cell?, fresh, declaredMethods, Array.getElem?_push, hindex,
          hd]

theorem define_eq (header : ClassHeader) (methods : List (MethodDecl β)) :
    r.define header methods = (r.hierarchy.define header).map fun hier =>
      (⟨r.hierarchy.size⟩, { r with
        hierarchy := hier
        declared := r.declared.push (number r.nextSerial methods)
        nextSerial := r.nextSerial + methods.length }) := by
  unfold Registry.define
  cases r.hierarchy.define header <;> rfl

/-- A declaration gets the same number in twins, or is refused for the same reason. -/
theorem Twins.define (h : r'.Twins r) (hr' : r'.Housed) (hr : r.Housed) (hsound' : r'.Sound)
    (hsound : r.Sound) (header : ClassHeader) (methods : List (MethodDecl β)) :
    TwinResults ((r'.define header methods).map (·.2)) ((r.define header methods).map (·.2)) ∧
      (r'.define header methods).map (·.1) = (r.define header methods).map (·.1) := by
  have hok := define_eq (r := r) header methods
  have hok' := define_eq (r := r') header methods
  rw [h.hierarchy] at hok'
  cases hdefine : r.hierarchy.define header with
  | error e =>
    rw [hok, hok', hdefine]
    exact ⟨.error e, rfl⟩
  | ok hier =>
    rw [hdefine] at hok hok'
    -- both declarations put the same table for the new class and leave all others
    have htables' := fun o => hr'.table?_define (o := o) hsound' hok'
    have htables := fun o => hr.table?_define (o := o) hsound hok
    rw [hok, hok']
    refine ⟨.ok ⟨rfl, ?_, ?_, fun o => ?_⟩, rfl⟩
    · simp only [h.declared, h.nextSerial]
    · simp only [h.nextSerial]
    · rw [htables', htables, h.hierarchy, h.nextSerial, h.tables]

end Registry

end LateBinding
