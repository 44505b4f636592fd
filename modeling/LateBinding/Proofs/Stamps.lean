import LateBinding.Proofs.Sound

/-!
# What a stamp vouches for

The clock never repeats, so a cell that still has a stamp from before has had it all the time
(`Registry.Later`). If an operation changes the members of a class, it stamps the class and all
that inherit from it anew; so whoever finds a stamp unchanged finds the members of the whole
lookup chain unchanged (`Registry.Vouches`), and looking up anew would yield what it did before
(`Vouches.lookup`).

Traits are the exception: they change the hierarchy, of which lookups see more than the chain
of the receiver.
-/

namespace LateBinding

namespace Registry

variable {β : Type} {r r' r'' : Registry β} {o : Owner} {c d : ClassRef}

/-! ## Stamps from before -/

/-- `r'` is a later state of `r`: no class is lost, and a cell with a stamp from before has not
been stamped since. -/
structure Later (r' r : Registry β) : Prop where
  clock : r.clock ≤ r'.clock
  declares : ∀ c, r.hierarchy.Declares c → r'.hierarchy.Declares c
  version : ∀ o v, v ≤ r.clock → r'.version? o = some v → r.version? o = some v

theorem Later.refl (r : Registry β) : r.Later r := ⟨Nat.le_refl _, fun _ => id, fun _ _ _ => id⟩

theorem Later.trans (h' : r''.Later r') (h : r'.Later r) : r''.Later r where
  clock := Nat.le_trans h.clock h'.clock
  declares c hc := h'.declares c (h.declares c hc)
  version o v hv hsome := h.version o v hv (h'.version o v (Nat.le_trans hv h.clock) hsome)

/-- `r'` is a later state of `r` with the same classes, and a cell with a stamp from before
vouches for the members of its class's chain, or of its object. -/
structure Vouches (r' r : Registry β) : Prop extends Later r' r where
  hierarchy : r'.hierarchy = r.hierarchy
  members : ∀ c v, v ≤ r.clock → r'.version? (.ofClass c) = some v →
    ∀ d ∈ r.hierarchy.chain c, r'.members d = r.members d
  own : ∀ obj v, v ≤ r.clock → r'.version? (.ofObject obj) = some v →
    r'.ownMembers? obj = r.ownMembers? obj

theorem Vouches.refl (r : Registry β) : r.Vouches r :=
  ⟨.refl r, rfl, fun _ _ _ _ _ _ => rfl, fun _ _ _ _ => rfl⟩

theorem Vouches.trans (h' : r''.Vouches r') (h : r'.Vouches r) : r''.Vouches r where
  toLater := h'.toLater.trans h.toLater
  hierarchy := h'.hierarchy.trans h.hierarchy
  members c v hv hsome d hd := by
    have hv' := Nat.le_trans hv h.clock
    rw [h'.members c v hv' hsome d (h.hierarchy ▸ hd)]
    exact h.members c v hv (h'.version _ v hv' hsome) d hd
  own obj v hv hsome := by
    have hv' := Nat.le_trans hv h.clock
    rw [h'.own obj v hv' hsome]
    exact h.own obj v hv (h'.version _ v hv' hsome)

/-- If every cell either is as before or has a new stamp, and the members of classes did not
change, stamps vouch for members. -/
theorem vouches_of_cells (hext : r'.Extends r) (hmembers : ∀ d, r'.members d = r.members d)
    (hcells : ∀ o, r'.cell? o = r.cell? o ∨
      ∀ cell, r'.cell? o = some cell → r.clock < cell.version) :
    r'.Vouches r := by
  -- an old stamp is one from before, so its cell was left alone
  have hold : ∀ o v, v ≤ r.clock → r'.version? o = some v → r'.cell? o = r.cell? o := by
    intro o v hv hsome
    refine (hcells o).resolve_right fun hnew => ?_
    obtain ⟨cell, hcell, rfl⟩ := Option.map_eq_some_iff.mp hsome
    exact absurd hv (Nat.not_le_of_lt (hnew cell hcell))
  exact
    { clock := hext.clock
      declares := fun c hc => hext.hierarchy ▸ hc
      version := fun o v hv hsome => by rwa [version?, ← hold o v hv hsome]
      hierarchy := hext.hierarchy
      members := fun _ _ _ _ d _ => hmembers d
      own := fun obj v hv hsome => by rw [ownMembers?, hold _ v hv hsome, ownMembers?] }

/-! ## Operations on cells -/

theorem members_congr (hext : r'.Extends r)
    (hcell : (r'.cell? (.ofClass d)).map (·.members) = (r.cell? (.ofClass d)).map (·.members)) :
    r'.members d = r.members d := by
  have hmembers : ∀ r : Registry β,
      r.members d = ((r.cell? (.ofClass d)).map (·.members)).getD (r.fresh d) := by
    intro r
    unfold members
    cases r.cell? (.ofClass d) <;> rfl
  rw [hmembers, hmembers, hcell, fresh, declaredMethods, hext.declared, fresh, declaredMethods]

theorem vouches_ensureClass : (r.ensureClass c).Vouches r := by
  refine vouches_of_cells extends_ensureClass (fun _ => members_ensureClass) fun o => ?_
  rw [ensureClass_eq, cell?_ensureCell]
  split
  · next ho =>
    subst ho
    -- a cell that is there stays, and a new one has the next stamp
    cases hcell : r.cell? (.ofClass c) with
    | some cell => exact .inl rfl
    | none =>
      refine .inr fun cell h => ?_
      cases h
      exact Nat.lt_succ_self _
  · exact .inl rfl

theorem vouches_ensureCell_ofObject (obj : ObjectRef) (t : MemberTable β) :
    (r.ensureCell (.ofObject obj) t).Vouches r := by
  -- what an object has itself is no part of any class
  refine vouches_of_cells (extends_ensureCell t) (fun d => members_congr (extends_ensureCell t) ?_)
    fun o => ?_
  · rw [cell?_ensureCell, if_neg nofun]
  · rw [cell?_ensureCell]
    split
    · next ho =>
      subst ho
      -- again, the cell is there or it gets the next stamp
      cases hcell : r.cell? (.ofObject obj) with
      | some cell => exact .inl rfl
      | none =>
        refine .inr fun cell h => ?_
        cases h
        exact Nat.lt_succ_self _
    · exact .inl rfl

theorem members_bump : (r.bump o).members d = r.members d := by
  refine members_congr extends_bump ?_
  rw [cell?_bump]
  split
  · rw [Option.map_map]
    rfl
  · rfl

theorem vouches_bump : (r.bump o).Vouches r := by
  refine vouches_of_cells extends_bump (fun _ => members_bump) fun o' => ?_
  rw [cell?_bump]
  split
  · refine .inr fun cell hcell => ?_
    obtain ⟨old, -, rfl⟩ := Option.map_eq_some_iff.mp hcell
    exact Nat.lt_succ_self _
  · exact .inl rfl

theorem vouches_foldl {α : Type} {f : Registry β → α → Registry β}
    (hf : ∀ r a, (f r a).Vouches r) (l : List α) (r : Registry β) : (l.foldl f r).Vouches r := by
  induction l generalizing r with
  | nil => exact .refl r
  | cons a rest ih => exact (ih (f r a)).trans (hf r a)

theorem vouches_bumpAll (cs : List ClassRef) : (r.bumpAll cs).Vouches r :=
  vouches_foldl (fun _ _ => vouches_bump) cs r

theorem vouches_materializeAll (cs : List ClassRef) : (r.materializeAll cs).Vouches r :=
  vouches_foldl (fun _ _ => vouches_ensureClass) cs r

theorem vouches_mutate_ofObject (obj : ObjectRef) (change : Change β) :
    (r.mutate (.ofObject obj) change).Vouches r := by
  refine vouches_of_cells (extends_mutate change)
    (fun d => members_congr (extends_mutate change) ?_) fun o => ?_
  · rw [cell?_mutate, if_neg nofun]
  · rw [cell?_mutate]
    split
    · refine .inr fun cell hcell => ?_
      obtain ⟨old, -, rfl⟩ := Option.map_eq_some_iff.mp hcell
      exact Nat.lt_succ_self _
    · exact .inl rfl

/-! ## Changes to a class

The members of a class are seen by all that inherit from it, and all of these are stamped
anew. -/

theorem cell?_bumpAll_of_not_mem {cs : List ClassRef} (ho : ∀ x ∈ cs, o ≠ .ofClass x) :
    (r.bumpAll cs).cell? o = r.cell? o := by
  induction cs generalizing r with
  | nil => rfl
  | cons c rest ih =>
    obtain ⟨hc, hrest⟩ := List.forall_mem_cons.mp ho
    show ((r.bump (.ofClass c)).bumpAll rest).cell? o = _
    rw [ih hrest, cell?_bump, if_neg hc.symm]

theorem lt_version_bumpAll {cs : List ClassRef} (hc : c ∈ cs) {cell : Cell β}
    (hcell : (r.bumpAll cs).cell? (.ofClass c) = some cell) : r.clock < cell.version := by
  induction cs generalizing r with
  | nil => cases hc
  | cons x rest ih =>
    -- what counts is the last time that the class is stamped
    by_cases hrest : c ∈ rest
    · exact Nat.lt_of_le_of_lt extends_bump.clock (ih hrest hcell)
    · have hcx : c = x := (List.mem_cons.mp hc).resolve_right hrest
      subst hcx
      have hsame : ((r.bump (.ofClass c)).bumpAll rest).cell? (.ofClass c) =
          (r.bump (.ofClass c)).cell? (.ofClass c) :=
        cell?_bumpAll_of_not_mem fun x hx heq => hrest (Owner.ofClass.inj heq ▸ hx)
      rw [show (r.bumpAll (c :: rest)) = (r.bump (.ofClass c)).bumpAll rest from rfl, hsame,
        cell?_bump, if_pos rfl] at hcell
      obtain ⟨old, -, rfl⟩ := Option.map_eq_some_iff.mp hcell
      exact Nat.lt_succ_self _

/-- After a change to one class, stamping its descendants makes the old stamps vouch again. -/
theorem vouches_of_changed (hext : r'.Extends r) (hc : c ∈ r.hierarchy.chain c)
    (hcells : ∀ o, o ≠ .ofClass c → r'.cell? o = r.cell? o) :
    (r'.bumpAll (r'.hierarchy.descendants c)).Vouches r := by
  have hbump := vouches_bumpAll (r := r') (r'.hierarchy.descendants c)
  -- a class with an old stamp is no descendant of the changed class
  have hold : ∀ x v, v ≤ r.clock →
      (r'.bumpAll (r'.hierarchy.descendants c)).version? (.ofClass x) = some v →
      c ∉ r.hierarchy.chain x := by
    intro x v hv hsome hx
    obtain ⟨cell, hcell, rfl⟩ := Option.map_eq_some_iff.mp hsome
    have hlt := lt_version_bumpAll (Hierarchy.mem_descendants.mpr (hext.hierarchy ▸ hx)) hcell
    exact absurd (Nat.le_trans hv hext.clock) (Nat.not_le_of_lt hlt)
  -- so whatever still has an old stamp was touched neither by the change nor by the stamping
  have hsame : ∀ o v, v ≤ r.clock →
      (r'.bumpAll (r'.hierarchy.descendants c)).version? o = some v →
      r'.version? o = some v ∧ r'.cell? o = r.cell? o := by
    intro o v hv hsome
    refine ⟨hbump.version o v (Nat.le_trans hv hext.clock) hsome, hcells o ?_⟩
    rintro rfl
    exact hold c v hv hsome hc
  exact
    { clock := Nat.le_trans hext.clock hbump.clock
      declares := fun x hx => hbump.declares x (hext.hierarchy ▸ hx)
      version := fun o v hv hsome => by
        obtain ⟨hv', hcell⟩ := hsame o v hv hsome
        rwa [version?, ← hcell]
      hierarchy := hbump.hierarchy.trans hext.hierarchy
      members := fun x v hv hsome d hd => by
        have hdc : Owner.ofClass d ≠ .ofClass c := by
          rintro ⟨⟩
          exact hold x v hv hsome hd
        rw [hbump.members x v (Nat.le_trans hv hext.clock) hsome d (hext.hierarchy ▸ hd)]
        exact members_congr hext (by rw [hcells _ hdc])
      own := fun obj v hv hsome => by
        rw [hbump.own obj v (Nat.le_trans hv hext.clock) hsome, ownMembers?,
          (hsame _ v hv hsome).2, ownMembers?] }

section Operations

variable (hr : r.Sound)
include hr

theorem mem_chain_self (hc : r.hierarchy.Declares c) : c ∈ r.hierarchy.chain c :=
  (hr.hierarchy.mem_chain_iff hc).mpr (.inl .refl)

omit hr in
theorem invalidate_eq_ok (hok : r.invalidate c = .ok r') :
    r.hierarchy.Declares c ∧ r' = r.bumpAll (r.hierarchy.descendants c) := by
  unfold invalidate at hok
  split at hok
  · cases hok
  · next hinfo =>
    cases hok
    exact ⟨Hierarchy.declares_of_get? (Hierarchy.find_eq_ok_iff.mp hinfo), rfl⟩

/-- Changing the cell of a class that has come into being, and then stamping the descendants. -/
theorem vouches_of_invalidate {r₁ : Registry β} (hext : r₁.Extends (r.ensureClass c))
    (hcells : ∀ o, o ≠ .ofClass c → r₁.cell? o = (r.ensureClass c).cell? o)
    (hok : r₁.invalidate c = .ok r') : r'.Vouches r := by
  obtain ⟨hc, rfl⟩ := invalidate_eq_ok hok
  have hhier : (r.ensureClass c).hierarchy = r.hierarchy := extends_ensureClass.hierarchy
  have hself : c ∈ (r.ensureClass c).hierarchy.chain c := by
    rw [hhier]
    rw [hext.hierarchy, hhier] at hc
    exact mem_chain_self hr hc
  exact (vouches_of_changed hext hself hcells).trans vouches_ensureClass

theorem vouches_changeClass {change : Change β} (hok : r.changeClass c change = .ok r') :
    r'.Vouches r := by
  unfold changeClass at hok
  split at hok
  · cases hok
  · next hmat =>
    cases materialize_eq_ok hmat
    refine vouches_of_invalidate hr (extends_mutate change) (fun o ho => ?_) hok
    rw [cell?_mutate, if_neg ho.symm]

omit hr in
/-- Several changes to the members of one owner leave the cells of others alone. -/
theorem cell?_foldl_mutate {α : Type} {o o' : Owner} (ho : o' ≠ o) {change : α → Change β}
    (l : List α) (r : Registry β) :
    (l.foldl (fun r a => r.mutate o (change a)) r).cell? o' = r.cell? o' := by
  induction l generalizing r with
  | nil => rfl
  | cons a rest ih => rw [List.foldl_cons, ih, cell?_mutate, if_neg ho.symm]

theorem vouches_applyCategory {methods : List (MethodDecl β)}
    (hok : r.applyCategory c methods = .ok r') : r'.Vouches r := by
  unfold applyCategory at hok
  split at hok
  · cases hok
  · next hmat =>
    cases materialize_eq_ok hmat
    exact vouches_of_invalidate hr (extends_foldl (fun _ _ => extends_mutate _) _ _)
      (fun o ho => cell?_foldl_mutate ho _ _) hok

omit hr in
theorem vouches_changeObject {obj : ObjectRef} {change : Change β}
    (hok : r.changeObject obj change = .ok r') : r'.Vouches r := by
  unfold changeObject at hok
  split at hok
  · cases hok
  · cases hok
    exact (vouches_mutate_ofObject obj change).trans (vouches_ensureCell_ofObject obj _)

end Operations

/-! ### Declarations and traits

They change the hierarchy, and their stamps vouch for nothing. -/

theorem later_define {header : ClassHeader} {methods : List (MethodDecl β)}
    {p : ClassRef × Registry β} (hok : r.define header methods = .ok p) : p.2.Later r := by
  unfold define at hok
  split at hok
  · cases hok
  · next h' hh =>
    cases hok
    refine ⟨Nat.le_refl _, fun c hc => ?_, fun _ _ _ => id⟩
    show h'.Declares c
    rw [(Hierarchy.define_eq_ok hh).2]
    exact hc.push header

theorem later_applyTrait {iface : ClassRef} (hok : r.applyTrait c iface = .ok r') :
    r'.Later r := by
  unfold applyTrait at hok
  split at hok
  · cases hok
  · next h hh =>
    have hsize := Hierarchy.size_withInterface hh
    have hmixed : ({ r with hierarchy := h } : Registry β).Later r :=
      ⟨Nat.le_refl _, fun c hc => Nat.lt_of_lt_of_eq hc hsize.symm, fun _ _ _ => id⟩
    obtain ⟨-, rfl⟩ := invalidate_eq_ok hok
    exact (vouches_bumpAll _).toLater.trans hmixed

end Registry

/-! ## Guards -/

namespace Guard

variable {β : Type} {r r' : Registry β} {g : Guard} {receiver : Receiver}

/-- The guard is one for a receiver: it names its class, and the object if it has members of
its own. -/
def IsFor (g : Guard) (receiver : Receiver) : Prop :=
  g.cls = receiver.cls ∧ g.own.map (·.1) = receiver.object?

/-- The versions of the guard were handed out. -/
def Issued (g : Guard) (r : Registry β) : Prop :=
  g.version ≤ r.clock ∧ ∀ obj v, g.own = some (obj, v) → v ≤ r.clock

theorem isCurrent_iff : g.isCurrent r ↔ r.version? (.ofClass g.cls) = some g.version ∧
    ∀ obj v, g.own = some (obj, v) → r.version? (.ofObject obj) = some v := by
  unfold isCurrent
  cases g.own with
  | none => simp
  | some p => simp [Prod.ext_iff]

theorem Issued.later (hg : g.Issued r) (h : r'.Later r) : g.Issued r' :=
  ⟨Nat.le_trans hg.1 h.clock, fun obj v hown => Nat.le_trans (hg.2 obj v hown) h.clock⟩

/-- A guard that is current was so all the time since it was issued. -/
theorem isCurrent_of_later (h : r'.Later r) (hg : g.Issued r) (hcur : g.isCurrent r') :
    g.isCurrent r := by
  rw [isCurrent_iff] at hcur ⊢
  exact ⟨h.version _ _ hg.1 hcur.1,
    fun obj v hown => h.version _ _ (hg.2 obj v hown) (hcur.2 obj v hown)⟩

theorem isFor_ofReceiver (r : Registry β) (receiver : Receiver) :
    (Guard.ofReceiver r receiver).IsFor receiver := by
  refine ⟨rfl, ?_⟩
  cases receiver <;> rfl

theorem issued_ofReceiver (hr : r.Sound) (receiver : Receiver) :
    (Guard.ofReceiver r receiver).Issued r := by
  have hle : ∀ o, (r.version? o).getD 0 ≤ r.clock := by
    intro o
    -- an owner without a cell counts as zero, below every stamp
    unfold Registry.version?
    cases hcell : r.cell? o with
    | none => exact Nat.zero_le _
    | some cell => exact hr.stamped hcell
  refine ⟨hle _, fun obj v hown => ?_⟩
  cases receiver with
  | plain => cases hown
  | own o =>
    cases hown
    exact hle _

end Guard

/-- Under a current guard a member resolves to what it resolved to when the guard was issued. -/
theorem Registry.Vouches.lookup {β : Type} {r r' : Registry β} {g : Guard} {receiver : Receiver}
    (h : r'.Vouches r) (hfor : g.IsFor receiver) (hg : g.Issued r) (hcur : g.isCurrent r')
    (access : Access) (name : String) (args : List ClassRef) :
    r'.lookup access receiver name args = r.lookup access receiver name args := by
  rw [Guard.isCurrent_iff] at hcur
  refine Registry.lookup_congr h.hierarchy (fun d hd => ?_) (fun obj hobj => ?_) access name args
  · exact h.members g.cls g.version hg.1 hcur.1 d (hfor.1 ▸ hd)
  · subst hobj
    obtain ⟨⟨_, v⟩, hown, rfl⟩ := Option.map_eq_some_iff.mp hfor.2
    exact h.own _ v (hg.2 _ v hown) (hcur.2 _ v hown)

/-! ## Operations of an engine -/

namespace Engine

variable {β : Type} {g : Engine β} {op : Operation β}

/-- After an operation that neither declares a class nor applies a trait, stamps vouch for what
they did before. -/
theorem vouches_perform (hg : g.registry.Sound) (hdefine : ∀ d methods, op ≠ .define d methods)
    (htrait : ∀ c iface, op ≠ .applyTrait c iface) :
    (g.perform op).registry.Vouches g.registry := by
  -- a change stamps the heirs of its class anew, and a lookup only creates cells
  rcases registry_perform g op with ⟨f, hf, hok⟩ | ⟨cs, hcs⟩
  · cases op with
    | define d methods => exact absurd rfl (hdefine d methods)
    | applyTrait c iface => exact absurd rfl (htrait c iface)
    | changeClass => cases hf; exact Registry.vouches_changeClass hg hok
    | changeObject => cases hf; exact Registry.vouches_changeObject hok
    | applyCategory => cases hf; exact Registry.vouches_applyCategory hg hok
    | invalidate =>
      cases hf
      rw [(Registry.invalidate_eq_ok hok).2]
      exact Registry.vouches_bumpAll _
    | membersOf | versionOf =>
      cases hf
      rw [Registry.materialize_eq_ok hok]
      exact Registry.vouches_ensureClass
    | _ => cases hf
  · rw [hcs]
    exact Registry.vouches_materializeAll cs

theorem later_perform (hg : g.registry.Sound) (op : Operation β) :
    (g.perform op).registry.Later g.registry := by
  rcases registry_perform g op with ⟨f, hf, hok⟩ | ⟨cs, hcs⟩
  · cases op with
    | define d methods =>
      cases hf
      obtain ⟨p, hp, heq⟩ := Registry.define_of_map hok
      exact heq ▸ Registry.later_define hp
    | applyTrait c iface => cases hf; exact Registry.later_applyTrait hok
    | _ => exact (vouches_perform hg (fun _ _ => by simp) (fun _ _ => by simp)).toLater
  · rw [hcs]
    exact (Registry.vouches_materializeAll cs).toLater

end Engine

end LateBinding
