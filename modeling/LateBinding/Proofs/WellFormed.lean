import LateBinding.Proofs.Ancestry

/-!
# Well-formed hierarchies

In a well-formed hierarchy the links are as they should be and the stored chains agree with
them. The builtin hierarchy is well-formed (`WellFormed.builtin`), and declaring classes
(`WellFormed.define`) and mixing in traits (`WellFormed.withInterface`) keep it so; hence
every hierarchy that a program can make is.

Assignability is then a partial order, and no class is a kind of both `Int` and `Float`.
-/

namespace LateBinding.Hierarchy

open Relation (ReflTransGen)

variable {h : Hierarchy} {a b c x : ClassRef}

/-- The links are as they should be, the chains agree with them, and the builtin classes
stand where they are expected. -/
structure WellFormed (h : Hierarchy) : Prop extends h.Linked where
  mem_chain_iff : ∀ {c}, h.Declares c → ∀ {x}, x ∈ h.chain c ↔ h.Inherits c x ∨ x = .object
  int : h.IsClass .int ∧ h.superclassOf .int = some .number
  float : h.IsClass .float ∧ h.superclassOf .float = some .number
  number : h.superclassOf .number = some .object
  null : h.superclassOf .null = some .object

/-! ### Declaring a class -/

theorem get?_push (d : ClassHeader) : (h.push d).get? c =
    if c.index = h.size then (h.push d).get? c else h.get? c := by
  split
  · rfl
  · next hc =>
    simp only [push, get?, size] at hc ⊢
    rw [Array.getElem?_push, if_neg hc]

theorem get?_push_of_declares (d : ClassHeader) (hc : h.Declares c) :
    (h.push d).get? c = h.get? c := by
  rw [get?_push, if_neg (Nat.ne_of_lt hc)]

/-- The superclass of a class that is declared: the one given, or the root. -/
def newSuperclass (h : Hierarchy) (d : ClassHeader) : Option ClassRef :=
  match d.superclass with
  | some c => some c
  | none => if d.isInterface || (⟨h.size⟩ : ClassRef) = .object then none else some .object

theorem get?_push_new (d : ClassHeader) : (h.push d).get? ⟨h.size⟩ =
    some ⟨d.name, h.newSuperclass d, d.interfaces, d.isInterface, d.fields,
      h.linearize ⟨h.size⟩ (h.newSuperclass d) d.interfaces⟩ := by
  simp only [push, get?, size, newSuperclass]
  exact Array.getElem?_push.trans (if_pos rfl)

@[simp] theorem size_push (d : ClassHeader) : (h.push d).size = h.size + 1 := by
  simp [push, size]

theorem declares_push_iff (d : ClassHeader) :
    (h.push d).Declares c ↔ h.Declares c ∨ c = ⟨h.size⟩ := by
  obtain ⟨i⟩ := c
  simp only [Declares, size_push, ClassRef.mk.injEq]
  omega

theorem Declares.push (d : ClassHeader) (hc : h.Declares c) : (h.push d).Declares c :=
  (declares_push_iff d).mpr (.inl hc)

theorem not_declares_new : ¬ h.Declares ⟨h.size⟩ := Nat.lt_irrefl _

theorem chain_push (d : ClassHeader) (hc : h.Declares c) : (h.push d).chain c = h.chain c := by
  rw [chain, get?_push_of_declares d hc, chain]

theorem superclassOf_push (d : ClassHeader) (hc : h.Declares c) :
    (h.push d).superclassOf c = h.superclassOf c := by
  rw [superclassOf, get?_push_of_declares d hc, superclassOf]

theorem interfacesOf_push (d : ClassHeader) (hc : h.Declares c) :
    (h.push d).interfacesOf c = h.interfacesOf c := by
  rw [interfacesOf, get?_push_of_declares d hc, interfacesOf]

theorem isClass_push (d : ClassHeader) (hc : h.IsClass c) : (h.push d).IsClass c :=
  hc.imp fun _ hi => ⟨by rw [get?_push_of_declares d hc.declares, hi.1], hi.2⟩

theorem isInterface_push (d : ClassHeader) (hc : h.IsInterface c) : (h.push d).IsInterface c :=
  hc.imp fun _ hi => ⟨by rw [get?_push_of_declares d hc.declares, hi.1], hi.2⟩

theorem link_push (d : ClassHeader) (hc : h.Declares a) : (h.push d).Link a b ↔ h.Link a b := by
  rw [Link, superclassOf_push d hc, interfacesOf_push d hc, Link]

theorem link_push_new (d : ClassHeader) : (h.push d).Link ⟨h.size⟩ b ↔
    h.newSuperclass d = some b ∨ b ∈ d.interfaces := by
  simp [Link, superclassOf, interfacesOf, get?_push_new]

/-- What is checked of a class before it is declared. -/
structure Admits (h : Hierarchy) (d : ClassHeader) : Prop where
  superclass : ∀ c, d.superclass = some c → h.IsClass c
  superclass_interface : d.isInterface = true → d.superclass = none
  interfaces : ∀ c ∈ d.interfaces, h.IsInterface c

theorem checkInterfaces_eq_ok {name : String} {cs : List ClassRef}
    (hok : h.checkInterfaces name cs = .ok ()) : ∀ c ∈ cs, h.IsInterface c := by
  -- each interface is found and told to be one before the next is looked at
  induction cs with
  | nil => simp
  | cons c rest ih =>
    unfold checkInterfaces at hok
    split at hok
    · cases hok
    · next info hi =>
      split at hok
      · next hinfo =>
        exact List.forall_mem_cons.mpr ⟨⟨info, find_eq_ok_iff.mp hi, hinfo⟩, ih hok⟩
      · cases hok

theorem checkSuperclass_eq_ok {d : ClassHeader} (hok : h.checkSuperclass d = .ok ()) :
    (∀ c, d.superclass = some c → h.IsClass c) ∧
      (d.isInterface = true → d.superclass = none) := by
  unfold checkSuperclass at hok
  split at hok
  -- no superclass is always fine; one that is named must be found, be no interface, and belong to a
  -- class
  · next hnone => simp [hnone]
  · next c hsome =>
    split at hok
    · cases hok
    · next hclass =>
      split at hok
      · cases hok
      · next info hi =>
        split at hok
        · cases hok
        · next hinfo =>
          refine ⟨fun c' hc' => ?_, fun hd => absurd hd hclass⟩
          rw [hsome] at hc'
          cases hc'
          exact ⟨info, find_eq_ok_iff.mp hi, by simpa using hinfo⟩

/-- A class is declared only after it passed all checks. -/
theorem define_eq_ok {d : ClassHeader} {h' : Hierarchy} (hok : h.define d = .ok h') :
    h.Admits d ∧ h' = h.push d := by
  -- four checks in the order of the declaration, of which the first three can refuse it
  unfold define at hok
  split at hok
  · cases hok
  split at hok
  · cases hok
  next hsuper =>
  split at hok
  · cases hok
  next hifaces =>
  cases hok
  have := checkSuperclass_eq_ok hsuper
  exact ⟨⟨this.1, this.2, checkInterfaces_eq_ok hifaces⟩, rfl⟩

section Push

variable {d : ClassHeader}

theorem Linked.declarable_push (hh : h.Linked) (hd : h.Admits d) :
    h.Declarable ⟨h.size⟩ (h.newSuperclass d) d.interfaces where
  index_le := Nat.le_refl _
  isClass c hc := by
    unfold newSuperclass at hc
    -- a class without a named superclass gets the root, an interface gets none
    split at hc
    · next s hs => exact hd.superclass c (hs.trans hc)
    · split at hc
      · cases hc
      · cases hc
        exact hh.root
  isInterface := hd.interfaces
  links c hl := absurd (Hierarchy.declares_of_link hl) not_declares_new

theorem inherits_push_iff (hh : h.Linked) (ha : h.Declares a) :
    (h.push d).Inherits a b ↔ h.Inherits a b := by
  constructor
  · intro hab
    induction hab with
    | refl => exact .refl
    | tail _ hl ih => exact ih.tail ((link_push d (hh.declares_of_inherits ha ih)).mp hl)
  · intro hab
    induction hab with
    | refl => exact .refl
    | tail hac hl ih => exact ih.tail ((link_push d (hh.declares_of_inherits ha hac)).mpr hl)

/-- Nothing inherits from a class that was just declared, except itself. -/
theorem eq_of_inherits_new (hh : h.Linked) (hd : h.Admits d)
    (ha : (h.push d).Inherits a ⟨h.size⟩) : a = ⟨h.size⟩ := by
  rcases ha.cases_tail with ha | ⟨c, -, hl⟩
  · exact ha.symm
  · -- a last link to the new class would lead from a class that was checked before it was there
    exfalso
    rcases (declares_push_iff d).mp (declares_of_link hl) with hc | rfl
    · exact not_declares_new (hh.declares_of_link ((link_push d hc).mp hl))
    · rcases (link_push_new d).mp hl with hs | hi
      · exact not_declares_new ((hh.declarable_push hd).isClass _ hs).declares
      · exact not_declares_new (hd.interfaces _ hi).declares

theorem Linked.push (hh : h.Linked) (hd : h.Admits d) : (h.push d).Linked where
  -- Every part is shown for old classes, whose links are unchanged, and for the new one by its
  -- checks.
  root := isClass_push d hh.root
  noLink_root hl := hh.noLink_root ((link_push d hh.root.declares).mp hl)
  superclass {a b} hs := by
    rcases (declares_push_iff d).mp (Hierarchy.declares_of_link (.inl hs)) with ha | rfl
    · exact isClass_push d (hh.superclass (superclassOf_push d ha ▸ hs))
    · simp only [superclassOf, get?_push_new, Option.bind_some] at hs
      exact isClass_push d ((hh.declarable_push hd).isClass b hs)
  interfaces {a b} hi := by
    rcases (declares_push_iff d).mp (Hierarchy.declares_of_link (.inr hi)) with ha | rfl
    · exact isInterface_push d (hh.interfaces (interfacesOf_push d ha ▸ hi))
    · simp only [interfacesOf, get?_push_new] at hi
      exact isInterface_push d (hd.interfaces b hi)
  superclass_interface {a} ha := by
    rcases (declares_push_iff d).mp ha.declares with hda | rfl
    · rw [superclassOf_push d hda]
      obtain ⟨info, hinfo, hi⟩ := ha
      rw [get?_push_of_declares d hda] at hinfo
      exact hh.superclass_interface ⟨info, hinfo, hi⟩
    · obtain ⟨info, hinfo, hi⟩ := ha
      rw [get?_push_new] at hinfo
      cases hinfo
      simp only at hi
      simp [superclassOf, get?_push_new, newSuperclass, hd.superclass_interface hi, hi]
  acyclic {a b} hab hba := by
    -- an old class reaches old classes only, so a cycle through it is an old one
    by_cases ha : h.Declares a
    · have hab := (inherits_push_iff hh ha).mp hab
      exact hh.acyclic hab ((inherits_push_iff hh (hh.declares_of_inherits ha hab)).mp hba)
    · -- `a` has no descendants: it is new, or not declared at all
      rcases hba.cases_tail with hba | ⟨c, -, hl⟩
      · exact hba
      · have hda : (h.push d).Declares a := by
          rcases (declares_push_iff d).mp (Hierarchy.declares_of_link hl) with hc | rfl
          · exact absurd (hh.declares_of_link ((link_push d hc).mp hl)) ha
          · rcases (link_push_new d).mp hl with hs | hi
            · exact absurd ((hh.declarable_push hd).isClass _ hs).declares ha
            · exact absurd (hd.interfaces _ hi).declares ha
        have hnew : a = ⟨h.size⟩ := ((declares_push_iff d).mp hda).resolve_left ha
        subst hnew
        exact (eq_of_inherits_new hh hd hba).symm

theorem WellFormed.push (hh : h.WellFormed) (hd : h.Admits d) : (h.push d).WellFormed where
  toLinked := hh.toLinked.push hd
  mem_chain_iff {c} hc x := by
    -- old classes keep their chains, and the new chain was computed from old classes alone
    rcases (declares_push_iff d).mp hc with hc | rfl
    · rw [chain_push d hc, hh.mem_chain_iff hc, inherits_push_iff hh.toLinked hc]
    · have hchain : (h.push d).chain ⟨h.size⟩ =
          h.linearize ⟨h.size⟩ (h.newSuperclass d) d.interfaces := by simp [chain, get?_push_new]
      have hdraw := hh.toLinked.declarable_push hd
      rw [hchain, mem_linearize hh.toLinked hdraw, ← or_assoc]
      refine or_congr_left ?_
      -- the links of the new class lead to old ones, and from there on nothing changed
      have hlinks : ∀ c, h.newSuperclass d = some c ∨ c ∈ d.interfaces →
          ((h.push d).Inherits c x ↔ h.Inherits c x) := fun c hc => inherits_push_iff hh.toLinked
        (hc.elim (fun hs => (hdraw.isClass c hs).declares) fun hi => (hd.interfaces c hi).declares)
      calc (x = ⟨h.size⟩ ∨ ∃ c, (h.newSuperclass d = some c ∨ c ∈ d.interfaces) ∧ h.Inherits c x)
          ↔ (⟨h.size⟩ = x ∨ ∃ c, (h.push d).Link ⟨h.size⟩ c ∧ (h.push d).Inherits c x) := by
            refine or_congr eq_comm (exists_congr fun c => ?_)
            rw [link_push_new]
            exact and_congr_right fun hc => (hlinks c hc).symm
        _ ↔ (h.push d).Inherits ⟨h.size⟩ x := ReflTransGen.cases_head_iff.symm
  int := ⟨isClass_push d hh.int.1, by rw [superclassOf_push d hh.int.1.declares, hh.int.2]⟩
  float := ⟨isClass_push d hh.float.1, by rw [superclassOf_push d hh.float.1.declares, hh.float.2]⟩
  number := by rw [superclassOf_push d (Hierarchy.declares_of_link (.inl hh.number)), hh.number]
  null := by rw [superclassOf_push d (Hierarchy.declares_of_link (.inl hh.null)), hh.null]

end Push

theorem WellFormed.define (hh : h.WellFormed) {d : ClassHeader} {h' : Hierarchy}
    (hok : h.define d = .ok h') : h'.WellFormed := by
  obtain ⟨hd, rfl⟩ := define_eq_ok hok
  exact hh.push hd

/-! ### Computing all chains again -/

theorem get?_relinearize : h.relinearize.get? c = (h.get? c).map fun info =>
    { info with chain := h.linearize c info.superclass info.interfaces } := by
  simp [relinearize, get?]

@[simp] theorem size_relinearize : h.relinearize.size = h.size := by
  simp [relinearize, size]

@[simp] theorem superclassOf_relinearize : h.relinearize.superclassOf c = h.superclassOf c := by
  rw [superclassOf, get?_relinearize, superclassOf]
  cases h.get? c <;> rfl

@[simp] theorem interfacesOf_relinearize : h.relinearize.interfacesOf c = h.interfacesOf c := by
  rw [interfacesOf, get?_relinearize, interfacesOf]
  cases h.get? c <;> rfl

@[simp] theorem isClass_relinearize : h.relinearize.IsClass c ↔ h.IsClass c := by
  simp only [IsClass, get?_relinearize]
  cases h.get? c <;> simp

@[simp] theorem isInterface_relinearize : h.relinearize.IsInterface c ↔ h.IsInterface c := by
  simp only [IsInterface, get?_relinearize]
  cases h.get? c <;> simp

@[simp] theorem link_relinearize : h.relinearize.Link a b ↔ h.Link a b := by simp [Link]

@[simp] theorem inherits_relinearize : h.relinearize.Inherits a b ↔ h.Inherits a b := by
  have hlinks : h.relinearize.Link = h.Link := by
    funext a b
    exact propext link_relinearize
  rw [Inherits, hlinks, Inherits]

theorem chain_relinearize (hc : h.Declares c) : h.relinearize.chain c = h.linearizeOf c := by
  obtain ⟨info, hinfo⟩ := declares_iff_get?.mp hc
  simp [chain, get?_relinearize, hinfo, linearizeOf, superclassOf, interfacesOf]

theorem Linked.relinearize (hh : h.Linked) : h.relinearize.Linked where
  root := isClass_relinearize.mpr hh.root
  noLink_root hl := hh.noLink_root (link_relinearize.mp hl)
  superclass hs := isClass_relinearize.mpr (hh.superclass (superclassOf_relinearize ▸ hs))
  interfaces hi := isInterface_relinearize.mpr (hh.interfaces (interfacesOf_relinearize ▸ hi))
  superclass_interface ha := by
    rw [superclassOf_relinearize]
    exact hh.superclass_interface (isInterface_relinearize.mp ha)
  acyclic hab hba := hh.acyclic (inherits_relinearize.mp hab) (inherits_relinearize.mp hba)

/-- After all chains were computed again they agree with the links. -/
theorem Linked.mem_chain_relinearize (hh : h.Linked) (hc : h.relinearize.Declares c) :
    x ∈ h.relinearize.chain c ↔ h.relinearize.Inherits c x ∨ x = .object := by
  have hc : h.Declares c := by simpa [Declares] using hc
  rw [chain_relinearize hc, mem_linearizeOf hh hc, inherits_relinearize]

/-! ### Mixing in a trait -/

section AddInterface

variable {t : ClassRef}

/-- An interface is listed with a class, and no chain is computed again yet. -/
def listInterface (h : Hierarchy) (c t : ClassRef) : Hierarchy :=
  ⟨h.classes.modify c.index fun info => { info with interfaces := info.interfaces ++ [t] }⟩

theorem addInterface_eq : h.addInterface c t = (h.listInterface c t).relinearize := rfl

theorem get?_listInterface : (h.listInterface c t).get? a = (h.get? a).map fun info =>
    if a = c then { info with interfaces := info.interfaces ++ [t] } else info := by
  obtain ⟨i⟩ := a
  obtain ⟨j⟩ := c
  simp only [listInterface, get?, Array.getElem?_modify, ClassRef.mk.injEq, eq_comm (a := i)]
  split <;> simp

@[simp] theorem size_listInterface : (h.listInterface c t).size = h.size := by
  simp [listInterface, size]

@[simp] theorem superclassOf_listInterface :
    (h.listInterface c t).superclassOf a = h.superclassOf a := by
  rw [superclassOf, get?_listInterface, superclassOf]
  cases h.get? a with
  | none => rfl
  | some info =>
    simp only [Option.map_some, Option.bind_some]
    split <;> rfl

theorem mem_interfacesOf_listInterface (hc : h.Declares c) :
    b ∈ (h.listInterface c t).interfacesOf a ↔ b ∈ h.interfacesOf a ∨ a = c ∧ b = t := by
  rw [interfacesOf, get?_listInterface, interfacesOf]
  -- only an entry that is there lists the trait, and the target is there
  cases hi : h.get? a with
  | none =>
    have hne : a ≠ c := fun hac => by
      obtain ⟨info, hinfo⟩ := declares_iff_get?.mp hc
      rw [← hac, hi] at hinfo
      cases hinfo
    simp [hne]
  | some info =>
    simp only [Option.map_some]
    split <;> simp [*]

@[simp] theorem isClass_listInterface : (h.listInterface c t).IsClass a ↔ h.IsClass a := by
  simp only [IsClass, get?_listInterface]
  cases h.get? a with
  | none => simp
  | some info =>
    simp only [Option.map_some, Option.some.injEq]
    split <;> simp

@[simp] theorem isInterface_listInterface :
    (h.listInterface c t).IsInterface a ↔ h.IsInterface a := by
  simp only [IsInterface, get?_listInterface]
  cases h.get? a with
  | none => simp
  | some info =>
    simp only [Option.map_some, Option.some.injEq]
    split <;> simp

theorem link_listInterface (hc : h.Declares c) :
    (h.listInterface c t).Link a b ↔ h.Link a b ∨ a = c ∧ b = t := by
  rw [Link, superclassOf_listInterface, mem_interfacesOf_listInterface hc, ← or_assoc, Link]

/-- What inherits from a class inherits all that a trait brings to it. -/
theorem inherits_listInterface (hc : h.Declares c) : (h.listInterface c t).Inherits a b ↔
    h.Inherits a b ∨ h.Inherits a c ∧ h.Inherits t b := by
  have hmono : ∀ {x y}, h.Inherits x y → (h.listInterface c t).Inherits x y := fun {x y} hxy =>
    ReflTransGen.mono (fun _ _ hl => (link_listInterface hc).mpr (.inl hl) : h.Link ≤ _) x y hxy
  constructor
  · -- a path is old before its first use of the new link and after its last one
    intro hab
    induction hab with
    | refl => exact .inl .refl
    | tail _ hl ih =>
      rcases (link_listInterface hc).mp hl with hl | ⟨rfl, rfl⟩
      · exact ih.imp (·.tail hl) (.imp_right (·.tail hl))
      · exact .inr ⟨ih.elim id And.left, .refl⟩
  · rintro (hab | ⟨hac, htb⟩)
    · exact hmono hab
    · exact ((hmono hac).tail ((link_listInterface hc).mpr (.inr ⟨rfl, rfl⟩))).trans (hmono htb)

theorem Linked.listInterface (hh : h.Linked) (hc : h.Declares c) (ht : h.IsInterface t)
    (hroot : c ≠ .object) (hcycle : ¬ h.Inherits t c) : (h.listInterface c t).Linked where
  root := isClass_listInterface.mpr hh.root
  noLink_root hl := by
    rcases (link_listInterface hc).mp hl with hl | ⟨hc, -⟩
    · exact hh.noLink_root hl
    · exact hroot hc.symm
  superclass hs := isClass_listInterface.mpr (hh.superclass (superclassOf_listInterface ▸ hs))
  interfaces hi := by
    rw [isInterface_listInterface]
    rcases (mem_interfacesOf_listInterface hc).mp hi with hi | ⟨-, rfl⟩
    · exact hh.interfaces hi
    · exact ht
  superclass_interface ha := by
    rw [superclassOf_listInterface]
    exact hh.superclass_interface (isInterface_listInterface.mp ha)
  acyclic hab hba := by
    -- two ways that both lead through the trait would close a cycle from it
    rcases (inherits_listInterface hc).mp hab with hab | ⟨hac, htb⟩ <;>
      rcases (inherits_listInterface hc).mp hba with hba | ⟨hbc, hta⟩
    · exact hh.acyclic hab hba
    · exact absurd ((hta.trans hab).trans hbc) hcycle
    · exact absurd ((htb.trans hba).trans hac) hcycle
    · exact absurd (htb.trans hbc) hcycle

/-- What is checked of a trait before it is mixed into a class. -/
structure Mixable (h : Hierarchy) (c t : ClassRef) : Prop where
  declares : h.Declares c
  isInterface : h.IsInterface t
  not_isAssignable : h.isAssignable t c = false

/-- A trait is mixed in only after it passed all checks; a listed one changes nothing. -/
theorem withInterface_eq_ok {h' : Hierarchy} (hok : h.withInterface c t = .ok h') :
    h.Mixable c t ∧ (t ∈ h.interfacesOf c ∧ h' = h ∨
      t ∉ h.interfacesOf c ∧ h' = h.addInterface c t) := by
  -- four checks again, and then whether the trait is listed already
  unfold withInterface at hok
  split at hok
  · cases hok
  next target htarget =>
  split at hok
  · cases hok
  next added hadded =>
  have htarget := find_eq_ok_iff.mp htarget
  have hadded := find_eq_ok_iff.mp hadded
  split at hok
  · cases hok
  next htrait =>
  split at hok
  · cases hok
  next hcycle =>
  have hmix : h.Mixable c t :=
    ⟨declares_of_get? htarget, ⟨added, hadded, by simpa using htrait⟩, by simpa using hcycle⟩
  have hlisted : h.interfacesOf c = target.interfaces := by rw [interfacesOf, htarget]
  split at hok
  · next hl =>
    cases hok
    exact ⟨hmix, .inl ⟨by simpa [hlisted] using hl, rfl⟩⟩
  · next hl =>
    cases hok
    exact ⟨hmix, .inr ⟨by simpa [hlisted] using hl, rfl⟩⟩

theorem size_withInterface {h' : Hierarchy} (hok : h.withInterface c t = .ok h') :
    h'.size = h.size := by
  obtain ⟨-, ⟨-, rfl⟩ | ⟨-, rfl⟩⟩ := withInterface_eq_ok hok
  · rfl
  · simp [addInterface_eq]

/-- A trait is neither its target nor above it, and the root is above all. -/
theorem Mixable.apart (hmix : h.Mixable c t) (hh : h.WellFormed) :
    t ≠ c ∧ ¬ h.Inherits t c ∧ c ≠ .object := by
  have hassign := hmix.not_isAssignable
  simpa only [isAssignable, Bool.or_eq_false_iff, decide_eq_false_iff_not, List.contains_eq_mem,
    hh.mem_chain_iff hmix.isInterface.declares, not_or] using hassign

theorem WellFormed.addInterface (hh : h.WellFormed) (hmix : h.Mixable c t) :
    (h.addInterface c t).WellFormed := by
  obtain ⟨-, hcycle, hroot⟩ := hmix.apart hh
  have hlisted := hh.toLinked.listInterface hmix.declares hmix.isInterface hroot hcycle
  exact
    { hlisted.relinearize with
      mem_chain_iff := fun hd _ => hlisted.mem_chain_relinearize hd
      int := by simpa [addInterface_eq] using hh.int
      float := by simpa [addInterface_eq] using hh.float
      number := by simpa [addInterface_eq] using hh.number
      null := by simpa [addInterface_eq] using hh.null }

theorem WellFormed.withInterface (hh : h.WellFormed) {h' : Hierarchy}
    (hok : h.withInterface c t = .ok h') : h'.WellFormed := by
  obtain ⟨hmix, ⟨-, rfl⟩ | ⟨-, rfl⟩⟩ := withInterface_eq_ok hok
  · exact hh
  · exact hh.addInterface hmix

/-- Mixing in a trait gives the trait's chain to all heirs of its target, and nothing to others. -/
theorem WellFormed.mem_chain_withInterface (hh : h.WellFormed) {h' : Hierarchy}
    (hok : h.withInterface c t = .ok h') {x y : ClassRef} :
    y ∈ h'.chain x ↔ y ∈ h.chain x ∨ c ∈ h.chain x ∧ y ∈ h.chain t := by
  have hh' := hh.withInterface hok
  have hsize := size_withInterface hok
  obtain ⟨hmix, hcase⟩ := withInterface_eq_ok hok
  by_cases hx : h.Declares x
  · have hx' : h'.Declares x := Nat.lt_of_lt_of_eq hx hsize.symm
    have hinherits : h'.Inherits x y ↔ h.Inherits x y ∨ h.Inherits x c ∧ h.Inherits t y := by
      rcases hcase with ⟨hlisted, rfl⟩ | ⟨-, rfl⟩
      · -- heirs inherit from a listed trait already
        refine (or_iff_left_of_imp ?_).symm
        rintro ⟨hxc, hty⟩
        exact (hxc.tail (.inr hlisted)).trans hty
      · rw [addInterface_eq, inherits_relinearize, inherits_listInterface hmix.declares]
    -- the root is added at the end of chains, and it is not what a trait is mixed into
    have hroot := (hmix.apart hh).2.2
    rw [hh'.mem_chain_iff hx', hh.mem_chain_iff hx, hh.mem_chain_iff hx,
      hh.mem_chain_iff hmix.isInterface.declares, hinherits, or_iff_left hroot]
    constructor
    · rintro ((hxy | ⟨hxc, hty⟩) | hy)
      · exact .inl (.inl hxy)
      · exact .inr ⟨hxc, .inl hty⟩
      · exact .inl (.inr hy)
    · rintro ((hxy | hy) | ⟨hxc, hty | hy⟩)
      · exact .inl (.inl hxy)
      · exact .inr hy
      · exact .inl (.inr ⟨hxc, hty⟩)
      · exact .inr hy
  -- a class that is not declared has no chain, before and after
  · have hx' : ¬ h'.Declares x := fun hx' => hx (Nat.lt_of_lt_of_eq hx' hsize)
    have hno : ∀ z, z ∉ h.chain x := fun z => mt declares_of_mem_chain hx
    simp [hno, mt declares_of_mem_chain hx']

end AddInterface

/-! ### The builtin classes -/

theorem size_builtin : builtin.size = 8 := by decide

theorem superclassOf_builtin : ∀ i < 8, builtin.superclassOf ⟨i⟩ =
    if i = 0 then none else if i = 4 ∨ i = 5 then some .number else some .object := by
  decide

theorem interfacesOf_builtin : ∀ i < 8, builtin.interfacesOf ⟨i⟩ = [] := by
  decide

theorem isInterface_builtin : ∀ i < 8, (builtin.get? ⟨i⟩).map (·.isInterface) = some false := by
  decide

theorem chain_builtin : ∀ i < 8, builtin.chain ⟨i⟩ = builtin.linearizeOf ⟨i⟩ := by
  decide

theorem isClass_builtin (hc : builtin.Declares c) : builtin.IsClass c := by
  have hfalse := isInterface_builtin c.index (size_builtin ▸ hc)
  exact (Option.map_eq_some_iff.mp hfalse).imp fun _ hi => hi

/-- The links of a builtin class lead to the root or to the class of numbers. -/
theorem builtin_link (hl : builtin.Link a b) :
    0 < a.index ∧ b = .object ∨ 3 < a.index ∧ b = .number := by
  have ha : a.index < 8 := size_builtin ▸ declares_of_link hl
  have hsuper := superclassOf_builtin a.index ha
  -- no builtin class lists interfaces, so the link is to a superclass
  rcases hl with hs | hi
  · rw [show (⟨a.index⟩ : ClassRef) = a from rfl, hs] at hsuper
    split at hsuper
    · cases hsuper
    split at hsuper
    · cases hsuper
      exact .inr ⟨by omega, rfl⟩
    · cases hsuper
      exact .inl ⟨by omega, rfl⟩
  · rw [interfacesOf_builtin a.index ha] at hi
    cases hi

theorem builtin_index_le (hab : builtin.Inherits a b) : b.index ≤ a.index := by
  -- every link leads to a class that was declared before
  induction hab with
  | refl => exact Nat.le_refl _
  | tail _ hl ih =>
    rcases builtin_link hl with ⟨hpos, rfl⟩ | ⟨hpos, rfl⟩
    · exact Nat.le_trans (Nat.le_of_lt hpos) ih
    · exact Nat.le_trans (Nat.le_of_lt hpos) ih

theorem Linked.builtin : builtin.Linked where
  root := isClass_builtin (by decide)
  noLink_root hl := by
    rcases builtin_link hl with ⟨hpos, -⟩ | ⟨hpos, -⟩ <;> exact absurd hpos (by decide)
  superclass hs := by
    rcases builtin_link (.inl hs) with ⟨-, rfl⟩ | ⟨-, rfl⟩ <;> exact isClass_builtin (by decide)
  interfaces {a b} hi := by
    have ha : a.index < 8 := size_builtin ▸ Hierarchy.declares_of_link (.inr hi)
    rw [interfacesOf_builtin a.index ha] at hi
    cases hi
  superclass_interface ha := absurd ha (isClass_builtin ha.declares).not_isInterface
  acyclic {a b} hab hba := by
    -- whoever is above comes earlier, so two classes above each other have one place
    have : a.index = b.index := Nat.le_antisymm (builtin_index_le hba) (builtin_index_le hab)
    cases a
    cases b
    simpa using this

theorem WellFormed.builtin : builtin.WellFormed where
  toLinked := .builtin
  mem_chain_iff {c} hc x := by
    have hchain : Hierarchy.builtin.chain c = Hierarchy.builtin.linearizeOf c :=
      chain_builtin c.index (size_builtin ▸ hc)
    rw [hchain]
    exact mem_linearizeOf .builtin hc
  int := ⟨isClass_builtin (by decide), superclassOf_builtin 4 (by decide)⟩
  float := ⟨isClass_builtin (by decide), superclassOf_builtin 5 (by decide)⟩
  number := superclassOf_builtin 3 (by decide)
  null := superclassOf_builtin 1 (by decide)

/-! ### Assignability -/

theorem isAssignable_refl : h.isAssignable a a := by simp [isAssignable]

namespace WellFormed

variable (hh : h.WellFormed)
include hh

/-- The classes on a chain are declared. -/
theorem declares_mem_chain (hx : x ∈ h.chain c) : h.Declares x := by
  have hc := Hierarchy.declares_of_mem_chain hx
  rcases (hh.mem_chain_iff hc).mp hx with hcx | rfl
  · exact hh.declares_of_inherits hc hcx
  · exact hh.root.declares

theorem isAssignable_iff :
    h.isAssignable a b ↔ a = b ∨ h.Declares a ∧ (h.Inherits a b ∨ b = .object) := by
  simp only [isAssignable, Bool.or_eq_true, decide_eq_true_eq, List.contains_iff_mem]
  refine or_congr_right ⟨fun hb => ?_, fun ⟨ha, hb⟩ => (hh.mem_chain_iff ha).mpr hb⟩
  exact ⟨declares_of_mem_chain hb, (hh.mem_chain_iff (declares_of_mem_chain hb)).mp hb⟩

/-- Between declared classes other than the root, assignability is inheritance. -/
theorem inherits_of_isAssignable (hab : h.isAssignable a b) (hb : b ≠ .object) :
    h.Inherits a b := by
  rcases hh.isAssignable_iff.mp hab with rfl | ⟨-, hab | hab⟩
  · exact .refl
  · exact hab
  · exact absurd hab hb

theorem isAssignable_trans (hab : h.isAssignable a b) (hbc : h.isAssignable b c) :
    h.isAssignable a c := by
  rcases hh.isAssignable_iff.mp hab with rfl | ⟨ha, hab'⟩
  · exact hbc
  rcases hh.isAssignable_iff.mp hbc with rfl | ⟨-, hbc' | rfl⟩
  · exact hab
  · refine hh.isAssignable_iff.mpr (.inr ⟨ha, ?_⟩)
    rcases hab' with hab' | rfl
    · exact .inl (hab'.trans hbc')
    · exact .inr (hh.eq_root_of_inherits hbc')
  · exact hh.isAssignable_iff.mpr (.inr ⟨ha, .inr rfl⟩)

theorem isAssignable_antisymm (hab : h.isAssignable a b) (hba : h.isAssignable b a) :
    a = b := by
  -- the root is above all classes without links to it, so it is taken out first
  by_cases ha : a = .object
  · subst ha
    rcases hh.isAssignable_iff.mp hab with hb | ⟨-, hb | hb⟩
    · exact hb
    · exact (hh.eq_root_of_inherits hb).symm
    · exact hb.symm
  by_cases hb : b = .object
  · subst hb
    rcases hh.isAssignable_iff.mp hba with ha' | ⟨-, ha' | ha'⟩
    · exact ha'.symm
    · exact hh.eq_root_of_inherits ha'
    · exact ha'
  -- apart from the root, assignability goes along links, which never lead back
  · exact hh.acyclic (hh.inherits_of_isAssignable hab hb) (hh.inherits_of_isAssignable hba ha)

/-! ### Numbers -/

/-- The superclasses of the class of numbers are the root only. -/
theorem eq_of_number_inherits (hc : h.IsClass c) (hn : h.Inherits .number c) :
    c = .number ∨ c = .object :=
  (hh.eq_or_inherits_superclass hh.number hc hn).imp_right hh.eq_root_of_inherits

theorem not_isAssignable_float_int : ¬ h.isAssignable .float .int := by
  intro hassign
  have hup := hh.inherits_of_isAssignable hassign (by decide)
  rcases hh.eq_or_inherits_superclass hh.float.2 hh.int.1 hup with heq | hnum
  · exact absurd heq (by decide)
  · rcases hh.eq_of_number_inherits hh.int.1 hnum with heq | heq <;> exact absurd heq (by decide)

theorem not_isAssignable_int_float : ¬ h.isAssignable .int .float := by
  intro hassign
  have hup := hh.inherits_of_isAssignable hassign (by decide)
  rcases hh.eq_or_inherits_superclass hh.int.2 hh.float.1 hup with heq | hnum
  · exact absurd heq (by decide)
  · rcases hh.eq_of_number_inherits hh.float.1 hnum with heq | heq <;> exact absurd heq (by decide)

/-- No class is a kind of both `Int` and `Float`: of two such ancestors one would be above the
other. -/
theorem not_int_and_float : ¬ (h.isAssignable a .int ∧ h.isAssignable a .float) := by
  rintro ⟨hint, hfloat⟩
  have hint := hh.inherits_of_isAssignable hint (by decide)
  have hfloat := hh.inherits_of_isAssignable hfloat (by decide)
  rcases hh.inherits_total hh.int.1 hh.float.1 hint hfloat with hup | hup
  · exact hh.not_isAssignable_int_float
      (hh.isAssignable_iff.mpr (.inr ⟨hh.int.1.declares, .inl hup⟩))
  · exact hh.not_isAssignable_float_int
      (hh.isAssignable_iff.mpr (.inr ⟨hh.float.1.declares, .inl hup⟩))

/-- Nil is of no class but its own and the root, interfaces apart. -/
theorem eq_of_isAssignable_null (hc : h.IsClass c) (hnull : h.isAssignable .null c) :
    c = .null ∨ c = .object := by
  by_cases hroot : c = .object
  · exact .inr hroot
  · have hup := hh.inherits_of_isAssignable hnull hroot
    exact (hh.eq_or_inherits_superclass hh.null hc hup).imp_right hh.eq_root_of_inherits

end WellFormed

end LateBinding.Hierarchy
