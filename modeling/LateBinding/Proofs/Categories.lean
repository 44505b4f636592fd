import LateBinding.Proofs.Coherence
import LateBinding.Proofs.UnknownMembers

/-!
# Categories that repeat native methods

A category can extend a class by a method that the class has already, with the same name, the same
parameters and variadic or not alike. The native method is preferred then, and more is true: no
lookup sees the method of the category (`Engine.Reachable.category_hides_nothing`).

Of the methods in a table, those count that are *visible*: the native ones, and those from
categories whose signature no native one has. What a table offers depends on the visible methods
alone, since specificity goes by the signature and one with the same signature is always visible.
Only the texts of an ambiguous call can tell the tables apart, as they list what is hidden too.
-/

namespace LateBinding

/-! ## Visible methods -/

namespace MemberTable

variable {β : Type} {t t' t'' : MemberTable β} {m n x : Method β} {ms : List (Method β)}

/-- The table holds the method, and unless it is native, no native one of its signature. -/
def Visible (t : MemberTable β) (m : Method β) : Prop :=
  t.Holds m ∧ (m.origin.isNative = true ∨
    ∀ n, t.Holds n → n.origin.isNative = true → n.signature ≠ m.signature)

theorem visible_native (hm : m.origin.isNative = true) : t.Visible m ↔ t.Holds m :=
  and_iff_left (.inl hm)

theorem exists_visible (hm : t.Holds m) : ∃ x, t.Visible x ∧ x.signature = m.signature := by
  by_cases hhidden : ∃ n, t.Holds n ∧ n.origin.isNative = true ∧ n.signature = m.signature
  · obtain ⟨n, hn, hnative, hsame⟩ := hhidden
    exact ⟨n, (visible_native hnative).mpr hn, hsame⟩
  · refine ⟨m, ⟨hm, .inr ?_⟩, rfl⟩
    intro n hn hnative hsame
    exact hhidden ⟨n, hn, hnative, hsame⟩

/-- The table has a native method of the signature. -/
def HasNative (t : MemberTable β) (s : Signature) : Prop :=
  ∃ n, t.Holds n ∧ n.origin.isNative = true ∧ n.signature = s

/-- The tables have the same visible methods, and the same other members. -/
structure Alike (t' t : MemberTable β) : Prop where
  kept' : t'.WellKept
  kept : t.WellKept
  visible : ∀ m, t'.Visible m ↔ t.Visible m
  properties : t'.properties = t.properties
  methodMissing : t'.methodMissing = t.methodMissing
  propertyMissing : t'.propertyMissing = t.propertyMissing

namespace Alike

theorem refl (ht : t.WellKept) : t.Alike t := ⟨ht, ht, fun _ => .rfl, rfl, rfl, rfl⟩

theorem symm (h : t'.Alike t) : t.Alike t' :=
  ⟨h.kept, h.kept', fun m => (h.visible m).symm, h.properties.symm, h.methodMissing.symm,
    h.propertyMissing.symm⟩

theorem trans (h' : t''.Alike t') (h : t'.Alike t) : t''.Alike t :=
  ⟨h'.kept', h.kept, fun m => (h'.visible m).trans (h.visible m),
    h'.properties.trans h.properties, h'.methodMissing.trans h.methodMissing,
    h'.propertyMissing.trans h.propertyMissing⟩

theorem holds_native (h : t'.Alike t) (hn : n.origin.isNative = true) :
    t'.Holds n ↔ t.Holds n := by
  rw [← visible_native hn, ← visible_native hn]
  exact h.visible n

theorem hasNative {s : Signature} (h : t'.Alike t) (hs : t.HasNative s) : t'.HasNative s := by
  obtain ⟨n, hn, hnative, hsame⟩ := hs
  exact ⟨n, (h.holds_native hnative).mpr hn, hnative, hsame⟩

theorem exists_holds (h : t'.Alike t) (hm : t.Holds m) :
    ∃ x, t'.Holds x ∧ x.signature = m.signature := by
  obtain ⟨x, hx, hsame⟩ := exists_visible hm
  exact ⟨x, ((h.visible x).mpr hx).1, hsame⟩

/-- A method that is native if any of its signature is, is visible. -/
theorem holds_preferred (h : t'.Alike t) (hm : t.Holds m)
    (hnative : ∀ n, t.Holds n → n.signature = m.signature → n.origin.isNative = true →
      m.origin.isNative = true) : t'.Holds m := by
  refine ((h.visible m).mpr ⟨hm, ?_⟩).1
  by_cases hm' : m.origin.isNative = true
  · exact .inl hm'
  · right
    intro n hn hn' hsame
    exact hm' (hnative n hn hsame hn')

end Alike

/-! ### Adding a method of a category -/

/-- What a new method does not replace, stays. -/
theorem mem_install_of_mem (hx : x ∈ ms) (hr : replaces m x = false) : x ∈ install m ms := by
  induction ms with
  | nil => exact absurd hx List.not_mem_nil
  | cons old rest ih =>
    rw [install]
    rcases List.mem_cons.mp hx with rfl | hx
    · simp [hr]
    · split
      · exact List.mem_cons_of_mem _ hx
      · exact List.mem_cons_of_mem _ (ih hx)

theorem holds_addMethod_of_holds (hx : t.Holds x) (hr : replaces m x = false) :
    (t.addMethod m).Holds x := by
  obtain ⟨k, hk⟩ := hx
  refine ⟨k, ?_⟩
  rw [bucket_addMethod]
  split
  · exact mem_install_of_mem hk hr
  · exact hk

theorem replaces_native (hm : m.origin.isNative = false) (hn : n.origin.isNative = true) :
    replaces m n = false := by
  simp [replaces, hm, hn]

/-- A method that is not native leaves the native ones as they are. -/
theorem holds_addMethod_native (hm : m.origin.isNative = false) (hn : n.origin.isNative = true) :
    (t.addMethod m).Holds n ↔ t.Holds n := by
  constructor
  · intro h
    apply (holds_addMethod h).resolve_left
    rintro rfl
    rw [hm] at hn
    cases hn
  · intro h
    exact holds_addMethod_of_holds h (replaces_native hm hn)

/-- A method that is not native changes nothing visible if there is a native one of its
signature: it is not visible itself, and neither was one that it replaces. -/
theorem visible_addMethod (hm : m.origin.isNative = false) (hs : t.HasNative m.signature) :
    (t.addMethod m).Visible x ↔ t.Visible x := by
  obtain ⟨n, hn, hnative, hsame⟩ := hs
  constructor
  · rintro ⟨hx, hvisible⟩
    -- were `x` the new method, a native one of its signature would hide it
    have hheld : t.Holds x := by
      apply (holds_addMethod hx).resolve_left
      rintro rfl
      rcases hvisible with hx' | hnone
      · rw [hm] at hx'
        cases hx'
      · exact hnone n ((holds_addMethod_native hm hnative).mpr hn) hnative hsame
    refine ⟨hheld, hvisible.imp_right fun hnone n hn hnative => ?_⟩
    exact hnone n ((holds_addMethod_native hm hnative).mpr hn) hnative
  · rintro ⟨hx, hvisible⟩
    -- only a method that is hidden as well could have been replaced
    have hstays : replaces m x = false := by
      apply Bool.eq_false_iff.mpr
      intro hr
      obtain ⟨hsame', hboth⟩ := replaces_iff.mp hr
      rcases hvisible with hx' | hnone
      · rw [hm, hx'] at hboth
        cases hboth
      · exact hnone n hn hnative (hsame.trans hsame'.symm)
    refine ⟨holds_addMethod_of_holds hx hstays, hvisible.imp_right fun hnone n hn hnative => ?_⟩
    exact hnone n ((holds_addMethod_native hm hnative).mp hn) hnative

theorem alike_addCategoryMethod (ht : t.WellKept) {d : MethodDecl β}
    (hd : t.HasNative d.signature) (serial : Nat) :
    (t.apply (.addCategoryMethod d) serial).Alike t where
  kept' := ht.apply _ _
  kept := ht
  visible _ := visible_addMethod rfl hd
  properties := rfl
  methodMissing := rfl
  propertyMissing := rfl

end MemberTable

/-! ## Answers -/

/-- The error without the candidates that it names. -/
def DispatchError.withoutCandidates : DispatchError → DispatchError
  | ambiguousOverload cls method args _ => ambiguousOverload cls method args []
  | e => e

/-- The answers are the same, or both are errors that differ at most in the candidates they
name. -/
inductive SameAnswer {α : Type} : Except DispatchError α → Except DispatchError α → Prop
  | ok (a : α) : SameAnswer (.ok a) (.ok a)
  | error {e' e : DispatchError} (h : e'.withoutCandidates = e.withoutCandidates) :
    SameAnswer (.error e') (.error e)

theorem SameAnswer.refl {α : Type} (answer : Except DispatchError α) :
    SameAnswer answer answer := by
  cases answer with
  | ok a => exact .ok a
  | error e => exact .error rfl

namespace Lookup

open MemberTable

variable {β α : Type} {h : Hierarchy} {t t' : MemberTable β} {m x : Method β}
variable {path path' : List (MemberTable β)} {cls : ClassRef} {name : String}
variable {args : List ClassRef}

/-! ### What a table offers -/

/-- What a table offers, by the methods that fit and the choice among them. -/
structure Offers (h : Hierarchy) (cls : ClassRef) (name : String) (args : List ClassRef)
    (Fit Choice : Method β → Prop) (offer : Except DispatchError (Option (Method β))) : Prop where
  some_iff : ∀ m, offer = .ok (some m) ↔ Choice m
  none_iff : offer = .ok none ↔ ∀ m, ¬ Fit m
  ambiguous : ∀ m, Fit m → (∀ x, ¬ Choice x) → ∃ texts,
    offer = .error (.ambiguousOverload (h.nameOf cls) name (classTexts h args) texts)

theorem offers_fixedIn (ht : t.WellKept) (hh : h.WellFormed) :
    Offers h cls name args (Fits h t name args) (FixedChoice h t name args)
      (fixedIn h cls name args t) where
  some_iff _ := fixedIn_eq_some_iff ht hh
  none_iff := fixedIn_eq_none_iff ht hh
  ambiguous _ hm hno := ⟨_, fixedIn_eq_error ht hh hm hno⟩

theorem offers_variadicIn (ht : t.WellKept) (hh : h.WellFormed) :
    Offers h cls name args (FitsMany h t name args) (VariadicChoice h t name args)
      (variadicIn h cls name args t) where
  some_iff _ := variadicIn_eq_some_iff ht
  none_iff := variadicIn_eq_none_iff ht hh
  ambiguous _ hm hno := ⟨_, variadicIn_eq_error ht hh hm hno⟩

/-- Tables offer the same if methods fit in both or in neither, and the choice is the same. -/
theorem Offers.sameAnswer {Fit' Fit Choice' Choice : Method β → Prop}
    {offer' offer : Except DispatchError (Option (Method β))}
    (ho' : Offers h cls name args Fit' Choice' offer')
    (ho : Offers h cls name args Fit Choice offer)
    (hfit : (∃ m, Fit' m) ↔ ∃ m, Fit m) (hchoice : ∀ m, Choice' m ↔ Choice m) :
    SameAnswer offer' offer := by
  -- nothing fits, or one is chosen, or there are some and none of them is chosen
  by_cases hnone : ∃ m, Fit m
  · by_cases hsome : ∃ m, Choice m
    · obtain ⟨m, hm⟩ := hsome
      rw [(ho'.some_iff m).mpr ((hchoice m).mpr hm), (ho.some_iff m).mpr hm]
      exact .ok _
    · have hno : ∀ m, ¬ Choice m := not_exists.mp hsome
      have hno' : ∀ m, ¬ Choice' m := fun m => (hchoice m).not.mpr (hno m)
      obtain ⟨m, hm⟩ := hnone
      -- both calls are ambiguous then, with texts of their own
      obtain ⟨m', hm'⟩ := hfit.mpr ⟨m, hm⟩
      obtain ⟨texts, htexts⟩ := ho.ambiguous m hm hno
      obtain ⟨texts', htexts'⟩ := ho'.ambiguous m' hm' hno'
      rw [htexts, htexts']
      exact .error rfl
  · have hnone' : ¬ ∃ m, Fit' m := hfit.not.mpr hnone
    rw [ho'.none_iff.mpr (not_exists.mp hnone'), ho.none_iff.mpr (not_exists.mp hnone)]
    exact .ok none

theorem Fits.alike (hm : Fits h t name args m) (ha : t'.Alike t) :
    ∃ x, Fits h t' name args x ∧ x.signature = m.signature := by
  obtain ⟨hheld, hname, haccepts⟩ := hm
  obtain ⟨x, hx, hsame⟩ := ha.exists_holds hheld
  rw [← hsame] at hname haccepts
  exact ⟨x, ⟨hx, hname, haccepts⟩, hsame⟩

theorem FitsMany.alike (hm : FitsMany h t name args m) (ha : t'.Alike t) :
    ∃ x, FitsMany h t' name args x ∧ x.signature = m.signature := by
  obtain ⟨hheld, hname, haccepts⟩ := hm
  obtain ⟨x, hx, hsame⟩ := ha.exists_holds hheld
  rw [← hsame] at hname haccepts
  exact ⟨x, ⟨hx, hname, haccepts⟩, hsame⟩

/-- The choice is visible, and it is compared with signatures only. -/
theorem FixedChoice.alike (hc : FixedChoice h t name args m) (ha : t'.Alike t) :
    FixedChoice h t' name args m := by
  obtain ⟨hheld, hname, haccepts⟩ := hc.fits
  -- a choice is visible, as it passes over no native method of its signature
  have hheld' : t'.Holds m := by
    refine ha.holds_preferred hheld fun n hn hsame => hc.native n ?_ hsame
    rw [← hsame] at hname haccepts
    exact ⟨hn, hname, haccepts⟩
  refine ⟨⟨hheld', hname, haccepts⟩, hc.best.imp_right ?_, ?_⟩
  -- whatever competes in the other table has the signature of something that competes here
  · rintro ⟨hnone, hleast⟩
    refine ⟨fun x hx => ?_, fun x hx => ?_⟩
    · obtain ⟨y, hy, hsame⟩ := hx.alike ha.symm
      rw [← hsame]
      exact hnone y hy
    · obtain ⟨y, hy, hsame⟩ := hx.alike ha.symm
      rw [← hsame]
      exact hleast y hy
  · intro x hx hsame hnative
    have hx' : Fits h t name args x := ⟨(ha.holds_native hnative).mp hx.1, hx.2⟩
    exact hc.native x hx' hsame hnative

theorem VariadicChoice.alike (hc : VariadicChoice h t name args m) (ha : t'.Alike t) :
    VariadicChoice h t' name args m := by
  obtain ⟨hheld, hname, haccepts⟩ := hc.fits
  have hheld' : t'.Holds m := by
    refine ha.holds_preferred hheld fun n hn hsame => hc.native n ?_ hsame
    rw [← hsame] at hname haccepts
    exact ⟨hn, hname, haccepts⟩
  -- beating goes by signatures, and the same signatures compete in both tables
  refine ⟨⟨hheld', hname, haccepts⟩, ?_, ?_, ?_⟩
  · intro x hx hbeats
    obtain ⟨y, hy, hsame⟩ := hx.alike ha.symm
    rw [Beats, ← hsame] at hbeats
    exact hc.unbeaten y hy hbeats
  · intro x hx hunbeaten
    obtain ⟨y, hy, hsame⟩ := hx.alike ha.symm
    rw [← hsame]
    refine hc.signature y hy fun z hz hbeats => ?_
    obtain ⟨z', hz', hsame'⟩ := hz.alike ha
    rw [Beats, hsame, ← hsame'] at hbeats
    exact hunbeaten z' hz' hbeats
  · intro x hx hsame hnative
    have hx' : FitsMany h t name args x := ⟨(ha.holds_native hnative).mp hx.1, hx.2⟩
    exact hc.native x hx' hsame hnative

section WellFormed

variable (hh : h.WellFormed)
include hh

theorem sameAnswer_fixedIn (ha : t'.Alike t) :
    SameAnswer (fixedIn h cls name args t') (fixedIn h cls name args t) := by
  apply (offers_fixedIn ha.kept' hh).sameAnswer (offers_fixedIn ha.kept hh)
  · constructor
    · rintro ⟨m, hm⟩
      exact (hm.alike ha.symm).imp fun _ => And.left
    · rintro ⟨m, hm⟩
      exact (hm.alike ha).imp fun _ => And.left
  · exact fun m => ⟨fun hm => hm.alike ha.symm, fun hm => hm.alike ha⟩

theorem sameAnswer_variadicIn (ha : t'.Alike t) :
    SameAnswer (variadicIn h cls name args t') (variadicIn h cls name args t) := by
  apply (offers_variadicIn ha.kept' hh).sameAnswer (offers_variadicIn ha.kept hh)
  · constructor
    · rintro ⟨m, hm⟩
      exact (hm.alike ha.symm).imp fun _ => And.left
    · rintro ⟨m, hm⟩
      exact (hm.alike ha).imp fun _ => And.left
  · exact fun m => ⟨fun hm => hm.alike ha.symm, fun hm => hm.alike ha⟩

end WellFormed

/-! ### What a path offers -/

section Paths

variable (hpath : List.Forall₂ Alike path' path)
include hpath

theorem sameAnswer_firstOffer {offer : MemberTable β → Except DispatchError (Option α)}
    (hoffer : ∀ {t' t}, t'.Alike t → SameAnswer (offer t') (offer t)) :
    SameAnswer (firstOffer offer path') (firstOffer offer path) := by
  -- the first table that offers something or fails decides, and it stands at the same place in both
  induction hpath with
  | nil => exact .ok none
  | cons ha _ ih =>
    have hfirst := hoffer ha
    rw [firstOffer, firstOffer]
    revert hfirst
    generalize offer _ = a', offer _ = a
    rintro (⟨_ | found⟩ | he)
    · exact ih
    · exact .ok _
    · exact .error he

theorem findSome?_alike {f : MemberTable β → Option α} (hf : ∀ {t' t}, t'.Alike t → f t' = f t) :
    path'.findSome? f = path.findSome? f := by
  induction hpath with
  | nil => rfl
  | cons ha _ ih => rw [List.findSome?_cons, List.findSome?_cons, hf ha, ih]

theorem property?_alike :
    path'.findSome? (·.property? name) = path.findSome? (·.property? name) := by
  apply findSome?_alike hpath
  intro t' t ha
  rw [MemberTable.property?, ha.properties, MemberTable.property?]

variable (hh : h.WellFormed)
include hh

theorem sameAnswer_findFixed :
    SameAnswer (findFixed h path' cls name args) (findFixed h path cls name args) :=
  sameAnswer_firstOffer hpath (sameAnswer_fixedIn hh)

theorem sameAnswer_findVariadic :
    SameAnswer (findVariadic h path' cls name args) (findVariadic h path cls name args) :=
  sameAnswer_firstOffer hpath (sameAnswer_variadicIn hh)

theorem sameAnswer_findMethod :
    SameAnswer (findMethod h path' cls name args) (findMethod h path cls name args) := by
  have hfixed : SameAnswer (findFixed h path' cls name args) (findFixed h path cls name args) :=
    sameAnswer_findFixed hpath hh
  have hvariadic : SameAnswer (findVariadic h path' cls name args)
      (findVariadic h path cls name args) := sameAnswer_findVariadic hpath hh
  rw [findMethod, findMethod, findSome?_alike hpath fun ha => ha.methodMissing]
  revert hfixed hvariadic
  generalize findFixed h path' cls name args = a', findFixed h path cls name args = a,
    findVariadic h path' cls name args = b', findVariadic h path cls name args = b
  -- variadic methods are asked for only where no fixed one is found
  rintro (⟨_ | m⟩ | he) hvariadic
  · obtain ⟨_ | m⟩ | he := hvariadic
    · exact .refl _
    · exact .ok _
    · exact .error he
  · exact .ok _
  · exact .error he

theorem sameAnswer_findReader :
    SameAnswer (findReader h path' cls name) (findReader h path cls name) := by
  have hget : SameAnswer (findFixed h path' cls ("get" ++ Text.capitalize name) [])
      (findFixed h path cls ("get" ++ Text.capitalize name) []) := sameAnswer_findFixed hpath hh
  have his : SameAnswer (findFixed h path' cls ("is" ++ Text.capitalize name) [])
      (findFixed h path cls ("is" ++ Text.capitalize name) []) := sameAnswer_findFixed hpath hh
  rw [findReader, findReader]
  -- the reader whose name begins with get comes first
  revert hget
  generalize findFixed h path' cls ("get" ++ Text.capitalize name) [] = a',
    findFixed h path cls ("get" ++ Text.capitalize name) [] = a
  rintro (⟨_ | m⟩ | he)
  · exact his
  · exact .ok _
  · exact .error he

theorem sameAnswer_findRead :
    SameAnswer (findRead h path' cls name) (findRead h path cls name) := by
  have hreader : SameAnswer (findReader h path' cls name) (findReader h path cls name) :=
    sameAnswer_findReader hpath hh
  rw [findRead, findRead, property?_alike hpath, findSome?_alike hpath fun ha => ha.propertyMissing]
  -- a declared property comes before any reader
  cases path.findSome? (·.property? name) with
  | some accessor => exact .refl _
  | none =>
    revert hreader
    generalize findReader h path' cls name = a', findReader h path cls name = a
    rintro (⟨_ | m⟩ | he)
    · exact .refl _
    · exact .ok _
    · exact .error he

theorem sameAnswer_findWrite {value : ClassRef} :
    SameAnswer (findWrite h path' cls name value) (findWrite h path cls name value) := by
  have hwriter : SameAnswer (findWriter h path' cls name value)
      (findWriter h path cls name value) := sameAnswer_findFixed hpath hh
  rw [findWrite, findWrite, property?_alike hpath,
    findSome?_alike hpath fun ha => ha.propertyMissing]
  -- a declared property comes before any writer
  cases path.findSome? (·.property? name) with
  | some accessor => exact .refl _
  | none =>
    revert hwriter
    generalize findWriter h path' cls name value = a', findWriter h path cls name value = a
    rintro (⟨_ | m⟩ | he)
    · exact .refl _
    · exact .ok _
    · exact .error he

theorem sameAnswer_find {access : Access} :
    SameAnswer (find h path' access cls name args) (find h path access cls name args) := by
  cases access with
  | method => exact sameAnswer_findMethod hpath hh
  | read => exact sameAnswer_findRead hpath hh
  | write => exact sameAnswer_findWrite hpath hh

end Paths

end Lookup

/-! ## Registries -/

namespace Registry

variable {β : Type} {r r' r'' : Registry β} {c : ClassRef} {d : MethodDecl β}
variable {methods : List (MethodDecl β)}

/-- The registries have the same classes, whose members are alike, and objects have the same
members of their own. -/
structure Alike (r' r : Registry β) : Prop where
  hierarchy : r'.hierarchy = r.hierarchy
  members : ∀ b, (r'.members b).Alike (r.members b)
  own : ∀ o, r'.cell? (.ofObject o) = r.cell? (.ofObject o)

namespace Alike

theorem trans (h' : r''.Alike r') (h : r'.Alike r) : r''.Alike r :=
  ⟨h'.hierarchy.trans h.hierarchy, fun b => (h'.members b).trans (h.members b),
    fun o => (h'.own o).trans (h.own o)⟩

/-- Registries with the same members are alike. -/
theorem of_members (hr : r.Sound) (hhierarchy : r'.hierarchy = r.hierarchy)
    (hmembers : ∀ b, r'.members b = r.members b)
    (hown : ∀ o, r'.cell? (.ofObject o) = r.cell? (.ofObject o)) : r'.Alike r where
  hierarchy := hhierarchy
  members b := by
    rw [hmembers b]
    exact .refl (hr.members_wellKept b)
  own := hown

theorem path (hr : r.Sound) (h : r'.Alike r) (receiver : Receiver) :
    List.Forall₂ MemberTable.Alike (r'.path receiver) (r.path receiver) := by
  have hclass : List.Forall₂ MemberTable.Alike (r'.classPath receiver.cls)
      (r.classPath receiver.cls) := by
    rw [classPath, classPath, h.hierarchy, List.forall₂_map_left_iff, List.forall₂_map_right_iff]
    exact List.forall₂_same.mpr fun b _ => h.members b
  cases receiver with
  | plain b => exact hclass
  | own o =>
    -- the category is for a class, so the members of the object itself are as they were
    have hsame : r'.ownMembers? o = r.ownMembers? o := by rw [ownMembers?, h.own, ownMembers?]
    show List.Forall₂ _ ((r'.ownMembers? o).toList ++ _) ((r.ownMembers? o).toList ++ _)
    rw [hsame]
    apply List.rel_append _ hclass
    cases hown : r.ownMembers? o with
    | none => exact .nil
    | some t => exact .cons (.refl (hr.ownMembers_wellKept hown)) .nil

/-- Lookups in registries that are alike give the same answer. -/
theorem lookup (hr : r.Sound) (h : r'.Alike r) (access : Access) (receiver : Receiver)
    (name : String) (args : List ClassRef) :
    SameAnswer (r'.lookup access receiver name args) (r.lookup access receiver name args) := by
  unfold Registry.lookup
  rw [h.hierarchy]
  cases r.hierarchy.find receiver.cls with
  | error e => exact .refl _
  | ok info => exact Lookup.sameAnswer_find (h.path hr receiver) hr.hierarchy

end Alike

/-! ### Applying a category -/

theorem alike_ensureClass (hr : r.Sound) : (r.ensureClass c).Alike r :=
  .of_members hr extends_ensureClass.hierarchy (fun _ => members_ensureClass)
    fun _ => cell?_ensureClass_ofObject _

theorem alike_restamp (hr : r.Sound) : (r.restamp c).Alike r :=
  .of_members hr (extends_bumpAll _).hierarchy (fun _ => members_restamp) cell?_restamp_ofObject

/-- Adding one method that repeats a native one. -/
theorem alike_mutate (hr : r.Sound) (hcell : (r.cell? (.ofClass c)).isSome)
    (hd : (r.members c).HasNative d.signature) :
    (r.mutate (.ofClass c) (.addCategoryMethod d)).Alike r where
  hierarchy := (extends_mutate _).hierarchy
  members b := by
    -- one table changes, and by a method that is hidden in it
    by_cases hb : b = c
    · subst hb
      obtain ⟨cell, hcell⟩ := Option.isSome_iff_exists.mp hcell
      have hbefore : r.members b = cell.members := by rw [members, hcell]
      have hafter : (r.mutate (.ofClass b) (.addCategoryMethod d)).members b =
          cell.members.apply (.addCategoryMethod d) r.nextSerial := by
        rw [members, cell?_mutate, if_pos rfl, hcell]
        rfl
      rw [hbefore] at hd ⊢
      rw [hafter]
      exact MemberTable.alike_addCategoryMethod (hr.kept hcell) hd _
    · have hne : Owner.ofClass c ≠ .ofClass b := fun heq => hb (Owner.ofClass.inj heq).symm
      rw [members_congr (extends_mutate _) (by rw [cell?_mutate, if_neg hne])]
      exact .refl (hr.members_wellKept b)
  own o := by
    have hne : Owner.ofClass c ≠ .ofObject o := by
      intro heq
      cases heq
    rw [cell?_mutate, if_neg hne]

/-- Adding several: what is added first hides no native method from what follows. -/
theorem alike_foldl_mutate (hr : r.Sound) (hcell : (r.cell? (.ofClass c)).isSome)
    (hmethods : ∀ d ∈ methods, (r.members c).HasNative d.signature) :
    (methods.foldl (fun r d => r.mutate (.ofClass c) (.addCategoryMethod d)) r).Alike r := by
  induction methods generalizing r with
  | nil => exact .of_members hr rfl (fun _ => rfl) fun _ => rfl
  | cons d rest ih =>
    have hfirst := alike_mutate hr hcell (hmethods d List.mem_cons_self)
    have hcell' : ((r.mutate (.ofClass c) (.addCategoryMethod d)).cell? (.ofClass c)).isSome := by
      rw [cell?_mutate, if_pos rfl, Option.isSome_map]
      exact hcell
    refine (ih (hr.mutate _ _) hcell' fun d' hd' => ?_).trans hfirst
    exact (hfirst.members c).hasNative (hmethods d' (List.mem_cons_of_mem _ hd'))

/-- A category whose methods repeat native ones can be applied, and lookups see nothing of it. -/
theorem alike_applyCategory (hr : r.Sound) (hhoused : r.Housed) (hc : r.hierarchy.Declares c)
    (hmethods : ∀ d ∈ methods, (r.members c).HasNative d.signature) :
    ∃ r', r.applyCategory c methods = .ok r' ∧ r'.Alike r := by
  obtain ⟨info, hfind⟩ := hc.find
  have hmat : r.materialize c = .ok (r.ensureClass c) := by
    rw [hhoused.materialize_eq, hfind]
    rfl
  have hsound := hr.ensureClass c
  have hensured : (r.ensureClass c).Alike r := alike_ensureClass hr
  have hadded := alike_foldl_mutate hsound isSome_cell?_ensureClass fun d hd =>
    (hensured.members c).hasNative (hmethods d hd)
  have hfind' := congrArg (·.find c) (hadded.trans hensured).hierarchy
  have hsound' := Sound.foldl (fun _ d h => h.mutate (.ofClass c) (.addCategoryMethod d))
    methods hsound
  -- new stamps at the end change versions and no members
  refine ⟨_, ?_, ((alike_restamp (c := c) hsound').trans hadded).trans hensured⟩
  simp only [applyCategory, hmat, invalidate, hfind', hfind]
  rfl

end Registry

/-! ## Engines -/

namespace Engine

variable {β : Type} {g : Engine β} {c : ClassRef} {methods : List (MethodDecl β)}

theorem resolveClass_of_error {name : String} {args : List ClassRef} {e : DispatchError}
    (hfind : g.registry.hierarchy.find c = .error e) :
    (g.resolveClass c name args).1 = .error e := by
  unfold registry at hfind
  simp only [resolveClass, Resolver.resolveClass, hfind]

/-- Extending a class by a category whose methods repeat native methods of the class succeeds, and
changes nothing for resolutions with nothing remembered: for every receiver, access, name and
arguments, the target is the same as before, or the error is, but for the candidates that an
ambiguous call lists. So it is for the method that a class resolves to. -/
theorem Reachable.category_hides_nothing (hg : g.Reachable)
    (hc : g.registry.hierarchy.Declares c)
    (hmethods : ∀ d ∈ methods, (g.registry.members c).HasNative d.signature) :
    (g.applyCategory c methods).1 = .ok () ∧
    (∀ access receiver name args, SameAnswer
      ((g.applyCategory c methods).2.clearMemo.decideUncached access receiver name args).1
      (g.clearMemo.decideUncached access receiver name args).1) ∧
    ∀ b name args, SameAnswer ((g.applyCategory c methods).2.resolveClass b name args).1
      (g.resolveClass b name args).1 := by
  obtain ⟨r, hok, halike⟩ := Registry.alike_applyCategory hg.sound hg.housed hc hmethods
  have hfst : (g.applyCategory c methods).1 = .ok () := by
    rw [applyCategory, onRegistry'_fst, hok]
    rfl
  have hsnd : (g.applyCategory c methods).2 = g.withRegistry r := by
    rw [applyCategory, onRegistry'_snd, hok]
  rw [hsnd]
  refine ⟨hfst, fun access receiver name args => ?_, fun b name args => ?_⟩
  · rw [decideUncached_clearMemo, decideUncached_clearMemo]
    show SameAnswer (r.lookup access (.ofValue r receiver) name _) _
    -- the class of a value can be told by the objects, which nobody touched
    rw [Registry.ofValue_congr fun o _ => halike.own o]
    exact halike.lookup hg.sound access _ name _
  -- a class that is not there gives the same error, one that is there is looked up
  · cases hfind : g.registry.hierarchy.find b with
    | error e =>
      have hfind' : (g.withRegistry r).registry.hierarchy.find b = .error e :=
        (congrArg (·.find b) halike.hierarchy).trans hfind
      rw [resolveClass_of_error hfind, resolveClass_of_error hfind']
      exact .refl _
    | ok info =>
      have hb : g.registry.hierarchy.Declares b :=
        Hierarchy.declares_of_get? (Hierarchy.find_eq_ok_iff.mp hfind)
      have hb' : (g.withRegistry r).registry.hierarchy.Declares b := halike.hierarchy ▸ hb
      rw [resolveClass_eq_lookup hb, resolveClass_eq_lookup hb']
      exact halike.lookup hg.sound .method _ name args

/-- The method that the sample class declares for anything, again from a category. -/
def sampleRepeat : List (MethodDecl Unit) := [⟨⟨"m", [.any], false⟩, .body ()⟩]

/-- Calls of the method that the category repeats go to the declared one all the same. -/
theorem category_hides_nothing_sampleClasses :
    sampleClasses.Reachable ∧ sampleClasses.registry.hierarchy.Declares ⟨10⟩ ∧
      (∀ d ∈ sampleRepeat, (sampleClasses.registry.members ⟨10⟩).HasNative d.signature) ∧
      ∃ m, m.origin = .declared ∧
        (sampleClasses.clearMemo.decideUncached .method sampleReceiver "m" [sampleArgument]).1 =
          .ok (.method m) ∧
        ((sampleClasses.applyCategory ⟨10⟩ sampleRepeat).2.clearMemo.decideUncached
          .method sampleReceiver "m" [sampleArgument]).1 = .ok (.method m) := by
  have hreach : sampleClasses.Reachable := reachableBy_sampleClasses fun _ _ _ => trivial
  have hdeclares : sampleClasses.registry.hierarchy.Declares ⟨10⟩ := by decide
  have hrepeat : ∀ d ∈ sampleRepeat,
      (sampleClasses.registry.members ⟨10⟩).HasNative d.signature := by
    intro d hd
    rw [List.mem_singleton.mp hd]
    exact ⟨_, ⟨⟨"m", some 1⟩, List.mem_of_getElem? (i := 0) rfl⟩, rfl, rfl⟩
  obtain ⟨-, hsame, -⟩ := hreach.category_hides_nothing hdeclares hrepeat
  obtain ⟨m, hm, horigin⟩ : ∃ m, (sampleClasses.clearMemo.decideUncached .method sampleReceiver "m"
      [sampleArgument]).1 = .ok (.method m) ∧ m.origin = .declared := ⟨_, rfl, rfl⟩
  have hafter := hsame .method sampleReceiver "m" [sampleArgument]
  rw [hm] at hafter
  refine ⟨hreach, hdeclares, hrepeat, m, horigin, hm, ?_⟩
  revert hafter
  generalize ((sampleClasses.applyCategory ⟨10⟩ sampleRepeat).2.clearMemo.decideUncached .method
    sampleReceiver "m" [sampleArgument]).1 = after
  rintro ⟨⟩
  rfl

end Engine

end LateBinding
