import LateBinding.Proofs.Choice
import LateBinding.Proofs.Stamps

/-!
# Declaring a class changes no answer

When a class is declared, more parameters become comparable, but for arguments of classes that
were declared before the same methods fit, and the pick among them stays the pick. So whatever
a member resolved to before, it resolves to after (`Registry.lookup_define`). A call that was
ambiguous may have an answer afterwards.
-/

namespace LateBinding

/-- `h'` declares the classes of `h` as `h` does. -/
structure Hierarchy.Grows (h' h : Hierarchy) : Prop where
  wellFormed : h.WellFormed
  wellFormed' : h'.WellFormed
  get? : ∀ c, h.Declares c → h'.get? c = h.get? c

variable {h h' : Hierarchy} {c : ClassRef}

namespace Hierarchy.Grows

variable (hg : h'.Grows h)
include hg

theorem chain (hc : h.Declares c) : h'.chain c = h.chain c := by
  rw [Hierarchy.chain, hg.get? c hc, Hierarchy.chain]

theorem declaresField (hc : h.Declares c) (field : String) :
    h'.declaresField c field = h.declaresField c field := by
  rw [Hierarchy.declaresField, hg.get? c hc, Hierarchy.declaresField]

theorem isAssignable {a : ClassRef} (ha : h.Declares a) (b : ClassRef) :
    h'.isAssignable a b = h.isAssignable a b := by
  rw [Hierarchy.isAssignable, hg.chain ha, Hierarchy.isAssignable]

theorem hasField (hc : h.Declares c) (name : String) :
    Lookup.hasField h' c name = Lookup.hasField h c name := by
  unfold Lookup.hasField
  rw [hg.chain hc, Bool.eq_iff_iff, List.any_eq_true, List.any_eq_true]
  refine exists_congr fun d => and_congr_right fun hd => ?_
  rw [hg.declaresField (hg.wellFormed.declares_mem_chain hd)]

/-! ## Parameters and signatures -/

theorem accepts {a : ClassRef} (ha : h.Declares a) (p : ParamKind) :
    p.accepts h' a = p.accepts h a := by
  cases p with
  | any => rfl
  | ofClass b => rw [ParamKind.accepts, hg.isAssignable ha, ParamKind.accepts]

theorem narrowerOrEqual {p q : ParamKind} (hpq : p.narrowerOrEqual h q) :
    p.narrowerOrEqual h' q := by
  cases q with
  | any => cases p <;> rfl
  -- nothing but the assignability of one class to another looks at the hierarchy
  | ofClass b =>
    cases p with
    | any => cases hpq
    | ofClass a =>
      rw [ParamKind.narrowerOrEqual_ofClass] at hpq ⊢
      refine hpq.imp_left fun hab => ?_
      by_cases ha : h.Declares a
      · rwa [hg.isAssignable ha]
      · -- what is not declared is assignable to itself only
        rcases hg.wellFormed.isAssignable_iff.mp hab with rfl | ⟨ha', -⟩
        · exact Hierarchy.isAssignable_refl
        · exact absurd ha' ha

theorem atLeastAsSpecific {s t : Signature} (hst : s.atLeastAsSpecific h t) :
    s.atLeastAsSpecific h' t := by
  rw [Signature.atLeastAsSpecific_iff] at hst ⊢
  exact hst.imp fun _ _ => hg.narrowerOrEqual

variable {args : List ClassRef} (hargs : ∀ a ∈ args, h.Declares a)
include hargs

theorem fits (params : List ParamKind) :
    Signature.fits h' params args = Signature.fits h params args := by
  unfold Signature.fits
  congr 1
  rw [Bool.eq_iff_iff, List.all_eq_true, List.all_eq_true]
  refine forall₂_congr fun p hp => ?_
  rw [hg.accepts (hargs p.2 (List.of_mem_zip hp).2)]

theorem acceptsAll (s : Signature) : s.accepts h' args = s.accepts h args := by
  rw [Signature.accepts, hg.fits hargs, Signature.accepts]

theorem acceptsMany (s : Signature) : s.acceptsMany h' args = s.acceptsMany h args := by
  unfold Signature.acceptsMany
  cases s.params.getLast? with
  | none => rfl
  | some element =>
    -- the rest goes to the last parameter and the first ones to those before it, all of classes of
    -- before
    have hrest : (args.drop s.leading.length).all (element.accepts h') =
        (args.drop s.leading.length).all (element.accepts h) := by
      rw [Bool.eq_iff_iff, List.all_eq_true, List.all_eq_true]
      refine forall₂_congr fun a ha => ?_
      rw [hg.accepts (hargs a (List.mem_of_mem_drop ha))]
    have hfits : Signature.fits h' s.leading (args.take s.leading.length) =
        Signature.fits h s.leading (args.take s.leading.length) :=
      hg.fits (fun a ha => hargs a (List.mem_of_mem_take ha)) s.leading
    simp only [hrest, hfits]

end Hierarchy.Grows

/-! ## Lookups -/

namespace Lookup

variable {β : Type} {path : List (MemberTable β)} {t : MemberTable β} {cls : ClassRef}
variable {name : String} {args : List ClassRef}

theorem firstOffer_mono {α : Type} {offer offer' : MemberTable β → Except DispatchError (Option α)}
    (hmono : ∀ t ∈ path, ∀ x, offer t = .ok x → offer' t = .ok x) {x : Option α}
    (hx : firstOffer offer path = .ok x) : firstOffer offer' path = .ok x := by
  induction path with
  | nil => exact hx
  | cons t rest ih =>
    rw [firstOffer] at hx ⊢
    have hrest := ih fun s hs => hmono s (List.mem_cons_of_mem _ hs)
    split at hx
    · cases hx
    · next ha => rw [hmono t List.mem_cons_self _ ha]; exact hx
    · next hnone => rw [hmono t List.mem_cons_self _ hnone]; exact hrest hx

variable (hg : h'.Grows h)
include hg

variable (hargs : ∀ a ∈ args, h.Declares a)
include hargs

theorem fits_grow {m : Method β} : Fits h' t name args m ↔ Fits h t name args m := by
  rw [Fits, hg.acceptsAll hargs, Fits]

/-- A choice that is the least stays the least. -/
theorem fixedChoice_grow {m : Method β} (hc : FixedChoice h t name args m) :
    FixedChoice h' t name args m where
  fits := (fits_grow hg hargs).mpr hc.fits
  best := hc.best.imp_right fun ⟨hexact, hleast⟩ =>
    ⟨fun x hx => hexact x ((fits_grow hg hargs).mp hx),
      fun x hx => hg.atLeastAsSpecific (hleast x ((fits_grow hg hargs).mp hx))⟩
  native x hx := hc.native x ((fits_grow hg hargs).mp hx)

theorem fixedIn_grow (ht : t.WellKept) {x : Option (Method β)}
    (hx : fixedIn h cls name args t = .ok x) : fixedIn h' cls name args t = .ok x := by
  cases x with
  | none =>
    rw [fixedIn_eq_none_iff ht hg.wellFormed] at hx
    rw [fixedIn_eq_none_iff ht hg.wellFormed']
    exact fun m hm => hx m ((fits_grow hg hargs).mp hm)
  | some m =>
    rw [fixedIn_eq_some_iff ht hg.wellFormed] at hx
    rw [fixedIn_eq_some_iff ht hg.wellFormed']
    exact fixedChoice_grow hg hargs hx

theorem variadicIn_grow (ht : t.WellKept) {x : Option (Method β)}
    (hx : variadicIn h cls name args t = .ok x) : variadicIn h' cls name args t = .ok x := by
  -- the same methods fit, as none of their parameters can be of a new class and take an old one
  have hsame : variadicFittingIn h' t name args = variadicFittingIn h t name args := by
    simp only [variadicFittingIn, hg.acceptsMany hargs]
  have hdistinct := (ht.distinct ⟨name, none⟩).filter (·.signature.acceptsMany h args)
  show mostSpecific h' cls name args (variadicFittingIn h' t name args) = .ok x
  rw [hsame]
  cases x with
  | none =>
    have hnil := (mostSpecific_eq_none_iff hg.wellFormed).mp hx
    exact (mostSpecific_eq_none_iff hg.wellFormed').mpr hnil
  | some m =>
    -- variadic methods need not have a least one, so the pick itself has to last
    exact (mostSpecific_eq_some_iff hdistinct).mpr (isPick_of_grow
      ((mostSpecific_eq_some_iff hdistinct).mp hx) hg.wellFormed' fun _ _ => hg.atLeastAsSpecific)

variable (hpath : ∀ t ∈ path, t.WellKept)
include hpath

theorem findFixed_grow {x : Option (Method β)} (hx : findFixed h path cls name args = .ok x) :
    findFixed h' path cls name args = .ok x :=
  firstOffer_mono (fun t ht _ => fixedIn_grow hg hargs (hpath t ht)) hx

theorem findVariadic_grow {x : Option (Method β)}
    (hx : findVariadic h path cls name args = .ok x) :
    findVariadic h' path cls name args = .ok x :=
  firstOffer_mono (fun t ht _ => variadicIn_grow hg hargs (hpath t ht)) hx

theorem findMethod_grow {x : Target β} (hx : findMethod h path cls name args = .ok x) :
    findMethod h' path cls name args = .ok x := by
  -- what was found at one stage is found there again, and where nothing was, nothing is
  unfold findMethod at hx ⊢
  split at hx
  · cases hx
  · next hm =>
    rw [findFixed_grow hg hargs hpath hm]
    exact hx
  · next hnone =>
    rw [findFixed_grow hg hargs hpath hnone]
    split at hx
    · cases hx
    · next hm =>
      rw [findVariadic_grow hg hargs hpath hm]
      exact hx
    · next hnone =>
      rw [findVariadic_grow hg hargs hpath hnone]
      dsimp only
      split at hx
      · exact hx
      · cases hx

omit hargs

theorem findReader_grow {x : Option (Method β)} (hx : findReader h path cls name = .ok x) :
    findReader h' path cls name = .ok x := by
  -- readers are asked for without arguments
  have hnil : ∀ a ∈ ([] : List ClassRef), h.Declares a := nofun
  unfold findReader at hx ⊢
  split at hx
  · next hnone =>
    rw [findFixed_grow hg hnil hpath hnone]
    exact findFixed_grow hg hnil hpath hx
  · next hsome =>
    rw [findFixed_grow hg hnil hpath hx]
    cases x with
    | none => exact absurd hx hsome
    | some m => rfl

variable (hcls : h.Declares cls)
include hcls

theorem findRead_grow {x : Target β} (hx : findRead h path cls name = .ok x) :
    findRead h' path cls name = .ok x := by
  unfold findRead at hx ⊢
  -- a declared property comes first in both hierarchies
  split at hx
  · split at hx
    · exact hx
    · cases hx
  · rw [hg.hasField hcls]
    split at hx
    · cases hx
    · next hm => rw [findReader_grow hg hpath hm]; exact hx
    · next hnone =>
      rw [findReader_grow hg hpath hnone]
      dsimp only
      split at hx
      · next hfield => rwa [if_pos hfield]
      · next hfield =>
        rw [if_neg hfield]
        split at hx
        · exact hx
        · cases hx

theorem findWrite_grow {value : ClassRef} (hvalue : h.Declares value) {x : Target β}
    (hx : findWrite h path cls name value = .ok x) : findWrite h' path cls name value = .ok x := by
  -- the writer is found again, or again there is none
  have hwriter : ∀ {x : Option (Method β)}, findWriter h path cls name value = .ok x →
      findWriter h' path cls name value = .ok x :=
    findFixed_grow hg (by simpa using hvalue) hpath
  unfold findWrite at hx ⊢
  split at hx
  · split at hx
    · exact hx
    · cases hx
  · rw [hg.hasField hcls]
    split at hx
    · cases hx
    · next hm => rw [hwriter hm]; exact hx
    · next hnone =>
      rw [hwriter hnone]
      dsimp only
      split at hx
      · next hfield => rwa [if_pos hfield]
      · next hfield =>
        rw [if_neg hfield]
        split at hx
        · exact hx
        · cases hx

include hargs in
theorem find_grow (access : Access) {x : Target β}
    (hx : find h path access cls name args = .ok x) :
    find h' path access cls name args = .ok x := by
  cases access with
  | method => exact findMethod_grow hg hargs hpath hx
  | read => exact findRead_grow hg hpath hcls hx
  | write =>
    refine findWrite_grow hg hpath hcls ?_ hx
    cases args with
    | nil => exact Hierarchy.declares_of_link (.inl hg.wellFormed.null)
    | cons a rest => exact hargs a List.mem_cons_self

end Lookup

namespace Hierarchy

theorem Grows.push (hh : h.WellFormed) {d : ClassHeader} (hd : h.Admits d) : (h.push d).Grows h :=
  ⟨hh, hh.push hd, fun _ hc => get?_push_of_declares d hc⟩

end Hierarchy

namespace Registry

variable {β : Type} {r : Registry β} {d : ClassHeader} {methods : List (MethodDecl β)}
variable {p : ClassRef × Registry β}

theorem path_wellKept (hr : r.Sound) {receiver : Receiver} {t : MemberTable β}
    (ht : t ∈ r.path receiver) : t.WellKept := by
  rcases List.mem_append.mp ht with ht | ht
  · cases receiver with
    | plain => cases ht
    | own obj => exact hr.ownMembers_wellKept (Option.mem_toList.mp ht)
  · obtain ⟨c, -, rfl⟩ := List.mem_map.mp ht
    exact hr.members_wellKept c

/-- The classes and members of `r` are in `r'` as they were; there may be more classes. -/
structure Keeps (r' r : Registry β) : Prop where
  hierarchy : r'.hierarchy.Grows r.hierarchy
  members : ∀ c, r.hierarchy.Declares c → r'.members c = r.members c
  own : ∀ obj, r'.ownMembers? obj = r.ownMembers? obj

/-- A registry that may have more classes finds for the classes of before what was found. -/
theorem lookup_grow {r' : Registry β} (hr : r.Sound) (hk : r'.Keeps r) {receiver : Receiver}
    (hreceiver : r.hierarchy.Declares receiver.cls) {args : List ClassRef}
    (hargs : ∀ a ∈ args, r.hierarchy.Declares a) {access : Access} {name : String} {t : Target β}
    (ht : r.lookup access receiver name args = .ok t) :
    r'.lookup access receiver name args = .ok t := by
  have hg := hk.hierarchy
  -- no table on the path is another one: chains and members of old classes stay
  have hpath : r'.path receiver = r.path receiver := by
    have hclass : r'.classPath receiver.cls = r.classPath receiver.cls := by
      unfold classPath
      rw [hg.chain hreceiver]
      exact List.map_congr_left fun c hc => hk.members c (hg.wellFormed.declares_mem_chain hc)
    unfold path
    rw [hclass]
    cases receiver with
    | plain => rfl
    | own obj => simp only [hk.own]
  have hreceiver' : r'.hierarchy.Declares receiver.cls := by
    rw [Hierarchy.declares_iff_get?, hg.get? _ hreceiver, ← Hierarchy.declares_iff_get?]
    exact hreceiver
  obtain ⟨info, hinfo⟩ := hreceiver.find
  obtain ⟨info', hinfo'⟩ := hreceiver'.find
  unfold lookup at ht ⊢
  rw [hinfo] at ht
  rw [hinfo', hpath]
  exact Lookup.find_grow hg hargs (fun _ => path_wellKept hr) hreceiver access ht

theorem grows_define (hr : r.Sound) (hok : r.define d methods = .ok p) :
    p.2.hierarchy.Grows r.hierarchy := by
  unfold define at hok
  split at hok
  · cases hok
  · next h' hh =>
    cases hok
    obtain ⟨hd, rfl⟩ := Hierarchy.define_eq_ok hh
    exact .push hr.hierarchy hd

theorem keeps_define (hr : r.Sound) (hok : r.define d methods = .ok p) : p.2.Keeps r := by
  have hgrows := grows_define hr hok
  unfold define at hok
  split at hok
  · cases hok
  · cases hok
    refine ⟨hgrows, fun c hc => ?_, fun _ => rfl⟩
    -- the new methods are listed behind those of all classes of before
    have hindex : c.index < r.declared.size := hr.declared ▸ hc
    simp [members, fresh, declaredMethods, cell?, Array.getElem?_push, Nat.ne_of_lt hindex]

/-- What a member of a declared receiver resolves to, it resolves to after a declaration. -/
theorem lookup_define (hr : r.Sound) (hok : r.define d methods = .ok p) {receiver : Receiver}
    (hreceiver : r.hierarchy.Declares receiver.cls) {args : List ClassRef}
    (hargs : ∀ a ∈ args, r.hierarchy.Declares a) {access : Access} {name : String} {t : Target β}
    (ht : r.lookup access receiver name args = .ok t) :
    p.2.lookup access receiver name args = .ok t :=
  lookup_grow hr (keeps_define hr hok) hreceiver hargs ht

end Registry

end LateBinding
