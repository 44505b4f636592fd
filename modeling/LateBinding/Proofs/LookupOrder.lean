import LateBinding.Proofs.WellFormed

/-!
# The order of a lookup chain

A chain is computed in two loops: up along the superclasses, then breadth first through the
interfaces, round by round. Here the order of what they find is said without their rounds and
bounds, and shown to be kept in every hierarchy that declarations and traits can make.

* `Line` and `Visits`: the superclasses from a class up, and what a queue of interfaces visits.
  Both are deterministic, so two hierarchies whose links agree on what is found give one chain.
* `closureOf_order`: a computed chain is made of the two.
* `Orderly`: links never lead back, and the stored chains are those that the links give now.
* `Grown.lookup_order`: the chains of every hierarchy that was made step by step, the order they
  give to classes, and what a trait changes in them.
-/

namespace LateBinding.Hierarchy

open Relation (ReflTransGen)

variable {h h' : Hierarchy} {a b c t x : ClassRef}

/-! ## Walks along links -/

/-- The superclasses from a first one up, nearest first. -/
inductive Line (h : Hierarchy) : Option ClassRef → List ClassRef → Prop
  | top : Line h none []
  | up {c : ClassRef} {line : List ClassRef} (rest : Line h (h.superclassOf c) line) :
      Line h (some c) (c :: line)

/-- What a queue of interfaces adds to the classes seen. The first in the queue is skipped if it
was seen before; otherwise it is added, and the interfaces that it lists are queued last. -/
inductive Visits (h : Hierarchy) : List ClassRef → List ClassRef → List ClassRef → Prop
  | done {seen : List ClassRef} : Visits h seen [] []
  | skip {seen queue found : List ClassRef} {c : ClassRef} (hc : c ∈ seen)
      (rest : Visits h seen queue found) : Visits h seen (c :: queue) found
  | visit {seen queue found : List ClassRef} {c : ClassRef} (hc : c ∉ seen)
      (rest : Visits h (seen ++ [c]) (queue ++ h.interfacesOf c) found) :
      Visits h seen (c :: queue) (c :: found)

namespace Line

variable {next : Option ClassRef} {line line' : List ClassRef}

theorem unique (hl : h.Line next line) (hl' : h.Line next line') : line = line' := by
  induction hl generalizing line' with
  | top =>
    cases hl'
    rfl
  | up _ ih =>
    cases hl' with
    | up rest => rw [ih rest]

/-- A line is what it is by the superclass links of the classes on it. -/
theorem congr (hl : h.Line next line)
    (hagree : ∀ x ∈ line, h'.superclassOf x = h.superclassOf x) : h'.Line next line := by
  induction hl with
  | top => exact .top
  | @up c line _ ih =>
    apply Line.up
    rw [hagree c (by simp)]
    exact ih fun x hx => hagree x (List.mem_cons_of_mem c hx)

theorem inherits (hl : h.Line next line) (hx : x ∈ line) : ∃ c, next = some c ∧ h.Inherits c x := by
  induction hl with
  | top => cases hx
  | up _ ih =>
    rcases List.mem_cons.mp hx with rfl | hx
    · exact ⟨x, rfl, .refl⟩
    · obtain ⟨d, hd, hdx⟩ := ih hx
      exact ⟨_, rfl, .head (.inl hd) hdx⟩

end Line

namespace Visits

variable {seen queue found found' : List ClassRef}

theorem unique (hv : h.Visits seen queue found) (hv' : h.Visits seen queue found') :
    found = found' := by
  -- what is seen already decides between skipping and visiting, so both visits take the same steps
  induction hv generalizing found' with
  | done =>
    cases hv'
    rfl
  | skip hc _ ih =>
    cases hv' with
    | skip _ rest => exact ih rest
    | visit hn _ => exact absurd hc hn
  | visit hn _ ih =>
    cases hv' with
    | skip hc _ => exact absurd hc hn
    | visit _ rest => rw [ih rest]

/-- A visit is what it is by the interfaces that the visited ones list. -/
theorem congr (hv : h.Visits seen queue found)
    (hagree : ∀ x ∈ found, h'.interfacesOf x = h.interfacesOf x) : h'.Visits seen queue found := by
  induction hv with
  | done => exact .done
  | skip hc _ ih => exact .skip hc (ih hagree)
  | @visit _ _ _ c hn _ ih =>
    apply Visits.visit hn
    rw [hagree c (by simp)]
    exact ih fun x hx => hagree x (List.mem_cons_of_mem c hx)

theorem inherits (hv : h.Visits seen queue found) (hx : x ∈ found) :
    ∃ c ∈ queue, h.Inherits c x := by
  induction hv with
  | done => cases hx
  | skip _ _ ih =>
    obtain ⟨d, hd, hdx⟩ := ih hx
    exact ⟨d, List.mem_cons_of_mem _ hd, hdx⟩
  | @visit _ _ _ c _ _ ih =>
    -- `x` is the class that was visited, or it was found from what waited behind it or was queued
    -- by it
    rcases List.mem_cons.mp hx with rfl | hx
    · exact ⟨x, by simp, .refl⟩
    · obtain ⟨d, hd, hdx⟩ := ih hx
      rcases List.mem_append.mp hd with hd | hd
      · exact ⟨d, List.mem_cons_of_mem _ hd, hdx⟩
      · exact ⟨c, by simp, .head (.inr hd) hdx⟩

/-- A round takes a whole frontier from the queue and queues what the new ones in it list: it is
as many steps of the queue. What waited behind the frontier comes before what it queues. -/
theorem of_round (frontier more : List ClassRef)
    (hv : h.Visits (seen ++ unseen seen frontier)
      (more ++ (unseen seen frontier).flatMap h.interfacesOf) found) :
    h.Visits seen (frontier ++ more) (unseen seen frontier ++ found) := by
  induction frontier generalizing seen more with
  | nil => simpa [unseen] using hv
  -- one class after the other is taken from the frontier, at the head of the queue
  | cons c rest ih =>
    by_cases hc : c ∈ seen
    · rw [unseen, if_pos hc] at hv ⊢
      exact .skip hc (ih more hv)
    · rw [unseen, if_neg hc] at hv ⊢
      -- the interfaces of a new class are queued behind all that waits
      show h.Visits seen (c :: (rest ++ more)) (c :: (unseen (seen ++ [c]) rest ++ found))
      apply Visits.visit hc
      rw [List.append_assoc]
      apply ih
      simpa using hv

end Visits

/-! ## The two loops -/

/-- The links of a hierarchy lead to declared classes of the right kind and never back, not even
from a class to itself. -/
structure Forward (h : Hierarchy) : Prop extends h.Linked where
  noLoop : ∀ {a}, ¬ h.Link a a

theorem Forward.not_inherits (hh : h.Forward) (hl : h.Link a b) : ¬ h.Inherits b a := by
  intro hba
  obtain rfl : a = b := hh.acyclic (.single hl) hba
  exact hh.noLoop hl

theorem ascend_line (hh : h.Forward) {n : Nat} (hsize : h.size ≤ n) (steps : Nat)
    (seen : List ClassRef) (next : Option ClassRef) (hseen : seen.Nodup)
    (hn : ∀ c ∈ seen, c.index < n)
    (hnext : ∀ c, next = some c → h.Declares c ∧ ∀ x ∈ seen, ¬ h.Inherits c x)
    (hsteps : n < steps + seen.length) :
    ∃ line, h.Line next line ∧ h.ascend steps seen next = seen ++ line := by
  -- Induction on the steps, of which `hsteps` leaves enough: each one sees a class more, and there
  -- are not more than `n` of them.
  induction steps generalizing seen next with
  | zero =>
    have := length_le_of_nodup hseen hn
    omega
  | succ steps ih =>
    cases next with
    | none => exact ⟨[], .top, by simp [ascend]⟩
    | some c =>
      obtain ⟨hdc, hahead⟩ := hnext c rfl
      -- links never lead back, so the walk ends at the top and not at a class it met before
      have hc : c ∉ seen := fun hc => hahead c hc .refl
      have hrest : ∃ line, h.Line (h.superclassOf c) line ∧
          h.ascend steps (seen ++ [c]) (h.superclassOf c) = seen ++ [c] ++ line := by
        apply ih
        · simpa using hseen.concat hc
        · have : c.index < n := Nat.lt_of_lt_of_le hdc hsize
          simpa [or_imp, forall_and] using ⟨hn, this⟩
        · intro d hd
          refine ⟨(hh.superclass hd).declares, fun x hx hdx => ?_⟩
          rcases List.mem_append.mp hx with hx | hx
          · exact hahead x hx (.head (.inl hd) hdx)
          · obtain rfl : x = c := by simpa using hx
            exact hh.not_inherits (.inl hd) hdx
        · simp only [List.length_append, List.length_singleton]
          omega
      obtain ⟨line, hline, heq⟩ := hrest
      refine ⟨c :: line, .up hline, ?_⟩
      rw [ascend, if_neg hc, heq]
      simp

theorem spread_visits (hh : h.Linked) {n : Nat} (hsize : h.size ≤ n) (rounds : Nat)
    (seen frontier : List ClassRef) (hseen : seen.Nodup) (hn : ∀ c ∈ seen, c.index < n)
    (hfront : ∀ c ∈ frontier, h.Declares c) (hrounds : n < rounds + seen.length) :
    ∃ found, h.Visits seen frontier found ∧ h.spread rounds seen frontier = seen ++ found := by
  -- Induction on the rounds: a round that finds anything makes `seen` longer, so `hrounds` is kept.
  induction rounds generalizing seen frontier with
  | zero =>
    have := length_le_of_nodup hseen hn
    omega
  | succ rounds ih =>
    have hround : ∀ found, h.Visits (seen ++ unseen seen frontier)
        ((unseen seen frontier).flatMap h.interfacesOf) found →
        h.Visits seen frontier (unseen seen frontier ++ found) := by
      intro found hvisits
      simpa using Visits.of_round frontier [] (by simpa using hvisits)
    rw [spread]
    split
    · next hnone =>
      -- a round that finds nothing new is the last one
      refine ⟨[], ?_, by simp⟩
      have hv := hround []
      rw [hnone] at hv
      exact hv .done
    · next hsome =>
      have hpos : 0 < (unseen seen frontier).length := List.length_pos_iff.mpr hsome
      have hrest : ∃ found, h.Visits (seen ++ unseen seen frontier)
          ((unseen seen frontier).flatMap h.interfacesOf) found ∧
          h.spread rounds (seen ++ unseen seen frontier)
            ((unseen seen frontier).flatMap h.interfacesOf) =
            seen ++ unseen seen frontier ++ found := by
        apply ih
        · exact nodup_append_unseen hseen
        · intro c hc
          rcases List.mem_append.mp hc with hc | hc
          · exact hn c hc
          · exact Nat.lt_of_lt_of_le (hfront c (mem_unseen.mp hc).1) hsize
        · intro c hc
          obtain ⟨d, -, hc⟩ := List.mem_flatMap.mp hc
          exact (hh.interfaces hc).declares
        · rw [List.length_append]
          omega
      obtain ⟨found, hvisits, heq⟩ := hrest
      refine ⟨unseen seen frontier ++ found, hround found hvisits, ?_⟩
      rw [heq, List.append_assoc]

section Linearize

variable {own : ClassRef} {superclass : Option ClassRef} {interfaces : List ClassRef}

theorem linearize_eq : h.linearize own superclass interfaces =
    if ClassRef.object ∈ h.closureOf own superclass interfaces then
      h.closureOf own superclass interfaces
    else h.closureOf own superclass interfaces ++ [.object] := rfl

/-- What is found for a class: the class, the line of its superclasses, and what the interfaces
listed on that line lead to. -/
theorem closureOf_order (hh : h.Forward) (hd : h.Declarable own superclass interfaces)
    (hahead : ∀ c, superclass = some c → ¬ h.Inherits c own) :
    ∃ supers found, h.Line superclass supers ∧
      h.Visits (own :: supers) (interfaces ++ supers.flatMap h.interfacesOf) found ∧
      h.closureOf own superclass interfaces = own :: (supers ++ found) := by
  have hown : own.index < h.size + 1 := Nat.lt_succ_of_le hd.index_le
  -- first the line of superclasses, which begins with the class itself
  obtain ⟨supers, hline, hup⟩ := ascend_line hh (Nat.le_succ _) (h.size + 1) [own] superclass
    (by simp) (by simpa using hown)
    (fun c hc => ⟨(hd.isClass c hc).declares, by simpa using hahead c hc⟩) (by simp)
  have hlineOf : h.lineOf own superclass = own :: supers := hup
  have hsearch := search_lineOf hh.toLinked hd
  have hlisted : h.listedOn (own :: supers) interfaces =
      interfaces ++ supers.flatMap h.interfacesOf := rfl
  rw [hlineOf] at hsearch
  -- then the interfaces, where all of the line counts as seen
  obtain ⟨found, hvisits, heq⟩ := spread_visits hh.toLinked (Nat.le_succ _) (h.size + 1)
    (own :: supers) (interfaces ++ supers.flatMap h.interfacesOf) hsearch.nodup
    (by
      intro c hc
      rcases eq_or_isClass_of_mem_lineOf hh.toLinked hd (hlineOf ▸ hc) with rfl | hc
      · exact hown
      · exact Nat.lt_succ_of_lt hc.declares)
    (fun c hc => (isInterface_of_mem_listedOn hh.toLinked hd (hlisted ▸ hc)).declares)
    (by simp)
  refine ⟨supers, found, hline, hvisits, ?_⟩
  rw [closureOf, hlineOf, hlisted, heq, List.cons_append]

/-- The links of a class declared in one hierarchy give the chain that they give in another whose
links agree on all that is inherited through them. -/
theorem linearizeOf_eq_linearize (hh : h.Forward) (hh' : h'.Forward) (hown : h'.Declares own)
    (hd : h.Declarable own (h'.superclassOf own) (h'.interfacesOf own))
    (hahead : ∀ c, h'.superclassOf own = some c → ¬ h.Inherits c own)
    (hagree : ∀ c x, h'.Link own c → h.Inherits c x →
      h'.superclassOf x = h.superclassOf x ∧ h'.interfacesOf x = h.interfacesOf x) :
    h'.linearizeOf own = h.linearize own (h'.superclassOf own) (h'.interfacesOf own) := by
  obtain ⟨supers, found, hline, hvisits, heq⟩ := closureOf_order hh hd hahead
  obtain ⟨supers', found', hline', hvisits', heq'⟩ := closureOf_order hh'
    (hh'.toLinked.declarable hown) fun c hc => hh'.not_inherits (.inl hc)
  -- whatever stands on the line is inherited through a link of `own`, where the links agree
  have hsupers : ∀ x ∈ supers,
      h'.superclassOf x = h.superclassOf x ∧ h'.interfacesOf x = h.interfacesOf x := by
    intro x hx
    obtain ⟨c, hc, hcx⟩ := hline.inherits hx
    exact hagree c x (.inl hc) hcx
  -- both walks find the same, for the second hierarchy has the links that the first one takes
  obtain rfl : supers = supers' := (hline.congr fun x hx => (hsupers x hx).1).unique hline'
  have hlisted : supers.flatMap h'.interfacesOf = supers.flatMap h.interfacesOf :=
    List.flatMap_congr fun x hx => (hsupers x hx).2
  rw [hlisted] at hvisits'
  -- so is whatever the search finds, be it listed by `own` or on its line
  have hfound : ∀ x ∈ found, h'.interfacesOf x = h.interfacesOf x := by
    intro x hx
    obtain ⟨c, hc, hcx⟩ := hvisits.inherits hx
    rcases List.mem_append.mp hc with hc | hc
    · exact (hagree c x (.inr hc) hcx).2
    · obtain ⟨d, hd, hdc⟩ := List.mem_flatMap.mp hc
      obtain ⟨e, he, hed⟩ := hline.inherits hd
      exact (hagree e x (.inl he) (hed.trans (.head (.inr hdc) hcx))).2
  obtain rfl : found = found' := (hvisits.congr hfound).unique hvisits'
  rw [linearizeOf, linearize_eq, heq', linearize_eq, heq]

end Linearize

/-- Links that agree on all that a class inherits give it the same chain. -/
theorem linearizeOf_congr (hh : h.Forward) (hh' : h'.Forward) (hc : h.Declares c)
    (hc' : h'.Declares c) (hagree : ∀ x, h.Inherits c x →
      h'.superclassOf x = h.superclassOf x ∧ h'.interfacesOf x = h.interfacesOf x) :
    h'.linearizeOf c = h.linearizeOf c := by
  -- the links of `c` agree, so what is inherited through them was inherited before
  obtain ⟨hsuper, hifaces⟩ := hagree c .refl
  have hlink : ∀ d, h'.Link c d → h.Link c d := by
    intro d hl
    rwa [Link, hsuper, hifaces] at hl
  rw [linearizeOf_eq_linearize hh hh' hc', hsuper, hifaces, linearizeOf]
  · rw [hsuper, hifaces]
    exact hh.toLinked.declarable hc
  · intro d hd
    exact hh.not_inherits (hlink d (.inl hd))
  · intro d x hl hdx
    exact hagree x (.head (hlink d hl) hdx)

/-! ## Chains that the links give -/

theorem chain_eq_nil (hc : ¬ h.Declares c) : h.chain c = [] :=
  List.eq_nil_iff_forall_not_mem.mpr fun _ hx => hc (declares_of_mem_chain hx)

/-- Links never lead back, every class but the root has a superclass, and the stored chains are
those that the links give now. -/
structure Orderly (h : Hierarchy) : Prop extends h.WellFormed, h.Forward where
  superclassed : ∀ {c}, h.IsClass c → c ≠ .object → ∃ s, h.superclassOf c = some s
  fresh : ∀ {c}, h.Declares c → h.chain c = h.linearizeOf c

theorem Orderly.builtin : builtin.Orderly where
  toWellFormed := .builtin
  noLoop {a} hl := by
    rcases builtin_link hl with ⟨hpos, rfl⟩ | ⟨hpos, rfl⟩ <;> exact absurd hpos (by decide)
  superclassed {c} hc hne := by
    have hsuper := superclassOf_builtin c.index (size_builtin ▸ hc.declares)
    have hpos : c.index ≠ 0 := fun h0 => hne (congrArg ClassRef.mk h0)
    rw [if_neg hpos] at hsuper
    split at hsuper
    · exact ⟨_, hsuper⟩
    · exact ⟨_, hsuper⟩
  fresh {c} hc := chain_builtin c.index (size_builtin ▸ hc)

/-! ### Declaring a class -/

section Push

variable {d : ClassHeader}

theorem Forward.push (hh : h.Forward) (hd : h.Admits d) : (h.push d).Forward where
  toLinked := hh.toLinked.push hd
  noLoop {a} hl := by
    rcases (declares_push_iff d).mp (declares_of_link hl) with ha | rfl
    · exact hh.noLoop ((link_push d ha).mp hl)
    · -- a new class was not there yet when its links were checked
      rcases (link_push_new d).mp hl with hs | hi
      · exact not_declares_new ((hh.toLinked.declarable_push hd).isClass _ hs).declares
      · exact not_declares_new (hd.interfaces _ hi).declares

theorem linearizeOf_push (hh : h.Forward) (hd : h.Admits d) (hc : h.Declares c) :
    (h.push d).linearizeOf c = h.linearizeOf c := by
  apply linearizeOf_congr hh (hh.push hd) hc (hc.push d)
  intro x hcx
  have hx := hh.toLinked.declares_of_inherits hc hcx
  exact ⟨superclassOf_push d hx, interfacesOf_push d hx⟩

/-- The chain of a new class, computed before it was there, is the one that its links give. -/
theorem linearizeOf_push_new (hh : h.Forward) (hd : h.Admits d) :
    (h.push d).linearizeOf ⟨h.size⟩ = h.linearize ⟨h.size⟩ (h.newSuperclass d) d.interfaces := by
  have hdraw := hh.toLinked.declarable_push hd
  have hsuper : (h.push d).superclassOf ⟨h.size⟩ = h.newSuperclass d := by
    simp [superclassOf, get?_push_new]
  have hifaces : (h.push d).interfacesOf ⟨h.size⟩ = d.interfaces := by
    simp [interfacesOf, get?_push_new]
  have hdeclares : ∀ c, (h.push d).Link ⟨h.size⟩ c → h.Declares c := by
    intro c hl
    rcases (link_push_new d).mp hl with hs | hi
    · exact (hdraw.isClass c hs).declares
    · exact (hd.interfaces c hi).declares
  have hnew : (h.push d).Declares ⟨h.size⟩ := (declares_push_iff d).mpr (.inr rfl)
  -- the links are those that were declared, the class is not above itself, and old links stay
  rw [linearizeOf_eq_linearize hh (hh.push hd) hnew, hsuper, hifaces]
  · rwa [hsuper, hifaces]
  · intro c hc hback
    exact not_declares_new (hh.toLinked.declares_of_inherits (hdeclares c (.inl hc)) hback)
  · intro c x hl hcx
    have hx := hh.toLinked.declares_of_inherits (hdeclares c hl) hcx
    exact ⟨superclassOf_push d hx, interfacesOf_push d hx⟩

theorem Orderly.push (hh : h.Orderly) (hd : h.Admits d) : (h.push d).Orderly where
  toWellFormed := hh.toWellFormed.push hd
  noLoop := (hh.toForward.push hd).noLoop
  superclassed {c} hc hne := by
    -- an old class keeps its superclass, and a new one was given the root if it named none
    rcases (declares_push_iff d).mp hc.declares with hold | rfl
    · obtain ⟨info, hinfo, hi⟩ := hc
      rw [get?_push_of_declares d hold] at hinfo
      rw [superclassOf_push d hold]
      exact hh.superclassed ⟨info, hinfo, hi⟩ hne
    · obtain ⟨info, hinfo, hi⟩ := hc
      rw [get?_push_new] at hinfo
      cases hinfo
      simp only at hi
      cases hd : d.superclass with
      | none => simp [superclassOf, get?_push_new, newSuperclass, hd, hi, hne]
      | some s => simp [superclassOf, get?_push_new, newSuperclass, hd]
  fresh {c} hc := by
    rcases (declares_push_iff d).mp hc with hold | rfl
    · rw [chain_push d hold, linearizeOf_push hh.toForward hd hold, hh.fresh hold]
    -- the chain was stored before the class was there
    · rw [linearizeOf_push_new hh.toForward hd]
      simp [chain, get?_push_new]

end Push

/-! ### Mixing in a trait -/

theorem Forward.relinearize (hh : h.Forward) : h.relinearize.Forward where
  toLinked := hh.toLinked.relinearize
  noLoop hl := hh.noLoop (link_relinearize.mp hl)

theorem linearizeOf_relinearize (hh : h.Forward) (hc : h.Declares c) :
    h.relinearize.linearizeOf c = h.linearizeOf c := by
  apply linearizeOf_congr hh hh.relinearize hc
  · simpa [Declares] using hc
  · intro x _
    exact ⟨superclassOf_relinearize, interfacesOf_relinearize⟩

theorem Forward.listInterface (hh : h.Forward) (hlisted : (h.listInterface c t).Linked)
    (hc : h.Declares c) (hne : t ≠ c) : (h.listInterface c t).Forward where
  toLinked := hlisted
  noLoop hl := by
    rcases (link_listInterface hc).mp hl with hl | ⟨rfl, ht⟩
    · exact hh.noLoop hl
    · exact hne ht.symm

/-- A listed interface is seen from the class that lists it only. -/
theorem interfacesOf_listInterface (hne : x ≠ c) :
    (h.listInterface c t).interfacesOf x = h.interfacesOf x := by
  rw [interfacesOf, get?_listInterface, interfacesOf]
  cases h.get? x with
  | none => rfl
  | some info => simp [hne]

section AddInterface

variable (hh : h.Orderly) (hmix : h.Mixable c t)
include hh hmix

theorem Orderly.forward_listInterface : (h.listInterface c t).Forward := by
  obtain ⟨hne, hcycle, hroot⟩ := hmix.apart hh.toWellFormed
  exact hh.toForward.listInterface
    (hh.toLinked.listInterface hmix.declares hmix.isInterface hroot hcycle) hmix.declares hne

theorem Orderly.addInterface : (h.addInterface c t).Orderly where
  toWellFormed := hh.toWellFormed.addInterface hmix
  noLoop := (hh.forward_listInterface hmix).relinearize.noLoop
  superclassed hx hne := by
    rw [addInterface_eq, isClass_relinearize, isClass_listInterface] at hx
    rw [addInterface_eq, superclassOf_relinearize, superclassOf_listInterface]
    exact hh.superclassed hx hne
  fresh {x} hx := by
    have hx : (h.listInterface c t).Declares x := by
      simpa [addInterface_eq, Declares] using hx
    rw [addInterface_eq, chain_relinearize hx,
      linearizeOf_relinearize (hh.forward_listInterface hmix) hx]

/-- A class that does not inherit from the target of a trait keeps its chain, order and all. -/
theorem Orderly.chain_addInterface (hx : c ∉ h.chain x) :
    (h.addInterface c t).chain x = h.chain x := by
  have hforward := hh.forward_listInterface hmix
  by_cases hd : h.Declares x
  · have hd' : (h.listInterface c t).Declares x := by simpa [Declares] using hd
    rw [addInterface_eq, chain_relinearize hd', hh.fresh hd]
    apply linearizeOf_congr hh.toForward hforward hd hd'
    intro y hxy
    -- `c` is not among what `x` inherits, and only the links of `c` changed
    have hne : y ≠ c := by
      rintro rfl
      exact hx ((hh.mem_chain_iff hd).mpr (.inl hxy))
    exact ⟨superclassOf_listInterface, interfacesOf_listInterface hne⟩
  · have hd' : ¬ (h.addInterface c t).Declares x := by
      simpa [addInterface_eq, Declares] using hd
    rw [chain_eq_nil hd, chain_eq_nil hd']

end AddInterface

/-! ## Hierarchies made step by step -/

/-- The hierarchies that the builtin one can grow to. -/
inductive Grown : Hierarchy → Prop
  | builtin : Grown builtin
  | define {h h' : Hierarchy} {d : ClassHeader} (hg : Grown h) (hok : h.define d = .ok h') :
      Grown h'
  | withInterface {h h' : Hierarchy} {c t : ClassRef} (hg : Grown h)
      (hok : h.withInterface c t = .ok h') : Grown h'

theorem Grown.orderly (hg : Grown h) : h.Orderly := by
  induction hg with
  | builtin => exact .builtin
  | define _ hok ih =>
    obtain ⟨hd, rfl⟩ := define_eq_ok hok
    exact ih.push hd
  | withInterface _ hok ih =>
    obtain ⟨hmix, ⟨-, rfl⟩ | ⟨-, rfl⟩⟩ := withInterface_eq_ok hok
    · exact ih
    · exact ih.addInterface hmix

/-- What the stored chain of a class is: in which order it holds what. -/
structure Chained (h : Hierarchy) (c : ClassRef) : Prop where
  fresh : h.chain c = h.linearizeOf c
  head : (h.chain c).head? = some c
  nodup : (h.chain c).Nodup
  ofClass : h.IsClass c → ∃ supers found, h.chain c = c :: (supers ++ found) ∧
    h.Line (h.superclassOf c) supers ∧ (c :: supers).getLast? = some .object ∧
    h.Visits (c :: supers) (h.interfacesOf c ++ supers.flatMap h.interfacesOf) found ∧
    ∀ x ∈ found, h.IsInterface x
  ofInterface : h.IsInterface c → ∃ found, h.chain c = c :: (found ++ [.object]) ∧
    h.Visits [c] (h.interfacesOf c) found ∧ ∀ x ∈ found, h.IsInterface x
  mem_iff : ∀ x, x ∈ h.chain c ↔ h.Inherits c x ∨ x = .object

namespace Orderly

variable (hh : h.Orderly)
include hh

/-- Superclass links lead to the root. -/
theorem getLast?_line {line : List ClassRef} (hc : h.IsClass c)
    (hl : h.Line (h.superclassOf c) line) : (c :: line).getLast? = some .object := by
  generalize hnext : h.superclassOf c = next at hl
  induction hl generalizing c with
  | top =>
    by_contra hne
    obtain ⟨s, hs⟩ := hh.superclassed hc fun hroot => hne (by simp [hroot])
    rw [hnext] at hs
    cases hs
  | @up d line _ ih =>
    rw [List.getLast?_cons_cons]
    exact ih (hh.superclass hnext) rfl

theorem nodup_linearizeOf (hc : h.Declares c) : (h.linearizeOf c).Nodup := by
  have hsearch := search_closureOf hh.toLinked (hh.toLinked.declarable hc)
  rw [linearizeOf, linearize_eq]
  split
  · exact hsearch.nodup
  · next hroot => simpa using hsearch.nodup.concat hroot

theorem chained (hc : h.Declares c) : h.Chained c := by
  have hd := hh.toLinked.declarable hc
  obtain ⟨supers, found, hline, hvisits, heq⟩ := closureOf_order hh.toForward hd
    fun d hd => hh.not_inherits (.inl hd)
  have hchain : h.chain c = if ClassRef.object ∈ c :: (supers ++ found) then c :: (supers ++ found)
      else c :: (supers ++ found) ++ [.object] := by
    rw [hh.fresh hc, linearizeOf, linearize_eq, heq]
  -- the search starts at interfaces, and an interface inherits interfaces only
  have hfound : ∀ x ∈ found, h.IsInterface x := by
    intro x hx
    obtain ⟨d, hdq, hdx⟩ := hvisits.inherits hx
    have hlisted : d ∈ h.listedOn (c :: supers) (h.interfacesOf c) := hdq
    have hdi := isInterface_of_mem_listedOn hh.toLinked hd hlisted
    exact hh.isInterface_of_inherits hdi hdx
  refine ⟨hh.fresh hc, ?_, ?_, ?_, ?_, fun x => hh.mem_chain_iff hc⟩
  · rw [hchain]
    split <;> rfl
  · rw [hh.fresh hc]
    exact hh.nodup_linearizeOf hc
  · intro hclass
    have hlast := hh.getLast?_line hclass hline
    -- the line of a class ends with the root, so the root is not added once more
    have hroot : ClassRef.object ∈ c :: (supers ++ found) := by
      rw [← List.cons_append]
      exact List.mem_append_left _ (List.mem_of_getLast? hlast)
    rw [if_pos hroot] at hchain
    exact ⟨supers, found, hchain, hline, hlast, hvisits, hfound⟩
  · intro hiface
    rw [hh.superclass_interface hiface] at hline
    cases hline
    -- none of these is a class, so the root is put at the end
    have hroot : ClassRef.object ∉ c :: ([] ++ found) := by
      intro hmem
      rcases List.mem_cons.mp hmem with heq | hmem
      · exact hh.root.not_isInterface (heq ▸ hiface)
      · exact hh.root.not_isInterface (hfound _ hmem)
    rw [if_neg hroot] at hchain
    exact ⟨found, hchain, by simpa using hvisits, hfound⟩

/-- Assignability says nothing of classes that are not declared. -/
theorem isAssignable_undeclared (hab : ¬ (h.Declares a ∧ h.Declares b)) :
    h.isAssignable a b ↔ a = b := by
  constructor
  · intro hassign
    rcases hh.isAssignable_iff.mp hassign with heq | ⟨ha, -⟩
    · exact heq
    · by_contra hne
      have hb : b ∈ h.chain a := by simpa [isAssignable, hne] using hassign
      exact hab ⟨ha, hh.declares_mem_chain hb⟩
  · rintro rfl
    exact isAssignable_refl

/-- Mixing in a trait leaves the chains of all but the heirs of its target as they are, gives the
heirs its own chain, and makes nobody an heir. -/
theorem withInterface (hok : h.withInterface c t = .ok h') :
    (∀ x, x ∉ h.descendants c → h'.chain x = h.chain x) ∧
      h'.descendants c = h.descendants c ∧
      ∀ x ∈ h.descendants c, ∀ y, y ∈ h'.chain x ↔ y ∈ h.chain x ∨ y ∈ h.chain t := by
  have hmem : ∀ x y, y ∈ h'.chain x ↔ y ∈ h.chain x ∨ c ∈ h.chain x ∧ y ∈ h.chain t :=
    fun _ _ => hh.toWellFormed.mem_chain_withInterface hok
  refine ⟨fun x hx => ?_, ?_, fun x hx y => ?_⟩
  · have hspared : c ∉ h.chain x := fun hc => hx (mem_descendants.mpr hc)
    obtain ⟨hmix, ⟨-, rfl⟩ | ⟨-, rfl⟩⟩ := withInterface_eq_ok hok
    · rfl
    · exact hh.chain_addInterface hmix hspared
  · have hall : h'.all = h.all := by rw [all, all, size_withInterface hok]
    -- the trait is put on chains where `c` stands already, so it makes no heirs
    have hheirs : ∀ x, c ∈ h'.chain x ↔ c ∈ h.chain x := fun x =>
      (hmem x c).trans (or_iff_left_of_imp And.left)
    rw [descendants, descendants, hall]
    simp [hheirs]
  · rw [hmem, and_iff_right (mem_descendants.mp hx)]

end Orderly

/-- In every hierarchy that was made step by step, the stored chain of a class is what its links
give now, in order and without repetition; assignability is a partial order that leaves undeclared
classes alone; and a trait that is mixed in changes the chains of its target's heirs only, by its
own chain. -/
theorem Grown.lookup_order (hg : Grown h) :
    (∀ c, h.Declares c → h.Chained c) ∧
      ((∀ a, h.isAssignable a a) ∧
        (∀ a b, h.isAssignable a b → h.isAssignable b a → a = b) ∧
        (∀ a b c, h.isAssignable a b → h.isAssignable b c → h.isAssignable a c) ∧
        ∀ a b, ¬ (h.Declares a ∧ h.Declares b) → (h.isAssignable a b ↔ a = b)) ∧
      ∀ c t h', h.withInterface c t = .ok h' →
        (∀ x, x ∉ h.descendants c → h'.chain x = h.chain x) ∧
          h'.descendants c = h.descendants c ∧
          ∀ x ∈ h.descendants c, ∀ y, y ∈ h'.chain x ↔ y ∈ h.chain x ∨ y ∈ h.chain t := by
  have hh := hg.orderly
  refine ⟨fun c hc => hh.chained hc, ⟨?_, ?_, ?_, ?_⟩, fun c t h' hok => hh.withInterface hok⟩
  · exact fun a => isAssignable_refl
  · exact fun a b hab hba => hh.isAssignable_antisymm hab hba
  · exact fun a b c hab hbc => hh.isAssignable_trans hab hbc
  · exact fun a b hab => hh.isAssignable_undeclared hab

/-- Two interfaces of which the second lists the first, and two classes of which the second
extends the first. -/
def sampleKinds : Hierarchy :=
  [⟨"T", none, [], true, []⟩, ⟨"U", none, [⟨8⟩], true, []⟩, ClassHeader.plain "A" none,
    ClassHeader.plain "B" (some ⟨10⟩)].foldl push builtin

theorem grown_sampleKinds : Grown sampleKinds := by
  have hT : Grown (builtin.push ⟨"T", none, [], true, []⟩) :=
    .define (d := ⟨"T", none, [], true, []⟩) .builtin rfl
  have hU : Grown _ := hT.define (d := ⟨"U", none, [⟨8⟩], true, []⟩) rfl
  have hA : Grown _ := hU.define (d := ClassHeader.plain "A" none) rfl
  exact hA.define (d := ClassHeader.plain "B" (some ⟨10⟩)) rfl

/-- The second interface is mixed into the first class: the second class finds both interfaces,
breadth first behind the root, and the interfaces keep their chains. -/
theorem lookup_order_sampleKinds : ∃ h, sampleKinds.withInterface ⟨10⟩ ⟨9⟩ = .ok h ∧
    h.Chained ⟨11⟩ ∧ h.chain ⟨11⟩ = [⟨11⟩, ⟨10⟩, .object, ⟨9⟩, ⟨8⟩] ∧
    h.chain ⟨9⟩ = sampleKinds.chain ⟨9⟩ ∧ h.descendants ⟨10⟩ = [⟨10⟩, ⟨11⟩] := by
  have hok : sampleKinds.withInterface ⟨10⟩ ⟨9⟩ = .ok (sampleKinds.addInterface ⟨10⟩ ⟨9⟩) := rfl
  have hg := grown_sampleKinds.withInterface hok
  obtain ⟨hframe, hheirs, -⟩ := grown_sampleKinds.lookup_order.2.2 ⟨10⟩ ⟨9⟩ _ hok
  refine ⟨_, hok, hg.lookup_order.1 ⟨11⟩ (by decide), by decide, hframe ⟨9⟩ (by decide), ?_⟩
  rw [hheirs]
  decide

end LateBinding.Hierarchy
