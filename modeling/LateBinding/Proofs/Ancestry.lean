import LateBinding.Hierarchy
import Mathlib.Data.List.Nodup
import Mathlib.Data.List.Perm.Subperm
import Mathlib.Logic.Relation

/-!
# Ancestors and lookup chains

The links of a hierarchy say which superclass and which interfaces a class has; following
them gives a class's ancestors. A lookup chain is computed in two searches, one upwards along
superclasses and one breadth first through interfaces. Here it is shown that it holds exactly
the class, its ancestors and the root, provided the links are as they should be.

* `Linked`: the links lead to declared classes of the right kind, and never back.
* `Search`: what both searches achieve, `ascend_search` and `spread_search` being its
  instances.
* `mem_linearize`: the members of a computed chain.
-/

namespace LateBinding.Hierarchy

open Relation (ReflTransGen)

variable {h : Hierarchy} {a b c x : ClassRef}

/-! ## Links -/

/-- The class is declared. -/
def Declares (h : Hierarchy) (c : ClassRef) : Prop := c.index < h.size

instance : Decidable (h.Declares c) := inferInstanceAs (Decidable (c.index < h.size))

/-- The class is declared as an interface. -/
def IsInterface (h : Hierarchy) (c : ClassRef) : Prop :=
  ∃ info, h.get? c = some info ∧ info.isInterface = true

/-- The class is declared, and not as an interface. -/
def IsClass (h : Hierarchy) (c : ClassRef) : Prop :=
  ∃ info, h.get? c = some info ∧ info.isInterface = false

/-- `b` is the superclass of `a`, or one of the interfaces that `a` lists. -/
def Link (h : Hierarchy) (a b : ClassRef) : Prop :=
  h.superclassOf a = some b ∨ b ∈ h.interfacesOf a

/-- `b` is `a` or one of its ancestors. -/
def Inherits (h : Hierarchy) : ClassRef → ClassRef → Prop := ReflTransGen h.Link

theorem declares_iff_get? : h.Declares c ↔ ∃ info, h.get? c = some info := by
  simp [Declares, get?, size, ← Option.isSome_iff_exists]

theorem declares_of_get? {info : ClassInfo} (hc : h.get? c = some info) : h.Declares c :=
  declares_iff_get?.mpr ⟨info, hc⟩

theorem IsInterface.declares (hc : h.IsInterface c) : h.Declares c :=
  declares_of_get? hc.choose_spec.1

theorem IsClass.declares (hc : h.IsClass c) : h.Declares c :=
  declares_of_get? hc.choose_spec.1

theorem IsClass.not_isInterface (hc : h.IsClass c) : ¬ h.IsInterface c := by
  rintro ⟨info, hi, hinfo⟩
  obtain ⟨info', hi', hinfo'⟩ := hc
  rw [hi] at hi'
  cases hi'
  simp_all

theorem find_eq_ok_iff {info : ClassInfo} : h.find c = .ok info ↔ h.get? c = some info := by
  unfold find
  cases h.get? c <;> simp

theorem Declares.find (hc : h.Declares c) : ∃ info, h.find c = .ok info :=
  (declares_iff_get?.mp hc).imp fun _ => find_eq_ok_iff.mpr

theorem declares_of_link (hl : h.Link a b) : h.Declares a := by
  rw [declares_iff_get?]
  unfold Link superclassOf interfacesOf at hl
  cases hg : h.get? a with
  | none => simp [hg] at hl
  | some info => exact ⟨info, rfl⟩

theorem declares_of_mem_chain (hx : x ∈ h.chain c) : h.Declares c := by
  rw [declares_iff_get?]
  unfold chain at hx
  cases hg : h.get? c with
  | none => simp [hg] at hx
  | some info => exact ⟨info, rfl⟩

theorem mem_all : c ∈ h.all ↔ h.Declares c := by
  simp only [all, Declares, List.mem_map, List.mem_range]
  exact ⟨by rintro ⟨i, hi, rfl⟩; exact hi, fun hc => ⟨c.index, hc, rfl⟩⟩

/-- The descendants of a class are the classes that have it on their chain. -/
theorem mem_descendants : a ∈ h.descendants c ↔ c ∈ h.chain a := by
  simp only [descendants, List.mem_filter, mem_all, List.contains_iff_mem]
  exact ⟨And.right, fun hc => ⟨declares_of_mem_chain hc, hc⟩⟩

/-- What the links of a hierarchy are like. -/
structure Linked (h : Hierarchy) : Prop where
  root : h.IsClass .object
  noLink_root : ∀ {b}, ¬ h.Link .object b
  superclass : ∀ {a b}, h.superclassOf a = some b → h.IsClass b
  interfaces : ∀ {a b}, b ∈ h.interfacesOf a → h.IsInterface b
  superclass_interface : ∀ {a}, h.IsInterface a → h.superclassOf a = none
  acyclic : ∀ {a b}, h.Inherits a b → h.Inherits b a → a = b

namespace Linked

theorem declares_of_link (hh : h.Linked) (hl : h.Link a b) : h.Declares b :=
  hl.elim (fun hs => (hh.superclass hs).declares) (fun hi => (hh.interfaces hi).declares)

theorem declares_of_inherits (hh : h.Linked) (ha : h.Declares a) (hab : h.Inherits a b) :
    h.Declares b := by
  cases hab with
  | refl => exact ha
  | tail _ hl => exact hh.declares_of_link hl

theorem eq_root_of_inherits (hh : h.Linked) (hb : h.Inherits .object b) : b = .object := by
  rcases hb.cases_head with hb | ⟨c, hl, -⟩
  · exact hb.symm
  · exact absurd hl hh.noLink_root

/-- The links of an interface lead to interfaces only. -/
theorem isInterface_of_inherits (hh : h.Linked) (ha : h.IsInterface a) (hab : h.Inherits a b) :
    h.IsInterface b := by
  induction hab with
  | refl => exact ha
  | tail _ hl ih =>
    rcases hl with hs | hi
    · rw [hh.superclass_interface ih] at hs
      cases hs
    · exact hh.interfaces hi

/-- A class that is no interface is met along superclass links alone. -/
theorem superclasses_of_inherits (hh : h.Linked) (hb : h.IsClass b) (hab : h.Inherits a b) :
    ReflTransGen (fun x y => h.superclassOf x = some y) a b := by
  -- from the end: whoever enters an interface meets interfaces only
  induction hab using ReflTransGen.head_induction_on with
  | refl => exact .refl
  | head hl hcb ih =>
    rcases hl with hs | hi
    · exact .head hs ih
    · exact absurd (hh.isInterface_of_inherits (hh.interfaces hi) hcb) hb.not_isInterface

theorem inherits_of_superclasses (hab : ReflTransGen (fun x y => h.superclassOf x = some y) a b) :
    h.Inherits a b :=
  ReflTransGen.mono (fun _ _ hs => Or.inl hs : _ ≤ h.Link) a b hab

theorem eq_or_inherits_superclass (hh : h.Linked) (hs : h.superclassOf a = some c)
    (hb : h.IsClass b) (hab : h.Inherits a b) : b = a ∨ h.Inherits c b := by
  rcases (hh.superclasses_of_inherits hb hab).cases_head with hab | ⟨d, hd, hdb⟩
  · exact .inl hab.symm
  · cases hs.symm.trans hd
    exact .inr (inherits_of_superclasses hdb)

/-- Of two ancestors that are no interfaces, one is an ancestor of the other. -/
theorem inherits_total (hh : h.Linked) (hb : h.IsClass b) (hc : h.IsClass c)
    (hab : h.Inherits a b) (hac : h.Inherits a c) : h.Inherits b c ∨ h.Inherits c b := by
  have hunique : Relator.RightUnique (fun x y => h.superclassOf x = some y) :=
    fun _ _ _ hy hz => Option.some.inj (hy.symm.trans hz)
  exact (ReflTransGen.total_of_right_unique hunique (hh.superclasses_of_inherits hb hab)
    (hh.superclasses_of_inherits hc hac)).imp inherits_of_superclasses inherits_of_superclasses

end Linked

/-! ## Searches

`ascend` and `spread` add classes to those already seen until nothing new is found. The
number of classes bounds the steps, so neither ever runs out of them. -/

/-- `result` is what a search along `next` from the `starts` makes of the classes `seen`. -/
structure Search (seen : List ClassRef) (starts : ClassRef → Prop)
    (next : ClassRef → ClassRef → Prop) (result : List ClassRef) : Prop where
  keeps : seen <+: result
  nodup : result.Nodup
  reached : ∀ x ∈ result, x ∈ seen ∨ ∃ c, starts c ∧ ReflTransGen next c x
  starts_mem : ∀ c, starts c → c ∈ result
  closed : ∀ x ∈ result, x ∉ seen → ∀ y, next x y → y ∈ result

namespace Search

variable {seen found result : List ClassRef} {starts starts' : ClassRef → Prop}
  {next : ClassRef → ClassRef → Prop}

/-- A search that finds nothing new is over. -/
theorem done (hseen : seen.Nodup) (hstarts : ∀ c, starts c → c ∈ seen) :
    Search seen starts next seen where
  keeps := List.prefix_rfl
  nodup := hseen
  reached _ hx := .inl hx
  starts_mem := hstarts
  closed _ hx hn := absurd hx hn

/-- A search goes on from what it found: every start was seen or is found, and the search
then starts from all that is next to what was found. -/
theorem go (hs : Search (seen ++ found) starts' next result)
    (hfound : ∀ x ∈ found, starts x) (hstarts : ∀ c, starts c → c ∈ seen ++ found)
    (hnext : ∀ y, starts' y ↔ ∃ x ∈ found, next x y) : Search seen starts next result where
  keeps := (List.prefix_append _ _).trans hs.keeps
  nodup := hs.nodup
  reached x hx := by
    -- reached from what the rest of the search starts from is reached one link further back
    rcases hs.reached x hx with hx | ⟨y, hy, hyx⟩
    · exact (List.mem_append.mp hx).imp_right fun hx => ⟨x, hfound x hx, .refl⟩
    · obtain ⟨z, hz, hzy⟩ := (hnext y).mp hy
      exact .inr ⟨z, hfound z hz, .head hzy hyx⟩
  starts_mem c hc := hs.keeps.subset (hstarts c hc)
  closed x hx hn y hxy := by
    -- what was found here has its links among the new starts, what came later is closed already
    by_cases hf : x ∈ found
    · exact hs.starts_mem y ((hnext y).mpr ⟨x, hf, hxy⟩)
    · exact hs.closed x hx (by simp [hn, hf]) y hxy

end Search

/-- Distinct classes with small numbers are few. -/
theorem length_le_of_nodup {l : List ClassRef} {n : Nat} (hl : l.Nodup)
    (hn : ∀ c ∈ l, c.index < n) : l.length ≤ n := by
  have hinj : Function.Injective ClassRef.index := fun a b hab => by cases a; cases b; simp_all
  have hsub : l.map ClassRef.index ⊆ List.range n := by
    intro i hi
    obtain ⟨c, hc, rfl⟩ := List.mem_map.mp hi
    exact List.mem_range.mpr (hn c hc)
  simpa using (List.Nodup.subperm (hl.map hinj) hsub).length_le

theorem ascend_search (hh : h.Linked) {n : Nat} (hsize : h.size ≤ n) (steps : Nat)
    (seen : List ClassRef) (next : Option ClassRef) (hseen : seen.Nodup)
    (hn : ∀ c ∈ seen, c.index < n) (hnext : ∀ c, next = some c → h.Declares c)
    (hsteps : n < steps + seen.length) :
    Search seen (next = some ·) (fun x y => h.superclassOf x = some y)
      (h.ascend steps seen next) := by
  induction steps generalizing seen next with
  | zero =>
    -- more distinct classes would have been seen than there are
    have := length_le_of_nodup hseen hn
    omega
  | succ steps ih =>
    cases next with
    | none => exact .done hseen (by simp)
    | some c =>
      -- meeting a class again ends the search, so that links never lead back is not needed
      by_cases hc : c ∈ seen
      · rw [ascend, if_pos hc]
        exact .done hseen (by simpa using hc)
      · rw [ascend, if_neg hc]
        have hdc : c.index < n := Nat.lt_of_lt_of_le (hnext c rfl) hsize
        have hrest := ih (seen ++ [c]) (h.superclassOf c) ?_ ?_ ?_ ?_
        · refine Search.go hrest ?_ ?_ ?_
          · simp
          · simp
          · simp
        · simpa using hseen.concat hc
        · simpa [or_imp, forall_and] using ⟨hn, hdc⟩
        · exact fun d hd => (hh.superclass hd).declares
        · simp only [List.length_append, List.length_singleton]
          omega

theorem mem_unseen {seen l : List ClassRef} : x ∈ unseen seen l ↔ x ∈ l ∧ x ∉ seen := by
  induction l generalizing seen with
  | nil => simp [unseen]
  | cons c rest ih =>
    unfold unseen
    split
    · next hc =>
      rw [ih, List.mem_cons]
      exact ⟨fun ⟨hx, hn⟩ => ⟨.inr hx, hn⟩, fun ⟨hx, hn⟩ =>
        ⟨hx.resolve_left fun hxc => hn (hxc ▸ hc), hn⟩⟩
    · next hc =>
      rw [List.mem_cons, ih, List.mem_cons]
      by_cases hxc : x = c
      · subst hxc; simp [hc]
      · simp [hxc]

theorem nodup_append_unseen {seen l : List ClassRef} (hseen : seen.Nodup) :
    (seen ++ unseen seen l).Nodup := by
  induction l generalizing seen with
  | nil => simpa [unseen] using hseen
  | cons c rest ih =>
    unfold unseen
    split
    · exact ih hseen
    · next hc =>
      have hsc : (seen ++ [c]).Nodup := by simpa using hseen.concat hc
      simpa using ih hsc

theorem spread_search (hh : h.Linked) {n : Nat} (hsize : h.size ≤ n) (rounds : Nat)
    (seen frontier : List ClassRef) (hseen : seen.Nodup) (hn : ∀ c ∈ seen, c.index < n)
    (hfront : ∀ c ∈ frontier, h.Declares c) (hrounds : n < rounds + seen.length) :
    Search seen (· ∈ frontier) (fun x y => y ∈ h.interfacesOf x)
      (h.spread rounds seen frontier) := by
  induction rounds generalizing seen frontier with
  | zero =>
    have := length_le_of_nodup hseen hn
    omega
  | succ rounds ih =>
    rw [spread]
    split
    -- nothing new in the frontier, so all starts were seen
    · next hnone =>
      refine .done hseen fun c hc => ?_
      by_contra hcs
      have : c ∈ unseen seen frontier := mem_unseen.mpr ⟨hc, hcs⟩
      rw [hnone] at this
      cases this
    · next hsome =>
      -- a round that goes on has found a class, which pays for it
      have hpos : 0 < (unseen seen frontier).length := List.length_pos_iff.mpr hsome
      refine Search.go (ih _ _ ?_ ?_ ?_ ?_) ?_ ?_ ?_
      · exact nodup_append_unseen hseen
      · intro c hc
        rcases List.mem_append.mp hc with hc | hc
        · exact hn c hc
        · exact Nat.lt_of_lt_of_le (hfront c (mem_unseen.mp hc).1) hsize
      · intro c hc
        obtain ⟨d, -, hc⟩ := List.mem_flatMap.mp hc
        exact (hh.interfaces hc).declares
      · rw [List.length_append]
        omega
      · exact fun c hc => (mem_unseen.mp hc).1
      · intro c hc
        by_cases hcs : c ∈ seen
        · exact List.mem_append_left _ hcs
        · exact List.mem_append_right _ (mem_unseen.mpr ⟨hc, hcs⟩)
      · exact fun y => List.mem_flatMap

/-! ## The computed chain

A class is given by its links, which need not be those of a declared class: a chain is
computed before its class is declared. -/

section Linearize

variable {own : ClassRef} {superclass : Option ClassRef} {interfaces : List ClassRef}

/-- A class and its superclasses, nearest first. -/
def lineOf (h : Hierarchy) (own : ClassRef) (superclass : Option ClassRef) : List ClassRef :=
  h.ascend (h.size + 1) [own] superclass

/-- The interfaces that the classes on a line list, those of its first class being given. -/
def listedOn (h : Hierarchy) (line interfaces : List ClassRef) : List ClassRef :=
  interfaces ++ line.tail.flatMap h.interfacesOf

/-- A line of superclasses and all that is reached from it through interfaces. -/
def closureOf (h : Hierarchy) (own : ClassRef) (superclass : Option ClassRef)
    (interfaces : List ClassRef) : List ClassRef :=
  h.spread (h.size + 1) (h.lineOf own superclass) (h.listedOn (h.lineOf own superclass) interfaces)

theorem mem_linearize_iff : x ∈ h.linearize own superclass interfaces ↔
    x ∈ h.closureOf own superclass interfaces ∨ x = .object := by
  show x ∈ (if ClassRef.object ∈ h.closureOf own superclass interfaces then _ else _) ↔ _
  split
  · next hroot => exact ⟨.inl, fun hx => hx.elim id fun hx => hx ▸ hroot⟩
  · show x ∈ h.closureOf own superclass interfaces ++ [.object] ↔ _
    simp

/-- The class is declared last or not yet, and its links are of the right kind. If it is
declared, they include those it has. -/
structure Declarable (h : Hierarchy) (own : ClassRef) (superclass : Option ClassRef)
    (interfaces : List ClassRef) : Prop where
  index_le : own.index ≤ h.size
  isClass : ∀ c, superclass = some c → h.IsClass c
  isInterface : ∀ c ∈ interfaces, h.IsInterface c
  links : ∀ c, h.Link own c → superclass = some c ∨ c ∈ interfaces

variable (hh : h.Linked) (hd : h.Declarable own superclass interfaces)
include hh hd

theorem search_lineOf : Search [own] (superclass = some ·)
    (fun x y => h.superclassOf x = some y) (h.lineOf own superclass) :=
  ascend_search hh (Nat.le_succ _) _ _ _ (by simp) (by simpa using Nat.lt_succ_of_le hd.index_le)
    (fun c hc => (hd.isClass c hc).declares) (by simp)

theorem own_mem_lineOf : own ∈ h.lineOf own superclass :=
  (search_lineOf hh hd).keeps.subset (List.mem_singleton_self own)

theorem eq_or_isClass_of_mem_lineOf (hx : x ∈ h.lineOf own superclass) :
    x = own ∨ h.IsClass x := by
  refine ((search_lineOf hh hd).reached x hx).imp (by simp) ?_
  rintro ⟨c, hc, hcx⟩
  rcases hcx.cases_tail with rfl | ⟨y, -, hyx⟩
  · exact hd.isClass _ hc
  · exact hh.superclass hyx

theorem mem_tail_lineOf (hx : x ∈ h.lineOf own superclass) (hne : x ≠ own) :
    x ∈ (h.lineOf own superclass).tail := by
  obtain ⟨more, hmore⟩ := (search_lineOf hh hd).keeps
  rw [← hmore] at hx ⊢
  simpa [hne] using hx

theorem isInterface_of_mem_listedOn {line : List ClassRef} (hx : x ∈ h.listedOn line interfaces) :
    h.IsInterface x := by
  rcases List.mem_append.mp hx with hx | hx
  · exact hd.isInterface x hx
  · obtain ⟨d, -, hx⟩ := List.mem_flatMap.mp hx
    exact hh.interfaces hx

theorem search_closureOf : Search (h.lineOf own superclass)
    (· ∈ h.listedOn (h.lineOf own superclass) interfaces) (fun x y => y ∈ h.interfacesOf x)
    (h.closureOf own superclass interfaces) := by
  have hline := search_lineOf hh hd
  -- the line is known to be declared, and the rounds last as long as there are classes left
  refine spread_search hh (Nat.le_succ _) _ _ _ hline.nodup ?_
    (fun c hc => (isInterface_of_mem_listedOn hh hd hc).declares) ?_
  · intro c hc
    rcases eq_or_isClass_of_mem_lineOf hh hd hc with rfl | hc
    · exact Nat.lt_succ_of_le hd.index_le
    · exact Nat.lt_succ_of_lt hc.declares
  · have := hline.keeps.length_le
    simp only [List.length_singleton] at this
    omega

/-- All that is found is inherited through the given links. -/
theorem inherits_of_mem_closureOf (hx : x ∈ h.closureOf own superclass interfaces) :
    x = own ∨ ∃ c, (superclass = some c ∨ c ∈ interfaces) ∧ h.Inherits c x := by
  have hup : ∀ y ∈ h.lineOf own superclass,
      y = own ∨ ∃ c, superclass = some c ∧ h.Inherits c y := by
    intro y hy
    refine ((search_lineOf hh hd).reached y hy).imp (by simp) ?_
    rintro ⟨c, hc, hcy⟩
    exact ⟨c, hc, Linked.inherits_of_superclasses hcy⟩
  -- what is found stands on the line, or is reached from an interface that is listed there
  rcases (search_closureOf hh hd).reached x hx with hx | ⟨c, hc, hcx⟩
  · exact (hup x hx).imp_right fun ⟨c, hc, hcx⟩ => ⟨c, .inl hc, hcx⟩
  · have hcx : h.Inherits c x :=
      ReflTransGen.mono (fun _ _ hi => Or.inr hi : _ ≤ h.Link) c x hcx
    rcases List.mem_append.mp hc with hc | hc
    · exact .inr ⟨c, .inr hc, hcx⟩
    · -- an interface that a class on the line lists
      obtain ⟨d, hdl, hdc⟩ := List.mem_flatMap.mp hc
      have hdx : h.Inherits d x := .head (.inr hdc) hcx
      rcases hup d (List.mem_of_mem_tail hdl) with rfl | ⟨e, he, hed⟩
      · rcases hd.links c (.inr hdc) with hc | hc
        · exact .inr ⟨c, .inl hc, hcx⟩
        · exact .inr ⟨c, .inr hc, hcx⟩
      · exact .inr ⟨e, .inl he, hed.trans hdx⟩

/-- The given links are found, and the links of all that is found. -/
theorem closureOf_closed : (∀ c, superclass = some c ∨ c ∈ interfaces →
      c ∈ h.closureOf own superclass interfaces) ∧
    ∀ x ∈ h.closureOf own superclass interfaces, ∀ y, h.Link x y →
      y ∈ h.closureOf own superclass interfaces := by
  have hline := search_lineOf hh hd
  have hfull := search_closureOf hh hd
  have hgiven : ∀ c, superclass = some c ∨ c ∈ interfaces →
      c ∈ h.closureOf own superclass interfaces := by
    rintro c (hc | hc)
    · exact hfull.keeps.subset (hline.starts_mem c hc)
    · exact hfull.starts_mem c (List.mem_append_left _ hc)
  refine ⟨hgiven, fun x hx y hxy => ?_⟩
  -- the class itself has the links that are given
  by_cases hown : x = own
  · exact hgiven y (hd.links y (hown ▸ hxy))
  by_cases hxl : x ∈ h.lineOf own superclass
  · -- on the line: superclasses are on it too, interfaces are listed
    rcases hxy with hs | hi
    · exact hfull.keeps.subset (hline.closed x hxl (by simpa using hown) y hs)
    · refine hfull.starts_mem y (List.mem_append_right _ ?_)
      exact List.mem_flatMap.mpr ⟨x, mem_tail_lineOf hh hd hxl hown, hi⟩
  · -- beyond the line: an interface, which has no superclass
    have hxi : h.IsInterface x := by
      rcases (hfull.reached x hx).resolve_left hxl with ⟨c, hc, hcx⟩
      rcases hcx.cases_tail with rfl | ⟨z, -, hzx⟩
      · exact isInterface_of_mem_listedOn hh hd hc
      · exact hh.interfaces hzx
    rcases hxy with hs | hi
    · rw [hh.superclass_interface hxi] at hs
      cases hs
    · exact hfull.closed x hx hxl y hi

/-- The chain computed for a class holds the class, all that is inherited through its links,
and the root. -/
theorem mem_linearize : x ∈ h.linearize own superclass interfaces ↔
    x = own ∨ (∃ c, (superclass = some c ∨ c ∈ interfaces) ∧ h.Inherits c x) ∨
      x = .object := by
  rw [mem_linearize_iff, ← or_assoc]
  refine or_congr_left ⟨inherits_of_mem_closureOf hh hd, ?_⟩
  obtain ⟨hgiven, hclosed⟩ := closureOf_closed hh hd
  rintro (rfl | ⟨c, hc, hcx⟩)
  · exact (search_closureOf hh hd).keeps.subset (own_mem_lineOf hh hd)
  · -- what is found is closed under links, so no path leads out of it
    induction hcx with
    | refl => exact hgiven c hc
    | tail _ hl ih => exact hclosed _ ih _ hl

end Linearize

theorem Linked.declarable (hh : h.Linked) (hc : h.Declares c) :
    h.Declarable c (h.superclassOf c) (h.interfacesOf c) where
  index_le := Nat.le_of_lt hc
  isClass _ := hh.superclass
  isInterface _ := hh.interfaces
  links _ := id

/-- The chain that the links of a declared class give holds its ancestors and the root. -/
theorem mem_linearizeOf (hh : h.Linked) (hc : h.Declares c) :
    x ∈ h.linearizeOf c ↔ h.Inherits c x ∨ x = .object := by
  rw [linearizeOf, mem_linearize hh (hh.declarable hc), ← or_assoc]
  refine or_congr_left ?_
  calc (x = c ∨ ∃ d, h.Link c d ∧ h.Inherits d x)
      ↔ (c = x ∨ ∃ d, h.Link c d ∧ h.Inherits d x) := or_congr_left eq_comm
    _ ↔ h.Inherits c x := ReflTransGen.cases_head_iff.symm

end LateBinding.Hierarchy
