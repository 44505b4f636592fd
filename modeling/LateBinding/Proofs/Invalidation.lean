import LateBinding.Proofs.Serving

/-!
# What a change makes stale

Changing a class, extending it by a category, applying a trait to it and invalidating it all end
by stamping the class and its heirs anew. A guard that was captured before and is current then
becomes stale exactly if the class is on the lookup chain of its receiver's class; a change to one
object concerns the guards for that object as a receiver with members of its own, and no others
(`Engine.Reachable.invalidation_exact`).

So neither too much nor too little is given up: calls on other receivers are served by the same
entries, and if members were changed, whatever is asked of other receivers is answered as before.
-/

namespace LateBinding

/-! ## Cells after a change -/

namespace Registry

variable {β : Type} {r r₁ r' : Registry β} {c d iface : ClassRef} {o : Owner} {v : Value}

/-- `r₁` comes of `r` by a change to one class, before it is stamped: the cells of all others are
those of before, and its heirs are the same. -/
structure Disturbs (r₁ r : Registry β) (c : ClassRef) : Prop where
  clock : r.clock ≤ r₁.clock
  cells : ∀ o, o ≠ .ofClass c → r₁.cell? o = r.cell? o
  heirs : ∀ x, c ∈ r₁.hierarchy.chain x ↔ c ∈ r.hierarchy.chain x
  self : c ∈ r.hierarchy.chain c

/-- The class and its heirs are stamped anew. -/
def restamp (r : Registry β) (c : ClassRef) : Registry β := r.bumpAll (r.hierarchy.descendants c)

theorem cell?_restamp_of_not_heir (ho : ∀ x, o = .ofClass x → c ∉ r.hierarchy.chain x) :
    (r.restamp c).cell? o = r.cell? o :=
  cell?_bumpAll_of_not_mem fun x hx heq => ho x heq (Hierarchy.mem_descendants.mp hx)

theorem cell?_restamp_ofObject (obj : ObjectRef) :
    (r.restamp c).cell? (.ofObject obj) = r.cell? (.ofObject obj) :=
  cell?_restamp_of_not_heir nofun

theorem members_restamp : (r.restamp c).members d = r.members d := by
  have hbump : ∀ (cs : List ClassRef) (r : Registry β), (r.bumpAll cs).members d = r.members d := by
    intro cs
    induction cs with
    | nil => exact fun _ => rfl
    | cons x rest ih =>
      intro r
      exact (ih (r.bump (.ofClass x))).trans members_bump
  exact hbump _ r

/-- The versions that were there before and still are, are those of the owners that do not inherit
from the class. -/
theorem version?_restamp_iff (h : r₁.Disturbs r c) {n : Nat} (hn : n ≤ r.clock) :
    (r₁.restamp c).version? o = some n ↔
      r.version? o = some n ∧ ∀ x, o = .ofClass x → c ∉ r.hierarchy.chain x := by
  by_cases ho : ∀ x, o = .ofClass x → c ∉ r.hierarchy.chain x
  · -- the cell was neither changed nor stamped
    have hne : o ≠ .ofClass c := fun heq => ho c heq h.self
    have hcell : (r₁.restamp c).cell? o = r.cell? o := by
      rw [cell?_restamp_of_not_heir fun x hx => mt (h.heirs x).mp (ho x hx), h.cells o hne]
    rw [version?, hcell, version?]
    exact ⟨fun hv => ⟨hv, ho⟩, And.left⟩
  · -- the cell has a stamp that was not yet handed out before
    refine ⟨fun hv => absurd ?_ ho, fun hv => absurd hv.2 ho⟩
    rintro x rfl hx
    -- were the version an old one, the clock would not have passed it
    obtain ⟨cell, hcell, rfl⟩ := Option.map_eq_some_iff.mp hv
    have hheir := Hierarchy.mem_descendants.mpr ((h.heirs x).mpr hx)
    have hlt : r₁.clock < cell.version := lt_version_bumpAll hheir hcell
    exact absurd (Nat.le_trans hn h.clock) (Nat.not_le_of_lt hlt)

/-! ### The operations -/

theorem disturbs_of_extends (hr : r.Sound) (hc : r.hierarchy.Declares c)
    (hext : r₁.Extends (r.ensureClass c))
    (hcells : ∀ o, o ≠ .ofClass c → r₁.cell? o = (r.ensureClass c).cell? o) : r₁.Disturbs r c where
  clock := (hext.trans extends_ensureClass).clock
  cells o ho := by rw [hcells o ho, ensureClass_eq, cell?_ensureCell, if_neg ho.symm]
  heirs x := by rw [(hext.trans extends_ensureClass).hierarchy]
  self := mem_chain_self hr hc

/-- `r'` comes of `r` by a change to a class and stamping it. -/
def Restamped (r' r : Registry β) (c : ClassRef) : Prop :=
  ∃ r₁ : Registry β, r₁.Disturbs r c ∧ r' = r₁.restamp c

/-- The change was one to the cell of the class only. -/
def MembersRestamped (r' r : Registry β) (c : ClassRef) : Prop :=
  ∃ r₁ : Registry β, r₁.Disturbs r c ∧ r₁.Extends r ∧ r' = r₁.restamp c

theorem MembersRestamped.restamped (h : r'.MembersRestamped r c) : r'.Restamped r c := by
  obtain ⟨r₁, hdisturbs, -, rfl⟩ := h
  exact ⟨r₁, hdisturbs, rfl⟩

theorem membersRestamped_of_invalidate (hr : r.Sound) (hext : r₁.Extends (r.ensureClass c))
    (hcells : ∀ o, o ≠ .ofClass c → r₁.cell? o = (r.ensureClass c).cell? o)
    (hok : r₁.invalidate c = .ok r') : r'.MembersRestamped r c := by
  obtain ⟨hc, rfl⟩ := invalidate_eq_ok hok
  have hext' := hext.trans extends_ensureClass
  rw [hext'.hierarchy] at hc
  exact ⟨r₁, disturbs_of_extends hr hc hext hcells, hext', rfl⟩

theorem membersRestamped_changeClass (hr : r.Sound) {change : Change β}
    (hok : r.changeClass c change = .ok r') : r'.MembersRestamped r c := by
  unfold changeClass at hok
  split at hok
  · cases hok
  · next hmat =>
    cases materialize_eq_ok hmat
    refine membersRestamped_of_invalidate hr (extends_mutate change) (fun o ho => ?_) hok
    rw [cell?_mutate, if_neg ho.symm]

theorem membersRestamped_applyCategory (hr : r.Sound) {methods : List (MethodDecl β)}
    (hok : r.applyCategory c methods = .ok r') : r'.MembersRestamped r c := by
  unfold applyCategory at hok
  split at hok
  · cases hok
  · next hmat =>
    cases materialize_eq_ok hmat
    exact membersRestamped_of_invalidate hr (extends_foldl (fun _ _ => extends_mutate _) _ _)
      (fun o ho => cell?_foldl_mutate ho _ _) hok

theorem restamped_invalidate (hr : r.Sound) (hok : r.invalidate c = .ok r') :
    r'.Restamped r c := by
  obtain ⟨hc, rfl⟩ := invalidate_eq_ok hok
  exact ⟨r, ⟨Nat.le_refl _, fun _ _ => rfl, fun _ => Iff.rfl, mem_chain_self hr hc⟩, rfl⟩

/-- A trait brings its own ancestors to the heirs of a class, but no heirs to the class. -/
theorem heirs_withInterface (hr : r.Sound) {h : Hierarchy}
    (hok : r.hierarchy.withInterface c iface = .ok h) (x : ClassRef) :
    c ∈ h.chain x ↔ c ∈ r.hierarchy.chain x :=
  -- who gets the class by way of the trait has it anyway
  (hr.hierarchy.mem_chain_withInterface hok).trans (or_iff_left_of_imp And.left)

theorem restamped_applyTrait (hr : r.Sound) (hok : r.applyTrait c iface = .ok r') :
    r'.Restamped r c := by
  unfold applyTrait at hok
  split at hok
  · cases hok
  · next h hh =>
    obtain ⟨-, rfl⟩ := invalidate_eq_ok hok
    have hc := (Hierarchy.withInterface_eq_ok hh).1.declares
    exact ⟨{ r with hierarchy := h }, ⟨Nat.le_refl _, fun _ _ => rfl, heirs_withInterface hr hh,
      mem_chain_self hr hc⟩, rfl⟩

/-! ### What is left as it was -/

/-- What lookups see of a value is unchanged: its class's chain with the members along it, and the
members of its own. -/
structure Spares (r' r : Registry β) (v : Value) : Prop where
  receiver : Receiver.ofValue r' v = .ofValue r v
  lookup : ∀ access name args, r'.lookup access (.ofValue r' v) name args =
    r.lookup access (.ofValue r v) name args

theorem ofValue_congr (h : ∀ obj, v = .object obj → r'.cell? (.ofObject obj) =
    r.cell? (.ofObject obj)) : Receiver.ofValue r' v = .ofValue r v := by
  cases v with
  | object obj =>
    have hown : r'.hasOwnMembers obj = r.hasOwnMembers obj := by
      rw [hasOwnMembers, h obj rfl, hasOwnMembers]
    simp only [Receiver.ofValue, hown]
  | _ => rfl

theorem spares_of_cells (hhier : r'.hierarchy = r.hierarchy)
    (hmembers : ∀ d ∈ r.hierarchy.chain v.classOf, r'.members d = r.members d)
    (hown : ∀ obj, v = .object obj → r'.cell? (.ofObject obj) = r.cell? (.ofObject obj)) :
    r'.Spares r v := by
  have hreceiver := ofValue_congr hown
  refine ⟨hreceiver, fun access name args => ?_⟩
  rw [hreceiver]
  -- the chain goes by the class of the value, with members of its own or without
  have hchain : r.hierarchy.chain (Receiver.ofValue r v).cls = r.hierarchy.chain v.classOf := by
    rw [Engine.cls_ofValue]
  refine lookup_congr hhier (fun d hd => hmembers d (hchain ▸ hd)) (fun obj hobj => ?_) _ _ _
  -- only an object has members of its own
  cases v with
  | object obj' =>
    have hsame : obj' = obj := by
      simp only [Receiver.ofValue] at hobj
      split at hobj <;> cases hobj
      rfl
    rw [ownMembers?, ← hsame, hown obj' rfl, ownMembers?]
  | _ => cases hobj

theorem ofValue_ne_own {obj : ObjectRef} (hv : v ≠ .object obj) :
    Receiver.ofValue r v ≠ .own obj := by
  intro hown
  cases v with
  | object obj' =>
    simp only [Receiver.ofValue] at hown
    split at hown
    · exact hv (congrArg Value.object (Receiver.own.inj hown))
    · cases hown
  | _ => cases hown

theorem Restamped.heirs (h : r'.Restamped r c) (x : ClassRef) :
    c ∈ r'.hierarchy.chain x ↔ c ∈ r.hierarchy.chain x := by
  obtain ⟨r₁, hdisturbs, rfl⟩ := h
  rw [show (r₁.restamp c).hierarchy = r₁.hierarchy from (extends_bumpAll _).hierarchy]
  exact hdisturbs.heirs x

theorem Restamped.ofValue (h : r'.Restamped r c) : Receiver.ofValue r' v = .ofValue r v := by
  obtain ⟨r₁, hdisturbs, rfl⟩ := h
  exact ofValue_congr fun obj _ =>
    (cell?_restamp_ofObject obj).trans (hdisturbs.cells _ nofun)

theorem MembersRestamped.spares (h : r'.MembersRestamped r c)
    (hv : c ∉ r.hierarchy.chain v.classOf) : r'.Spares r v := by
  obtain ⟨r₁, hdisturbs, hext, rfl⟩ := h
  refine spares_of_cells ((extends_bumpAll _).hierarchy.trans hext.hierarchy) (fun d hd => ?_)
    fun obj _ => (cell?_restamp_ofObject obj).trans (hdisturbs.cells _ nofun)
  have hne : Owner.ofClass d ≠ .ofClass c := by
    rintro ⟨⟩
    exact hv hd
  rw [members_restamp]
  exact members_congr hext (by rw [hdisturbs.cells _ hne])

theorem changeObject_eq_ok {obj : ObjectRef} {change : Change β}
    (hok : r.changeObject obj change = .ok r') :
    r' = (r.ensureCell (.ofObject obj) (.empty (.ofObject obj))).mutate (.ofObject obj) change := by
  unfold changeObject at hok
  split at hok
  · cases hok
  · cases hok
    rfl

theorem cell?_changeObject_of_ne {obj : ObjectRef} {change : Change β}
    (hok : r.changeObject obj change = .ok r') (ho : o ≠ .ofObject obj) :
    r'.cell? o = r.cell? o := by
  rw [changeObject_eq_ok hok, cell?_mutate, if_neg ho.symm, cell?_ensureCell, if_neg ho.symm]

/-- The versions that were there before and still are, are those of all others. -/
theorem version?_changeObject_iff {obj : ObjectRef} {change : Change β}
    (hok : r.changeObject obj change = .ok r') {n : Nat} (hn : n ≤ r.clock) :
    r'.version? o = some n ↔ r.version? o = some n ∧ o ≠ .ofObject obj := by
  -- the changed object has a new stamp, all other cells are the old ones
  by_cases ho : o = .ofObject obj
  · subst ho
    refine ⟨fun hv => ?_, fun hv => absurd rfl hv.2⟩
    rw [changeObject_eq_ok hok, version?, cell?_mutate, if_pos rfl, Option.map_map] at hv
    obtain ⟨old, -, rfl⟩ := Option.map_eq_some_iff.mp hv
    have hclock : r.clock ≤ (r.ensureCell (.ofObject obj) (.empty (.ofObject obj))).clock :=
      (extends_ensureCell _).clock
    exact absurd (Nat.le_trans hn hclock) (Nat.not_succ_le_self _)
  · rw [version?, cell?_changeObject_of_ne hok ho, version?]
    exact (and_iff_left ho).symm

theorem spares_changeObject {obj : ObjectRef} {change : Change β}
    (hok : r.changeObject obj change = .ok r') (hv : v ≠ .object obj) : r'.Spares r v := by
  have hext : r'.Extends r :=
    changeObject_eq_ok hok ▸ (extends_mutate change).trans (extends_ensureCell _)
  refine spares_of_cells hext.hierarchy (fun d _ => ?_) fun obj' hobj' => ?_
  · have hne : Owner.ofClass d ≠ .ofObject obj := nofun
    exact members_congr hext (by rw [cell?_changeObject_of_ne hok hne])
  · refine cell?_changeObject_of_ne hok ?_
    rintro ⟨⟩
    exact hv hobj'

end Registry

/-! ## Guards after a change -/

theorem Receiver.object?_eq_some_iff {receiver : Receiver} {o : ObjectRef} :
    receiver.object? = some o ↔ receiver = .own o := by
  cases receiver <;> simp [Receiver.object?]

namespace Guard

variable {β : Type} {r r' : Registry β} {guard : Guard} {receiver : Receiver} {c : ClassRef}

/-- Of the guards that were current, those of the class and its heirs are stale. -/
theorem isCurrent_restamped_iff (h : r'.Restamped r c) (hissued : guard.Issued r) :
    guard.isCurrent r' ↔ guard.isCurrent r ∧ c ∉ r.hierarchy.chain guard.cls := by
  obtain ⟨r₁, hdisturbs, rfl⟩ := h
  rw [isCurrent_iff, isCurrent_iff, Registry.version?_restamp_iff hdisturbs hissued.1]
  -- the members of objects are not concerned
  have hown : ∀ obj v, guard.own = some (obj, v) →
      ((r₁.restamp c).version? (.ofObject obj) = some v ↔
        r.version? (.ofObject obj) = some v) := by
    intro obj v hv
    rw [Registry.version?_restamp_iff hdisturbs (hissued.2 obj v hv)]
    exact and_iff_left nofun
  constructor
  · rintro ⟨⟨hcls, hchain⟩, hobj⟩
    exact ⟨⟨hcls, fun obj v hv => (hown obj v hv).mp (hobj obj v hv)⟩, hchain _ rfl⟩
  · rintro ⟨⟨hcls, hobj⟩, hchain⟩
    refine ⟨⟨hcls, ?_⟩, fun obj v hv => (hown obj v hv).mpr (hobj obj v hv)⟩
    rintro x ⟨⟩
    exact hchain

/-- Of the guards that were current, those are stale that are for the object as a receiver with
members of its own. -/
theorem isCurrent_changeObject_iff {o : ObjectRef} {change : Change β}
    (hok : r.changeObject o change = .ok r') (hfor : guard.IsFor receiver)
    (hissued : guard.Issued r) :
    guard.isCurrent r' ↔ guard.isCurrent r ∧ receiver ≠ .own o := by
  -- a guard has a version of an object exactly if its receiver has members of its own
  have hreceiver : receiver ≠ .own o ↔ ∀ obj v, guard.own = some (obj, v) → obj ≠ o := by
    rw [ne_eq, ← Receiver.object?_eq_some_iff, ← hfor.2, Option.map_eq_some_iff]
    refine ⟨fun h obj v hv heq => h ⟨(obj, v), hv, heq⟩, ?_⟩
    rintro h ⟨⟨obj, v⟩, hv, heq⟩
    exact h obj v hv heq
  -- the version of a class is not concerned
  have hcls : r'.version? (.ofClass guard.cls) = some guard.version ↔
      r.version? (.ofClass guard.cls) = some guard.version :=
    (Registry.version?_changeObject_iff hok hissued.1).trans (and_iff_left nofun)
  rw [isCurrent_iff, isCurrent_iff, hcls, and_assoc, hreceiver]
  refine and_congr_right fun _ => ?_
  constructor
  · intro hobj
    have hold := fun obj v hv =>
      (Registry.version?_changeObject_iff hok (hissued.2 obj v hv)).mp (hobj obj v hv)
    exact ⟨fun obj v hv => (hold obj v hv).1,
      fun obj v hv heq => (hold obj v hv).2 (congrArg Owner.ofObject heq)⟩
  · rintro ⟨hobj, hne⟩ obj v hv
    exact (Registry.version?_changeObject_iff hok (hissued.2 obj v hv)).mpr
      ⟨hobj obj v hv, fun heq => hne obj v hv (Owner.ofObject.inj heq)⟩

end Guard

/-! ## Calls after a change -/

namespace Resolver

variable {β : Type} {q : Resolver β} {access : Access} {receiver : Receiver} {name : String}
variable {args : ArgShape}

/-- Every resolution that is asked for is counted. -/
theorem invocations_resolve :
    (q.resolve access receiver name args).2.invocations = q.invocations + 1 := by
  have hout := q.resolve_outcome access receiver name args
  generalize q.resolve access receiver name args = out at hout
  cases hout with
  | unknown | remembered | failed => rfl
  | found => cases q.memoKey? access receiver name args <;> rfl

end Resolver

namespace Engine

variable {β : Type} {g g' : Engine β} {key : SiteKey} {s : Site β} {v : Value}
variable {args : List Value} {t : Target β} {receiver : Receiver} {guard : Guard}

/-- A call through a site is served by an entry of the site, without asking the resolver. -/
def Hits (g : Engine β) (key : SiteKey) (v : Value) (args : List Value) (t : Target β) : Prop :=
  ∃ s, g.sites.get? key = some s ∧ s.Hit g.resolver t (s.dispatch g.policy g.resolver v args)

/-- A call is served by its site exactly if the site has a valid entry for its shape. -/
theorem Reachable.hits_iff (hg : g.Reachable) : g.Hits key v args t ↔ ∃ s found,
    g.sites.get? key = some s ∧ s.Recalls (.ofCall g.registry v args) found ∧
      found.guard.isCurrent g.registry ∧ found.target = t := by
  constructor
  -- a call that counts as a hit looks like one from outside, so it is to be told from one that
  -- asked
  · rintro ⟨s, hs, hhit⟩
    have hserved : s.Served g.resolver (.ofCall g.registry v args)
      (s.dispatch g.policy g.resolver v args) := Site.served_dispatch
    generalize s.dispatch g.policy g.resolver v args = out at hhit hserved
    cases hserved with
    | hit he hcur => exact ⟨s, _, hs, he, hcur, Except.ok.inj hhit.answer⟩
    | asked =>
      -- the resolver would have counted the question
      have hcount := congrArg Resolver.invocations hhit.resolver
      rw [Resolver.invocations_resolve] at hcount
      exact absurd hcount (Nat.succ_ne_self _)
  · rintro ⟨s, found, hs, hrecalls, hcur, rfl⟩
    exact ⟨s, hs, Site.hit_of_recalls (hg.valid hs) (hg.settled hs) hrecalls hcur⟩

theorem Hits.dispatch (h : g.Hits key v args t) : (g.dispatch key v args).1 = some (.ok t) := by
  obtain ⟨s, hs, hhit⟩ := h
  rw [dispatch_of_site hs, hhit.answer]

/-- A resolution answers what the memo has under a current version, or else what looking up
yields. -/
theorem Reachable.resolve_eq (hg : g.Reachable) (access : Access) (name : String) (v : Value)
    (args : List Value) : (∃ found,
      g.resolver.Recalls ⟨access, name, .ofCall g.registry v args, found⟩ ∧
        found.guard.isCurrent g.registry) ∨
    (g.resolver.resolve access (.ofValue g.registry v) name (.ofArgs args)).1.map (·.target) =
      g.registry.lookup access (.ofValue g.registry v) name (args.map Value.classOf) := by
  obtain ⟨hanswer, -, -⟩ :=
    g.resolver.resolve_answer access (.ofValue g.registry v) name (.ofArgs args)
  -- the answer was looked up, or it was in the memo, whose guard has not become current by being
  -- read
  rcases hanswer with hlookup | ⟨found, -, hrecalls, hcur⟩
  · right
    rw [hlookup, ArgShape.ofArgs, ArgShape.toList_ofClasses]
    rfl
  · have hissued := (hg.founded (.memo hrecalls)).issued
    exact .inl ⟨found, hrecalls,
      Guard.isCurrent_of_later Registry.vouches_ensureClass.toLater hissued hcur⟩

/-- A call that is not served by its site is answered by the resolver. -/
theorem Reachable.dispatch_of_not_hits (hg : g.Reachable) (hs : g.sites.get? key = some s)
    (hmiss : ∀ t, ¬ g.Hits key v args t) : (g.dispatch key v args).1 =
      some ((g.resolver.resolve s.access (.ofValue g.registry v) s.name (.ofArgs args)).1.map
        (·.target)) := by
  rw [dispatch_of_site hs]
  have hserved : s.Served g.resolver (.ofCall g.registry v args)
    (s.dispatch g.policy g.resolver v args) := Site.served_dispatch
  generalize s.dispatch g.policy g.resolver v args = out at hserved
  cases hserved with
  | hit he hcur => exact absurd (hg.hits_iff.mpr ⟨s, _, hs, he, hcur, rfl⟩) (hmiss _)
  | asked => rfl

/-- Whatever is asked of a value is answered as before: by looking up, without a site and through
every site. -/
structure AnswersAlike (g' g : Engine β) (v : Value) : Prop where
  lookup : ∀ access name args, g'.registry.lookup access (.ofValue g'.registry v) name args =
    g.registry.lookup access (.ofValue g.registry v) name args
  decideUncached : ∀ access name args,
    (g'.decideUncached access v name args).1 = (g.decideUncached access v name args).1
  dispatch : ∀ key args, (g'.dispatch key v args).1 = (g.dispatch key v args).1

section Spared

variable {r : Registry β} (hg : g.Reachable) (hg' : (g.withRegistry r).Reachable)
variable (hreceiver : Receiver.ofValue r v = .ofValue g.registry v)
variable (hcur : ∀ guard : Guard, guard.IsFor (.ofValue g.registry v) → guard.Issued g.registry →
  (guard.isCurrent r ↔ guard.isCurrent g.registry))
include hg hg' hreceiver hcur

/-- Calls on a value whose guards did not become stale are served as before. -/
theorem hits_withRegistry : (g.withRegistry r).Hits key v args t ↔ g.Hits key v args t := by
  have hshape : Shape.ofCall r v args = .ofCall g.registry v args := by
    rw [Shape.ofCall, hreceiver, Shape.ofCall]
  rw [hg'.hits_iff, hg.hits_iff]
  refine exists_congr fun s => exists_congr fun found => ?_
  show _ ∧ s.Recalls (.ofCall r v args) found ∧ found.guard.isCurrent r ∧ _ ↔ _
  rw [hshape]
  refine and_congr_right fun hs => and_congr_right fun hrecalls => and_congr_left fun _ => ?_
  have hfounded := hg.founded (.site hs hrecalls)
  exact hcur _ hfounded.isFor hfounded.issued

/-- If lookups on it yield what they did as well, it is answered for as before. -/
theorem answersAlike_withRegistry (hlookup : ∀ access name args,
    r.lookup access (.ofValue r v) name args =
      g.registry.lookup access (.ofValue g.registry v) name args) :
    (g.withRegistry r).AnswersAlike g v := by
  -- a value is the same receiver for both registries, so calls have the same shapes
  have hshape : ∀ args,
      Shape.ofCall (g.withRegistry r).registry v args = .ofCall g.registry v args := by
    intro args
    show Shape.ofCall r v args = _
    rw [Shape.ofCall, hreceiver, Shape.ofCall]
  have hresolve : ∀ access name args,
      ((g.withRegistry r).resolver.resolve access (.ofValue r v) name (.ofArgs args)).1.map
        (·.target) =
      (g.resolver.resolve access (.ofValue g.registry v) name (.ofArgs args)).1.map (·.target) := by
    intro access name args
    by_cases hmemo : ∃ found,
        g.resolver.Recalls ⟨access, name, .ofCall g.registry v args, found⟩ ∧
          found.guard.isCurrent g.registry
    · -- the memo answers, before and after
      obtain ⟨found, hrecalls, hcurrent⟩ := hmemo
      have hfounded := hg.founded (.memo hrecalls)
      have hcurrent' := (hcur _ hfounded.isFor hfounded.issued).mpr hcurrent
      rw [hreceiver]
      exact (Resolver.resolve_of_recalls hg'.disciplined hrecalls hcurrent').trans
        (Resolver.resolve_of_recalls hg.disciplined hrecalls hcurrent).symm
    -- the memo has nothing valid for it, before or after, so both look it up
    · have hbefore := (hg.resolve_eq access name v args).resolve_left hmemo
      have hafter := (hg'.resolve_eq access name v args).resolve_left (by
        rintro ⟨found, hrecalls, hcurrent⟩
        rw [hshape] at hrecalls
        have hfounded := hg.founded (.memo hrecalls)
        exact hmemo ⟨found, hrecalls, (hcur _ hfounded.isFor hfounded.issued).mp hcurrent⟩)
      exact hafter.trans ((hlookup access name _).trans hbefore.symm)
  refine ⟨hlookup, fun access name args => ?_, fun key args => ?_⟩
  · rw [decideUncached_fst, decideUncached_fst]
    exact hresolve access name args
  · cases hs : g.sites.get? key with
    | none =>
      have hs' : (g.withRegistry r).sites.get? key = none := hs
      simp only [dispatch, hs, hs']
    | some s =>
      have hs' : (g.withRegistry r).sites.get? key = some s := hs
      have hhits : ∀ t, (g.withRegistry r).Hits key v args t ↔ g.Hits key v args t :=
        fun t => hits_withRegistry hg hg' hreceiver hcur
      -- a hit is a hit of the same target after, and a miss asks the resolver, which answers alike
      by_cases hhit : ∃ t, g.Hits key v args t
      · obtain ⟨t, ht⟩ := hhit
        rw [ht.dispatch, ((hhits t).mpr ht).dispatch]
      · have hmiss := not_exists.mp hhit
        rw [hg.dispatch_of_not_hits hs hmiss,
          hg'.dispatch_of_not_hits hs' fun t ht => hmiss t ((hhits t).mp ht)]
        exact congrArg some (hresolve s.access s.name args)

end Spared

/-! ## Exactness -/

/-- A guard that was captured for a receiver: a site or the memo holds it, or it came with a
resolution that was asked for before and kept. -/
inductive Captured (g : Engine β) : Receiver → Guard → Prop
  | held {f : Finding β} (hf : g.Recalls f) : Captured g f.shape.receiver f.found.guard
  | kept {g₀ : Engine β} {access : Access} {v : Value} {name : String} {args : List Value}
    {found : Resolution β} (hg₀ : g₀.Reachable)
    (hfound : (g₀.resolve access v name args).1 = .ok found)
    (hrun : Run Anything (g₀.resolve access v name args).2 g) :
    Captured g (.ofValue g₀.registry v) found.guard

theorem later_run {allowed : Engine β → Operation β → Prop} (hg : g.Reachable)
    (hrun : Run allowed g g') : g'.registry.Later g.registry := by
  suffices h : g'.Reachable ∧ g'.registry.Later g.registry from h.2
  refine hrun.preserves (P := fun g' => g'.Reachable ∧ g'.registry.Later g.registry) ?_
    ⟨hg, .refl _⟩
  rintro g' op - ⟨hg', hlater⟩
  exact ⟨hg'.perform trivial, (later_perform hg'.sound op).trans hlater⟩

theorem Captured.founded (hg : g.Reachable) (h : g.Captured receiver guard) :
    guard.IsFor receiver ∧ guard.Issued g.registry := by
  cases h with
  | held hf => exact ⟨(hg.founded hf).isFor, (hg.founded hf).issued⟩
  | @kept g₀ access v name args found hg₀ hfound hrun =>
    obtain ⟨-, hok, -⟩ :=
      g₀.resolver.resolve_answer access (.ofValue g₀.registry v) name (.ofArgs args)
    obtain ⟨hguard, cs, hregistry⟩ := hok found hfound
    -- what was kept has been issued then, and stays issued in every later registry
    have hafter : (g₀.resolve access v name args).2.Reachable :=
      hg₀.perform (show Anything g₀ (.resolve access v name args) from trivial)
    -- the guard was issued for the cells that the resolution brought into being
    have hissued :
        found.guard.Issued (g₀.registry.ensureClass (Receiver.ofValue g₀.registry v).cls) := by
      rw [hguard]
      exact Guard.issued_ofReceiver (hg₀.sound.ensureClass _) _
    refine ⟨hguard ▸ Guard.isFor_ofReceiver _ _, (hissued.later ?_).later (later_run hafter hrun)⟩
    show Registry.Later
      (g₀.resolver.resolve access (.ofValue g₀.registry v) name (.ofArgs args)).2.registry _
    rw [hregistry]
    exact (Registry.vouches_materializeAll cs).toLater

/-- `g'` comes of `g` by changing the members of a class, with any change or by a category. -/
inductive ChangesMembers (g : Engine β) (c : ClassRef) : Engine β → Prop
  | change (change : Change β) (hok : (g.changeClass c change).1 = .ok ()) :
    ChangesMembers g c (g.changeClass c change).2
  | category (methods : List (MethodDecl β)) (hok : (g.applyCategory c methods).1 = .ok ()) :
    ChangesMembers g c (g.applyCategory c methods).2

/-- `g'` comes of `g` by an operation on a class that concerns its heirs as well. -/
inductive Disturbs (g : Engine β) (c : ClassRef) : Engine β → Prop
  | members {g' : Engine β} (h : g.ChangesMembers c g') : Disturbs g c g'
  | trait (iface : ClassRef) (hok : (g.applyTrait c iface).1 = .ok ()) :
    Disturbs g c (g.applyTrait c iface).2
  | invalidate (hok : (g.invalidate c).1 = .ok ()) : Disturbs g c (g.invalidate c).2

theorem onRegistry'_eq_ok {f : Registry β → Except DispatchError (Registry β)}
    (hok : (g.onRegistry' f).1 = .ok ()) :
    ∃ r, f g.registry = .ok r ∧ (g.onRegistry' f).2 = g.withRegistry r := by
  rw [onRegistry'_fst] at hok
  rw [onRegistry'_snd]
  cases hr : f g.registry with
  | error e =>
    rw [hr] at hok
    cases hok
  | ok r => exact ⟨r, rfl, rfl⟩

theorem ChangesMembers.restamped {c : ClassRef} (hg : g.Reachable) (h : g.ChangesMembers c g') :
    g'.Reachable ∧ ∃ r : Registry β, g' = g.withRegistry r ∧ r.MembersRestamped g.registry c := by
  cases h with
  | change change hok =>
    obtain ⟨r, hr, heq⟩ := onRegistry'_eq_ok hok
    exact ⟨hg.perform (show Anything g (.changeClass c change) from trivial), r, heq,
      Registry.membersRestamped_changeClass hg.sound hr⟩
  | category methods hok =>
    obtain ⟨r, hr, heq⟩ := onRegistry'_eq_ok hok
    exact ⟨hg.perform (show Anything g (.applyCategory c methods) from trivial), r, heq,
      Registry.membersRestamped_applyCategory hg.sound hr⟩

theorem Disturbs.restamped {c : ClassRef} (hg : g.Reachable) (h : g.Disturbs c g') :
    g'.Reachable ∧ ∃ r : Registry β, g' = g.withRegistry r ∧ r.Restamped g.registry c := by
  cases h with
  | members h =>
    obtain ⟨hg', r, heq, hr⟩ := h.restamped hg
    exact ⟨hg', r, heq, hr.restamped⟩
  | trait iface hok =>
    obtain ⟨r, hr, heq⟩ := onRegistry'_eq_ok hok
    exact ⟨hg.perform (show Anything g (.applyTrait c iface) from trivial), r, heq,
      Registry.restamped_applyTrait hg.sound hr⟩
  | invalidate hok =>
    obtain ⟨r, hr, heq⟩ := onRegistry'_eq_ok hok
    exact ⟨hg.perform (show Anything g (.invalidate c) from trivial), r, heq,
      Registry.restamped_invalidate hg.sound hr⟩

/-- Invalidation is exact. An operation that concerns a class makes stale, of all guards that were
captured and are current, those of receivers with the class on their lookup chain, and calls on
other values are served as before. A change to an object makes stale those for the object as a
receiver with members of its own. And whatever is asked of a value whose lookup chain lacks the
changed class, or of a value other than the changed object, is answered as before. -/
theorem Reachable.invalidation_exact (hg : g.Reachable) :
    (∀ c g', g.Disturbs c g' →
      (∀ receiver guard, g.Captured receiver guard → guard.isCurrent g.registry →
        (¬ guard.isCurrent g'.registry ↔ c ∈ g.registry.hierarchy.chain receiver.cls)) ∧
      (∀ x, c ∈ g'.registry.hierarchy.chain x ↔ c ∈ g.registry.hierarchy.chain x) ∧
      ∀ v, c ∉ g.registry.hierarchy.chain v.classOf →
        ∀ key args t, g'.Hits key v args t ↔ g.Hits key v args t) ∧
    (∀ o change, (g.changeObject o change).1 = .ok () →
      (∀ receiver guard, g.Captured receiver guard → guard.isCurrent g.registry →
        (¬ guard.isCurrent (g.changeObject o change).2.registry ↔ receiver = .own o)) ∧
      ∀ v, v ≠ .object o → (g.changeObject o change).2.AnswersAlike g v ∧
        ∀ key args t, (g.changeObject o change).2.Hits key v args t ↔ g.Hits key v args t) ∧
    ∀ c g', g.ChangesMembers c g' → ∀ v, c ∉ g.registry.hierarchy.chain v.classOf →
      g'.AnswersAlike g v := by
  -- a guard for a value whose chain lacks the class is current after if it was before
  have hspared : ∀ {c : ClassRef} {r : Registry β} {v : Value}, r.Restamped g.registry c →
      c ∉ g.registry.hierarchy.chain v.classOf → ∀ guard : Guard,
      guard.IsFor (.ofValue g.registry v) → guard.Issued g.registry →
        (guard.isCurrent r ↔ guard.isCurrent g.registry) := by
    intro c r v hr hv guard hfor hissued
    rw [Guard.isCurrent_restamped_iff hr hissued, hfor.1, cls_ofValue]
    exact and_iff_left hv
  refine ⟨fun c g' h => ?_, fun o change hok => ?_, fun c g' h v hv => ?_⟩
  -- a class was disturbed: its heirs are those whose guards became stale
  · obtain ⟨hg', r, rfl, hr⟩ := h.restamped hg
    refine ⟨fun receiver guard hcaptured hcur => ?_, hr.heirs, fun v hv key args t => ?_⟩
    · obtain ⟨hfor, hissued⟩ := hcaptured.founded hg
      show ¬ guard.isCurrent r ↔ _
      rw [Guard.isCurrent_restamped_iff hr hissued, hfor.1]
      simp [hcur]
    · exact hits_withRegistry hg hg' hr.ofValue (hspared hr hv)
  -- an object was changed: guards of receivers without members of their own never mention it
  · obtain ⟨r, hr, heq⟩ := onRegistry'_eq_ok hok
    have hg' : (g.changeObject o change).2.Reachable :=
      hg.perform (show Anything g (.changeObject o change) from trivial)
    rw [changeObject, heq] at hg' ⊢
    refine ⟨fun receiver guard hcaptured hcur => ?_, fun v hv => ?_⟩
    · obtain ⟨hfor, hissued⟩ := hcaptured.founded hg
      show ¬ guard.isCurrent r ↔ _
      rw [Guard.isCurrent_changeObject_iff hr hfor hissued]
      simp [hcur]
    · have hspares := Registry.spares_changeObject hr hv
      have hcur : ∀ guard : Guard, guard.IsFor (.ofValue g.registry v) →
          guard.Issued g.registry → (guard.isCurrent r ↔ guard.isCurrent g.registry) := by
        intro guard hfor hissued
        rw [Guard.isCurrent_changeObject_iff hr hfor hissued]
        exact and_iff_left (Registry.ofValue_ne_own hv)
      exact ⟨answersAlike_withRegistry hg hg' hspares.receiver hcur hspares.lookup,
        fun key args t => hits_withRegistry hg hg' hspares.receiver hcur⟩
  -- only where members alone changed, and no links, does looking up yield the same for all others
  · obtain ⟨hg', r, rfl, hr⟩ := h.restamped hg
    have hspares := hr.spares hv
    exact answersAlike_withRegistry hg hg' hspares.receiver (hspared hr.restamped hv)
      hspares.lookup

/-- A change that adds a hook for missing methods. -/
def sampleChange : Change Unit := .setMethodMissing (some ())

/-- What the memo has of the sample call stays valid if the class of the argument is changed, and
becomes stale if that of the receiver is. -/
theorem invalidation_exact_sampleCall : ∃ guard, sampleCall.Captured (.plain ⟨10⟩) guard ∧
    guard.isCurrent (sampleCall.changeClass ⟨9⟩ sampleChange).2.registry ∧
    ¬ guard.isCurrent (sampleCall.changeClass ⟨10⟩ sampleChange).2.registry := by
  obtain ⟨m, hm, hcur⟩ : ∃ m,
      sampleCall.resolver.memo.get? ⟨⟨10⟩, "m", .ofArgs [sampleArgument]⟩ = some m ∧
        (⟨⟨10⟩, m.version, none⟩ : Guard).isCurrent sampleCall.registry := ⟨_, rfl, by decide⟩
  have hcaptured : sampleCall.Captured (.plain ⟨10⟩) ⟨⟨10⟩, m.version, none⟩ :=
    .held (.memo ⟨_, m, hm, rfl⟩)
  obtain ⟨hexact, -, -⟩ := reachable_sampleCall.invalidation_exact
  obtain ⟨hother, -, -⟩ := hexact ⟨9⟩ _ (.members (.change sampleChange rfl))
  obtain ⟨hsame, -, -⟩ := hexact ⟨10⟩ _ (.members (.change sampleChange rfl))
  refine ⟨_, hcaptured, ?_, (hsame _ _ hcaptured hcur).mpr (by decide)⟩
  exact not_not.mp (mt (hother _ _ hcaptured hcur).mp (by decide))

end Engine

end LateBinding
