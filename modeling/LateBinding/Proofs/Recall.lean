import LateBinding.Proofs.Entries
import LateBinding.Proofs.SiteRuns
import LateBinding.Proofs.Stamps

/-!
# What an engine remembers

What call sites keep in entries and what the resolver keeps in its memo are findings: a member
of some shape was found to resolve to a target, under a guard. `Engine.Recalls` says which
findings an engine still has.

An operation learns at most one finding, and that one is what looking up yields at that moment
(`Engine.recalls_perform`); a call answers with a finding that is recalled and current, or by
looking up (`Engine.dispatch_answers`). Whether the findings that are recalled are still true is
not asked here.
-/

namespace LateBinding

/-! ## Findings -/

/-- What a member was found to resolve to for a shape. -/
structure Finding (β : Type) where
  access : Access
  name : String
  shape : Shape
  found : Resolution β

namespace Finding

variable {β : Type} {f : Finding β} {r r' : Registry β}

/-- The finding is about a call of a declared class, and its guard was issued for the
receiver. -/
structure Founded (f : Finding β) (r : Registry β) : Prop where
  isFor : f.found.guard.IsFor f.shape.receiver
  issued : f.found.guard.Issued r
  receiver : r.hierarchy.Declares f.shape.receiver.cls
  /-- The shape is that of a call. -/
  canonical : f.shape.args = .ofClasses f.shape.args.toList

/-- The arguments that the finding is about are of declared classes. -/
def Rooted (f : Finding β) (r : Registry β) : Prop :=
  ∀ a ∈ f.shape.args.toList, r.hierarchy.Declares a

/-- Looking up yields what was found. -/
def Holds (f : Finding β) (r : Registry β) : Prop :=
  r.lookup f.access f.shape.receiver f.name f.shape.args.toList = .ok f.found.target

theorem Founded.later (hf : f.Founded r) (h : r'.Later r) : f.Founded r' where
  isFor := hf.isFor
  issued := hf.issued.later h
  receiver := h.declares _ hf.receiver
  canonical := hf.canonical

theorem Rooted.later (hf : f.Rooted r) (h : r'.Later r) : f.Rooted r' :=
  fun a ha => h.declares a (hf a ha)

end Finding

namespace Resolver

variable {β : Type} {q : Resolver β} {access : Access} {receiver : Receiver} {name : String}
variable {args : ArgShape} {found : Resolution β} {f : Finding β}

/-- The memo says what was found. -/
def Recalls (q : Resolver β) (f : Finding β) : Prop :=
  ∃ k m, q.memo.get? k = some m ∧
    f = ⟨.method, k.name, ⟨.plain k.cls, k.args⟩, ⟨m.target, ⟨k.cls, m.version, none⟩⟩⟩

theorem memoKey?_eq_some {k : MemoKey} (hk : q.memoKey? access receiver name args = some k) :
    q.memoize ∧ access = .method ∧ receiver = .plain k.cls ∧ name = k.name ∧ args = k.args := by
  unfold memoKey? at hk
  split at hk
  · cases hk
    exact ⟨‹_›, rfl, rfl, rfl, rfl⟩
  · cases hk

theorem remembered?_eq_some {key : Option MemoKey} {version : Nat} {t : Target β}
    (ht : q.remembered? key version = some t) :
    ∃ k, key = some k ∧ q.memo.get? k = some ⟨version, t⟩ := by
  unfold remembered? at ht
  split at ht
  · next m hm =>
    obtain ⟨k, rfl, hk⟩ := Option.bind_eq_some_iff.mp hm
    split at ht
    · next hversion =>
      cases ht
      exact ⟨k, rfl, by rw [hk, ← hversion]⟩
    · cases ht
  · cases ht

/-- What is remembered is what was remembered before, or the new resolution. -/
theorem recalls_remember {key : Option MemoKey} {version : Nat} {t : Target β}
    (hf : (q.remember key version t).Recalls f) : q.Recalls f ∨ ∃ k, key = some k ∧
      f = ⟨.method, k.name, ⟨.plain k.cls, k.args⟩, ⟨t, ⟨k.cls, version, none⟩⟩⟩ := by
  obtain ⟨k', m, hm, rfl⟩ := hf
  cases key with
  | none => exact .inl ⟨k', m, hm, rfl⟩
  | some k =>
    -- the new one is found under its key, and under any other what a cleared or kept memo has
    simp only [remember, Table.get?_insert] at hm
    split at hm
    · next hk =>
      cases hm
      exact .inr ⟨k', by rw [hk], rfl⟩
    · split at hm
      · cases hm
      · exact .inl ⟨k', m, hm, rfl⟩

theorem version?_ensureClass (r : Registry β) (c : ClassRef) :
    (r.ensureClass c).version? (.ofClass c) =
      some (((r.ensureClass c).version? (.ofClass c)).getD 0) := by
  have hcell : ∃ cell, (r.ensureClass c).cell? (.ofClass c) = some cell := by
    rw [Registry.ensureClass_eq, Registry.cell?_ensureCell, if_pos rfl]
    exact ⟨_, rfl⟩
  obtain ⟨cell, hcell⟩ := hcell
  simp [Registry.version?, hcell]

/-- A class that is not declared has no members to look up. -/
theorem lookup_of_materialize_error {r : Registry β} {e : DispatchError}
    (hmat : r.materialize receiver.cls = .error e) (args : List ClassRef) :
    r.lookup access receiver name args = .error e := by
  unfold Registry.materialize at hmat
  split at hmat
  · cases hmat
  · split at hmat
    · next hfind =>
      cases hmat
      unfold Registry.lookup
      rw [hfind]
    · cases hmat

/-- What a resolution comes to, and what is remembered of it. -/
theorem resolve_answer (q : Resolver β) (access : Access) (receiver : Receiver) (name : String)
    (args : ArgShape) :
    ((q.resolve access receiver name args).1.map (·.target) =
        q.registry.lookup access receiver name args.toList ∨
      ∃ found, (q.resolve access receiver name args).1 = .ok found ∧
        q.Recalls ⟨access, name, ⟨receiver, args⟩, found⟩ ∧
        found.guard.isCurrent (q.registry.ensureClass receiver.cls)) ∧
    (∀ found, (q.resolve access receiver name args).1 = .ok found →
      found.guard = .ofReceiver (q.registry.ensureClass receiver.cls) receiver ∧
      ∃ cs, (q.resolve access receiver name args).2.registry =
        (q.registry.ensureClass receiver.cls).materializeAll cs) ∧
    ∀ f, (q.resolve access receiver name args).2.Recalls f → q.Recalls f ∨
      f = ⟨access, name, ⟨receiver, args⟩, f.found⟩ ∧
        (q.resolve access receiver name args).1 = .ok f.found := by
  have hout := q.resolve_outcome access receiver name args
  generalize q.resolve access receiver name args = out at hout
  -- lookups are the same in whatever state the tables of members are
  have hsame : ∀ r, q.registry.materialize receiver.cls = .ok r →
      r = q.registry.ensureClass receiver.cls := fun _ => Registry.materialize_eq_ok
  have hlook : ∀ cs, ((q.registry.ensureClass receiver.cls).materializeAll cs).lookup access
      receiver name args.toList = q.registry.lookup access receiver name args.toList := fun cs => by
    rw [Registry.lookup_materializeAll, Registry.lookup_ensureClass]
  -- by the outcome of the resolution, of which only the last one adds to the memo
  cases hout with
  | unknown hmat =>
    refine ⟨.inl ?_, nofun, fun f hf => .inl hf⟩
    rw [lookup_of_materialize_error hmat]
    rfl
  | remembered hmat hmemo =>
    -- the memo answers only under the version that the class has now
    cases hsame _ hmat
    obtain ⟨k, hk, hget⟩ := remembered?_eq_some hmemo
    obtain ⟨-, rfl, rfl, rfl, rfl⟩ := memoKey?_eq_some hk
    refine ⟨.inr ⟨_, rfl, ⟨k, _, hget, rfl⟩, ?_⟩, fun found h => ?_, fun f hf => .inl hf⟩
    · exact Guard.isCurrent_iff.mpr ⟨version?_ensureClass _ _, nofun⟩
    · cases h
      exact ⟨rfl, [], rfl⟩
  | failed hmat hmemo hlookup =>
    cases hsame _ hmat
    exact ⟨.inl (by rw [← hlook, hlookup]; rfl), nofun, fun f hf => .inl hf⟩
  | found hmat hmemo hlookup =>
    cases hsame _ hmat
    refine ⟨.inl (by rw [← hlook, hlookup]; rfl), fun found h => ?_, fun f hf => ?_⟩
    · cases h
      exact ⟨rfl, _, registry_remember _ _ _ _⟩
    · refine (recalls_remember hf).imp id ?_
      rintro ⟨k, hk, rfl⟩
      obtain ⟨-, rfl, rfl, rfl, rfl⟩ := memoKey?_eq_some hk
      exact ⟨rfl, rfl⟩

end Resolver

/-! ## Operations of an engine -/

namespace Engine

variable {β : Type} {g : Engine β} {op : Operation β} {f : Finding β} {key : SiteKey}
variable {s s' : Site β} {receiver : Value} {args : List Value}

/-- The class of the value is declared, if it is an object. -/
def Known (g : Engine β) (v : Value) : Prop :=
  ∀ o, v = .object o → g.registry.hierarchy.Declares o.cls

/-- The arguments that the operation dispatches on are known. -/
def Operation.Grounded (g : Engine β) : Operation β → Prop
  | .resolve _ _ _ args => ∀ v ∈ args, g.Known v
  | .dispatch _ _ args => ∀ v ∈ args, g.Known v
  | _ => True

/-- A site or the memo says what was found. -/
inductive Recalls (g : Engine β) : Finding β → Prop
  | site {key : SiteKey} {s : Site β} {shape : Shape} {found : Resolution β}
    (hs : g.sites.get? key = some s) (hfound : s.Recalls shape found) :
    Recalls g ⟨s.access, s.name, shape, found⟩
  | memo {f : Finding β} (hf : g.resolver.Recalls f) : Recalls g f

/-- The builtin classes are always declared. -/
theorem Reachable.declares_classOf (hg : g.Reachable) {v : Value} (hv : g.Known v) :
    g.registry.hierarchy.Declares v.classOf := by
  suffices hbuiltin : g.Reachable ∧ ∀ c, Hierarchy.builtin.Declares c →
      g.registry.hierarchy.Declares c by
    cases v with
    | object o => exact hv o rfl
    | _ => exact hbuiltin.2 _ (by simp only [Value.classOf]; decide)
  refine hg.invariant (P := fun g => g.Reachable ∧ ∀ c, Hierarchy.builtin.Declares c →
    g.registry.hierarchy.Declares c) (fun s => ⟨⟨s, .refl⟩, fun _ => id⟩) ?_
  rintro g op - ⟨hg, hdeclares⟩
  exact ⟨hg.perform trivial, fun c hc => (later_perform hg.sound op).declares c (hdeclares c hc)⟩

theorem cls_ofValue (r : Registry β) (v : Value) : (Receiver.ofValue r v).cls = v.classOf := by
  cases v with
  | object o =>
    simp only [Receiver.ofValue]
    split <;> rfl
  | _ => rfl

/-- What is found for a call is founded if its receiver is of a declared class. -/
theorem founded_ofCall (hg : g.Reachable) {access : Access} {name : String}
    {found : Resolution β} {r : Registry β}
    (hreceiver : g.registry.hierarchy.Declares receiver.classOf)
    (hguard : found.guard = .ofReceiver (g.registry.ensureClass receiver.classOf)
      (.ofValue g.registry receiver))
    (hr : r.Later (g.registry.ensureClass receiver.classOf)) :
    (⟨access, name, .ofCall g.registry receiver args, found⟩ : Finding β).Founded r := by
  -- the guard was made in a registry that this one is later than
  have hlater := hr.trans Registry.vouches_ensureClass.toLater
  have hsound : (g.registry.ensureClass receiver.classOf).Sound := hg.sound.ensureClass _
  refine ⟨?_, ?_, ?_, ?_⟩
  · exact hguard ▸ Guard.isFor_ofReceiver _ _
  · exact (hguard ▸ Guard.issued_ofReceiver hsound _ : found.guard.Issued _).later hr
  · exact hlater.declares _ ((cls_ofValue g.registry receiver).symm ▸ hreceiver)
  · simp [Shape.ofCall, ArgShape.ofArgs]

theorem rooted_of_known (hg : g.Reachable) (hknown : ∀ v ∈ args, g.Known v)
    (hshape : f.shape = .ofCall g.registry receiver args) : f.Rooted g.registry := by
  intro a ha
  simp only [hshape, Shape.ofCall, ArgShape.ofArgs, ArgShape.toList_ofClasses, List.mem_map] at ha
  obtain ⟨v, hv, rfl⟩ := ha
  exact hg.declares_classOf (hknown v hv)

/-- An operation that is no resolution or call forgets what the memo says or leaves it alone. -/
theorem resolver_perform (g : Engine β) (op : Operation β) :
    (∃ r, (g.perform op).resolver = { g.resolver with registry := r }) ∨ op = .clearMemo ∨
      (∃ access receiver name args, op = .resolve access receiver name args) ∨
      ∃ key receiver args, op = .dispatch key receiver args := by
  -- an operation on the registry alone leaves memo and counters, whether it succeeds or not
  cases hop : op.change? with
  | some f =>
    rw [perform_of_change hop]
    split <;> exact .inl ⟨_, rfl⟩
  | none =>
    cases op with
    | define | changeClass | changeObject | applyCategory | applyTrait | invalidate | membersOf
      | versionOf => cases hop
    | resolve access receiver name args => exact .inr (.inr (.inl ⟨_, _, _, _, rfl⟩))
    | dispatch key receiver args => exact .inr (.inr (.inr ⟨_, _, _, rfl⟩))
    | clearMemo => exact .inr (.inl rfl)
    | resolveClass c name args =>
      simp only [perform, resolveClass, Resolver.resolveClass]
      split <;> exact .inl ⟨_, rfl⟩
    | openSite id access name =>
      simp only [perform, openSite]
      split
      · split <;> exact .inl ⟨_, rfl⟩
      · exact .inl ⟨_, rfl⟩
    | _ => exact .inl ⟨_, rfl⟩

theorem dispatch_of_site (hs : g.sites.get? key = some s) : g.dispatch key receiver args =
    (some (s.dispatch g.policy g.resolver receiver args).1, { g with
      resolver := (s.dispatch g.policy g.resolver receiver args).2.2
      sites := g.sites.insert key (s.dispatch g.policy g.resolver receiver args).2.1 }) := by
  simp only [dispatch, hs]

theorem resolver_perform_dispatch (hs : g.sites.get? key = some s) :
    (g.perform (.dispatch key receiver args)).resolver =
      (s.dispatch g.policy g.resolver receiver args).2.2 := by
  simp only [perform, dispatch_of_site hs]

/-- The finding is new: it is about the call that was asked for, and looking up yields it in the
registry of afterwards. -/
structure Learned (g : Engine β) (receiver : Value) (args : List Value) (f : Finding β)
    (r : Registry β) : Prop where
  shape : f.shape = .ofCall g.registry receiver args
  founded : f.Founded r
  holds : f.Holds r

section Resolving

variable (hg : g.Reachable) {access : Access} {name : String} {found : Resolution β}
include hg

/-- What a resolution finds was remembered before, or it is new. -/
theorem learned_of_resolve {q : Resolver β}
    (hq : g.resolver.resolve access (.ofValue g.registry receiver) name (.ofArgs args) =
      (.ok found, q)) (hf : f = ⟨access, name, .ofCall g.registry receiver args, found⟩) :
    g.resolver.Recalls f ∨ g.Learned receiver args f q.registry := by
  have hcls := cls_ofValue g.registry receiver
  obtain ⟨hanswer, hok, -⟩ :=
    g.resolver.resolve_answer access (.ofValue g.registry receiver) name (.ofArgs args)
  rw [hq] at hanswer hok
  obtain ⟨hguard, cs, hregistry⟩ := hok found rfl
  rw [hregistry]
  subst hf
  -- the answer was looked up, or the memo had it already
  rcases hanswer with hlookup | ⟨found', hfound', hrecalls, -⟩
  · have hdeclares := Registry.declares_of_lookup hlookup.symm
    rw [hcls] at hguard hdeclares
    refine .inr ⟨rfl, founded_ofCall hg hdeclares hguard ?_, ?_⟩
    · rw [hcls]
      exact (Registry.vouches_materializeAll cs).toLater
    · unfold Finding.Holds
      rw [Registry.lookup_materializeAll, Registry.lookup_ensureClass]
      exact hlookup.symm
  · cases hfound'
    exact .inl hrecalls

/-- After a resolution, what the memo says it said before or is new. -/
theorem recalls_resolve {q : Resolver β}
    (hq : (g.resolver.resolve access (.ofValue g.registry receiver) name (.ofArgs args)).2 = q)
    (hf : q.Recalls f) : g.resolver.Recalls f ∨ g.Learned receiver args f q.registry := by
  subst hq
  obtain ⟨-, -, hmemo⟩ :=
    g.resolver.resolve_answer access (.ofValue g.registry receiver) name (.ofArgs args)
  rcases hmemo f hf with hold | ⟨hshape, hfound⟩
  · exact .inl hold
  · exact learned_of_resolve hg (Prod.ext hfound rfl) hshape

/-- After a call, what the site and the memo say was said before or is new. -/
theorem learned_of_dispatch (hs : g.sites.get? key = some s)
    (hf : (∃ shape found, (s.dispatch g.policy g.resolver receiver args).2.1.Recalls shape found ∧
        f = ⟨(s.dispatch g.policy g.resolver receiver args).2.1.access,
          (s.dispatch g.policy g.resolver receiver args).2.1.name, shape, found⟩) ∨
      (s.dispatch g.policy g.resolver receiver args).2.2.Recalls f) :
    g.Recalls f ∨
      g.Learned receiver args f (s.dispatch g.policy g.resolver receiver args).2.2.registry := by
  have hserved : s.Served g.resolver (.ofCall g.registry receiver args)
    (s.dispatch g.policy g.resolver receiver args) := Site.served_dispatch
  generalize s.dispatch g.policy g.resolver receiver args = out at hf hserved
  -- a hit adds nothing, and what was asked for is the resolver's, or was kept from it
  cases hserved with
  | hit he hcur hs' =>
    rcases hf with ⟨shape, found, hrecalls, rfl⟩ | hmemo
    · rw [hs'.access, hs'.name]
      exact .inl (.site hs (hs'.old hrecalls))
    · exact .inl (.memo hmemo)
  | asked hs' =>
    rcases hf with ⟨shape, found, hrecalls, rfl⟩ | hmemo
    · rw [hs'.access, hs'.name]
      rcases hs'.recalls hrecalls with hold | ⟨rfl, hfound⟩
      · exact .inl (.site hs hold)
      · exact (learned_of_resolve hg (Prod.ext hfound rfl) rfl).imp .memo id
    · exact (recalls_resolve hg rfl hmemo).imp .memo id

end Resolving

/-- What an engine recalls after an operation it recalled before, or a call was asked for that
it is about, and looking up yields it now. -/
theorem recalls_perform (hg : g.Reachable) (hf : (g.perform op).Recalls f) : g.Recalls f ∨
    ∃ receiver args, (op.Grounded g → ∀ v ∈ args, g.Known v) ∧
      g.Learned receiver args f (g.perform op).registry := by
  cases hf with
  | site hs' hfound =>
    -- at a site: nothing happened to it, it was called, it was reset, or it is new
    rcases sites_perform hg.unused hs' with ⟨s, hs, hmoves⟩ | ⟨-, ⟨id, access, name, n, rfl⟩, -⟩
    · cases hmoves with
      | rest => exact .inl (.site hs hfound)
      | @call receiver args hop =>
        subst hop
        rw [registry, resolver_perform_dispatch hs]
        refine (learned_of_dispatch hg hs (.inl ⟨_, _, hfound, rfl⟩)).imp_right fun hnew => ?_
        exact ⟨receiver, args, id, hnew⟩
      | reset =>
        have hold := Site.evolves_reset.old hfound
        exact .inl (show g.Recalls ⟨s.access, s.name, _, _⟩ from .site hs hold)
    · -- a new site has no entries
      obtain ⟨e, he, -⟩ := hfound
      rcases he with he | he
      · exact absurd (Site.mem_of_mem_fill he) List.not_mem_nil
      · cases he
  | memo hmemo =>
    -- in the memo: it was left alone, cleared, or asked, by a resolution or through a site
    rcases resolver_perform g op with
      ⟨r, hr⟩ | rfl | ⟨access, v, name, args, rfl⟩ | ⟨key, v, args, rfl⟩
    · rw [hr] at hmemo
      exact .inl (.memo hmemo)
    · obtain ⟨k, m, hm, -⟩ := hmemo
      cases hm
    · exact (recalls_resolve hg rfl hmemo).imp .memo fun hnew => ⟨v, args, id, hnew⟩
    · cases hs : g.sites.get? key with
      | none =>
        simp only [perform, dispatch, hs] at hmemo
        exact .inl (.memo hmemo)
      | some s =>
        rw [registry, resolver_perform_dispatch hs]
        rw [resolver_perform_dispatch hs] at hmemo
        exact (learned_of_dispatch hg hs (.inr hmemo)).imp_right fun hnew => ⟨v, args, id, hnew⟩

theorem not_recalls_build (settings : Settings) : ¬ (build settings : Engine β).Recalls f := by
  rintro (⟨hs, -⟩ | ⟨k, m, hm, -⟩)
  · cases hs
  · cases hm

/-- Whatever is recalled is founded. -/
theorem Reachable.founded (hg : g.Reachable) (hf : g.Recalls f) : f.Founded g.registry := by
  suffices h : g.Reachable ∧ ∀ f, g.Recalls f → f.Founded g.registry from h.2 f hf
  refine hg.invariant (P := fun g => g.Reachable ∧ ∀ f, g.Recalls f → f.Founded g.registry)
    (fun settings => ⟨⟨settings, .refl⟩, fun _ h => absurd h (not_recalls_build settings)⟩) ?_
  rintro g op - ⟨hg, hfounded⟩
  refine ⟨hg.perform trivial, fun f hf => ?_⟩
  rcases recalls_perform hg hf with hold | ⟨receiver, args, -, hnew⟩
  · exact (hfounded f hold).later (later_perform hg.sound op)
  · exact hnew.founded

/-- Whatever is recalled is about declared classes as long as operations dispatch on known
arguments. -/
theorem ReachableBy.rooted (hg : ReachableBy Operation.Grounded g) (hf : g.Recalls f) :
    f.Rooted g.registry := by
  suffices h : g.Reachable ∧ ∀ f, g.Recalls f → f.Rooted g.registry from h.2 f hf
  refine hg.invariant (P := fun g => g.Reachable ∧ ∀ f, g.Recalls f → f.Rooted g.registry)
    (fun settings => ⟨⟨settings, .refl⟩, fun _ h => absurd h (not_recalls_build settings)⟩) ?_
  rintro g op hop ⟨hg, hrooted⟩
  refine ⟨hg.perform trivial, fun f hf => ?_⟩
  have hlater := later_perform hg.sound op
  rcases recalls_perform hg hf with hold | ⟨receiver, args, hknown, hnew⟩
  · exact (hrooted f hold).later hlater
  · exact (rooted_of_known hg (hknown hop) hnew.shape).later hlater

/-! ### Answers -/

/-- What is answered to a question: what looking up yields, or a finding that is recalled and
current. -/
def Answers (g : Engine β) (access : Access) (name : String) (receiver : Value)
    (args : List Value) (answer : Except DispatchError (Target β)) : Prop :=
  answer = g.registry.lookup access (.ofValue g.registry receiver) name (args.map Value.classOf) ∨
    ∃ found, g.Recalls ⟨access, name, .ofCall g.registry receiver args, found⟩ ∧
      found.guard.isCurrent g.registry ∧ answer = .ok found.target

theorem decideUncached_fst {access : Access} {name : String} :
    (g.decideUncached access receiver name args).1 =
      (g.resolver.resolve access (.ofValue g.registry receiver) name (.ofArgs args)).1.map
        (·.target) := by
  unfold decideUncached resolve
  dsimp only
  split <;> next h =>
    rw [congrArg Prod.fst h]
    rfl

theorem resolve_answers (hg : g.Reachable) (access : Access) (name : String) (receiver : Value)
    (args : List Value) : g.Answers access name receiver args
      ((g.resolver.resolve access (.ofValue g.registry receiver) name (.ofArgs args)).1.map
        (·.target)) := by
  obtain ⟨hanswer, -, -⟩ :=
    g.resolver.resolve_answer access (.ofValue g.registry receiver) name (.ofArgs args)
  rcases hanswer with hlookup | ⟨found, hfound, hrecalls, hcur⟩
  · refine .inl (hlookup.trans ?_)
    rw [ArgShape.ofArgs, ArgShape.toList_ofClasses]
    rfl
  -- that it was current when it was read does not depend on tables that were made since
  · have hissued := (hg.founded (.memo hrecalls)).issued
    refine .inr ⟨found, .memo hrecalls, ?_, by rw [hfound]; rfl⟩
    exact Guard.isCurrent_of_later Registry.vouches_ensureClass.toLater hissued hcur

theorem decideUncached_answers (hg : g.Reachable) (access : Access) (name : String) :
    g.Answers access name receiver args (g.decideUncached access receiver name args).1 :=
  decideUncached_fst ▸ resolve_answers hg access name receiver args

theorem dispatch_answers (hg : g.Reachable) (hs : g.sites.get? key = some s) :
    ∃ answer, (g.dispatch key receiver args).1 = some answer ∧
      g.Answers s.access s.name receiver args answer := by
  rw [dispatch_of_site hs]
  refine ⟨_, rfl, ?_⟩
  have hserved : s.Served g.resolver (.ofCall g.registry receiver args)
    (s.dispatch g.policy g.resolver receiver args) := Site.served_dispatch
  generalize s.dispatch g.policy g.resolver receiver args = out at hserved
  cases hserved with
  | hit he hcur => exact .inr ⟨_, .site hs he, hcur, rfl⟩
  | asked => exact resolve_answers hg _ _ _ _

end Engine

end LateBinding
