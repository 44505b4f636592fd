import LateBinding.Proofs.Invalidation
import LateBinding.Proofs.Workloads

/-!
# Sites that are called with one shape

Whatever is changed in between, a site that is always called with the same shape has no other
entry than the one for it, and does not give up. It asks the resolver exactly if this entry is
missing or stale, and after that the entry is valid (`Engine.SoleSite.call`). So its resolutions are
counted by the changes that make the entry stale (`Engine.SoleSite.changeClass`).
-/

namespace LateBinding

namespace Site

variable {β : Type} {s s' : Site β} {e x : Entry β} {shape : Shape} {found found' : Resolution β}
variable {p : Policy} {r : Registry β} {q : Resolver β} {t : Target β} {room : Nat}

/-! ## The entry for the shape of a call -/

/-- After an entry was kept, there is no other one for its shape. -/
theorem eq_of_mem_keep (hs : s.Valid) (hx : x ∈ (s.keep r e).entries) (hshape : x.shape = e.shape) :
    x = e := by
  unfold Site.keep at hx
  split at hx
  · obtain ⟨free, hpacked⟩ := hs.packed
    -- the entry for the shape gives way to the new one in its slot, and all others have other
    -- shapes
    have hslots : ({ s with slots := updateEntry e.shape (fun _ => e) s.slots } : Site β).slots =
        pack (s.entries.map fun old => if old.shape = e.shape then e else old) free := by
      dsimp only
      conv_lhs => rw [hpacked, updateEntry_pack, onEntry_eq_map hs.condition.distinct]
    rw [entries_of_slots hslots] at hx
    obtain ⟨old, -, rfl⟩ := List.mem_map.mp hx
    by_cases hold : old.shape = e.shape
    · exact if_pos hold
    · rw [if_neg hold] at hshape
      exact absurd hshape hold
  · next hnone =>
    -- the shape is new, so none of the entries has it, whichever of them is dropped for room
    have hnew : e.shape ∉ s.shapes := entryFor?_eq_none.mp hnone
    have hsub : ∀ l : List (Entry β), l ⊆ s.entries →
        some x ∈ fill s.capacity (e :: l) → x = e := by
      intro l hl hx
      rcases List.mem_cons.mp (mem_of_mem_fill hx) with rfl | hx
      · rfl
      · exact absurd (hshape ▸ List.mem_map_of_mem (hl hx)) hnew
    have hslot := mem_entries.mp hx
    rcases learn_eq (s := s) (r := r) (e := e) with heq | heq <;> rw [heq] at hslot
    · exact hsub _ (List.eraseIdx_sublist _ _).subset hslot
    · exact hsub _ (List.Subset.refl _) hslot

/-- Following the policy adds no entries. -/
theorem entries_follow_subset {v : Verdict} : (s.follow r v).entries ⊆ s.entries := by
  cases v with
  | keep => exact List.Subset.refl _
  | freeze =>
    show (s.freeze r).entries ⊆ s.entries
    unfold Site.freeze
    split <;> exact List.Subset.refl _
  | giveUp =>
    intro e he
    exact absurd (mem_of_mem_fill (mem_entries.mp he)) List.not_mem_nil

/-- What a site recalls for a shape is valid under one guard. -/
theorem Valid.recalls_unique (hs : s.Valid) (h : s.Recalls shape found)
    (h' : s.Recalls shape found') : found.guard = found'.guard := by
  obtain ⟨e, he, hshape, -, hguard⟩ := hs.entry_of_recalls h
  obtain ⟨e', he', hshape', -, hguard'⟩ := hs.entry_of_recalls h'
  have heq : e = e' :=
    List.inj_on_of_nodup_map hs.condition.distinct he he' (hshape.trans hshape'.symm)
  rw [← hguard, ← hguard', heq]

/-- A hit leaves the entry for the shape valid. -/
theorem current_of_hit (hs : s.Valid) (hr : s.Recalls shape ⟨e.target, e.guard⟩)
    (hcur : e.isCurrent r) (hevolves : s'.Evolves s fun _ _ => False) (hx : x ∈ s'.entries)
    (hshape : x.shape = shape) : x.isCurrent r := by
  have hold : s.Recalls shape ⟨x.target, x.guard⟩ :=
    hevolves.old ⟨x, .inl (mem_entries.mp hx), hshape, rfl, rfl⟩
  rw [Entry.isCurrent, show x.guard = e.guard from hs.recalls_unique hold hr]
  exact hcur

section

variable (hfound : ∀ {found q'}, q.resolve s.access shape.receiver s.name shape.args =
  (.ok found, q') → found.guard.isCurrent q'.registry)
include hfound

/-- A miss that is answered leaves the entry for the shape valid, if there is one. -/
theorem current_miss (hs : s'.Valid) (haccess : s'.access = s.access) (hname : s'.name = s.name)
    (hok : (s'.miss p q shape).1 = .ok t) (hx : x ∈ (s'.miss p q shape).2.1.entries)
    (hshape : x.shape = shape) : x.isCurrent (s'.miss p q shape).2.2.registry := by
  rcases hq : q.resolve s'.access shape.receiver s'.name shape.args with ⟨err | found, q'⟩
  · rw [miss_of_error hq] at hok
    cases hok
  · rw [miss_of_ok hq] at hx ⊢
    cases eq_of_mem_keep hs.ask (entries_follow_subset hx) hshape
    rw [haccess, hname] at hq
    exact hfound hq

/-- After a call that was answered, the entry for its shape is valid, if there is one. -/
theorem current_dispatchShape (hs : s.Valid) (hok : (s.dispatchShape p q shape).1 = .ok t)
    (hx : x ∈ (s.dispatchShape p q shape).2.1.entries) (hshape : x.shape = shape) :
    x.isCurrent (s.dispatchShape p q shape).2.2.registry := by
  rw [dispatchShape_eq] at hok hx ⊢
  -- both phases that look into the slots serve alike
  have hadaptive : (s.count.serveAdaptive p q shape).1 = .ok t →
      x ∈ (s.count.serveAdaptive p q shape).2.1.entries →
      x.isCurrent (s.count.serveAdaptive p q shape).2.2.registry := by
    unfold serveAdaptive
    split
    · next he =>
      obtain ⟨hrecalls, hcur⟩ := recalls_of_currentFor he
      exact fun _ hx => current_of_hit hs.count hrecalls hcur
        (evolves_considerFreezing.trans evolves_promote) hx hshape
    · exact fun hok hx => current_miss hfound hs.count rfl rfl hok hx hshape
  -- An entry for the shape was hit, or it was learned from the answer. A site that gave up has
  -- none.
  cases hphase : s.phase with
  | cold =>
    rw [hphase] at hok hx
    exact current_miss hfound hs.count rfl rfl hok hx hshape
  | megamorphic =>
    rw [hphase, bypass_eq] at hx
    rw [show s.count.ask.entries = s.entries from rfl,
      hs.condition.in_phase.1 (.inr hphase)] at hx
    cases hx
  | frozen =>
    rw [hphase] at hok hx
    dsimp only [serveFrozen] at hok hx ⊢
    split
    · next he =>
      obtain ⟨hrecalls, hcur⟩ := recalls_of_frozenFor he
      simp only [he] at hx
      exact current_of_hit hs.count hrecalls hcur evolves_recordHit hx hshape
    · next he =>
      simp only [he] at hok hx
      exact current_miss hfound (Valid.thaw hs.count hphase).1 rfl rfl hok hx hshape
  | monomorphic | polymorphic =>
    rw [hphase] at hok hx
    exact hadaptive hok hx

end

/-! ## Serving -/

/-- A site that did not give up serves a shape if it has a valid entry for it. -/
theorem serves_iff (hs : s.Valid) (hsettled : s.Settled r) :
    s.serves r shape = true ↔ ∃ e ∈ s.entries, e.shape = shape ∧ e.isCurrent r := by
  -- the phases that look into the slots ask just this
  have hadaptive : (s.currentFor? r shape).isSome ↔
      ∃ e ∈ s.entries, e.shape = shape ∧ e.isCurrent r := by
    constructor
    · intro h
      obtain ⟨e, he⟩ := Option.isSome_iff_exists.mp h
      obtain ⟨hfind, hcur⟩ := Option.filter_eq_some_iff.mp he
      exact ⟨e, List.mem_of_find?_eq_some hfind, by simpa using List.find?_some hfind, hcur⟩
    · rintro ⟨e, he, hshape, hcur⟩
      have hfind := find?_of_mem hs (List.Subset.refl _) he hshape
      rw [currentFor?, entryFor?, hfind]
      simp [hcur]
  -- in these two nothing is stored
  have hnothing : s.phase = .cold ∨ s.phase = .megamorphic →
      ¬ ∃ e ∈ s.entries, e.shape = shape ∧ e.isCurrent r := by
    rintro hphase ⟨e, he, -⟩
    rw [hs.condition.in_phase.1 hphase] at he
    cases he
  unfold serves
  cases hphase : s.phase with
  | cold => simpa using hnothing (.inl hphase)
  | megamorphic => simpa using hnothing (.inr hphase)
  | frozen =>
    -- a frozen site looks into its frozen entries, which are those in the slots while it is settled
    constructor
    · intro h
      obtain ⟨e, he⟩ := Option.isSome_iff_exists.mp h
      obtain ⟨hfind, hcur⟩ := Option.filter_eq_some_iff.mp he
      exact ⟨e, hs.frozen_subset (List.mem_of_find?_eq_some hfind),
        by simpa using List.find?_some hfind, hcur⟩
    · rintro ⟨e, he, hshape, hcur⟩
      simp only
      rw [frozenFor?_of_mem hs hsettled hphase he hcur hshape]
      rfl
  | monomorphic | polymorphic => exact hadaptive

/-! ## One shape -/

/-- The site was called with one shape only, if at all. -/
structure Sole (s : Site β) (room : Nat) (shape : Shape) : Prop where
  capacity : s.capacity = room
  phase : s.phase ≠ .megamorphic
  shapes : ∀ y ∈ s.shapes, y = shape
  distinctShapes : s.distinctShapes = if shape ∈ s.shapes then 1 else 0

theorem sole_create (id : Nat) (access : Access) (name : String) (hroom : 1 ≤ room) :
    (create id access name room : Site β).Sole room shape where
  capacity := (Engine.capacity_create ..).trans (Nat.max_eq_left hroom)
  phase := nofun
  shapes := by
    rw [shapes, Engine.entries_of_fresh (.created ..)]
    exact fun _ h => absurd h List.not_mem_nil
  distinctShapes := by
    rw [shapes, Engine.entries_of_fresh (.created ..)]
    rfl

/-- Another call with the shape is the same, and then there is an entry. -/
theorem Sole.call (h : s.Sole room shape) (hs : s.Valid)
    (hmultiplier : 1 ≤ p.megamorphicMultiplier) (hroom : room < Word.last)
    (hok : (s.dispatchShape p q shape).1 = .ok t) :
    (s.dispatchShape p q shape).2.1.Sole room shape ∧
      shape ∈ (s.dispatchShape p q shape).2.1.shapes := by
  -- a new shape is the only one then, and there is room for one
  have hfree : shape ∈ s.shapes ∨ s.shapes.length < s.capacity := by
    refine or_iff_not_imp_left.mpr fun hnew => ?_
    have hempty : s.shapes = [] :=
      List.eq_nil_iff_forall_not_mem.mpr fun y hy => hnew (h.shapes y hy ▸ hy)
    rw [hempty]
    exact hs.room
  have htook := took_dispatchShape hs hmultiplier (h.capacity ▸ hroom) hfree h.phase hok
  have hone : ∀ {s' : Site β} {lost : Bool}, s'.Heard s shape lost → s'.distinctShapes = 1 := by
    intro s' lost hheard
    rw [hheard.distinctShapes, h.distinctShapes]
    split <;> rfl
  generalize (s.dispatchShape p q shape).2.1 = s' at htook
  cases htook with
  | kept hheard hphase =>
    have hmem : shape ∈ s'.shapes := (hheard.shapes shape).mpr (.inl rfl)
    refine ⟨⟨hheard.capacity.trans h.capacity, hphase, fun y hy => ?_, ?_⟩, hmem⟩
    · exact ((hheard.shapes y).mp hy).elim (fun hy => hy) fun hold => h.shapes y hold.1
    · rw [if_pos hmem, hone hheard]
  | gaveUp hheard hover =>
    -- one shape always fits
    have hcapacity := hs.room
    have hdistinct := hone hheard
    have hsame := hheard.capacity
    omega

end Site

/-! ## One question to the resolver -/

namespace Resolver

variable {β : Type} {q : Resolver β} {c : ClassRef} {name : String} {args : ArgShape}
variable {found : Resolution β} {k : MemoKey}

/-- What is remembered under a key is valid. -/
def Knows (q : Resolver β) (k : MemoKey) : Prop :=
  ∃ m, q.memo.get? k = some m ∧ q.registry.version? (.ofClass k.cls) = some m.version

theorem memoKey?_plain (hmemoize : q.memoize) :
    q.memoKey? .method (.plain c) name args = some ⟨c, name, args⟩ := by
  unfold memoKey?
  rw [hmemoize]

/-- After a question was answered, the answer is known if anything is to be remembered. -/
theorem knows_resolve (hmemoize : q.memoize)
    (hok : (q.resolve .method (.plain c) name args).1 = .ok found) :
    (q.resolve .method (.plain c) name args).2.Knows ⟨c, name, args⟩ := by
  have hout := q.resolve_outcome .method (.plain c) name args
  generalize q.resolve .method (.plain c) name args = out at hok hout
  -- the version that is remembered is the one that the class has from now on
  have hversion : ∀ {r}, q.registry.materialize c = .ok r → r.version? (.ofClass c) =
      some (Guard.ofReceiver r (.plain c)).version := by
    intro r hmat
    rw [Registry.materialize_eq_ok hmat]
    exact version?_ensureClass _ _
  cases hout with
  | unknown | failed => cases hok
  | remembered hmat hmemo =>
    obtain ⟨k, hk, hget⟩ := remembered?_eq_some hmemo
    rw [memoKey?_plain hmemoize] at hk
    cases hk
    exact ⟨_, hget, hversion hmat⟩
  | found hmat =>
    rw [memoKey?_plain hmemoize]
    refine ⟨_, (Table.get?_insert ..).trans (if_pos rfl), ?_⟩
    exact Registry.version?_materializeAll (hversion hmat) _

/-- What is known is not looked up again. -/
theorem fullResolutions_of_knows (hmemoize : q.memoize) (hknows : q.Knows ⟨c, name, args⟩) :
    (q.resolve .method (.plain c) name args).2.fullResolutions = q.fullResolutions := by
  obtain ⟨m, hm, hversion⟩ := hknows
  -- a class of which something is remembered has its tables already
  have hmat : q.registry.materialize c = .ok q.registry := by
    obtain ⟨cell, hcell, -⟩ := Option.map_eq_some_iff.mp hversion
    simp [Registry.materialize, hcell]
  have hremembers : q.remembered? (q.memoKey? .method (.plain c) name args)
      (Guard.ofReceiver q.registry (.plain c)).version = some m.target := by
    have hnow : (Guard.ofReceiver q.registry (.plain c)).version = m.version :=
      congrArg (·.getD 0) hversion
    rw [memoKey?_plain hmemoize, hnow]
    simp [remembered?, hm]
  have hout := q.resolve_outcome .method (.plain c) name args
  generalize q.resolve .method (.plain c) name args = out at hout
  -- the memo answers, so no case in which it does not is left
  cases hout with
  | unknown | remembered => rfl
  | failed hmat' hmemo | found hmat' hmemo =>
    rw [show q.registry.materialize (Receiver.plain c).cls = .ok q.registry from hmat] at hmat'
    cases hmat'
    rw [hremembers] at hmemo
    cases hmemo

/-- What is not remembered is looked up. -/
theorem fullResolutions_of_new
    (hnew : q.memoize = false ∨ q.memo.get? ⟨c, name, args⟩ = none)
    (hok : (q.resolve .method (.plain c) name args).1 = .ok found) :
    (q.resolve .method (.plain c) name args).2.fullResolutions = q.fullResolutions + 1 := by
  have hout := q.resolve_outcome .method (.plain c) name args
  generalize q.resolve .method (.plain c) name args = out at hok hout
  cases hout with
  | unknown | failed => cases hok
  | remembered hmat hmemo =>
    obtain ⟨k, hk, hget⟩ := remembered?_eq_some hmemo
    obtain ⟨hmemoize, -, hc, rfl, rfl⟩ := memoKey?_eq_some hk
    cases hc
    -- had the memo answered, it would be on and hold the question
    rcases hnew with hoff | hnone
    · rw [hoff] at hmemoize
      cases hmemoize
    · rw [hnone] at hget
      cases hget
  | @found r t hmat =>
    obtain ⟨memo, hmemo⟩ := remember_eq { q with
      registry := r.materializeAll (r.hierarchy.chain c)
      invocations := q.invocations + 1, fullResolutions := q.fullResolutions + 1 }
      (q.memoKey? .method (.plain c) name args) (Guard.ofReceiver r (.plain c)).version t
    exact congrArg (·.fullResolutions) hmemo

/-- The resolver was asked one question only, so many times, and always had an answer. -/
structure Asked (q : Resolver β) (k : MemoKey) (n : Nat) : Prop where
  invocations : q.invocations = n
  fullResolutions : q.fullResolutions = if q.memoize then min 1 n else n
  memo : q.memoize → if n = 0 then q.memo.get? k = none else q.Knows k

theorem Asked.resolve {n : Nat} (h : q.Asked k n) (hq : q.registry.Housed)
    (hok : (q.resolve .method (.plain k.cls) k.name k.args).1 = .ok found) :
    (q.resolve .method (.plain k.cls) k.name k.args).2.Asked k (n + 1) := by
  have hanswered := answered_resolve hq .method (.plain k.cls) k.name k.args
  have hfull := h.fullResolutions
  refine ⟨hanswered.invocations.trans (h.invocations ▸ rfl), ?_, fun hmemoize => ?_⟩
  -- the first question is looked up, and each later one if nothing is remembered
  · rw [hanswered.memoize]
    by_cases hmemoize : q.memoize
    · have hmemo := h.memo hmemoize
      rw [if_pos hmemoize] at hfull ⊢
      by_cases hn : n = 0
      · rw [if_pos hn] at hmemo
        rw [fullResolutions_of_new (.inr hmemo) hok]
        omega
      · rw [if_neg hn] at hmemo
        rw [fullResolutions_of_knows hmemoize hmemo]
        omega
    · rw [fullResolutions_of_new (.inl (Bool.eq_false_iff.mpr hmemoize)) hok]
      rw [if_neg hmemoize] at hfull ⊢
      omega
  · rw [hanswered.memoize] at hmemoize
    rw [if_neg n.succ_ne_zero]
    exact knows_resolve hmemoize hok

end Resolver

/-! ## Calls of an engine -/

namespace Engine

variable {β : Type} {settings : Settings} {g : Engine β} {key : SiteKey} {access : Access}
variable {name : String} {shape : Shape} {s : Site β} {receiver : Value} {args : List Value}
variable {t : Target β}

/-- An engine that was used in an orderly way has this site, which was called with one shape
only. -/
structure SoleSite (settings : Settings) (key : SiteKey) (access : Access) (name : String)
    (shape : Shape) (s : Site β) (g : Engine β) : Prop where
  valid : settings.fault? = none
  run : Run Orderly (build settings) g
  site : g.sites.get? key = some s
  access : s.access = access
  name : s.name = name
  sole : s.Sole settings.cacheCapacity shape

theorem SoleSite.launched (h : SoleSite settings key access name shape s g) : g.Launched :=
  launched_of_run h.valid h.run

theorem SoleSite.serves_iff (h : SoleSite settings key access name shape s g) :
    s.serves g.registry shape = true ↔ ∃ e ∈ s.entries, e.shape = shape ∧ e.isCurrent g.registry :=
  Site.serves_iff (h.launched.reachable.valid h.site) (h.launched.reachable.settled h.site)

/-- A site that was just created. -/
theorem soleSite_create {id : Nat} (hvalid : settings.fault? = none)
    (hrun : Run Orderly (build settings) g)
    (hs : g.sites.get? key = some (.create id access name settings.cacheCapacity)) :
    SoleSite settings key access name shape (.create id access name settings.cacheCapacity) g where
  valid := hvalid
  run := hrun
  site := hs
  access := rfl
  name := rfl
  sole := Site.sole_create id access name (room_of_valid hvalid).1

/-- A call that looking up has an answer for is answered so. The site asks the resolver unless it
serves the shape, and afterwards it serves the shape. -/
theorem SoleSite.call (h : SoleSite settings key access name shape s g)
    (hargs : ∀ v ∈ args, g.Known v) (hshape : .ofCall g.registry receiver args = shape)
    (hlookup : g.registry.lookup access (.ofValue g.registry receiver) name
      (args.map Value.classOf) = .ok t) :
    (g.dispatch key receiver args).1 = some (.ok t) ∧
      ∃ s', SoleSite settings key access name shape s' (g.perform (.dispatch key receiver args)) ∧
        s'.resolutions = s.resolutions + (if s.serves g.registry shape then 0 else 1) ∧
        s'.serves (g.perform (.dispatch key receiver args)).registry shape = true := by
  have hreach := h.launched.reachable
  -- all that is remembered agrees with looking up
  have hanswer : (g.dispatch key receiver args).1 = some (.ok t) := by
    have horderly : ReachableBy Orderly g := ⟨settings, h.run⟩
    rw [(horderly.coherent.faithful hreach).dispatch key s receiver args h.site, h.access, h.name,
      hlookup]
  have hok : (s.dispatchShape g.policy g.resolver shape).1 = .ok t := by
    rw [dispatch_of_site h.site] at hanswer
    exact hshape ▸ Option.some.inj hanswer
  have hs := hreach.valid h.site
  obtain ⟨hsole, hmem⟩ := h.sole.call hs h.launched.multiplier (room_lt_last h.valid) hok
  have hserved : s.Served g.resolver shape (s.dispatchShape g.policy g.resolver shape) :=
    Site.served_dispatchShape
  have hafter : (g.perform (.dispatch key receiver args)).sites.get? key =
      some (s.dispatchShape g.policy g.resolver shape).2.1 := by
    rw [get?_perform_dispatch h.site, Site.dispatch]
    exact hshape ▸ rfl
  have hregistry : (g.perform (.dispatch key receiver args)).registry =
      (s.dispatchShape g.policy g.resolver shape).2.2.registry := by
    rw [registry, resolver_perform_dispatch h.site, Site.dispatch]
    exact hshape ▸ rfl
  have hkeeps : (s.dispatchShape g.policy g.resolver shape).2.1.access = s.access ∧
      (s.dispatchShape g.policy g.resolver shape).2.1.name = s.name := by
    generalize s.dispatchShape g.policy g.resolver shape = out at hserved ⊢
    cases hserved with
    | hit _ _ hs' | asked hs' => exact ⟨hs'.access, hs'.name⟩
  have hsite : SoleSite settings key access name shape
      (s.dispatchShape g.policy g.resolver shape).2.1 (g.perform (.dispatch key receiver args)) :=
    ⟨h.valid, h.run.call hargs, hafter,
      hkeeps.1.trans h.access, hkeeps.2.trans h.name, hsole⟩
  refine ⟨hanswer, _, hsite, (Site.counted_dispatchShape ..).resolutions, hsite.serves_iff.mpr ?_⟩
  -- there is an entry for the shape now, and it is valid, so it serves the next call
  obtain ⟨e, he, heq⟩ := List.mem_map.mp hmem
  refine ⟨e, he, heq, hregistry ▸
    Site.current_dispatchShape (fun {found q'} hq => ?_) hs hok he heq⟩
  rw [← hshape] at hq
  have hfound : (g.resolve s.access receiver s.name args).1 = .ok found := congrArg Prod.fst hq
  have hnow : (g.resolve s.access receiver s.name args).2.registry = q'.registry :=
    congrArg (·.2.registry) hq
  exact hnow ▸ isCurrent_resolve hfound

/-- If all questions to the resolver are the one of this site, a call of the site asks it again
unless the site serves the shape. -/
theorem SoleSite.asked {k : MemoKey} {n : Nat}
    (h : SoleSite settings key .method k.name ⟨.plain k.cls, k.args⟩ s g)
    (hshape : .ofCall g.registry receiver args = (⟨.plain k.cls, k.args⟩ : Shape))
    (hlookup : g.registry.lookup .method (.ofValue g.registry receiver) k.name
      (args.map Value.classOf) = .ok t) (hasked : g.resolver.Asked k n) :
    (g.perform (.dispatch key receiver args)).resolver.memoize = g.resolver.memoize ∧
      (g.perform (.dispatch key receiver args)).resolver.Asked k
        (if s.serves g.registry ⟨.plain k.cls, k.args⟩ then n else n + 1) := by
  obtain ⟨hreceiver, hargs⟩ := Shape.mk.inj hshape
  rw [resolver_dispatch h.site, hshape, h.access, h.name, hreceiver, hargs]
  split
  · exact ⟨rfl, hasked⟩
  · have horderly : ReachableBy Orderly g := ⟨settings, h.run⟩
    -- what the resolver is asked it answers as looking up does, so this is one more question
    have hfaithful := (horderly.coherent.faithful horderly.reachable).decideUncached .method
      receiver k.name args
    rw [hlookup, decideUncached_fst, hreceiver, hargs] at hfaithful
    cases hresolve : (g.resolver.resolve .method (.plain k.cls) k.name k.args).1 with
    | error e =>
      rw [hresolve] at hfaithful
      cases hfaithful
    | ok found =>
      have hhoused := h.launched.reachable.housed
      exact ⟨(Resolver.answered_resolve hhoused ..).memoize, hasked.resolve hhoused hresolve⟩

/-- When a class on the lookup chain of the shape is changed, the site does not serve the shape any
more. -/
theorem SoleSite.changeClass {c : ClassRef} {change : Change β}
    (h : SoleSite settings key access name shape s g)
    (hok : (g.changeClass c change).1 = .ok ())
    (hc : c ∈ g.registry.hierarchy.chain shape.receiver.cls) :
    SoleSite settings key access name shape s (g.perform (.changeClass c change)) ∧
      s.serves (g.perform (.changeClass c change)).registry shape = false := by
  have hreach := h.launched.reachable
  have hspares : Operation.Spares key (.changeClass c change : Operation β) := by
    refine ⟨?_, nofun, fun _ _ => nofun⟩
    rintro (heq | heq) <;> cases heq
  have hsite : SoleSite settings key access name shape s (g.perform (.changeClass c change)) :=
    ⟨h.valid, h.run.tail ⟨.changeClass c change, ⟨trivial, fun _ _ => nofun⟩, rfl⟩,
      site_of_spares hreach h.site hspares,
      h.access, h.name, h.sole⟩
  refine ⟨hsite, Bool.eq_false_iff.mpr fun hserves => ?_⟩
  -- the guard of such an entry would be one of before the change, on a class that got a new stamp
  obtain ⟨e, he, rfl, hcur⟩ := hsite.serves_iff.mp hserves
  obtain ⟨r, hr, heq⟩ := onRegistry'_eq_ok hok
  have hrestamped := (Registry.membersRestamped_changeClass hreach.sound hr).restamped
  have hrecalls : s.Recalls e.shape ⟨e.target, e.guard⟩ :=
    ⟨e, .inl (Site.mem_entries.mp he), rfl, rfl, rfl⟩
  have hfounded := hreach.founded (.site h.site hrecalls)
  have hregistry : (g.perform (.changeClass c change)).registry = r := by
    show (g.changeClass c change).2.registry = r
    rw [Engine.changeClass, heq]
    rfl
  rw [hregistry, Entry.isCurrent,
    Guard.isCurrent_restamped_iff hrestamped hfounded.issued] at hcur
  exact hcur.2 (hfounded.isFor.1 ▸ hc)

end Engine

end LateBinding
