import LateBinding.Proofs.Recall
import Mathlib.Data.Fintype.EquivFin

/-!
# Valid entries are served

A site that has a valid entry for a shape serves the shape by it, in whatever phase, and does not
ask the resolver (`Site.hit_of_recalls`). For frozen sites that needs an invariant: freezing passes
over the entries that are not valid, and these do not become valid again (`Site.Settled`).
-/

namespace LateBinding

namespace Site

variable {β : Type} {s : Site β} {e : Entry β} {shape : Shape} {found : Resolution β}
variable {p : Policy} {r r' : Registry β} {q : Resolver β}

/-- What a frozen site passes over is not valid. -/
def Settled (s : Site β) (r : Registry β) : Prop :=
  ∀ es, s.frozen = some es → ∀ e, some e ∈ s.slots → e.isCurrent r → e ∈ es

theorem settled_of_frozen_eq_none (hs : s.frozen = none) : s.Settled r := by
  intro es hes
  rw [hs] at hes
  cases hes

/-- An entry that is not valid does not become valid again. -/
theorem Settled.later (hs : s.Settled r) (h : r'.Later r)
    (hissued : ∀ e, some e ∈ s.slots → e.guard.Issued r) : s.Settled r' :=
  fun es hes e he hcur => hs es hes e he (Guard.isCurrent_of_later h (hissued e he) hcur)

theorem settled_freeze (hs : s.frozen = none) : (s.freeze r).Settled r := by
  unfold Site.freeze
  split
  · exact settled_of_frozen_eq_none hs
  · rintro _ ⟨⟩ e he hcur
    exact List.mem_filter.mpr ⟨mem_entries.mpr he, hcur⟩

theorem settled_follow (hs : s.frozen = none) {v : Verdict} : (s.follow r v).Settled r := by
  cases v with
  | keep => exact settled_of_frozen_eq_none hs
  | freeze => exact settled_freeze hs
  | giveUp => exact settled_of_frozen_eq_none rfl

theorem frozen_keep : (s.keep r e).frozen = s.frozen := by
  unfold Site.keep
  split
  · rfl
  · rcases learn_eq (s := s) (r := r) (e := e) with heq | heq <;> rw [heq]

theorem settled_miss (hs : s.frozen = none) :
    (s.miss p q shape).2.1.Settled (s.miss p q shape).2.2.registry := by
  rcases hq : q.resolve s.access shape.receiver s.name shape.args with ⟨err | found, q'⟩
  · rw [miss_of_error hq]
    exact settled_of_frozen_eq_none hs
  · rw [miss_of_ok hq]
    exact settled_follow (frozen_keep.trans (show s.ask.frozen = none from hs))

/-- A hit counts in the slots and among the frozen entries alike. -/
theorem Settled.recordHit (hs : s.Settled r) (hvalid : s.Valid) :
    (s.recordHit shape).Settled r := by
  -- what is hit was there before, under the same guard
  intro es hes e he hcur
  obtain ⟨old, hold, rfl⟩ := Option.map_eq_some_iff.mp hes
  obtain ⟨free, hslots⟩ := hvalid.packed
  have hentries : (s.recordHit shape).slots =
      pack (s.entries.map (Entry.hitBy shape s.calls)) free := by
    show updateEntry shape (·.hit s.calls) s.slots = _
    conv_lhs => rw [hslots, updateEntry_pack, onEntry_eq_map hvalid.condition.distinct]
    rfl
  rw [← mem_entries, entries_of_slots hentries] at he
  obtain ⟨x, hx, rfl⟩ := List.mem_map.mp he
  refine List.mem_map_of_mem (hs old hold x (mem_entries.mp hx) ?_)
  unfold Entry.hitBy at hcur
  split at hcur <;> exact hcur

/-- Calls keep what frozen sites pass over invalid. -/
theorem settled_dispatchShape (hs : s.Settled q.registry) (hvalid : s.Valid) :
    (s.dispatchShape p q shape).2.1.Settled (s.dispatchShape p q shape).2.2.registry := by
  rw [dispatchShape_eq]
  -- only a frozen site has anything to pass over, so freezing and hitting are all there is to look
  -- at
  have hnone : s.phase = .cold ∨ s.phase.isAdaptive → s.count.frozen = none :=
    hvalid.condition.frozen_eq_none
  have hadaptive : s.phase.isAdaptive →
      (s.count.serveAdaptive p q shape).2.1.Settled
        (s.count.serveAdaptive p q shape).2.2.registry := by
    intro hphase
    unfold serveAdaptive
    split
    · have hpromote : (s.count.promote shape).frozen = none := by
        simp [promote, Site.recordHit, hnone (.inr hphase)]
      unfold considerFreezing
      split
      -- freezing takes exactly the valid entries along
      · exact settled_freeze hpromote
      · exact settled_of_frozen_eq_none hpromote
    · exact settled_miss (hnone (.inr hphase))
  split
  · next hphase => exact settled_miss (hnone (.inl hphase))
  · next hphase =>
    rw [bypass_eq]
    refine settled_of_frozen_eq_none ?_
    show s.frozen = none
    have hfrozen := hvalid.condition.in_phase.2.2.2.1
    simpa [hphase] using hfrozen
  · unfold serveFrozen
    split
    · exact Settled.recordHit (s := s.count) hs hvalid.count
    · exact settled_miss rfl
  · next hphase => exact hadaptive (by rw [hphase]; rfl)
  · next hphase => exact hadaptive (by rw [hphase]; rfl)

/-! ## Serving -/

/-- Among some entries of a valid site, an entry is the one that is found for its shape. -/
theorem find?_of_mem (hvalid : s.Valid) {es : List (Entry β)} (hes : es ⊆ s.entries) (he : e ∈ es)
    (hshape : e.shape = shape) : es.find? (·.shape = shape) = some e := by
  cases hfind : es.find? (·.shape = shape) with
  | none => simpa [hshape] using List.find?_eq_none.mp hfind e he
  | some x =>
    have hx : x.shape = e.shape := by
      rw [hshape]
      simpa using List.find?_some hfind
    have hxes := hes (List.mem_of_find?_eq_some hfind)
    rw [List.inj_on_of_nodup_map hvalid.condition.distinct hxes (hes he) hx]

/-- A valid entry is among the frozen ones, because freezing passed over invalid entries only. -/
theorem frozenFor?_of_mem (hvalid : s.Valid) (hs : s.Settled r) (hphase : s.phase = .frozen)
    (he : e ∈ s.entries) (hcur : e.isCurrent r) (hshape : e.shape = shape) :
    s.frozenFor? r shape = some e := by
  obtain ⟨kept, hfrozen⟩ :=
    Option.isSome_iff_exists.mp (hvalid.condition.in_phase.2.2.2.1.mpr hphase)
  have hin := hs kept hfrozen e (mem_entries.mp he) hcur
  have hsub := (hvalid.condition.in_phase.2.2.2.2 kept hfrozen).2
  refine Option.filter_eq_some_iff.mpr ⟨?_, hcur⟩
  rw [hfrozen]
  exact find?_of_mem hvalid hsub hin hshape

/-- What a call comes to that a site serves by an entry: it counts as a hit and not as a miss, and
the resolver is not asked. -/
structure Hit (s : Site β) (q : Resolver β) (t : Target β)
    (out : Except DispatchError (Target β) × Site β × Resolver β) : Prop where
  answer : out.1 = .ok t
  hits : out.2.1.hits = s.hits + 1
  misses : out.2.1.misses = s.misses
  resolver : out.2.2 = q

theorem hit_serveAdaptive (he : s.currentFor? q.registry shape = some e) :
    s.Hit q e.target (s.serveAdaptive p q shape) := by
  -- freezing after the hit changes no count
  have hfreeze : ∀ s' : Site β, (s'.considerFreezing p q.registry).hits = s'.hits ∧
      (s'.considerFreezing p q.registry).misses = s'.misses := by
    intro s'
    unfold considerFreezing Site.freeze
    split
    · split <;> exact ⟨rfl, rfl⟩
    · exact ⟨rfl, rfl⟩
  simp only [serveAdaptive, he]
  exact ⟨rfl, (hfreeze _).1, (hfreeze _).2, rfl⟩

/-- What a site recalls, one of its entries says. -/
theorem Valid.entry_of_recalls (hs : s.Valid) (h : s.Recalls shape found) :
    ∃ e ∈ s.entries, e.Says shape found := by
  obtain ⟨e, he, hsays⟩ := h
  exact ⟨e, he.elim mem_entries.mpr fun he => hs.frozen_subset he, hsays⟩

/-- A valid entry serves its shape. -/
theorem hit_of_recalls (hvalid : s.Valid) (hs : s.Settled q.registry)
    (hr : s.Recalls shape found) (hcur : found.guard.isCurrent q.registry) :
    s.Hit q found.target (s.dispatchShape p q shape) := by
  obtain ⟨e, hmem, hshape, htarget, hguard⟩ := hvalid.entry_of_recalls hr
  have hcur' : e.isCurrent q.registry := by rwa [Entry.isCurrent, hguard]
  have hempty := hvalid.condition.in_phase.1
  -- that the call was counted shows neither in the hits nor in the misses
  have hcount : ∀ {out}, s.count.Hit q e.target out → s.Hit q found.target out :=
    fun h => ⟨htarget ▸ h.answer, h.hits, h.misses, h.resolver⟩
  -- both phases that look into the slots find the entry there
  have hadaptive : s.Hit q found.target (s.count.serveAdaptive p q shape) :=
    hcount (hit_serveAdaptive (Option.filter_eq_some_iff.mpr
      ⟨find?_of_mem hvalid (List.Subset.refl _) hmem hshape, hcur'⟩))
  rw [dispatchShape_eq]
  split
  -- a site without entries recalls nothing
  · next hphase =>
    rw [hempty (.inl hphase)] at hmem
    cases hmem
  · next hphase =>
    rw [hempty (.inr hphase)] at hmem
    cases hmem
  · next hphase =>
    -- a frozen site finds it in its copy, as it passes over no valid entry
    have hserve : s.count.frozenFor? q.registry shape = some e :=
      frozenFor?_of_mem (s := s) hvalid hs hphase hmem hcur' hshape
    refine hcount ?_
    simp only [serveFrozen, hserve]
    exact ⟨rfl, rfl, rfl, rfl⟩
  · exact hadaptive
  · exact hadaptive

end Site

/-! ## The memo -/

namespace Resolver

variable {β : Type} {q : Resolver β} {access : Access} {receiver : Receiver} {name : String}
variable {args : ArgShape}

/-- The memo is empty unless resolutions are to be remembered. -/
def Disciplined (q : Resolver β) : Prop := q.memoize = true ∨ ∀ k, q.memo.get? k = none

theorem Disciplined.resolve (hq : q.Disciplined) :
    (q.resolve access receiver name args).2.Disciplined := by
  have hout := q.resolve_outcome access receiver name args
  generalize q.resolve access receiver name args = out at hout
  cases hout with
  | found =>
    cases hkey : q.memoKey? access receiver name args with
    | none => exact hq
    | some k => exact .inl (memoKey?_eq_some hkey).1
  | _ => exact hq

/-- A remembered resolution whose version is current is served. -/
theorem resolve_of_recalls (hq : q.Disciplined) {f : Finding β} (hf : q.Recalls f)
    (hcur : f.found.guard.isCurrent q.registry) :
    (q.resolve f.access f.shape.receiver f.name f.shape.args).1.map (·.target) =
      .ok f.found.target := by
  obtain ⟨k, m, hm, rfl⟩ := hf
  have hversion := (Guard.isCurrent_iff.mp hcur).1
  -- a memo that is off holds nothing
  have hmemoize : q.memoize = true := hq.resolve_right fun hempty => by
    rw [hempty k] at hm
    cases hm
  obtain ⟨cell, hcell, hstamp⟩ := Option.map_eq_some_iff.mp hversion
  have hmat : q.registry.materialize k.cls = .ok q.registry := by
    simp only [Registry.materialize, hcell]
  -- the version is the one under which the memo would look now
  have hguard : (Guard.ofReceiver q.registry (.plain k.cls)).version = m.version := by
    show (q.registry.version? (.ofClass k.cls)).getD 0 = m.version
    rw [hversion]
    rfl
  have hmemo : q.remembered? (q.memoKey? .method (.plain k.cls) k.name k.args) m.version =
      some m.target := by
    simp [remembered?, memoKey?, hmemoize, hm]
  have hout := q.resolve_outcome .method (.plain k.cls) k.name k.args
  show (q.resolve .method (.plain k.cls) k.name k.args).1.map (·.target) = .ok m.target
  generalize q.resolve .method (.plain k.cls) k.name k.args = out at hout
  -- the class is there and the memo has it, which leaves one of the four outcomes
  cases hout with
  | unknown hmat' => cases hmat.symm.trans hmat'
  | remembered hmat' hmemo' =>
    cases hmat.symm.trans hmat'
    rw [hguard, hmemo] at hmemo'
    cases hmemo'
    rfl
  | failed hmat' hmemo' =>
    cases hmat.symm.trans hmat'
    rw [hguard, hmemo] at hmemo'
    cases hmemo'
  | found hmat' hmemo' =>
    cases hmat.symm.trans hmat'
    rw [hguard, hmemo] at hmemo'
    cases hmemo'

end Resolver

namespace Engine

variable {β : Type} {g : Engine β} {op : Operation β} {key : SiteKey} {s s' : Site β}

theorem settled_perform (hg : g.Reachable)
    (hsettled : ∀ key s, g.sites.get? key = some s → s.Settled g.registry)
    (hs' : (g.perform op).sites.get? key = some s') : s'.Settled (g.perform op).registry := by
  rcases sites_perform hg.unused hs' with ⟨s, hs, hmoves⟩ | ⟨-, ⟨id, access, name, n, rfl⟩, -⟩
  · cases hmoves with
    -- untouched entries stay under their guards, whose versions are issued already
    | rest =>
      refine (hsettled key _ hs).later (later_perform hg.sound op) fun e he => ?_
      have hrecalls : g.Recalls ⟨_, _, e.shape, ⟨e.target, e.guard⟩⟩ :=
        .site hs ⟨e, .inl he, rfl, rfl, rfl⟩
      exact (hg.founded hrecalls).issued
    | call hop =>
      subst hop
      rw [registry, resolver_perform_dispatch hs]
      exact Site.settled_dispatchShape (hsettled key s hs) (hg.valid hs)
    | reset => exact Site.settled_of_frozen_eq_none rfl
  · exact Site.settled_of_frozen_eq_none rfl

/-- Frozen sites pass over what is not valid only. -/
theorem Reachable.settled (hg : g.Reachable) (hs : g.sites.get? key = some s) :
    s.Settled g.registry := by
  suffices h : g.Reachable ∧ ∀ key s, g.sites.get? key = some s → s.Settled g.registry from
    h.2 key s hs
  refine hg.invariant (P := fun g => g.Reachable ∧
    ∀ key s, g.sites.get? key = some s → s.Settled g.registry)
    (fun settings => ⟨⟨settings, .refl⟩, nofun⟩) ?_
  rintro g op - ⟨hg, hsettled⟩
  exact ⟨hg.perform trivial, fun key s hs => settled_perform hg hsettled hs⟩

theorem disciplined_perform (hg : g.resolver.Disciplined) (op : Operation β) :
    (g.perform op).resolver.Disciplined := by
  rcases resolver_perform g op with
    ⟨r, hr⟩ | rfl | ⟨access, v, name, args, rfl⟩ | ⟨key, v, args, rfl⟩
  -- the memo changes only when a resolution goes through it
  · rw [hr]
    exact hg
  · exact .inr fun _ => rfl
  · exact hg.resolve
  · cases hs : g.sites.get? key with
    | none => simpa only [perform, dispatch, hs] using hg
    | some s =>
      rw [resolver_perform_dispatch hs]
      have hserved : s.Served g.resolver (.ofCall g.registry v args)
        (s.dispatch g.policy g.resolver v args) := Site.served_dispatch
      generalize s.dispatch g.policy g.resolver v args = out at hserved
      cases hserved with
      | hit => exact hg
      | asked => exact hg.resolve

theorem Reachable.disciplined (hg : g.Reachable) : g.resolver.Disciplined :=
  hg.invariant (P := fun g => g.resolver.Disciplined) (fun _ => .inr fun _ => rfl)
    fun _ op _ h => disciplined_perform h op

/-! ## Calls for findings -/

/-- The identity of the object that an owner is. -/
def objectId : Owner → Nat
  | .ofClass _ => 0
  | .ofObject o => o.id

/-- There is an object of any class without members of its own. -/
theorem exists_plain (r : Registry β) (c : ClassRef) :
    ∃ id, Receiver.ofValue r (.object ⟨id, c⟩) = .plain c := by
  obtain ⟨id, hid⟩ := Infinite.exists_notMem_finset (r.cells.keys.map objectId).toFinset
  refine ⟨id, ?_⟩
  have hnone : r.cell? (.ofObject ⟨id, c⟩) = none := by
    refine Table.get?_eq_none_iff.mpr fun hmem => hid ?_
    rw [List.mem_toFinset]
    exact List.mem_map.mpr ⟨_, hmem, rfl⟩
  simp [Receiver.ofValue, Registry.hasOwnMembers, hnone]

/-- There is a call for every finding whose guard is current. -/
theorem exists_call {f : Finding β} (hf : f.Founded g.registry)
    (hcur : f.found.guard.isCurrent g.registry) :
    ∃ receiver args, Shape.ofCall g.registry receiver args = f.shape := by
  have hreceiver : ∃ o : ObjectRef,
      Receiver.ofValue g.registry (.object o) = f.shape.receiver := by
    cases hshape : f.shape.receiver with
    | plain c =>
      -- some object of the class has no members of its own: there are finitely many cells
      obtain ⟨id, hid⟩ := exists_plain g.registry c
      exact ⟨⟨id, c⟩, hid⟩
    -- members of its own are what the guard has a version of, and that version is still current
    | own o =>
      have hown := hf.isFor.2
      rw [hshape] at hown
      obtain ⟨⟨obj, v⟩, hguard, rfl⟩ := Option.map_eq_some_iff.mp hown
      have hversion := (Guard.isCurrent_iff.mp hcur).2 _ v hguard
      obtain ⟨cell, hcell, -⟩ := Option.map_eq_some_iff.mp hversion
      exact ⟨obj, by simp [Receiver.ofValue, Registry.hasOwnMembers, hcell]⟩
  obtain ⟨o, ho⟩ := hreceiver
  refine ⟨.object o, f.shape.args.toList.map fun c => .object ⟨0, c⟩, ?_⟩
  -- canonical argument shapes are those of objects of the listed classes
  have hargs :
      ArgShape.ofArgs (f.shape.args.toList.map fun c => .object ⟨0, c⟩) = f.shape.args := by
    rw [ArgShape.ofArgs, List.map_map]
    exact (congrArg ArgShape.ofClasses (List.map_id _)).trans hf.canonical.symm
  rw [Shape.ofCall, ho, hargs]

/-- A finding whose guard is current is what some call answers, be it true or not. -/
theorem Reachable.answer_of_recalls (hg : g.Reachable) {f : Finding β} (hf : g.Recalls f)
    (hcur : f.found.guard.isCurrent g.registry) : ∃ receiver args,
      Shape.ofCall g.registry receiver args = f.shape ∧
      ((∃ key s, g.sites.get? key = some s ∧ s.access = f.access ∧ s.name = f.name ∧
        (g.dispatch key receiver args).1 = some (.ok f.found.target)) ∨
      (g.decideUncached f.access receiver f.name args).1 = .ok f.found.target) := by
  obtain ⟨receiver, args, hshape⟩ := exists_call (hg.founded hf) hcur
  refine ⟨receiver, args, hshape, ?_⟩
  -- a finding at a site is served by its site, one in the memo by an uncached resolution
  cases hf with
  | @site key s shape found hs hfound =>
    refine .inl ⟨key, s, hs, rfl, rfl, ?_⟩
    rw [dispatch_of_site hs]
    have hserve := Site.hit_of_recalls (p := g.policy) (hg.valid hs) (hg.settled hs) hfound hcur
    rw [← show Shape.ofCall g.registry receiver args = shape from hshape] at hserve
    exact congrArg some hserve.answer
  | memo hmemo =>
    right
    have hserve := Resolver.resolve_of_recalls hg.disciplined hmemo hcur
    rw [← hshape] at hserve
    rw [decideUncached_fst]
    exact hserve

end Engine

end LateBinding
