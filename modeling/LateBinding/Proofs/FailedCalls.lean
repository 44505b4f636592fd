import LateBinding.Proofs.CallLog
import LateBinding.Proofs.SiteCounters

/-!
# Calls that fail

A call whose member cannot be resolved ends in the middle of a miss: the call and the miss are
counted and a frozen site has thawed, but nothing is kept of it. `Site.Failed` writes out what that
leaves of a site, phase by phase; `Engine.Reachable.failing_call` says when a call fails, with which
error, and that this is all that it does to the entries and to what the resolver remembers.
-/

namespace LateBinding

namespace Resolver

variable {β : Type} {q : Resolver β} {access : Access} {receiver : Receiver} {name : String}
variable {args : ArgShape} {err : DispatchError}

/-- Failures are not remembered. -/
theorem memo_resolve_of_error (herr : (q.resolve access receiver name args).1 = .error err) :
    (q.resolve access receiver name args).2.memo = q.memo := by
  have hout := q.resolve_outcome access receiver name args
  generalize q.resolve access receiver name args = out at hout herr
  cases hout with
  | unknown | failed => rfl
  | remembered | found => cases herr

end Resolver

namespace Site

variable {β : Type} {s s' : Site β} {shape : Shape} {p : Policy} {r : Registry β} {q : Resolver β}
variable {err : DispatchError}

/-! ## What a failed call leaves of a site -/

/-- `s'` is `s` after a call of some shape that could not be resolved. -/
inductive Failed (s : Site β) (r : Registry β) (shape : Shape) : Site β → Prop
  /-- The call is counted. -/
  | counted (hphase : s.phase ≠ .frozen) : Failed s r shape
    { s with calls := s.calls + 1, misses := s.misses + 1, resolutions := s.resolutions + 1 }
  /-- The site was not frozen with the shape, and thaws with all of its entries. -/
  | thawed (hphase : s.phase = .frozen) (hnew : ∀ e ∈ s.frozen.getD [], e.shape ≠ shape) :
    Failed s r shape
      { s with
        calls := s.calls + 1, misses := s.misses + 1, resolutions := s.resolutions + 1
        frozen := none, thaws := s.thaws + 1, lastNewShapeAt := s.calls + 1
        phase := .polymorphic }
  /-- The site was frozen with an entry for the shape that became stale, and thaws with nothing but
  that entry. -/
  | unbound {e : Entry β} {free : Nat} (hphase : s.phase = .frozen) (he : e ∈ s.frozen.getD [])
    (hshape : e.shape = shape) (hstale : e.isCurrent r = false) (hroom : s.capacity = free + 1) :
    Failed s r shape
      { s with
        calls := s.calls + 1, misses := s.misses + 1, resolutions := s.resolutions + 1
        frozen := none, thaws := s.thaws + 1, lastNewShapeAt := s.calls + 1
        slots := some e :: List.replicate free none, phase := .monomorphic }

/-- Whatever entries are left are those of before, in their order. -/
theorem Failed.entries (h : s.Failed r shape s') (hs : s.Valid) :
    s'.entries.Sublist s.entries := by
  cases h with
  | counted | thawed => exact .refl _
  | @unbound e free _ he =>
    have hone : ({ s with slots := some e :: List.replicate free none } : Site β).entries = [e] :=
      entries_of_slots (show _ = pack [e] free from rfl)
    exact hone ▸ List.singleton_sublist.mpr (hs.frozen_subset he)

/-! ## When a call fails -/

/-- A frozen site that cannot serve a shape thaws for it. -/
theorem failed_thaw (hs : s.Valid) (hphase : s.phase = .frozen)
    (hnone : s.frozenFor? r shape = none) : s.Failed r shape (s.count.thaw shape).ask := by
  -- whether the shape is bound in the copy decides what is left in the slots
  by_cases hbound : ∃ e ∈ s.frozen.getD [], e.shape = shape
  · obtain ⟨e, he, hshape⟩ := hbound
    obtain ⟨free, hroom, hfill⟩ := fill_room (e := e) hs.room
    have hfrozen : (s.frozen.getD []).find? (·.shape = shape) = some e :=
      find?_of_mem hs hs.frozen_subset he hshape
    have hentry : s.entryFor? shape = some e :=
      find?_of_mem hs (List.Subset.refl _) (hs.frozen_subset he) hshape
    -- it would have been served had its entry been valid
    have hstale : e.isCurrent r = false := by
      simpa [frozenFor?, hfrozen, Option.filter_some] using hnone
    have hany : (s.frozen.getD []).any (·.shape = shape) = true :=
      List.any_eq_true.mpr ⟨e, he, decide_eq_true hshape⟩
    have hslots : fill s.capacity (s.entryFor? shape).toList =
        some e :: List.replicate free none := by
      rw [hentry]
      exact (hfill []).trans (by simp [pack])
    have hthaw : s.count.thaw shape = { s with
        calls := s.calls + 1, frozen := none, thaws := s.thaws + 1, lastNewShapeAt := s.calls + 1
        slots := some e :: List.replicate free none, phase := .monomorphic } := by
      rw [← hslots]
      simp only [Site.thaw, count, hany, if_true]
      rfl
    rw [hthaw]
    exact .unbound hphase he hshape hstale hroom
  -- a shape that is not bound leaves all slots as they were
  · have hnew : ∀ e ∈ s.frozen.getD [], e.shape ≠ shape := fun e he hshape =>
      hbound ⟨e, he, hshape⟩
    have hany : (s.frozen.getD []).any (·.shape = shape) = false :=
      List.any_eq_false.mpr fun e he => by simpa using hnew e he
    have hthaw : s.count.thaw shape = { s with
        calls := s.calls + 1, frozen := none, thaws := s.thaws + 1, lastNewShapeAt := s.calls + 1
        phase := .polymorphic } := by
      simp only [Site.thaw, count, hany, Bool.false_eq_true, if_false]
    rw [hthaw]
    exact .thawed hphase hnew

/-- What a call comes to whose member cannot be resolved, if the site does not serve it. -/
structure Fails (s : Site β) (q : Resolver β) (shape : Shape) (err : DispatchError)
    (out : Except DispatchError (Target β) × Site β × Resolver β) : Prop where
  answer : out.1 = .error err
  site : s.Failed q.registry shape out.2.1
  resolver : out.2.2 = (q.resolve s.access shape.receiver s.name shape.args).2

/-- A miss fails if the resolution does. -/
theorem fails_miss {s₁ : Site β} (haccess : s₁.access = s.access) (hname : s₁.name = s.name)
    (hfailed : s.Failed q.registry shape s₁.ask)
    (herr : (q.resolve s.access shape.receiver s.name shape.args).1 = .error err) :
    s.Fails q shape err (s₁.miss p q shape) := by
  rcases hq : q.resolve s.access shape.receiver s.name shape.args with ⟨err' | found, q'⟩
  · rw [hq] at herr
    cases herr
    rw [miss_of_error (by rwa [haccess, hname])]
    exact ⟨rfl, hfailed, by rw [hq]⟩
  · rw [hq] at herr
    cases herr

theorem fails_dispatchShape (hs : s.Valid) (hserves : s.serves q.registry shape = false)
    (herr : (q.resolve s.access shape.receiver s.name shape.args).1 = .error err) :
    s.Fails q shape err (s.dispatchShape p q shape) := by
  -- only a frozen site is changed before it asks
  have hcounted : s.phase ≠ .frozen → s.Failed q.registry shape s.count.ask := .counted
  rw [dispatchShape_eq]
  cases hphase : s.phase with
  | cold => exact fails_miss rfl rfl (hcounted (by simp [hphase])) herr
  | megamorphic =>
    dsimp only
    rw [bypass_eq]
    refine ⟨?_, hcounted (by simp [hphase]), rfl⟩
    show (q.resolve s.access shape.receiver s.name shape.args).1.map (·.target) = .error err
    rw [herr]
    rfl
  | frozen =>
    have hnone : s.frozenFor? q.registry shape = none := by
      simpa [serves, hphase] using hserves
    have hnone' : s.count.frozenFor? q.registry shape = none := hnone
    simp only [serveFrozen, hnone']
    exact fails_miss rfl rfl (failed_thaw hs hphase hnone) herr
  | monomorphic | polymorphic =>
    have hnone : s.count.currentFor? q.registry shape = none := by
      have hnone : s.currentFor? q.registry shape = none := by
        simpa [serves, hphase] using hserves
      exact hnone
    simp only [serveAdaptive, hnone]
    exact fails_miss rfl rfl (hcounted (by simp [hphase])) herr

/-- A call that fails was not served by the site. -/
theorem serves_eq_false_of_error (herr : (s.dispatchShape p q shape).1 = .error err) :
    s.serves q.registry shape = false := by
  rw [dispatchShape_eq] at herr
  cases hphase : s.phase with
  -- a call that is served is answered, so an error excludes it in each phase that keeps entries
  | cold | megamorphic => simp [serves, hphase]
  | frozen =>
    rw [hphase] at herr
    cases hentry : s.count.frozenFor? q.registry shape with
    | none =>
      have hnone : s.frozenFor? q.registry shape = none := hentry
      simp [serves, hphase, hnone]
    | some e =>
      simp only [serveFrozen, hentry] at herr
      cases herr
  | monomorphic | polymorphic =>
    rw [hphase] at herr
    cases hentry : s.count.currentFor? q.registry shape with
    | none =>
      have hnone : s.currentFor? q.registry shape = none := hentry
      simp [serves, hphase, hnone]
    | some e => cases (hit_serveAdaptive hentry).answer.symm.trans herr

/-- A call fails exactly if the site does not serve it and its member cannot be resolved. -/
theorem dispatchShape_eq_error_iff (hs : s.Valid) :
    (s.dispatchShape p q shape).1 = .error err ↔ s.serves q.registry shape = false ∧
      (q.resolve s.access shape.receiver s.name shape.args).1 = .error err := by
  refine ⟨fun herr => ⟨serves_eq_false_of_error herr, ?_⟩,
    fun ⟨hserves, herr⟩ => (fails_dispatchShape hs hserves herr).answer⟩
  have hserved : s.Served q shape (s.dispatchShape p q shape) := served_dispatchShape
  generalize s.dispatchShape p q shape = out at hserved herr
  cases hserved with
  | hit => cases herr
  -- the site asked, so the error is that of the resolver
  | asked =>
    rcases hq : (q.resolve s.access shape.receiver s.name shape.args).1 with err' | found
    · rw [hq] at herr
      cases herr
      rfl
    · rw [hq] at herr
      cases herr

end Site

/-! ## Failed calls of an engine -/

namespace Engine

variable {β : Type} {g : Engine β} {key : SiteKey} {s : Site β} {receiver : Value}
variable {args : List Value} {err : DispatchError}

/-- A call through a site fails exactly if the site has no valid entry for it and the resolver
fails, with the error of the resolver and no target to run. It leaves of the site what `Site.Failed`
says, with no entry that is new or changed, and nothing happens to other sites and to what the
resolver remembers. -/
theorem Reachable.failing_call (hg : g.Reachable) (hs : g.sites.get? key = some s) :
    ((g.dispatch key receiver args).1 = some (.error err) ↔
      s.serves g.registry (.ofCall g.registry receiver args) = false ∧
        (g.resolve s.access receiver s.name args).1 = .error err) ∧
    ((g.dispatch key receiver args).1 = some (.error err) →
      (∃ s', (g.dispatch key receiver args).2.sites.get? key = some s' ∧
        s.Failed g.registry (.ofCall g.registry receiver args) s' ∧
        s'.entries.Sublist s.entries) ∧
      (∀ other, other ≠ key →
        (g.dispatch key receiver args).2.sites.get? other = g.sites.get? other) ∧
      (g.dispatch key receiver args).2.resolver.memo = g.resolver.memo) := by
  have hvalid : s.Valid := hg.valid hs
  have hiff : (g.dispatch key receiver args).1 = some (.error err) ↔
      s.serves g.registry (.ofCall g.registry receiver args) = false ∧
        (g.resolve s.access receiver s.name args).1 = .error err := by
    rw [dispatch_of_site hs, Option.some.injEq]
    exact Site.dispatchShape_eq_error_iff hvalid
  refine ⟨hiff, fun herr => ?_⟩
  obtain ⟨hserves, herr⟩ := hiff.mp herr
  have hfails : s.Fails g.resolver (.ofCall g.registry receiver args) err
      (s.dispatch g.policy g.resolver receiver args) :=
    Site.fails_dispatchShape hvalid hserves herr
  -- the table of sites takes back the called one and nothing else
  have hsites : ∀ other, (g.dispatch key receiver args).2.sites.get? other =
      if key = other then some (s.dispatch g.policy g.resolver receiver args).2.1
      else g.sites.get? other := by
    intro other
    rw [dispatch_of_site hs]
    exact Table.get?_insert ..
  refine ⟨⟨_, (hsites key).trans (if_pos rfl), hfails.site, hfails.site.entries hvalid⟩,
    fun other hother => (hsites other).trans (if_neg hother.symm), ?_⟩
  have hresolver : (g.dispatch key receiver args).2.resolver =
      (s.dispatch g.policy g.resolver receiver args).2.2 := by rw [dispatch_of_site hs]
  -- a resolution that fails is not remembered
  rw [hresolver, hfails.resolver]
  exact Resolver.memo_resolve_of_error herr

/-- The site for the method is frozen with both classes, and one of them loses the method. -/
def sampleLoss : Engine Unit := sampleRound.perform (.changeClass ⟨8⟩ (.removeMethod "m" []))

theorem reachable_sampleLoss : sampleLoss.Reachable :=
  ((reachable_sampleRing.perform trivial).perform trivial).perform trivial

/-- A call for that class, which cannot be resolved any more. -/
def sampleRefusal : Option (Except DispatchError (Target Unit)) × Engine Unit :=
  sampleLoss.dispatch (.numbered 0) (.object ⟨8, ⟨8⟩⟩) []

/-- The call fails, and the site is left with the stale entry alone. -/
theorem failing_call_sampleLoss : ∃ s s' err, sampleLoss.sites.get? (.numbered 0) = some s ∧
    s.phase = .frozen ∧ s.entries.length = 2 ∧ sampleRefusal.1 = some (.error err) ∧
    sampleRefusal.2.sites.get? (.numbered 0) = some s' ∧
    s.Failed sampleLoss.registry (ringShape ⟨8⟩) s' ∧
    s'.phase = .monomorphic ∧ s'.entries.length = 1 := by
  obtain ⟨s, hs, hphase, hentries⟩ : ∃ s, sampleLoss.sites.get? (.numbered 0) = some s ∧
      s.phase = .frozen ∧ s.entries.length = 2 := ⟨_, rfl, by decide, by decide⟩
  obtain ⟨err, herr⟩ : ∃ err, sampleRefusal.1 = some (.error err) := ⟨_, rfl⟩
  obtain ⟨⟨s', hs', hfailed, -⟩, -⟩ := (reachable_sampleLoss.failing_call hs).2 herr
  have hafter : ∀ s', sampleRefusal.2.sites.get? (.numbered 0) = some s' →
      s'.phase = .monomorphic ∧ s'.entries.length = 1 := by
    rintro _ ⟨⟩
    exact ⟨by decide, by decide⟩
  exact ⟨s, s', err, hs, hphase, hentries, herr, hs', hfailed, hafter s' hs'⟩

end Engine

end LateBinding
