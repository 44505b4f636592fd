import LateBinding.Proofs.Accounting
import LateBinding.Proofs.CallLog
import LateBinding.Proofs.Programs

/-!
# Resets erase the past

A reset leaves of the past of a call site only how often it was called, resolved, frozen and thawed
in total, and of these totals only the number of calls is ever looked at again. So two engines in
which one site has a different past are the same from a reset of this site on, but for the totals:
`Site.after` puts those of a past on top of those of a site, all that a site does commutes with it
(`Site.dispatchShape_after`), and so does all that an engine does (`Engine.Abreast.perform`).

A `View` is all that there is to see of an engine but these totals. Programs here choose what they
ask for by the view and by all answers so far.
-/

namespace LateBinding

namespace Site

variable {β : Type} {s past : Site β} {e : Entry β} {shape : Shape} {v : Verdict}
variable {p : Policy} {r : Registry β} {q : Resolver β}

/-! ## Totals of the past -/

/-- The site with the totals of a past on top of its own. -/
def after (s past : Site β) : Site β :=
  { s with
    resolutions := past.resolutions + s.resolutions
    freezes := past.freezes + s.freezes
    thaws := past.thaws + s.thaws }

/-- The site without its totals. -/
def bare (s : Site β) : Site β := { s with resolutions := 0, freezes := 0, thaws := 0 }

/-- Without their totals, sites that differ in their past are one. -/
theorem bare_after : (s.after past).bare = s.bare := rfl

theorem freeze_after : (s.after past).freeze r = (s.freeze r).after past := by
  have hentries : (s.after past).entries = s.entries := rfl
  unfold Site.freeze
  rw [hentries]
  split <;> rfl

theorem follow_after : (s.after past).follow r v = (s.follow r v).after past := by
  cases v with
  | keep | giveUp => rfl
  | freeze => exact freeze_after

theorem considerFreezing_after :
    (s.after past).considerFreezing p r = (s.considerFreezing p r).after past := by
  have hevidence : (s.after past).evidence = s.evidence := rfl
  have hcalls : (s.after past).calls = s.calls := rfl
  unfold considerFreezing
  rw [hevidence, hcalls]
  split
  · exact freeze_after
  · rfl

theorem install_after : (s.after past).install r e = (s.install r e).after past := by
  have hcapacity : (s.after past).capacity = s.capacity := rfl
  have hentries : (s.after past).entries = s.entries := rfl
  unfold Site.install
  rw [hcapacity, hentries]
  split <;> rfl

theorem learn_after : (s.after past).learn r e = (s.learn r e).after past := by
  let met : Site β := { s with distinctShapes := s.distinctShapes + 1, lastNewShapeAt := s.calls }
  have hinstall : (met.after past).install r e = (met.install r e).after past := install_after
  unfold Site.learn
  exact congrArg (fun s : Site β => { s with phase := s.phaseAfterNewShape }) hinstall

theorem keep_after : (s.after past).keep r e = (s.keep r e).after past := by
  have hentry : (s.after past).entryFor? e.shape = s.entryFor? e.shape := rfl
  unfold Site.keep
  rw [hentry]
  split
  · rfl
  · exact learn_after

theorem absorb_after {found : Resolution β} :
    (s.after past).absorb p r shape found = (s.absorb p r shape found).after past := by
  have hcalls : (s.after past).calls = s.calls := rfl
  unfold absorb
  rw [hcalls]
  simp only [keep_after]
  exact follow_after

/-! ## Calls -/

/-- What a call comes to, with the totals of a past on top. -/
def outcomeAfter (past : Site β) (out : Except DispatchError (Target β) × Site β × Resolver β) :
    Except DispatchError (Target β) × Site β × Resolver β :=
  (out.1, out.2.1.after past, out.2.2)

theorem miss_after :
    (s.after past).miss p q shape = outcomeAfter past (s.miss p q shape) := by
  rcases hq : q.resolve s.access shape.receiver s.name shape.args with ⟨err | found, q'⟩
  · rw [miss_of_error hq, miss_of_error (s := s.after past) hq]
    rfl
  · rw [miss_of_ok hq, miss_of_ok (s := s.after past) hq]
    have hask : (s.after past).ask = s.ask.after past := rfl
    rw [hask, absorb_after]
    rfl

theorem serveFrozen_after :
    (s.after past).serveFrozen p q shape = outcomeAfter past (s.serveFrozen p q shape) := by
  have hentry : (s.after past).frozenFor? q.registry shape = s.frozenFor? q.registry shape := rfl
  have hthaw : (s.after past).thaw shape = (s.thaw shape).after past := rfl
  unfold serveFrozen
  rw [hentry, hthaw]
  split
  · rfl
  · exact miss_after

theorem serveAdaptive_after :
    (s.after past).serveAdaptive p q shape = outcomeAfter past (s.serveAdaptive p q shape) := by
  have hentry : (s.after past).currentFor? q.registry shape = s.currentFor? q.registry shape := rfl
  have hpromote : (s.after past).promote shape = (s.promote shape).after past := rfl
  unfold serveAdaptive
  rw [hentry, hpromote, considerFreezing_after]
  split
  · rfl
  · exact miss_after

/-- No call looks at the totals. -/
theorem dispatchShape_after :
    (s.after past).dispatchShape p q shape = outcomeAfter past (s.dispatchShape p q shape) := by
  have hcount : (s.after past).count = s.count.after past := rfl
  have hphase : (s.after past).phase = s.phase := rfl
  -- every part of a call commutes with putting a past under the site, whatever the phase
  rw [dispatchShape_eq, dispatchShape_eq, hphase, hcount]
  cases s.phase with
  | cold => exact miss_after
  | megamorphic =>
    dsimp only
    rw [bypass_eq, bypass_eq]
    rfl
  | frozen => exact serveFrozen_after
  | monomorphic | polymorphic => exact serveAdaptive_after

end Site

namespace Engine

variable {β : Type} {g g' : Engine β} {key other : SiteKey} {past' past : Site β}
variable {op : Operation β}

/-! ## Engines side by side -/

/-- The engines are the same but for the site of a key. -/
structure SameBut (key : SiteKey) (g' g : Engine β) : Prop where
  settings : g'.settings = g.settings
  policy : g'.policy = g.policy
  resolver : g'.resolver = g.resolver
  nextSerial : g'.nextSerial = g.nextSerial
  others : ∀ other, other ≠ key → g'.sites.get? other = g.sites.get? other

/-- The engines differ at most in what the site of a key went through: its phase, its entries, and
all that it counted but its calls. -/
structure DifferInPast (key : SiteKey) (past' past : Site β) (g' g : Engine β) : Prop
    extends SameBut key g' g where
  there' : g'.sites.get? key = some past'
  there : g.sites.get? key = some past
  id : past'.id = past.id
  access : past'.access = past.access
  name : past'.name = past.name
  capacity : past'.capacity = past.capacity
  calls : past'.calls = past.calls

/-- The engines differ at most in the totals of the site of a key: on top of the same totals, the
one has those of one past, the other those of another. -/
structure Abreast (key : SiteKey) (past' past : Site β) (g' g : Engine β) : Prop
    extends SameBut key g' g where
  site : ∃ s : Site β,
    g'.sites.get? key = some (s.after past') ∧ g.sites.get? key = some (s.after past)

/-- A reset leaves the totals only. -/
theorem DifferInPast.reset (h : DifferInPast key past' past g' g) :
    Abreast key past' past (g'.resetSite key) (g.resetSite key) where
  settings := h.settings
  policy := h.policy
  resolver := h.resolver
  nextSerial := h.nextSerial
  others other hother := by
    simp only [resetSite, Table.get?_modify, if_neg hother.symm]
    exact h.others other hother
  site := by
    -- what the past leaves behind in a reset is its totals, which the other site may have besides
    refine ⟨past.reset.bare, ?_, ?_⟩
    · simp only [resetSite, Table.get?_modify, if_true, h.there', Option.map_some]
      have hreset : past'.reset = past.reset.bare.after past' := by
        simp only [Site.reset, Site.bare, Site.after, h.id, h.access, h.name, h.capacity, h.calls]
        rfl
      rw [hreset]
    · simp only [resetSite, Table.get?_modify, if_true, h.there, Option.map_some]
      rfl

theorem SameBut.registry (h : SameBut key g' g) : g'.registry = g.registry :=
  congrArg Resolver.registry h.resolver

/-- What an operation makes of the other sites. -/
theorem SameBut.siteAfter (h : SameBut key g' g) (hother : other ≠ key) (op : Operation β) :
    op.siteAfter g' other = op.siteAfter g other := by
  have hsite := h.others other hother
  cases op <;>
    simp only [Operation.siteAfter, hsite, h.settings, h.policy, h.resolver, h.nextSerial]

namespace Abreast

variable (h : Abreast key past' past g' g)
include h

/-- What an operation makes of the site itself. -/
theorem siteAfter (hg : g.Unused) (hop : op ≠ .drop key) : ∃ s : Site β,
    op.siteAfter g' key = some (s.after past') ∧ op.siteAfter g key = some (s.after past) := by
  obtain ⟨s, hs', hs⟩ := h.site
  -- operations on the key work on both sites alike, all others pass by both
  cases op with
  | openSite =>
    simp only [Operation.siteAfter, hs', hs, Option.getD_some, ite_self]
    exact ⟨s, rfl, rfl⟩
  | attach =>
    -- the next serial is unused in both engines, so it is not the key
    have hne : SiteKey.detached g.nextSerial ≠ key := by
      rintro rfl
      rw [hg _ (Nat.le_refl _)] at hs
      cases hs
    simp only [Operation.siteAfter, h.nextSerial, if_neg hne]
    exact ⟨s, hs', hs⟩
  | drop key' =>
    have hne : key' ≠ key := fun hkey => hop (hkey ▸ rfl)
    simp only [Operation.siteAfter, if_neg hne]
    exact ⟨s, hs', hs⟩
  | dispatch key' receiver args =>
    simp only [Operation.siteAfter]
    split
    · simp only [hs', hs, Option.map_some, h.policy, h.resolver, Site.dispatch,
        Site.dispatchShape_after]
      exact ⟨_, rfl, rfl⟩
    · exact ⟨s, hs', hs⟩
  | resetSite key' =>
    simp only [Operation.siteAfter]
    split
    · simp only [hs', hs, Option.map_some]
      exact ⟨s.reset, rfl, rfl⟩
    · exact ⟨s, hs', hs⟩
  | resetSites =>
    simp only [Operation.siteAfter, hs', hs, Option.map_some]
    cases key with
    | numbered => exact ⟨s.reset, rfl, rfl⟩
    | detached => exact ⟨s, rfl, rfl⟩
  | _ => exact ⟨s, hs', hs⟩

/-- A call comes to the same in both. -/
theorem dispatch (key' : SiteKey) (receiver : Value) (args : List Value) :
    (g'.dispatch key' receiver args).1 = (g.dispatch key' receiver args).1 ∧
      (g'.dispatch key' receiver args).2.resolver = (g.dispatch key' receiver args).2.resolver := by
  by_cases hkey : key' = key
  · obtain ⟨s, hs', hs⟩ := h.site
    rw [hkey, dispatch_of_site hs', dispatch_of_site hs, h.policy, h.resolver]
    simp only [Site.dispatch, Site.dispatchShape_after]
    exact ⟨rfl, rfl⟩
  · simp only [Engine.dispatch, h.others key' hkey, h.policy, h.resolver]
    split
    · exact ⟨rfl, h.resolver⟩
    · exact ⟨rfl, rfl⟩

theorem resolver_perform (op : Operation β) :
    (g'.perform op).resolver = (g.perform op).resolver := by
  -- the resolver hears of a site only through the questions that a call puts
  cases hchange : op.change? with
  | some f =>
    rw [perform_of_change hchange, perform_of_change hchange, h.registry]
    cases f g.registry with
    | error => exact h.resolver
    | ok r => exact congrArg (fun q : Resolver β => { q with registry := r }) h.resolver
  | none =>
    cases op with
    | define | changeClass | changeObject | applyCategory | applyTrait | invalidate | membersOf
      | versionOf => cases hchange
    | resolve => simp only [Engine.perform, Engine.resolve, h.registry, h.resolver]
    | resolveClass => simp only [Engine.perform, Engine.resolveClass, h.resolver]
    | clearMemo => exact congrArg Resolver.clearMemo h.resolver
    -- opening a site asks nothing
    | openSite id access name =>
      have hsame : ∀ g : Engine β, (g.openSite id access name).2.resolver = g.resolver := by
        intro g
        unfold Engine.openSite
        split
        · split <;> rfl
        · rfl
      exact (hsame g').trans (h.resolver.trans (hsame g).symm)
    | dispatch key' receiver args => exact (h.dispatch key' receiver args).2
    | _ => exact h.resolver

/-- Operations other than dropping the site keep the engines abreast. -/
theorem perform (hg : g.Unused) (hop : op ≠ .drop key) :
    Abreast key past' past (g'.perform op) (g.perform op) where
  settings := by rw [settings_perform, settings_perform, h.settings]
  policy := by rw [(frame_perform g' op).1, (frame_perform g op).1, h.policy]
  resolver := h.resolver_perform op
  nextSerial := by rw [(frame_perform g' op).2, (frame_perform g op).2, h.nextSerial]
  others other hother := by
    rw [get?_perform, get?_perform, h.toSameBut.siteAfter hother]
  site := by
    rw [get?_perform, get?_perform]
    exact h.siteAfter hg hop

theorem onRegistry {α : Type} (f : Registry β → Except DispatchError (α × Registry β)) :
    (g'.onRegistry f).1 = (g.onRegistry f).1 := by
  rw [onRegistry_fst, onRegistry_fst, h.registry]

/-- The engines answer alike. -/
theorem answer (op : Operation β) : g'.answer op = g.answer op := by
  cases op with
  | define | changeClass | changeObject | applyCategory | applyTrait | invalidate | membersOf =>
    exact congrArg _ (h.onRegistry _)
  | resolve => simp only [Engine.answer, decideUncached_fst, h.registry, h.resolver]
  | resolveClass => simp only [Engine.answer, Engine.resolveClass, h.resolver]
  | openSite id access name =>
    simp only [Engine.answer, Engine.openSite, h.settings]
    -- the number is that of the site itself, or both engines have the same under it
    by_cases hkey : SiteKey.numbered id = key
    · obtain ⟨s, hs', hs⟩ := h.site
      rw [hkey, hs', hs]
      dsimp only [Site.after]
      split <;> rfl
    · rw [h.others _ hkey]
      split
      · split <;> rfl
      · rfl
  | attach => simp only [Engine.answer, Engine.attach, h.nextSerial]
  | dispatch key' receiver args => exact congrArg _ (h.dispatch key' receiver args).1
  | versionOf | clearMemo | drop | resetSite | resetSites | setPolicy => rfl

end Abreast

/-! ## Programs that look at everything but the totals -/

/-- All that there is to see of an engine, but the totals of one site. -/
@[ext]
structure View (β : Type) where
  settings : Settings
  policy : Policy
  resolver : Resolver β
  nextSerial : Nat
  sites : SiteKey → Option (Site β)

/-- What there is to see, but the totals of the site of a key. -/
def view (g : Engine β) (key : SiteKey) : View β where
  settings := g.settings
  policy := g.policy
  resolver := g.resolver
  nextSerial := g.nextSerial
  sites other := (g.sites.get? other).map fun s => if other = key then s.bare else s

theorem Abreast.view (h : Abreast key past' past g' g) : g'.view key = g.view key := by
  have hsites : (g'.view key).sites = (g.view key).sites := by
    funext other
    by_cases hother : other = key
    · obtain ⟨s, hs', hs⟩ := h.site
      simp [Engine.view, hother, hs', hs, Site.bare_after]
    · simp [Engine.view, hother, h.others other hother]
  exact View.ext h.settings h.policy h.resolver h.nextSerial hsites

/-- The answers that a program has after some steps, newest first, and the engine then. It chooses
each operation by the answers so far and by what it sees, which is all but the totals of the site of
a key. -/
def course (key : SiteKey) (program : List (Operation.Answer β) → View β → Operation β) :
    Nat → List (Operation.Answer β) → Engine β → List (Operation.Answer β) × Engine β
  | 0, answers, g => (answers, g)
  | n + 1, answers, g =>
    let op := program answers (g.view key)
    course key program n (g.answer op :: answers) (g.perform op)

variable {program : List (Operation.Answer β) → View β → Operation β}

/-- A program makes the same of both engines, and they stay abreast. -/
theorem Abreast.course (h : Abreast key past' past g' g) (hg : g.Unused)
    (hdrop : ∀ answers view, program answers view ≠ .drop key) (n : Nat)
    (answers : List (Operation.Answer β)) :
    (g'.course key program n answers).1 = (g.course key program n answers).1 ∧
      Abreast key past' past (g'.course key program n answers).2
        (g.course key program n answers).2 := by
  induction n generalizing g' g answers with
  | zero => exact ⟨rfl, h⟩
  | succ n ih =>
    simp only [Engine.course, h.view, h.answer]
    exact ih (h.perform hg (hdrop _ _)) (hg.perform _) _

/-- From a reset of a site on, its past makes no difference. Of two engines that differ only in what
one site went through, with as many calls, a program gets the same answers after the site was reset
in both, and at all times sees the same of both: the same phase of the site, the same entries with
the same counts in the same order, the same hits, misses and marks. The site was resolved, froze and
thawed as often in the one as in the other, on top of what it did before. -/
theorem DifferInPast.reset_erases (h : DifferInPast key past' past g' g) (hg : g.Reachable)
    (hdrop : ∀ answers view, program answers view ≠ .drop key) (n : Nat) :
    ((g'.resetSite key).course key program n []).1 =
        ((g.resetSite key).course key program n []).1 ∧
      ((g'.resetSite key).course key program n []).2.view key =
        ((g.resetSite key).course key program n []).2.view key ∧
      ∃ s : Site β, ((g'.resetSite key).course key program n []).2.sites.get? key =
          some (s.after past') ∧
        ((g.resetSite key).course key program n []).2.sites.get? key = some (s.after past) := by
  have hunused : (g.resetSite key).Unused := hg.unused.perform (.resetSite key)
  obtain ⟨hanswers, habreast⟩ := h.reset.course hunused hdrop n []
  exact ⟨hanswers, habreast.view, habreast.site⟩

/-- The site was called for one class and twice for the other: it froze, thawed and froze again. -/
def sampleLively : Engine Unit := sampleRound.perform (ringCall ⟨9⟩)

/-- The site was called for the first class only, as often. The method was resolved for the second
class without it. -/
def sampleQuiet : Engine Unit :=
  (((sampleRing.perform (ringCall ⟨8⟩)).perform (ringCall ⟨8⟩)).perform (ringCall ⟨8⟩)).perform
    (.resolve .method (.object ⟨9, ⟨9⟩⟩) "m" [])

theorem reachable_sampleQuiet : sampleQuiet.Reachable :=
  (((reachable_sampleRing.perform trivial).perform trivial).perform trivial).perform trivial

theorem differInPast_sampleLively : ∃ past' past : Site Unit,
    DifferInPast (.numbered 0) past' past sampleLively sampleQuiet ∧
      past'.resolutions = 2 ∧ past.resolutions = 1 ∧ past'.thaws = 1 ∧ past.thaws = 0 := by
  refine ⟨_, _, ⟨⟨rfl, rfl, rfl, rfl, fun other hother => ?_⟩, rfl, rfl, rfl, rfl, rfl, rfl, rfl⟩,
    by decide⟩
  -- apart from the one site the tables are empty
  -- there is no other site
  have hnone : ∀ s : Site Unit, (Table.mk [(SiteKey.numbered 0, s)]).get? other = none :=
    fun s => if_neg hother.symm
  exact (hnone _).trans (hnone _).symm

/-- A program that calls for the first class until it sees the site frozen, then invalidates that
class and goes on with the second. -/
def sampleWatch : List (Operation.Answer Unit) → View Unit → Operation Unit
  | .changed _ :: _, _ => ringCall ⟨9⟩
  | _, seen =>
    if (seen.sites (.numbered 0)).map (·.phase) = some .frozen then .invalidate ⟨8⟩
    else ringCall ⟨8⟩

/-- After a reset the program makes the same of both sites, down to the thaw that ends it. -/
theorem reset_erases_sampleLively : ∃ s' s : Site Unit,
    ((sampleLively.resetSite (.numbered 0)).course (.numbered 0) sampleWatch 3 []).2.sites.get?
      (.numbered 0) = some s' ∧
    ((sampleQuiet.resetSite (.numbered 0)).course (.numbered 0) sampleWatch 3 []).2.sites.get?
      (.numbered 0) = some s ∧
    s'.bare = s.bare ∧ s.hits = 0 ∧ s.distinctShapes = 2 ∧
    s'.resolutions = 4 ∧ s.resolutions = 3 ∧ s'.thaws = 2 ∧ s.thaws = 1 := by
  obtain ⟨past', past, hdiffer, hresolutions', hresolutions, hthaws', hthaws⟩ :=
    differInPast_sampleLively
  have hdrop : ∀ answers view, sampleWatch answers view ≠ .drop (.numbered 0) := by
    intro answers view
    unfold sampleWatch
    split
    · nofun
    · split <;> nofun
  -- the two courses end in sites that are the same but for the totals, so it is enough to look at
  -- one
  obtain ⟨-, -, s, hs', hs⟩ := hdiffer.reset_erases reachable_sampleQuiet hdrop 3
  have hsite : ∀ s, ((sampleQuiet.resetSite (.numbered 0)).course (.numbered 0) sampleWatch 3
      []).2.sites.get? (.numbered 0) = some s → s.hits = 0 ∧ s.distinctShapes = 2 ∧
        s.resolutions = 3 ∧ s.thaws = 1 := by
    rintro _ ⟨⟩
    decide
  obtain ⟨hhits, hmet, hres, hth⟩ := hsite _ hs
  have hres : past.resolutions + s.resolutions = 3 := hres
  have hth : past.thaws + s.thaws = 1 := hth
  refine ⟨_, _, hs', hs, rfl, hhits, hmet, ?_, hres, ?_, hth⟩
  · show past'.resolutions + s.resolutions = 4
    omega
  · show past'.thaws + s.thaws = 2
    omega

end Engine

end LateBinding
