import LateBinding.Proofs.CallLog
import LateBinding.Proofs.Invalidation
import Mathlib.Algebra.GroupWithZero.Nat

/-!
# The freezing point

A site that is called with no more shapes than fit may freeze and thaw several times while it still
meets new shapes. From the last new shape on it asks the resolver nothing, and it freezes for good
at a call that the thresholds and the number of the call with the last new shape determine
(`Engine.Logged.freezing_point`).
-/

namespace LateBinding

/-! ## New shapes -/

namespace Shape

variable {x : Shape} {heard sofar later : List Shape}

/-- The number of the call that was the last to have a shape for the first time. The latest call
stands first. -/
def lastNew : List Shape → Nat
  | [] => 0
  | x :: before => if x ∈ before then lastNew before else before.length + 1

theorem length_latest_cons : (latest (x :: heard)).length =
    if x ∈ heard then (latest heard).length else (latest heard).length + 1 := by
  rw [latest, List.length_cons]
  split
  -- the shape takes its old place out before it comes to the front
  · next hx =>
    have herase : (latest heard).filter (· ≠ x) = (latest heard).erase x := by
      rw [nodup_latest.erase_eq_filter]
      exact List.filter_congr fun y _ => by by_cases hy : y = x <;> simp [hy]
    have hmem := mem_latest.mpr hx
    have hpos := List.length_pos_of_mem hmem
    rw [herase, List.length_erase_of_mem hmem]
    omega
  · next hx =>
    have hsame : (latest heard).filter (· ≠ x) = latest heard :=
      List.filter_eq_self.mpr fun y hy => by
        simpa using fun hyx : y = x => hx (hyx ▸ mem_latest.mp hy)
    rw [hsame]

theorem length_latest_le : (latest heard).length ≤ (latest (x :: heard)).length := by
  rw [length_latest_cons]
  split <;> omega

theorem length_latest_le_append (later : List Shape) :
    (latest sofar).length ≤ (latest (later ++ sofar)).length := by
  induction later with
  | nil => exact Nat.le_refl _
  | cons x rest ih => exact ih.trans length_latest_le

/-- After the last new shape, no shape is new. -/
theorem latest_of_lastNew_le (h : lastNew (later ++ sofar) ≤ sofar.length) :
    lastNew (later ++ sofar) = lastNew sofar ∧
      (latest (later ++ sofar)).length = (latest sofar).length := by
  induction later with
  | nil => exact ⟨rfl, rfl⟩
  | cons x rest ih =>
    rw [List.cons_append, lastNew] at h ⊢
    rw [length_latest_cons]
    split at h
    · next hx => simpa [hx] using ih h
    · rw [List.length_append] at h
      omega

end Shape

namespace Site

variable {β : Type} {s s₁ : Site β} {p : Policy}

/-! ## Freezing -/

theorem isStable_congr {e e' : Evidence} (hcalls : e'.calls = e.calls)
    (hlast : e'.lastNewShapeAt = e.lastNewShapeAt) : p.isStable e' = p.isStable e := by
  rw [Policy.isStable, hcalls, hlast, Policy.isStable]

/-- A site that does not give up freezes exactly if it is stable. -/
theorem frozen_heed_iff (hphase : s.phase.isAdaptive) (hkeep : p.verdict s.evidence ≠ .giveUp) :
    ((s.heed (p.verdict s.evidence)).phase = .frozen ↔
        p.isStable (s.heed (p.verdict s.evidence)).evidence) ∧
      (s.heed (p.verdict s.evidence)).phase ≠ .megamorphic := by
  have hstable : p.isStable (s.heed (p.verdict s.evidence)).evidence = p.isStable s.evidence :=
    isStable_congr (calls_heed _ _) (lastNewShapeAt_heed _ _)
  -- the verdict is to freeze for stability alone, as giving up is out of the question
  have hfreeze : p.verdict s.evidence = .freeze ↔ p.isStable s.evidence := by
    rw [Policy.verdict_eq_freeze_iff]
    exact ⟨fun h => h.2.2, fun h => ⟨hphase, hkeep, h⟩⟩
  rw [hstable, ← hfreeze]
  cases hverdict : p.verdict s.evidence with
  | giveUp => exact absurd hverdict hkeep
  | freeze => exact ⟨⟨fun _ => rfl, fun _ => rfl⟩, nofun⟩
  | keep =>
    have hne : s.phase ≠ .frozen := by
      intro hfrozen
      rw [hfrozen] at hphase
      cases hphase
    exact ⟨⟨fun h => absurd h hne, nofun⟩, ne_megamorphic_of_isAdaptive hphase⟩

/-- As long as no more shapes were counted than fit, the policy does not give up. -/
theorem verdict_ne_giveUp_of_fits (hmultiplier : 1 ≤ p.megamorphicMultiplier)
    (hroom : s.capacity < Word.last) (hcount : s.distinctShapes ≤ s.capacity) :
    p.verdict s.evidence ≠ .giveUp := fun hgiveUp =>
  Nat.not_lt_of_le hcount (Policy.capacity_lt_of_giveUp hmultiplier hroom hgiveUp)

/-- After a call that is answered, a site that counted no more shapes than fit is frozen exactly if
it is stable, provided that a frozen site was stable before. -/
theorem Turn.frozen_iff {q : Resolver β} {x : Shape}
    {out : Except DispatchError (Target β) × Site β × Resolver β} (hs : s.Valid)
    (h : s.Turn p q x out) (hok : out.1.isOk) (hmultiplier : 1 ≤ p.megamorphicMultiplier)
    (hroom : s.capacity < Word.last) (hcount : out.2.1.distinctShapes ≤ s.capacity)
    (hstable : s.phase = .frozen → p.isStable s.evidence) :
    (out.2.1.phase = .frozen ↔ p.isStable out.2.1.evidence) ∧ out.2.1.phase ≠ .megamorphic := by
  have hcapacity : out.2.1.capacity = s.capacity := h.capacity hs
  -- what the policy sees last is the site as the turn leaves it, but for a frozen one, which asks
  -- nothing
  cases h with
  | held hphase hmem =>
    refine ⟨⟨fun _ => ?_, fun _ => hphase⟩, fun hmega => ?_⟩
    · -- one more call, and none with a new shape
      have hbefore := Policy.isStable_iff.mp (hstable hphase)
      refine Policy.isStable_iff.mpr ⟨Nat.lt_succ_of_lt hbefore.1, ?_⟩
      show _ ≤ s.calls + 1 - s.lastNewShapeAt
      have hlast : min p.stableWindow p.optimizeThreshold ≤ s.calls - s.lastNewShapeAt := hbefore.2
      omega
    · cases hphase.symm.trans hmega
  | promoted hphase hmem =>
    -- the hit fits, so giving up is not what is heeded
    have hkeep : p.verdict (s.count.promote x).evidence ≠ .giveUp := by
      have hroom' := (reused_promote x hs).capacity
      refine verdict_ne_giveUp_of_fits hmultiplier (hroom' ▸ hroom) (hroom' ▸ ?_)
      rw [(reused_promote x hs).distinctShapes]
      dsimp only at hcount
      split at hcount
      · rwa [(reused_promote x hs).frosted.distinctShapes] at hcount
      · rwa [(reused_promote x hs).distinctShapes] at hcount
    -- after a hit the site asks only whether to freeze, which comes to heeding the verdict
    have hheed : (if p.verdict (s.count.promote x).evidence = .freeze
        then (s.count.promote x).frosted else s.count.promote x) =
        (s.count.promote x).heed (p.verdict (s.count.promote x).evidence) := by
      cases hverdict : p.verdict (s.count.promote x).evidence with
      | keep | freeze => rfl
      | giveUp => exact absurd hverdict hkeep
    dsimp only
    rw [hheed]
    exact frozen_heed_iff hphase hkeep
  | refused => cases hok
  | @learned found q' hnew hq =>
    have hadaptive : (s.learnt x found).phase.isAdaptive := by
      unfold learnt
      dsimp only
      split <;> rfl
    rw [distinctShapes_heed] at hcount
    rw [capacity_heed] at hcapacity
    exact frozen_heed_iff hadaptive
      (verdict_ne_giveUp_of_fits hmultiplier (hcapacity ▸ hroom) (hcapacity ▸ hcount))

/-- The site is as the calls so far make it: all of their shapes fit, and it is frozen exactly if
they have been stable. -/
structure Paced (s : Site β) (p : Policy) (log : List (Call β)) : Prop where
  calls : s.calls = log.length
  resolutions : s.resolutions = (Shape.latest (log.map (·.shape))).length
  distinctShapes : s.distinctShapes = (Shape.latest (log.map (·.shape))).length
  lastNewShapeAt : s.lastNewShapeAt = Shape.lastNew (log.map (·.shape))
  asked : (log.map (·.asked)).sum = (Shape.latest (log.map (·.shape))).length
  frozen : s.phase = .frozen ↔ p.isStable s.evidence
  phase : s.phase ≠ .megamorphic

theorem paced_create (id : Nat) (access : Access) (name : String) (room : Nat) :
    (create id access name room : Site β).Paced p [] where
  calls := rfl
  resolutions := rfl
  distinctShapes := rfl
  lastNewShapeAt := rfl
  asked := rfl
  frozen := by
    rw [Policy.isStable_iff]
    exact ⟨nofun, fun h => absurd h.1 (Nat.not_lt_zero _)⟩
  phase := nofun

end Site

namespace Engine

variable {β : Type} {g g₀ g' : Engine β} {key : SiteKey} {s : Site β} {log : List (Call β)}
variable {receiver : Value} {args : List Value} {room first : Nat}

theorem heard_of_answered (h : ∀ c ∈ log, c.answer.isOk) : Call.heard log = log.map (·.shape) := by
  rw [Call.heard, List.filter_eq_self.mpr h]

/-- The site has entries for all shapes that it was called with, if they fit. -/
theorem Caches.mem_shapes (h : Caches s room first log) (hphase : s.phase ≠ .megamorphic)
    (hanswered : ∀ c ∈ log, c.answer.isOk)
    (hfits : (Shape.latest (log.map (·.shape))).length ≤ room) (x : Shape) :
    x ∈ s.shapes ↔ x ∈ log.map (·.shape) := by
  have hperm := (h.ranked hphase).perm
  rw [heard_of_answered hanswered, List.take_of_length_le hfits] at hperm
  rw [hperm.mem_iff, Shape.mem_latest]

/-- Calls that are answered keep the site as they make it, as long as the shapes fit. -/
theorem paced_call (hg : g.Reachable) (hs : g.sites.get? key = some s)
    (hcurrent : s.Current g.registry) (hcaches : Caches s room first log)
    (hmultiplier : 1 ≤ g.policy.megamorphicMultiplier) (hroom : room < Word.last)
    (hanswered : ∀ c ∈ g.noted s receiver args :: log, c.answer.isOk)
    (hfits : (Shape.latest ((g.noted s receiver args :: log).map (·.shape))).length ≤ room)
    (h : s.Paced g.policy log) :
    (s.dispatch g.policy g.resolver receiver args).2.1.Paced g.policy
      (g.noted s receiver args :: log) := by
  have hvalid := hg.valid hs
  have hturn := turn_dispatch receiver args hg hs hcurrent h.phase
  have hok : (s.dispatch g.policy g.resolver receiver args).1.isOk :=
    hanswered _ List.mem_cons_self
  have hmem := hcaches.mem_shapes h.phase (fun c hc => hanswered c (List.mem_cons_of_mem _ hc))
    (Shape.length_latest_le.trans hfits) (.ofCall g.registry receiver args)
  have hcount := hfits
  have hroom' : s.capacity < Word.last := hcaches.capacity ▸ hroom
  -- a shape heard before is served without a question, a new one is learned with one
  by_cases hx : Shape.ofCall g.registry receiver args ∈ log.map (·.shape)
  · obtain ⟨-, hresolver, hreused⟩ := hturn.reused hvalid (hmem.mpr hx)
    have hlatest : (Shape.latest ((g.noted s receiver args :: log).map (·.shape))).length =
        (Shape.latest (log.map (·.shape))).length := Shape.length_latest_cons.trans (if_pos hx)
    -- the number of shapes is bounded in terms of the log, and the turn needs it in terms of the
    -- site
    rw [hlatest, ← h.distinctShapes, ← hcaches.capacity, ← hreused.distinctShapes] at hcount
    obtain ⟨hfrozen, hphase⟩ :=
      hturn.frozen_iff hvalid hok hmultiplier hroom' hcount h.frozen.mp
    refine ⟨?_, ?_, ?_, ?_, ?_, hfrozen, hphase⟩
    · rw [hreused.calls, h.calls, List.length_cons]
    · rw [hreused.resolutions, h.resolutions, hlatest]
    · rw [hreused.distinctShapes, h.distinctShapes, hlatest]
    · rw [hreused.lastNewShapeAt, h.lastNewShapeAt]
      exact (if_pos hx).symm
    · have hasked : (g.noted s receiver args).asked = 0 := by
        simp only [noted, hresolver, Nat.sub_self]
      rw [List.map_cons, List.sum_cons, hasked, h.asked, hlatest, Nat.zero_add]
  -- the site has all shapes of the log, so a shape that is not in the log is new to it
  · have hnew := fun hold => hx (hmem.mp hold)
    obtain ⟨-, hresolver⟩ := hturn.asked hnew
    obtain ⟨-, -, hgained⟩ := hturn.gained hnew hok
    have hlatest : (Shape.latest ((g.noted s receiver args :: log).map (·.shape))).length =
        (Shape.latest (log.map (·.shape))).length + 1 :=
      Shape.length_latest_cons.trans (if_neg hx)
    rw [hlatest, ← h.distinctShapes, ← hcaches.capacity, ← hgained.distinctShapes] at hcount
    obtain ⟨hfrozen, hphase⟩ :=
      hturn.frozen_iff hvalid hok hmultiplier hroom' hcount h.frozen.mp
    refine ⟨?_, ?_, ?_, ?_, ?_, hfrozen, hphase⟩
    · rw [hgained.calls, h.calls, List.length_cons]
    · rw [hgained.resolutions, h.resolutions, hlatest]
    · rw [hgained.distinctShapes, h.distinctShapes, hlatest]
    · have hlength : (log.map (·.shape)).length = log.length := List.length_map _
      rw [hgained.lastNewShapeAt, h.calls, ← hlength]
      exact (if_neg hx).symm
    · have hasked : (g.noted s receiver args).asked = 1 := by
        simp only [noted, hresolver, Resolver.invocations_resolve, Nat.add_sub_cancel_left]
      rw [List.map_cons, List.sum_cons, hasked, h.asked, hlatest, Nat.add_comm]

/-! ## Logs -/

/-- The operation leaves the thresholds as they are. -/
def KeepsPolicy (g : Engine β) (op : Operation β) : Prop := (g.perform op).policy = g.policy

theorem Logged.policy (h : Logged KeepsPolicy key g₀ g log) : g.policy = g₀.policy := by
  induction h with
  | start => rfl
  | other _ hkeeps _ _ ih => exact hkeeps.trans ih
  | call _ _ ih => exact (frame_perform _ _).1.trans ih

/-- The site caches the calls that it got, and is as they make it if they were answered and their
shapes fit. -/
structure Tracks (s : Site β) (p : Policy) (room : Nat) (log : List (Call β)) : Prop where
  caches : Caches s room 0 log
  paced : (∀ c ∈ log, c.answer.isOk) → (Shape.latest (log.map (·.shape))).length ≤ room →
    s.Paced p log

theorem Tracks.call (hg : g.Launched) (hs : g.sites.get? key = some s)
    (hcurrent : s.Current g.registry) (hroom : room < Word.last)
    (h : Tracks s g.policy room log) :
    Tracks (s.dispatch g.policy g.resolver receiver args).2.1 g.policy room
      (g.noted s receiver args :: log) where
  caches := h.caches.call hg.reachable hs hcurrent
  paced hanswered hfits := by
    have hfewer := Shape.length_latest_le.trans hfits
    exact paced_call hg.reachable hs hcurrent h.caches hg.multiplier hroom hanswered hfits
      (h.paced (fun c hc => hanswered c (List.mem_cons_of_mem _ hc)) hfewer)

theorem capacity_create (id : Nat) (access : Access) (name : String) :
    (Site.create id access name room : Site β).capacity = max room 1 :=
  Site.length_fill

theorem caches_create (id : Nat) (access : Access) (name : String) :
    Caches (Site.create id access name room : Site β) (max room 1) 0 [] := by
  have hcaches : Caches (Site.create id access name room : Site β) _ _ _ :=
    caches_of_fresh (.created id access name room)
  rwa [capacity_create] at hcaches

theorem Launched.logged (hg : g₀.Launched) {allowed : Engine β → Operation β → Prop}
    (h : Logged allowed key g₀ g log) : g.Launched := by
  induction h with
  | start => exact hg
  | other _ _ _ _ ih | call _ _ ih => exact ih.perform _

section

variable {id : Nat} {access : Access} {name : String} {sofar later : List (Call β)}
variable (hg : g₀.Launched) (hs₀ : g₀.sites.get? key = some (.create id access name room))
variable (hroom : max room 1 < Word.last)
include hg hs₀ hroom

/-- As long as their shapes fit, the calls of a site that was just created keep it as they make
it. -/
theorem Logged.paced (h : Logged KeepsPolicy key g₀ g log) (hanswered : ∀ c ∈ log, c.answer.isOk)
    (hfits : (Shape.latest (log.map (·.shape))).length ≤ max room 1) :
    ∃ s, g.sites.get? key = some s ∧ s.Paced g₀.policy log := by
  have hstart : Tracks (.create id access name room) g₀.policy (max room 1) ([] : List (Call β)) :=
    ⟨caches_create id access name, fun _ _ => Site.paced_create id access name room⟩
  obtain ⟨s, hs, -, htracks⟩ := h.carry (P := fun s log => Tracks s g₀.policy (max room 1) log)
    hg.reachable hs₀ (Site.current_of_empty (entries_of_fresh (.created id access name room)))
    hstart fun h hs hcurrent htracks => by
      rw [← h.policy] at htracks ⊢
      exact htracks.call (hg.logged h) hs hcurrent hroom
  exact ⟨s, hs, htracks.paced hanswered hfits⟩

/-- The freezing point. At a site that was just created, after calls that are all answered and of
no more shapes than fit, while no version changes under its entries and the thresholds stay: the
site did not give up, and it was resolved once for each shape. If no later call has a new shape, it
is frozen exactly if the calls so far reach the freezing point, which the thresholds and the last
call with a new shape determine; if it is frozen it stays so; and the later calls ask for no
resolution. -/
theorem Logged.freezing_point (h : Logged KeepsPolicy key g₀ g sofar)
    (h' : Logged KeepsPolicy key g g' later) (hanswered : ∀ c ∈ later ++ sofar, c.answer.isOk)
    (hfits : (Shape.latest ((later ++ sofar).map (·.shape))).length ≤ max room 1) :
    ∃ s s', g.sites.get? key = some s ∧ g'.sites.get? key = some s' ∧
      s.phase ≠ .megamorphic ∧ s.resolutions = (Shape.latest (sofar.map (·.shape))).length ∧
      (Shape.lastNew ((later ++ sofar).map (·.shape)) ≤ sofar.length →
        (s.phase = .frozen ↔ max (g₀.policy.optimizeThreshold + 1)
          (Shape.lastNew ((later ++ sofar).map (·.shape)) +
            min g₀.policy.stableWindow g₀.policy.optimizeThreshold) ≤ sofar.length) ∧
        (s.phase = .frozen → s'.phase = .frozen) ∧ ∀ c ∈ later, c.asked = 0) := by
  have hfits' : (Shape.latest (sofar.map (·.shape))).length ≤ max room 1 :=
    (Shape.length_latest_le_append (later.map (·.shape))).trans (List.map_append ▸ hfits)
  -- the pace of the log so far, and that of the whole log, each tell all about the site then
  obtain ⟨s, hs, hpaced⟩ :=
    h.paced hg hs₀ hroom (fun c hc => hanswered c (List.mem_append_right _ hc)) hfits'
  obtain ⟨s', hs', hpaced'⟩ := (h'.trans h).paced hg hs₀ hroom hanswered hfits
  refine ⟨s, s', hs, hs', hpaced.phase, hpaced.resolutions, fun hlast => ?_⟩
  rw [List.map_append] at hlast ⊢
  obtain ⟨hsame, hlength⟩ := Shape.latest_of_lastNew_le (hlast.trans_eq (List.length_map ..).symm)
  rw [hsame] at hlast ⊢
  -- the freezing point in terms of the log
  have hstable : ∀ {s : Site β} {log : List (Call β)}, s.Paced g₀.policy log →
      (s.phase = .frozen ↔ g₀.policy.optimizeThreshold < log.length ∧
        min g₀.policy.stableWindow g₀.policy.optimizeThreshold ≤
          log.length - Shape.lastNew (log.map (·.shape))) := by
    intro s log h
    rw [h.frozen, Policy.isStable_iff, ← h.calls, ← h.lastNewShapeAt]
    rfl
  have hfrozen := hstable hpaced
  have hfrozen' := hstable hpaced'
  -- with no new shape later, the last new one is the same in both logs, and calls only become more
  refine ⟨?_, fun hphase => ?_, fun c hc => ?_⟩
  · rw [hfrozen]
    omega
  · rw [List.map_append, hsame, List.length_append] at hfrozen'
    rw [hfrozen] at hphase
    rw [hfrozen']
    omega
  · -- the resolutions asked for are those of the calls so far
    have hasked := hpaced'.asked
    rw [List.map_append, List.map_append, List.sum_append, hlength, hpaced.asked] at hasked
    have hzero : (later.map (·.asked)).sum = 0 := by omega
    exact List.sum_eq_zero_iff_forall_eq_nat.mp hzero _ (List.mem_map_of_mem hc)

end

/-- The site for two classes freezes after three calls at the earliest, and one call after the last
new shape. -/
def sampleWarm : Engine Unit := sampleRing.perform (.setPolicy [(.optimize, 2), (.window, 1)])

theorem launched_sampleWarm : sampleWarm.Launched :=
  ⟨⟨2, 0, 0, 1, 0, true, 4096⟩, _, rfl,
    .tail (.tail (.tail (.tail .refl ⟨_, trivial, rfl⟩) ⟨_, trivial, rfl⟩) ⟨_, trivial, rfl⟩)
      ⟨_, trivial, rfl⟩⟩

/-- After a call for each class the site is not frozen, after one more it is. -/
theorem freezing_point_sampleWarm : ∃ g g' s s',
    Run Anything sampleWarm g ∧ Run Anything g g' ∧
    g.sites.get? (.numbered 0) = some s ∧ g'.sites.get? (.numbered 0) = some s' ∧
    s.phase ≠ .frozen ∧ s'.phase = .frozen ∧ s'.resolutions = 2 := by
  have hfirst : Logged KeepsPolicy (.numbered 0) sampleWarm
      (sampleWarm.perform (ringCall ⟨8⟩)) _ := .call .start rfl
  have hsecond : Logged KeepsPolicy (.numbered 0) sampleWarm
      ((sampleWarm.perform (ringCall ⟨8⟩)).perform (ringCall ⟨9⟩)) _ := .call hfirst rfl
  have hthird : Logged KeepsPolicy (.numbered 0)
      ((sampleWarm.perform (ringCall ⟨8⟩)).perform (ringCall ⟨9⟩))
      (((sampleWarm.perform (ringCall ⟨8⟩)).perform (ringCall ⟨9⟩)).perform (ringCall ⟨8⟩)) _ :=
    .call .start rfl
  have hsite : sampleWarm.sites.get? (.numbered 0) = some (.create 0 .method "m" 2) := rfl
  obtain ⟨s, _, hs, -, -, -, hpoint⟩ := hsecond.freezing_point launched_sampleWarm hsite
    (by decide) hthird (by decide) (by decide)
  obtain ⟨s', _, hs', -, -, hresolutions, hpoint'⟩ :=
    (hthird.trans hsecond).freezing_point launched_sampleWarm hsite (by decide) .start (by decide)
      (by decide)
  refine ⟨_, _, s, s', .tail (.tail .refl ⟨_, trivial, rfl⟩) ⟨_, trivial, rfl⟩,
    .tail .refl ⟨_, trivial, rfl⟩, hs, hs', ?_, ?_, ?_⟩
  · rw [Ne, (hpoint (by decide)).1]
    decide
  · rw [(hpoint' (by decide)).1]
    decide
  · rw [hresolutions]
    decide

end Engine

end LateBinding
