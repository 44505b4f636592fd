import LateBinding.Proofs.RotationScenario
import LateBinding.Proofs.Thrashing

/-!
# The scenario with receiver classes in a random-looking order

The site of this scenario is called for many more classes than it has room for. Up to the thrashing
point it does not give up, so the scenario may not expect that it does. It expects it from eight
times the product of room and multiplier on, which is later. But while the product of the policy
stops at the last word, that of the scenario has to be a word. If it is none, the scenario stops at
its end although the site is as it should be (`Scenario.megamorphicRandom_up_to_product`).
-/

namespace LateBinding

/-- After fewer calls than the thrashing point says, a site did not give up. -/
theorem Engine.Serves.patient {β : Type} {settings : Settings} {g₀ g : Engine β} {key : SiteKey}
    {id : Nat} {access : Access} {name : String} {shapes : List Shape}
    (hg : Opened settings key id access name g₀) (h : Serves g₀ key shapes g) :
    ∃ s, g.sites.get? key = some s ∧
      s.Patient (.ofSettings settings) settings.cacheCapacity shapes.length := by
  obtain ⟨log, hlog, -, rfl⟩ := h.logged
  have hroom : max settings.cacheCapacity 1 = settings.cacheCapacity :=
    Nat.max_eq_left (room_of_valid hg.valid).1
  obtain ⟨s, hs, hpatient⟩ := hlog.patient (launched_of_run hg.valid hg.run).reachable hg.site
  rw [hroom, hg.policy] at hpatient
  exact ⟨s, hs, (List.length_map ..).symm ▸ hpatient⟩

namespace Scenario

variable {settings : Settings} {n : Nat} {s : Site Action}

/-- From how many calls on the site is expected to have given up. -/
def expectedFrom (settings : Settings) : Nat :=
  settings.cacheCapacity * settings.megamorphicMultiplier * 8

/-! ## The run up to its end -/

/-- The scenario after so many calls, with its site. -/
structure Shuffled (settings : Settings) (n : Nat) (p : Prepared) (s : Site Action) : Prop where
  driven : megamorphicRandom.DrivenTo settings n p
  fixture : ∃ values, p.fixture = .rotation values true
  calls : p.calls = n
  checksum : p.checksum =
    Int64.ofNat (∑ step ∈ Finset.range n, megamorphicRandom.number settings step)
  policy : p.world.engine.policy = .ofSettings settings
  numbered : p.world.engine.numberedSites = [s]
  site : p.world.site? 1 = some s
  patient : s.Patient (.ofSettings settings) settings.cacheCapacity n

theorem number_shuffled (settings : Settings) : megamorphicRandom.number settings =
    fun step => turn true step % (settings.cacheCapacity * manyFactor + 1) := by
  funext step
  rw [number, turn, if_pos rfl]

/-- There are not too many receiver classes for words. -/
theorem build_shuffled (hvalid : settings.fault? = none) (w : World)
    (hw : w.engine.settings = settings) : Fixture.build megamorphicRandom w =
      Fixture.buildRotation (settings.cacheCapacity * manyFactor + 1) true w := by
  have hsmall : settings.cacheCapacity ≤ maxCacheCapacity := (Engine.room_of_valid hvalid).2
  rw [maxCacheCapacity] at hsmall
  have hmany : settings.cacheCapacity * manyFactor + 1 < Word.size := by
    rw [manyFactor, Word.size]
    omega
  simp only [Fixture.build, hw, Word.mul_of_lt (Nat.lt_of_succ_lt hmany), Word.add_of_lt hmany,
    Failure.exact, Except.mapError, bind, Except.bind]

theorem exists_shuffled (hvalid : settings.fault? = none) (hn : n < Word.size) :
    ∃ p s, Shuffled settings n p s := by
  obtain ⟨values, g, heap, hbuild, hring, hvalues⟩ :=
    buildRotation_start settings (settings.cacheCapacity * manyFactor + 1) true
  -- how many receivers there are is computed in words, which do not overflow here
  rw [← build_shuffled hvalid _ rfl] at hbuild
  have hready := hring.ready.1
  have hopened := hready.opened hvalid
  obtain ⟨p, hdriven, ⟨hfixture, h⟩, -, hcalls, hchecksum⟩ :=
    drivenTo_of_keeps hvalid hn hbuild ⟨rfl, oneSite_start hready.keys⟩
      (keeps_rotation hvalid true (Nat.succ_pos _) hring hvalues)
  obtain ⟨s, hs, hpatient⟩ := h.serves.patient hopened
  rw [Shape.length_sequence] at hpatient
  rw [← number_shuffled] at hchecksum
  exact ⟨p, s, hdriven, ⟨values, hfixture⟩, hcalls, hchecksum,
    h.serves.policy.trans hopened.policy,
    numberedSites_of_one (h.serves.keys.trans h.keys) hs, hs, hpatient⟩

/-! ## The check at the end -/

/-- If the bound is a word, the site is only looked at if there were so many calls. -/
theorem Fixture.verifyShuffled_of_lt {policy : Policy} {calls : Nat}
    (hfits : s.capacity * policy.megamorphicMultiplier * 8 < Word.size) :
    Fixture.verifyShuffled policy s calls =
      if s.capacity * policy.megamorphicMultiplier * 8 ≤ calls then
        Fixture.ensurePhase s .megamorphic
      else .ok () := by
  have hproduct : s.capacity * policy.megamorphicMultiplier < Word.size := by omega
  simp only [Fixture.verifyShuffled, Word.mul_of_lt hproduct, Word.mul_of_lt hfits, Failure.exact,
    Except.mapError, bind, Except.bind]
  rfl

/-- If the bound is no word, one of its two products is none. -/
theorem Fixture.verifyShuffled_of_le {policy : Policy} {calls : Nat}
    (hover : Word.size ≤ s.capacity * policy.megamorphicMultiplier * 8) :
    Fixture.verifyShuffled policy s calls = .error (.ofOverflow .multiply) := by
  by_cases hproduct : s.capacity * policy.megamorphicMultiplier < Word.size
  · simp only [Fixture.verifyShuffled, Word.mul_of_lt hproduct, Word.mul_of_le hover,
      Failure.exact, Except.mapError, bind, Except.bind]
  · simp only [Fixture.verifyShuffled, Word.mul_of_le (Nat.le_of_not_lt hproduct), Failure.exact,
      Except.mapError, bind, Except.bind]

section

variable {p : Prepared} (h : Shuffled settings n p s)
include h

/-- The scenario ends with this check of its site. -/
theorem Shuffled.verify : Fixture.verify p.fixture p.calls p.world =
    Fixture.verifyShuffled (.ofSettings settings) s n := by
  obtain ⟨values, hfixture⟩ := h.fixture
  simp only [hfixture, Fixture.verify, Fixture.site, h.site, if_true, h.calls, h.policy, bind,
    Except.bind]

theorem Shuffled.bound_eq :
    s.capacity * (Policy.ofSettings settings).megamorphicMultiplier * 8 = expectedFrom settings := by
  rw [h.patient.capacity]
  rfl

theorem Shuffled.run_of_lt (hlt : n < expectedFrom settings)
    (hfits : expectedFrom settings < Word.size) :
    megamorphicRandom.run settings n = .ok p.outcome := by
  rw [← h.bound_eq] at hlt hfits
  refine h.driven.run.trans (Prepared.finish_of_passes ?_)
  rw [h.verify, Fixture.verifyShuffled_of_lt hfits, if_neg (Nat.not_le_of_lt hlt)]

theorem Shuffled.run_of_le (hover : Word.size ≤ expectedFrom settings) :
    megamorphicRandom.run settings n = .error (.ofOverflow .multiply) := by
  rw [← h.bound_eq] at hover
  rw [h.driven.run, Prepared.finish, h.verify, Fixture.verifyShuffled_of_le hover]
  rfl

end

/-! ## Before the thrashing point -/

/-- The scenario succeeds, and tells of a site that did not give up. -/
def SucceedsPatiently (settings : Settings) (n : Nat) : Prop :=
  ∃ o report, megamorphicRandom.Succeeds settings n o ∧ o.sites = [report] ∧
    report.phase ≠ .megamorphic ∧ report.distinctShapes ≤ n

/-- The scenario makes all its calls, after which its site did not give up, and then stops, because
what it would compare them with is no word. -/
def Overflows (settings : Settings) (n : Nat) : Prop :=
  ∃ p s, megamorphicRandom.DrivenTo settings n p ∧ p.world.site? 1 = some s ∧
    s.phase ≠ .megamorphic ∧ s.distinctShapes ≤ n ∧
    megamorphicRandom.run settings n = .error (.ofOverflow .multiply)

/-- The thrashing point lies before the call from which on the scenario expects it. -/
theorem thrashPoint_le_expectedFrom (hvalid : settings.fault? = none) :
    (Policy.ofSettings settings).thrashPoint settings.cacheCapacity ≤ expectedFrom settings := by
  have hpos : 0 < settings.cacheCapacity * settings.megamorphicMultiplier :=
    Nat.mul_pos (Engine.room_of_valid hvalid).1 (Settings.multiplier_of_valid hvalid)
  -- saturation only makes the product smaller, and the point is at most one past it
  have hsat : Word.mulSat settings.cacheCapacity settings.megamorphicMultiplier ≤
      settings.cacheCapacity * settings.megamorphicMultiplier := Nat.min_le_left _ _
  have hpoint : (Policy.ofSettings settings).thrashPoint settings.cacheCapacity ≤
      Word.mulSat settings.cacheCapacity settings.megamorphicMultiplier + 1 := by
    unfold Policy.thrashPoint
    split
    · exact Nat.le_refl _
    · exact Nat.min_le_right _ _
  rw [expectedFrom]
  omega

/-- Before the thrashing point, it depends on the bound alone whether the scenario succeeds. -/
theorem megamorphicRandom_early (hvalid : settings.fault? = none) (hn : n < Word.size)
    (hearly : n < (Policy.ofSettings settings).thrashPoint settings.cacheCapacity) :
    (expectedFrom settings < Word.size → SucceedsPatiently settings n) ∧
      (Word.size ≤ expectedFrom settings → Overflows settings n) := by
  obtain ⟨p, s, h⟩ := exists_shuffled hvalid hn
  have hphase : s.phase ≠ .megamorphic :=
    fun hmega => Nat.not_le_of_lt hearly (h.patient.gaveUp hmega)
  have hshapes := h.patient.distinctShapes
  constructor
  · intro hfits
    have hsites : p.outcome.sites = [s.report p.world.engine.registry] := by
      show p.world.engine.reports = _
      rw [Engine.reports, h.numbered]
      rfl
    have hrun := h.run_of_lt (hearly.trans_le (thrashPoint_le_expectedFrom hvalid)) hfits
    exact ⟨p.outcome, _, ⟨hrun, h.calls, h.checksum, trivial⟩, hsites, hphase, hshapes⟩
  -- the steps went well, and the verification after them has nothing to compare with
  · intro hover
    exact ⟨p, s, h.driven, h.site, hphase, hshapes, h.run_of_le hover⟩

/-! ## Up to the product -/

/-- Without a fallback threshold, the thrashing point lies beyond the product of room and
multiplier, also where the product stops at the last word. -/
theorem early_of_le_product (hfallback : settings.fallbackThreshold = 0) (hn : n < Word.size)
    (hle : n ≤ settings.cacheCapacity * settings.megamorphicMultiplier) :
    n < (Policy.ofSettings settings).thrashPoint settings.cacheCapacity := by
  rw [Policy.thrashPoint, if_pos (show (Policy.ofSettings settings).fallbackThreshold = 0 from
    hfallback)]
  refine Nat.lt_succ_of_le (Nat.le_min.mpr ⟨hle, ?_⟩)
  rw [Word.size_eq] at hn
  omega

/-- With valid settings without a fallback threshold, and up to as many calls as room times
multiplier, the site met no more shapes than there were calls and did not give up. The scenario
succeeds if eight times that product is a word. Otherwise it stops when it comes to compute it. -/
theorem megamorphicRandom_up_to_product (hvalid : settings.fault? = none)
    (hfallback : settings.fallbackThreshold = 0) (hn : n < Word.size)
    (hle : n ≤ settings.cacheCapacity * settings.megamorphicMultiplier) :
    (settings.cacheCapacity * settings.megamorphicMultiplier * 8 < Word.size →
      SucceedsPatiently settings n) ∧
    (Word.size ≤ settings.cacheCapacity * settings.megamorphicMultiplier * 8 →
      Overflows settings n) :=
  megamorphicRandom_early hvalid hn (early_of_le_product hfallback hn hle)

/-- The default settings without a fallback threshold and with another multiplier. -/
def sampleSettings (multiplier : Nat) : Settings :=
  { Settings.default with fallbackThreshold := 0, megamorphicMultiplier := multiplier }

/-- With the largest multiplier that is not too much for words, the scenario succeeds with a million
calls. -/
theorem megamorphicRandom_up_to_product_sampleSettings :
    SucceedsPatiently (sampleSettings (2 ^ 59 - 1)) 1000000 :=
  (megamorphicRandom_up_to_product (by decide) (by decide) (by decide) (by decide)).1 (by decide)

/-- With a multiplier of a quarter of all words, room times multiplier is no word. So the scenario
stops after its first call, with which no site gives up. -/
theorem megamorphicRandom_overflow_sampleSettings :
    (sampleSettings (2 ^ 62)).fault? = none ∧ (sampleSettings (2 ^ 62)).fallbackThreshold = 0 ∧
    1 ≤ (sampleSettings (2 ^ 62)).cacheCapacity * (sampleSettings (2 ^ 62)).megamorphicMultiplier ∧
    Overflows (sampleSettings (2 ^ 62)) 1 ∧
    ∀ o, megamorphicRandom.run (sampleSettings (2 ^ 62)) 1 ≠ .ok o := by
  have hvalid : (sampleSettings (2 ^ 62)).fault? = none := by decide
  have hover : Overflows (sampleSettings (2 ^ 62)) 1 :=
    (megamorphicRandom_early hvalid (by decide)
      (early_of_le_product rfl (by decide) (by decide))).2 (by decide)
  refine ⟨hvalid, rfl, by decide, hover, fun o hok => ?_⟩
  obtain ⟨p, s, -, -, -, -, herror⟩ := hover
  cases hok.symm.trans herror

end Scenario

end LateBinding
