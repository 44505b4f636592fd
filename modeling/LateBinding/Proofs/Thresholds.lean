import LateBinding.Proofs.Turns

/-!
# Thresholds for all counters

What the policy says of a site is bounded by its thresholds, whatever the counters are: words up to
the largest, also such that no site ever reports. `Policy.exactVerdict` is the same policy in the
arithmetic of the integers. The product of the capacity and the multiplier stops at the last word,
which makes no difference, because no counter is larger. One more than the capacity is a word unless
the capacity is the last one. There, and if it matters, the policy does not answer
(`Policy.Overruns`). Everywhere else it says what the integers say, and a site is given up only if
it counted more shapes than fit (`Policy.Attained.decide_bounds`).
-/

namespace LateBinding

/-- All counters are words. -/
structure Evidence.InRange (e : Evidence) : Prop where
  calls : e.calls ≤ Word.last
  hits : e.hits ≤ Word.last
  distinctShapes : e.distinctShapes ≤ Word.last
  lastNewShapeAt : e.lastNewShapeAt ≤ Word.last
  capacity : e.capacity ≤ Word.last

theorem Phase.isAdaptive_iff {phase : Phase} :
    phase.isAdaptive ↔ phase = .monomorphic ∨ phase = .polymorphic := by
  cases phase <;> simp [isAdaptive]

/-- A product that stops at the last word is exceeded by the same words as the product itself. -/
theorem Word.mulSat_lt_iff {a b n : Nat} (h : n ≤ last) : mulSat a b < n ↔ a * b < n := by
  unfold mulSat
  omega

namespace Policy

variable {p : Policy} {e : Evidence}

/-- The policies that valid settings and changes of thresholds lead to. -/
def Attained (p : Policy) : Prop :=
  ∃ settings changes, settings.fault? = none ∧ p = (ofSettings settings).setAll changes

theorem Attained.multiplier (hp : p.Attained) : 1 ≤ p.megamorphicMultiplier := by
  obtain ⟨settings, changes, hvalid, rfl⟩ := hp
  exact multiplier_setAll (p := ofSettings settings) (Settings.multiplier_of_valid hvalid)

/-! ## The policy over the integers -/

/-- The verdict in the arithmetic of the integers, where nothing wraps around and there is no last
word. A difference below zero counts as zero. -/
def exactVerdict (p : Policy) (e : Evidence) : Verdict :=
  if e.phase ≠ .monomorphic ∧ e.phase ≠ .polymorphic then .keep
  else if 0 < p.fallbackThreshold ∧ e.hits = 0 ∧
      max p.fallbackThreshold (e.capacity + 1) ≤ e.distinctShapes then .giveUp
  else if e.phase = .polymorphic ∧ e.capacity * p.megamorphicMultiplier < e.distinctShapes then
    .giveUp
  else if p.optimizeThreshold < e.calls ∧
      (min p.stableWindow p.optimizeThreshold : Int) ≤ max ((e.calls : Int) - e.lastNewShapeAt) 0
    then .freeze
  else .keep

/-- The one case in which words are not like integers: the policy asks for the word after the last
one. -/
structure Overruns (p : Policy) (e : Evidence) : Prop where
  capacity : e.capacity = Word.last
  adaptive : e.phase.isAdaptive
  fallback : 0 < p.fallbackThreshold
  hits : e.hits = 0

theorem thrashes_iff_mul (he : e.InRange) : p.thrashes e ↔
    e.phase = .polymorphic ∧ e.capacity * p.megamorphicMultiplier < e.distinctShapes := by
  rw [thrashes_iff, Word.mulSat_lt_iff he.distinctShapes]

theorem isStable_iff_int : p.isStable e ↔ p.optimizeThreshold < e.calls ∧
    (min p.stableWindow p.optimizeThreshold : Int) ≤
      max ((e.calls : Int) - e.lastNewShapeAt) 0 := by
  rw [isStable_iff]
  omega

theorem exactVerdict_eq_giveUp_iff : p.exactVerdict e = .giveUp ↔ e.phase.isAdaptive ∧
    (0 < p.fallbackThreshold ∧ e.hits = 0 ∧
        max p.fallbackThreshold (e.capacity + 1) ≤ e.distinctShapes ∨
      e.phase = .polymorphic ∧ e.capacity * p.megamorphicMultiplier < e.distinctShapes) := by
  rw [Phase.isAdaptive_iff, exactVerdict]
  grind

theorem exactVerdict_eq_freeze_iff : p.exactVerdict e = .freeze ↔
    e.phase.isAdaptive ∧ p.exactVerdict e ≠ .giveUp ∧ p.isStable e := by
  rw [Phase.isAdaptive_iff, isStable_iff_int, exactVerdict]
  grind

/-- What sites are told is the verdict over the integers. -/
theorem verdict_eq_exactVerdict (he : e.InRange) : p.verdict e = p.exactVerdict e := by
  -- the verdicts are three, so it is enough that both give up alike and both freeze alike
  have hgiveUp : p.verdict e = .giveUp ↔ p.exactVerdict e = .giveUp := by
    rw [verdict_eq_giveUp_iff, exactVerdict_eq_giveUp_iff, thrashes_iff_mul he, failsFromStart_iff]
  have hfreeze : p.verdict e = .freeze ↔ p.exactVerdict e = .freeze := by
    rw [verdict_eq_freeze_iff, exactVerdict_eq_freeze_iff, Ne, hgiveUp]
  cases hexact : p.exactVerdict e with
  | keep => cases hverdict : p.verdict e <;> simp_all
  | freeze => exact hfreeze.mpr hexact
  | giveUp => exact hgiveUp.mpr hexact

/-- Over the integers, a site is given up only if it counted more shapes than fit. -/
theorem capacity_lt_of_exactVerdict (hmultiplier : 1 ≤ p.megamorphicMultiplier)
    (h : p.exactVerdict e = .giveUp) : e.capacity < e.distinctShapes := by
  have hproduct : e.capacity ≤ e.capacity * p.megamorphicMultiplier :=
    Nat.le_mul_of_pos_right _ hmultiplier
  obtain ⟨-, ⟨-, -, hmet⟩ | ⟨-, hmet⟩⟩ := exactVerdict_eq_giveUp_iff.mp h
  · exact (Nat.le_max_right _ _).trans hmet
  · omega

/-! ## The last word -/

theorem Overruns.decide (h : p.Overruns e) : p.decide e = .error .add := by
  have hfails : p.mayFail e := by simp [mayFail, h.fallback, h.hits]
  have hnone : Word.add e.capacity 1 = .error .add :=
    Word.add_of_le (by rw [h.capacity, Word.size_eq])
  simp only [Policy.decide, h.adaptive, hfails, hnone]
  rfl

/-- Unless there is an overrun, the policy answers, and says what sites are told. -/
theorem decide_of_not_overruns (hcapacity : e.capacity ≤ Word.last) (hnot : ¬ p.Overruns e) :
    p.decide e = .ok (p.verdict e) := by
  rcases Nat.lt_or_eq_of_le hcapacity with hlt | hlast
  · exact decide_of_lt hlt
  · -- one more is not a word here, so it must be that nobody asks for it
    by_cases hadaptive : e.phase.isAdaptive
    · have hfails : p.mayFail e = false := by
        refine Bool.eq_false_iff.mpr fun hfails => hnot ?_
        simp only [mayFail, Bool.and_eq_true, decide_eq_true_eq] at hfails
        exact ⟨hlast, hadaptive, hfails.1, hfails.2⟩
      simp [Policy.decide, verdict, failsFromStart, hadaptive, hfails]
    · simp [Policy.decide, verdict, hadaptive]

theorem decide_eq_ok_iff {v : Verdict} (hcapacity : e.capacity ≤ Word.last) :
    p.decide e = .ok v ↔ ¬ p.Overruns e ∧ p.verdict e = v := by
  constructor
  · intro h
    have hnot : ¬ p.Overruns e := fun hover => by
      rw [hover.decide] at h
      cases h
    rw [decide_of_not_overruns hcapacity hnot] at h
    exact ⟨hnot, Except.ok.inj h⟩
  · rintro ⟨hnot, rfl⟩
    exact decide_of_not_overruns hcapacity hnot

/-! ## Counters that grow -/

/-- More shapes make giving up more likely. -/
theorem giveUp_of_more_shapes (hgiveUp : p.verdict e = .giveUp) {n : Nat}
    (hn : e.distinctShapes ≤ n) : p.verdict { e with distinctShapes := n } = .giveUp := by
  obtain ⟨hadaptive, hgiveUp⟩ := verdict_eq_giveUp_iff.mp hgiveUp
  refine verdict_eq_giveUp_iff.mpr ⟨hadaptive, hgiveUp.imp (fun hfails => ?_) fun hthrashes => ?_⟩
  · obtain ⟨hfallback, hhits, hmet⟩ := failsFromStart_iff.mp hfails
    exact failsFromStart_iff.mpr ⟨hfallback, hhits, hmet.trans hn⟩
  · obtain ⟨hphase, hmet⟩ := thrashes_iff.mp hthrashes
    exact thrashes_iff.mpr ⟨hphase, hmet.trans_le hn⟩

/-- More calls make freezing more likely, and do not count for giving up. -/
theorem freeze_of_more_calls (hfreeze : p.verdict e = .freeze) {n : Nat} (hn : e.calls ≤ n) :
    p.verdict { e with calls := n } = .freeze := by
  obtain ⟨hadaptive, hkeep, hstable⟩ := verdict_eq_freeze_iff.mp hfreeze
  obtain ⟨hcalls, hwindow⟩ := isStable_iff.mp hstable
  refine verdict_eq_freeze_iff.mpr ⟨hadaptive, ?_, isStable_iff.mpr ⟨hcalls.trans_le hn, ?_⟩⟩
  -- to give up does not depend on the calls
  · rw [Ne, verdict_eq_giveUp_iff] at hkeep ⊢
    exact hkeep
  · exact hwindow.trans (Nat.sub_le_sub_right hn _)

/-! ## All bounds -/

/-- The verdicts of every policy that valid settings and changes of thresholds lead to, for all
counters. Only sites whose shapes may still change are given up or frozen. A site is given up only
if it counted more shapes than fit. It is frozen only beyond the threshold for it, and if no shape
was new for as long as the window or that threshold says. More shapes never take back that a site is
given up, and more calls never that it is frozen. The verdict is that of the integers, unless there
is an overrun, where there is none. -/
theorem Attained.decide_bounds (hp : p.Attained) (he : e.InRange) :
    (p.decide e = .ok .giveUp → (e.phase = .monomorphic ∨ e.phase = .polymorphic) ∧
      e.capacity < e.distinctShapes) ∧
    (p.decide e = .ok .freeze → (e.phase = .monomorphic ∨ e.phase = .polymorphic) ∧
      p.optimizeThreshold < e.calls ∧
      min p.stableWindow p.optimizeThreshold ≤ e.calls - e.lastNewShapeAt) ∧
    (∀ n, e.distinctShapes ≤ n → p.decide e = .ok .giveUp →
      p.decide { e with distinctShapes := n } = .ok .giveUp) ∧
    (∀ n, e.calls ≤ n → p.decide e = .ok .freeze →
      p.decide { e with calls := n } = .ok .freeze) ∧
    (¬ p.Overruns e → p.decide e = .ok (p.exactVerdict e)) ∧
    (p.Overruns e → p.decide e = .error .add) := by
  have hroom := he.capacity
  -- the first two and the next two clauses come in pairs, for giving up and for freezing
  refine ⟨fun hgiveUp => ?_, fun hfreeze => ?_, fun n hn hgiveUp => ?_, fun n hn hfreeze => ?_,
    fun hnot => ?_, Overruns.decide⟩
  · have hverdict := ((decide_eq_ok_iff hroom).mp hgiveUp).2
    constructor
    · exact Phase.isAdaptive_iff.mp (verdict_eq_giveUp_iff.mp hverdict).1
    · rw [verdict_eq_exactVerdict he] at hverdict
      exact capacity_lt_of_exactVerdict hp.multiplier hverdict
  · have hverdict := ((decide_eq_ok_iff hroom).mp hfreeze).2
    obtain ⟨hadaptive, -, hstable⟩ := verdict_eq_freeze_iff.mp hverdict
    exact ⟨Phase.isAdaptive_iff.mp hadaptive, isStable_iff.mp hstable⟩
  · -- neither more shapes nor more calls bring about an overrun
    obtain ⟨hnot, hverdict⟩ := (decide_eq_ok_iff hroom).mp hgiveUp
    refine (decide_eq_ok_iff (e := { e with distinctShapes := n }) hroom).mpr
      ⟨fun hover => hnot ?_, giveUp_of_more_shapes hverdict hn⟩
    exact ⟨hover.capacity, hover.adaptive, hover.fallback, hover.hits⟩
  · obtain ⟨hnot, hverdict⟩ := (decide_eq_ok_iff hroom).mp hfreeze
    refine (decide_eq_ok_iff (e := { e with calls := n }) hroom).mpr
      ⟨fun hover => hnot ?_, freeze_of_more_calls hverdict hn⟩
    exact ⟨hover.capacity, hover.adaptive, hover.fallback, hover.hits⟩
  · rw [decide_of_not_overruns hroom hnot, verdict_eq_exactVerdict he]

/-- The default policy with an early fallback, after the multiplier was set to zero, which makes it
one. -/
def samplePolicy : Policy :=
  (ofSettings { Settings.default with fallbackThreshold := 3 }).setAll [(.multiplier, 0)]

/-- A polymorphic site without a hit that counted as many shapes as there are words. -/
def sampleEvidence (capacity : Nat) : Evidence := ⟨.polymorphic, 5, 0, Word.last, 5, capacity⟩

theorem attained_samplePolicy : samplePolicy.Attained := ⟨_, _, by decide, rfl⟩

theorem inRange_sampleEvidence {capacity : Nat} (h : capacity ≤ Word.last) :
    (sampleEvidence capacity).InRange :=
  ⟨show 5 ≤ Word.last by decide, Nat.zero_le _, Nat.le_refl _, show 5 ≤ Word.last by decide, h⟩

/-- With room for all shapes but one, the site is given up, as over the integers. -/
theorem decide_bounds_samplePolicy :
    samplePolicy.decide (sampleEvidence (Word.last - 1)) = .ok .giveUp ∧
    (sampleEvidence (Word.last - 1)).capacity < (sampleEvidence (Word.last - 1)).distinctShapes ∧
    ¬ samplePolicy.Overruns (sampleEvidence (Word.last - 1)) := by
  have hgiveUp : samplePolicy.decide (sampleEvidence (Word.last - 1)) = .ok .giveUp := by decide
  obtain ⟨hbounds, -, -, -, -, hoverruns⟩ :=
    attained_samplePolicy.decide_bounds (inRange_sampleEvidence (Nat.sub_le _ 1))
  refine ⟨hgiveUp, (hbounds hgiveUp).2, fun hover => ?_⟩
  cases hgiveUp.symm.trans (hoverruns hover)

/-- With room for all shapes there is no verdict, although over the integers there is nothing to be
done. -/
theorem decide_overrun_samplePolicy : samplePolicy.Attained ∧
    (sampleEvidence Word.last).InRange ∧
    samplePolicy.decide (sampleEvidence Word.last) = .error .add ∧
    samplePolicy.exactVerdict (sampleEvidence Word.last) = .keep :=
  ⟨attained_samplePolicy, inRange_sampleEvidence (Nat.le_refl _), by decide, by decide⟩

end Policy

end LateBinding
