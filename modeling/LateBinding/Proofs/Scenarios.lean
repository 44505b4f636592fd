import LateBinding.Proofs.ChangingScenarios
import LateBinding.Proofs.RotationScenario

/-!
# All scenarios

A scenario checks the values of its calls and the sites that it leaves behind. With valid settings,
whatever they are, and any number of calls that a run can make, these checks pass, and the checksum
and the counts of resolutions are known in advance (`Scenario.succeeds`). The exception is the
scenario whose shapes come in a random-looking order, where they depend on that order.
-/

namespace LateBinding.Scenario

/-- Every scenario but the one in a random-looking order succeeds, with the expected checksum and
the expected counts of resolutions. -/
theorem succeeds {s : Scenario} {settings : Settings} {n : Nat} (hvalid : settings.fault? = none)
    (hs : s ≠ .megamorphicRandom) (hn : n < 2 ^ 62) : ∃ o, s.Succeeds settings n o := by
  cases s with
  | monomorphicHot => exact succeeds_monomorphicHot hvalid hn
  | coldCall => exact succeeds_coldCall hvalid hn
  | roundRobin => exact succeeds_roundRobin hvalid hn
  | megamorphicRandom => exact absurd rfl hs
  | dynamicFinder => exact succeeds_dynamicFinder hvalid hn
  | invalidationStorm => exact succeeds_invalidationStorm hvalid hn
  | propertyAccess => exact succeeds_propertyAccess hvalid hn

/-- Six calls in rotation, with four receiver classes. -/
theorem succeeds_default : Settings.default.fault? = none ∧
    ∃ o, roundRobin.run .default 6 = .ok o ∧ o.calls = 6 ∧ o.checksum = 7 ∧
      o.sites.map (·.resolutions) = [4] := by
  have hvalid : Settings.default.fault? = none := by decide
  obtain ⟨o, h⟩ := succeeds (s := .roundRobin) (n := 6) hvalid (by decide) (by decide)
  exact ⟨hvalid, o, h.run, h.calls, h.checksum.trans (by decide), h.resolved⟩

end LateBinding.Scenario
