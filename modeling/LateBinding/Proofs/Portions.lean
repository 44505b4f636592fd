import LateBinding.Proofs.RotationScenario

/-!
# Driving in portions

The calls of a scenario can be made in several goes. A step is numbered by the calls made before
it, whichever go they were made in, and all else that steps go by is in the world and the fixture.
So portions of calls come to the same as all of them at once: the same outcome, or the same failure
(`Scenario.runInPortions_eq_run`).

The one thing that starts over with each go is the sum that it returns. The sums of all goes add up
to the checksum (`Prepared.checksum_driveFrom`).
-/

namespace LateBinding.Scenario

namespace Prepared

variable {p p' : Prepared} {sum : Int64}

/-! ## A single go -/

/-- A later part of a go carries on where the earlier part ended. -/
theorem driveFrom_add (m n : Nat) (sum : Int64) (p : Prepared) :
    p.driveFrom sum (m + n) = match p.driveFrom sum m with
      | .error f => .error f
      | .ok (sum, p) => p.driveFrom sum n := by
  -- Induction on the earlier part. The sum so far goes along, as both sides start from it.
  induction m generalizing sum p with
  | zero =>
    rw [Nat.zero_add]
    rfl
  | succ m ih =>
    rw [Nat.succ_add, driveFrom, driveFrom]
    cases p.advance with
    | error f => rfl
    | ok next => exact ih (sum + next.1) next.2

/-- What was summed up before only adds to the result. -/
theorem driveFrom_sum (sum : Int64) (n : Nat) (p : Prepared) :
    p.driveFrom sum n = (p.driveFrom 0 n).map fun out => (sum + out.1, out.2) := by
  induction n generalizing sum p with
  | zero =>
    show Except.ok (sum, p) = Except.ok (sum + 0, p)
    rw [Int64.add_zero]
  | succ n ih =>
    rw [driveFrom, driveFrom]
    cases p.advance with
    | error f => rfl
    | ok next =>
      -- both sums are brought back to a start at zero, where the induction speaks of them
      show next.2.driveFrom (sum + next.1) n =
        (next.2.driveFrom (0 + next.1) n).map fun out => (sum + out.1, out.2)
      rw [ih (sum + next.1), ih (0 + next.1)]
      cases next.2.driveFrom 0 n with
      | error f => rfl
      | ok out =>
        show Except.ok (sum + next.1 + out.1, out.2) =
          Except.ok (sum + (0 + next.1 + out.1), out.2)
        rw [Int64.zero_add, Int64.add_assoc]

theorem calls_advance {n : Int64} (h : p.advance = .ok (n, p')) :
    p'.calls = p.calls + 1 ∧ p'.checksum = p.checksum + n := by
  unfold advance at h
  split at h
  · cases h
  · cases h
    exact ⟨rfl, rfl⟩

/-- A go counts its calls, and adds what it returns to the checksum. -/
theorem checksum_driveFrom {n : Nat} {total : Int64} (h : p.driveFrom 0 n = .ok (total, p')) :
    p'.calls = p.calls + n ∧ p'.checksum = p.checksum + total := by
  -- what is counted by the rest of the go comes on top of this call
  induction n generalizing p total with
  | zero =>
    cases h
    exact ⟨rfl, (Int64.add_zero _).symm⟩
  | succ n ih =>
    rw [driveFrom] at h
    cases hnext : p.advance with
    | error f =>
      rw [hnext] at h
      cases h
    | ok next =>
      obtain ⟨hcalls, hchecksum⟩ := calls_advance hnext
      rw [hnext] at h
      dsimp only at h
      -- the rest started from the sum of this call, so it is taken back to zero first
      rw [driveFrom_sum] at h
      cases hrest : next.2.driveFrom 0 n with
      | error f =>
        rw [hrest] at h
        cases h
      | ok out =>
        rw [hrest] at h
        cases h
        obtain ⟨hcalls', hchecksum'⟩ := ih hrest
        constructor
        · rw [hcalls', hcalls, Nat.add_assoc, Nat.add_comm 1 n]
        · rw [hchecksum', hchecksum, Int64.zero_add, Int64.add_assoc]

/-! ## Several goes -/

/-- As long as calls can be numbered, several goes come to a single one, and their sums to its
sum. -/
theorem driveAll_eq (portions : List Nat) (hfit : p.calls + portions.sum < Word.size) :
    (p.driveAll portions).map (fun out => (out.1.sum, out.2)) = p.driveFrom 0 portions.sum := by
  -- Induction on the portions: the first is the earlier part of one go through all calls.
  induction portions generalizing p with
  | nil => rfl
  | cons calls rest ih =>
    rw [List.sum_cons] at hfit ⊢
    -- every portion ends before the numbers of calls run out, so counting them never overflows
    have hcalls : p.calls + calls < Word.size := by omega
    rw [driveFrom_add, driveAll, drive, Word.add_of_lt hcalls]
    dsimp only
    cases hgo : p.driveFrom 0 calls with
    | error f => rfl
    | ok out =>
      -- the room for the others is what this portion left
      have hrest : out.2.calls + rest.sum < Word.size := by
        rw [(checksum_driveFrom hgo).1, Nat.add_assoc]
        exact hfit
      show _ = out.2.driveFrom out.1 rest.sum
      rw [driveFrom_sum, ← ih hrest]
      dsimp only
      cases out.2.driveAll rest with
      | error f => rfl
      | ok out' =>
        show Except.ok ((out.1 :: out'.1).sum, out'.2) = Except.ok (out.1 + out'.1.sum, out'.2)
        rw [List.sum_cons]

theorem length_driveAll {portions : List Nat} {sums : List Int64}
    (h : p.driveAll portions = .ok (sums, p')) : sums.length = portions.length := by
  induction portions generalizing p sums with
  | nil =>
    cases h
    rfl
  | cons calls rest ih =>
    rw [driveAll] at h
    split at h
    · cases h
    · split at h
      · cases h
      · next hrest =>
        cases h
        rw [List.length_cons, List.length_cons, ih hrest]

end Prepared

/-! ## Whole runs -/

variable {s : Scenario} {settings : Settings} {portions : List Nat}

/-- Prepare a scenario, make its calls in portions and finish it: the sums that the goes returned,
and the outcome. -/
def runInPortions (s : Scenario) (settings : Settings) (portions : List Nat) :
    Except Failure (List Int64 × Outcome) :=
  match s.prepare settings with
  | .error f => .error f
  | .ok p =>
    match p.driveAll portions with
    | .error f => .error f
    | .ok (sums, p) =>
      match p.finish with
      | .error f => .error f
      | .ok o => .ok (sums, o)

theorem calls_prepare {p : Prepared} (h : s.prepare settings = .ok p) :
    p.calls = 0 ∧ p.checksum = 0 := by
  unfold prepare at h
  split at h
  · cases h
  · split at h
    · cases h
    · cases h
      exact ⟨rfl, rfl⟩

theorem checksum_finish {p : Prepared} {o : Outcome} (h : p.finish = .ok o) :
    o.checksum = p.checksum := by
  unfold Prepared.finish at h
  split at h
  · cases h
  · cases h
    rfl

/-- Every scenario, under any settings, has the same outcome or the same failure whether its calls
are made in portions, empty ones included, or at once; all that is asked is that they can be made at
once, that is, that their number is a word. There is one sum for each portion, and the sums add up
to the checksum. -/
theorem runInPortions_eq_run (s : Scenario) (settings : Settings)
    (hfit : portions.sum < Word.size) :
    (s.runInPortions settings portions).map (·.2) = s.run settings portions.sum ∧
    ∀ sums o, s.runInPortions settings portions = .ok (sums, o) →
      sums.length = portions.length ∧ sums.sum = o.checksum := by
  unfold runInPortions run
  cases hprepare : s.prepare settings with
  | error f =>
    refine ⟨rfl, ?_⟩
    intro sums o heq
    cases heq
  | ok p =>
    obtain ⟨hcalls, hzero⟩ := calls_prepare hprepare
    have hnumbered : p.calls + portions.sum < Word.size := by
      rw [hcalls, Nat.zero_add]
      exact hfit
    -- the portions together are one drive, in success and in failure
    have hall := p.driveAll_eq portions hnumbered
    dsimp only
    rw [Prepared.drive, Word.add_of_lt hnumbered]
    dsimp only
    rw [← hall]
    cases hdrive : p.driveAll portions with
    | error f =>
      refine ⟨rfl, ?_⟩
      intro sums o heq
      cases heq
    | ok out =>
      obtain ⟨sums, p'⟩ := out
      dsimp only
      -- both runs end alike, as they finish what is prepared in the same way
      cases hfinish : p'.finish with
      | error f =>
        constructor
        · show _ = p'.finish
          rw [hfinish]
          rfl
        · intro sums o heq
          cases heq
      | ok o =>
        constructor
        · show _ = p'.finish
          rw [hfinish]
          rfl
        · intro sums' o' heq
          cases heq
          rw [hdrive] at hall
          have hsum := (Prepared.checksum_driveFrom hall.symm).2
          -- a sum was kept for each portion, and the checksum started from zero
          refine ⟨Prepared.length_driveAll hdrive, ?_⟩
          rw [checksum_finish hfinish, hsum, hzero, Int64.zero_add]

/-- Six calls in rotation, in four goes, one of them empty. -/
theorem runInPortions_rotation : [2, 0, 3, 1].sum < Word.size ∧
    ∃ sums o, roundRobin.runInPortions .default [2, 0, 3, 1] = .ok (sums, o) ∧
      roundRobin.run .default 6 = .ok o ∧ sums.length = 4 ∧ sums.sum = 7 := by
  have hfit : [2, 0, 3, 1].sum < Word.size := by decide
  obtain ⟨hsame, hsums⟩ := runInPortions_eq_run roundRobin .default hfit
  have hsucceeds : ∃ o, roundRobin.Succeeds .default 6 o :=
    succeeds_roundRobin (by decide) (by decide)
  obtain ⟨o, hrun, -, hchecksum, -⟩ := hsucceeds
  refine ⟨hfit, ?_⟩
  rw [show [2, 0, 3, 1].sum = 6 from rfl, hrun] at hsame
  cases hall : roundRobin.runInPortions .default [2, 0, 3, 1] with
  | error f =>
    rw [hall] at hsame
    cases hsame
  | ok out =>
    rw [hall] at hsame
    cases hsame
    obtain ⟨hlength, hsum⟩ := hsums out.1 out.2 hall
    refine ⟨out.1, out.2, rfl, hrun, hlength, ?_⟩
    rw [hsum, hchecksum]
    decide

end LateBinding.Scenario
