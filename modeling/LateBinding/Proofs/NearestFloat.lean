import LateBinding.Value
import Mathlib

/-!
# The float nearest to an integer

A float has 53 bits of mantissa, so an integer that is longer is rounded when it becomes a float.
The rounding is that of IEEE 754: the float is nearest to the integer, and of two that are equally
near it is the one with an even mantissa (`nearestEven_floatOfInt`). Integers up to `2 ^ 53` are
kept as they are (`value?_floatOfInt`).

`Rounds` says this of numbers. The bits of the float are reached through the unpacked floats on
which the operations of `Float` are defined: the bits that are cut off are followed one by one
(`Shifted`), and what has 53 bits is packed and taken apart without loss
(`Decimal.Parts.ofFloat_of_normal`).
-/

namespace LateBinding

open Float.Model (Format UnpackedFloat)
open Float.Model.UnpackedFloat

/-! ## Rounding to an even quotient -/

/-- `n / 2 ^ s` as the nearest natural number, the even one of two that are equally near. -/
def halfEven (n s : Nat) : Nat :=
  match compare (2 * (n % 2 ^ s)) (2 ^ s) with
  | .lt => n / 2 ^ s
  | .eq => n / 2 ^ s + n / 2 ^ s % 2
  | .gt => n / 2 ^ s + 1

section

variable {n s : Nat}

@[simp] theorem halfEven_zero (n : Nat) : halfEven n 0 = n := by
  rw [halfEven, pow_zero, Nat.mod_one, Nat.div_one]
  rfl

theorem halfEven_cases (n s : Nat) :
    2 * (n % 2 ^ s) < 2 ^ s ∧ halfEven n s = n / 2 ^ s ∨
    2 * (n % 2 ^ s) = 2 ^ s ∧ (halfEven n s = n / 2 ^ s ∨ halfEven n s = n / 2 ^ s + 1) ∧
      halfEven n s % 2 = 0 ∨
    2 ^ s < 2 * (n % 2 ^ s) ∧ halfEven n s = n / 2 ^ s + 1 := by
  unfold halfEven
  split
  · next h => exact .inl ⟨Nat.compare_eq_lt.mp h, rfl⟩
  · next h => exact .inr (.inl ⟨Nat.compare_eq_eq.mp h, by omega, by omega⟩)
  · next h => exact .inr (.inr ⟨Nat.compare_eq_gt.mp h, rfl⟩)

/-- The numbers of `53 + s` bits. -/
theorem bounds_of_log2 (hlog : n.log2 = 52 + s) : 2 ^ 52 * 2 ^ s ≤ n ∧ n < 2 ^ 53 * 2 ^ s := by
  have hn : n ≠ 0 := by
    rintro rfl
    rw [Nat.log2_zero] at hlog
    omega
  have hbounds := (Nat.log2_eq_iff hn).mp hlog
  rwa [add_right_comm, pow_add, pow_add 2 (52 + 1)] at hbounds

/-- What is rounded to 53 bits may need one bit more. -/
theorem halfEven_bounds (hlog : n.log2 = 52 + s) :
    2 ^ 52 ≤ halfEven n s ∧ halfEven n s ≤ 2 ^ 53 := by
  obtain ⟨hlow, hhigh⟩ := bounds_of_log2 hlog
  have hlow' : 2 ^ 52 ≤ n / 2 ^ s := (Nat.le_div_iff_mul_le (Nat.two_pow_pos s)).mpr hlow
  have hhigh' : n / 2 ^ s < 2 ^ 53 := (Nat.div_lt_iff_lt_mul (Nat.two_pow_pos s)).mpr hhigh
  have hcases := halfEven_cases n s
  omega

/-- How far the multiples of `2 ^ s` are from `n`: two of them are around it, and the others are as
far away as these are from each other, or farther. -/
theorem distance_multiple (n s : Nat) (k : ℤ) :
    (k = (n / 2 ^ s : ℕ) → |n - k * 2 ^ s| = (n % 2 ^ s : ℕ)) ∧
    (k = (n / 2 ^ s : ℕ) + 1 → |n - k * 2 ^ s| = 2 ^ s - (n % 2 ^ s : ℕ)) ∧
    (k < (n / 2 ^ s : ℕ) ∨ (n / 2 ^ s : ℕ) + 1 < k → 2 ^ s ≤ |n - k * 2 ^ s|) := by
  -- count from the multiple below: the rest is what `n` is away from it
  have hsplit : (n : ℤ) = (n / 2 ^ s : ℕ) * 2 ^ s + (n % 2 ^ s : ℕ) := by
    exact_mod_cast (Nat.div_add_mod' n (2 ^ s)).symm
  have hrest : ((n % 2 ^ s : ℕ) : ℤ) < 2 ^ s := by
    exact_mod_cast Nat.mod_lt n (Nat.two_pow_pos s)
  generalize n / 2 ^ s = q at *
  generalize n % 2 ^ s = rest at *
  refine ⟨?_, ?_, ?_⟩
  · rintro rfl
    rw [hsplit, add_sub_cancel_left]
    exact abs_of_nonneg (by positivity)
  · rintro rfl
    rw [abs_of_nonpos (by linarith)]
    linarith
  · rintro (hk | hk)
    · have hmul : k * 2 ^ s ≤ (q - 1) * 2 ^ s :=
        mul_le_mul_of_nonneg_right (by omega) (by positivity)
      exact le_abs.mpr (.inl (by linarith))
    · have hmul : (q + 2) * 2 ^ s ≤ k * 2 ^ s :=
        mul_le_mul_of_nonneg_right (by omega) (by positivity)
      exact le_abs.mpr (.inr (by linarith))

/-- No multiple of `2 ^ s` is nearer to `n` than the rounded one, and another one is equally near
only if the rounded one is even. -/
theorem halfEven_nearest (n s : Nat) (k : ℤ) :
    |(n : ℤ) - halfEven n s * 2 ^ s| < |n - k * 2 ^ s| ∨
      |(n : ℤ) - halfEven n s * 2 ^ s| = |n - k * 2 ^ s| ∧
        (k = halfEven n s ∨ halfEven n s % 2 = 0) := by
  have hcast : ((2 ^ s : ℕ) : ℤ) = 2 ^ s := by push_cast; rfl
  have hrest := Nat.mod_lt n (Nat.two_pow_pos s)
  have hrounded := distance_multiple n s (halfEven n s)
  have hother := distance_multiple n s k
  have hcases := halfEven_cases n s
  omega

end

/-! ## Rounding to 53 bits -/

/-- A number with 53 bits of mantissa. -/
def Representable (t : ℚ) : Prop := ∃ k q : ℤ, |k| < 2 ^ 53 ∧ t = k * 2 ^ q

/-- No number with 53 bits of mantissa is nearer to `z` than `r`, and another one is equally near
only if `r` is `even`. -/
def Rounds (z r : ℚ) (even : Prop) : Prop :=
  ∀ t, Representable t → |z - r| < |z - t| ∨ |z - r| = |z - t| ∧ (t = r ∨ even)

section

variable {z r t : ℚ} {even even' : Prop}

theorem Representable.neg : Representable t → Representable (-t) := by
  rintro ⟨k, q, hk, rfl⟩
  exact ⟨-k, q, by rwa [abs_neg], by push_cast; ring⟩

theorem representable_of_le {n : ℤ} (h : |n| ≤ 2 ^ 53) : Representable n := by
  rcases h.lt_or_eq with hlt | heq
  · exact ⟨n, 0, hlt, by simp⟩
  · rcases (abs_eq (by norm_num)).mp heq with rfl | rfl
    · exact ⟨1, 53, by norm_num, by norm_num⟩
    · exact ⟨-1, 53, by norm_num, by norm_num⟩

theorem rounds_self (z : ℚ) (even : Prop) : Rounds z z even := by
  intro t _
  rw [sub_self, abs_zero]
  rcases (abs_nonneg (z - t)).lt_or_eq with hlt | heq
  · exact .inl hlt
  · exact .inr ⟨heq, .inl (sub_eq_zero.mp (abs_eq_zero.mp heq.symm)).symm⟩

theorem Rounds.neg (h : Rounds z r even) : Rounds (-z) (-r) even := by
  intro t ht
  have hflip (a b : ℚ) : |-a - b| = |a - -b| := by
    rw [← abs_neg]
    ring_nf
  rw [hflip, hflip, neg_neg]
  exact (h _ ht.neg).imp_right (And.imp_right (Or.imp_left neg_eq_iff_eq_neg.mp))

theorem Rounds.imp (h : Rounds z r even) (heven : even → even') : Rounds z r even' :=
  fun t ht => (h t ht).imp_right (And.imp_right (Or.imp_right heven))

/-- What has 53 bits is rounded to itself. -/
theorem Rounds.eq (h : Rounds z r even) (hz : Representable z) : r = z := by
  have hzero : |z - r| ≤ 0 := by
    rw [← abs_zero, ← sub_self z]
    exact (h z hz).elim le_of_lt fun h => h.1.le
  exact (sub_eq_zero.mp (abs_nonpos_iff.mp hzero)).symm

/-- With an exponent of at least `s`, a number is a multiple of `2 ^ s`. -/
theorem exists_multiple {s : Nat} {q : ℤ} (k : ℤ) (hq : s ≤ q) :
    ∃ j : ℤ, (k : ℚ) * 2 ^ q = j * 2 ^ s := by
  obtain ⟨d, rfl⟩ := Int.exists_add_of_le hq
  refine ⟨k * 2 ^ d, ?_⟩
  rw [zpow_add₀ two_ne_zero, zpow_natCast, zpow_natCast]
  push_cast
  ring

/-- With a smaller exponent, 53 bits are less than all numbers of `53 + s` bits. -/
theorem mul_zpow_lt {s : Nat} {k q : ℤ} (hk : |k| < 2 ^ 53) (hq : q < s) :
    (k : ℚ) * 2 ^ q < 2 ^ 52 * 2 ^ s := by
  have hk' : (k : ℚ) < 2 ^ 53 := by exact_mod_cast (le_abs_self k).trans_lt hk
  calc (k : ℚ) * 2 ^ q < 2 ^ 53 * 2 ^ q := mul_lt_mul_of_pos_right hk' (by positivity)
    _ ≤ 2 ^ 53 * 2 ^ ((s : ℤ) - 1) :=
      mul_le_mul_of_nonneg_left (zpow_le_zpow_right₀ one_le_two (by omega)) (by positivity)
    _ = 2 ^ 52 * 2 ^ s := by rw [zpow_sub_one₀ two_ne_zero, zpow_natCast]; ring

/-- A number of `53 + s` bits is rounded by rounding its quotient. -/
theorem rounds_halfEven {n s : Nat} (hlog : n.log2 = 52 + s) :
    Rounds n (halfEven n s * 2 ^ s) (halfEven n s % 2 = 0) := by
  -- what is known of integers carries over to rationals
  have hmultiple (j : ℤ) : |(n : ℚ) - halfEven n s * 2 ^ s| < |(n : ℚ) - j * 2 ^ s| ∨
      |(n : ℚ) - halfEven n s * 2 ^ s| = |(n : ℚ) - j * 2 ^ s| ∧
        ((j : ℚ) = halfEven n s ∨ halfEven n s % 2 = 0) := by
    have h := halfEven_nearest n s j
    exact_mod_cast h
  rintro _ ⟨k, q, hk, rfl⟩
  -- a multiple of a higher power of two is one of `2 ^ s`, so the nearest of these is at least as
  -- near
  rcases le_or_gt (s : ℤ) q with hq | hq
  · obtain ⟨j, heq⟩ := exists_multiple k hq
    rw [heq]
    refine (hmultiple j).imp_right (And.imp_right (Or.imp_left fun h => ?_))
    rw [h]
  · -- The least number of so many bits is a multiple that is nearer than anything below it.
    have hlow : (2 : ℚ) ^ 52 * 2 ^ s ≤ n := by exact_mod_cast (bounds_of_log2 hlog).1
    have hsmall := mul_zpow_lt hk hq
    have hbest : |(n : ℚ) - halfEven n s * 2 ^ s| ≤ |(n : ℚ) - 2 ^ 52 * 2 ^ s| := by
      have h := hmultiple (2 ^ 52)
      push_cast at h
      exact h.elim le_of_lt fun h => h.1.le
    refine .inl ?_
    calc |(n : ℚ) - halfEven n s * 2 ^ s| ≤ |(n : ℚ) - 2 ^ 52 * 2 ^ s| := hbest
      _ = n - 2 ^ 52 * 2 ^ s := abs_of_nonneg (by linarith)
      _ < (n : ℚ) - k * 2 ^ q := by linarith
      _ ≤ |(n : ℚ) - k * 2 ^ q| := le_abs_self _

end

/-! ## Bits that are cut off -/

/-- A mantissa stands for `n / 2 ^ s`, and its two bits say whether the rest is at least half, and
whether it is anything but nothing and half. -/
structure Shifted (em : ExtendedMantissa) (n s : Nat) : Prop where
  mantissa : em.mantissa = n / 2 ^ s
  round : em.roundBit = true ↔ 2 ^ s ≤ 2 * (n % 2 ^ s)
  sticky : em.stickyBit = true ↔ n % 2 ^ s ≠ 0 ∧ 2 * (n % 2 ^ s) ≠ 2 ^ s

section

variable {em : ExtendedMantissa} {n s : Nat} {e : ℤ}

theorem Shifted.shiftRightOne (h : Shifted em n s) : Shifted em.shiftRightOne n (s + 1) := by
  have hlt : n % 2 ^ s < 2 ^ s := Nat.mod_lt _ (Nat.two_pow_pos s)
  have hrest : n % 2 ^ (s + 1) = n % 2 ^ s + 2 ^ s * (n / 2 ^ s % 2) := by
    rw [pow_succ, Nat.mod_mul]
  have hbit : n / 2 ^ s % 2 = 0 ∨ n / 2 ^ s % 2 = 1 := Nat.mod_two_eq_zero_or_one _
  refine ⟨?_, ?_, ?_⟩
  · rw [ExtendedMantissa.shiftRightOne, h.mantissa, Nat.div_div_eq_div_mul, pow_succ]
  · rw [ExtendedMantissa.shiftRightOne, h.mantissa, hrest, pow_succ]
    rcases hbit with hbit | hbit <;> simp [hbit] <;> omega
  · rw [ExtendedMantissa.shiftRightOne, Bool.or_eq_true, h.round, h.sticky, hrest, pow_succ]
    rcases hbit with hbit | hbit <;> simp only [hbit] <;> omega

theorem shifted_shiftRight (n s : Nat) :
    Shifted ((⟨n, false, false⟩ : ExtendedMantissa) >>> s) n s := by
  induction s with
  | zero =>
    have hzero : (⟨n, false, false⟩ : ExtendedMantissa) >>> 0 = ⟨n, false, false⟩ := rfl
    rw [hzero]
    exact ⟨by simp, by simp [Nat.mod_one], by simp [Nat.mod_one]⟩
  | succ s ih => exact ih.shiftRightOne

theorem Shifted.roundedMantissa (h : Shifted em n s) : em.roundedMantissa = halfEven n s := by
  obtain ⟨mantissa, round, sticky⟩ := em
  obtain ⟨rfl, hround, hsticky⟩ := h
  simp only at hround hsticky
  rw [halfEven]
  -- Of the bits cut off, the first one tells whether they make half at least, the others whether
  -- they make more. The sticky bit has no part below the half.
  rcases lt_trichotomy (2 * (n % 2 ^ s)) (2 ^ s) with h | h | h
  · obtain rfl : round = false := Bool.eq_false_iff.mpr (mt hround.mp (by omega))
    rw [Nat.compare_eq_lt.mpr h]
    cases sticky <;> rfl
  · obtain rfl : round = true := hround.mpr h.ge
    obtain rfl : sticky = false := Bool.eq_false_iff.mpr (mt hsticky.mp (by omega))
    rw [Nat.compare_eq_eq.mpr h]
    rfl
  · obtain rfl : round = true := hround.mpr h.le
    obtain rfl : sticky = true := hsticky.mpr (by omega)
    rw [Nat.compare_eq_gt.mpr h]
    rfl

/-- The shift that brings a number of `53 + s` bits to 53 bits. -/
theorem shiftToTargetExponent_of_log2 (hlog : n.log2 = 52 + s) (he : -1074 ≤ e + s) :
    shiftToTargetExponent Format.binary64 n e .exact =
      ((⟨n, false, false⟩ : ExtendedMantissa) >>> s, e + s) := by
  have htarget : Format.binary64.targetExponent (Float.Model.totalExponent n e) = e + s := by
    simp only [Format.targetExponent, Float.Model.totalExponent, Format.mantissaBits,
      Format.minExponent, hlog]
    omega
  have hamount : (e + s - e).toNat = s := by omega
  rw [shiftToTargetExponent, htarget, shiftToExponent]
  simp only [hamount]
  rfl

/-- Rounding keeps 53 bits. Where it would give `2 ^ 53`, one more bit is cut off, which is zero. -/
theorem exists_roundWithAccuracy (sign : Sign) (hlog : n.log2 = 52 + s) (he : -1074 ≤ e + s) :
    ∃ m e' hm, roundWithAccuracy Format.binary64 sign n e .exact = .finite sign m e' hm ∧
      2 ^ 52 ≤ m ∧ m < 2 ^ 53 ∧ e + s ≤ e' ∧ e' ≤ e + s + 1 ∧
      (m : ℚ) * 2 ^ e' = halfEven n s * 2 ^ (e + s) ∧ (halfEven n s % 2 = 0 → m % 2 = 0) := by
  obtain ⟨hlow, hhigh⟩ := halfEven_bounds hlog
  have hfirst := shiftToTargetExponent_of_log2 hlog he
  -- a mantissa that outgrew its bits is shifted once more, by the second of the two calls
  rcases hhigh.lt_or_eq with hlt | heq
  · have hlog' : (halfEven n s).log2 = 52 + 0 := (Nat.log2_eq_iff (by omega)).mpr ⟨hlow, hlt⟩
    have hsecond := shiftToTargetExponent_of_log2 (e := e + s) hlog' (by simpa using he)
    have hmantissa : ((⟨halfEven n s, false, false⟩ : ExtendedMantissa) >>> 0).mantissa =
        halfEven n s := rfl
    refine ⟨halfEven n s, e + s, by omega, ?_, hlow, hlt, le_rfl, by omega, rfl, id⟩
    simp only [roundWithAccuracy, hfirst, (shifted_shiftRight n s).roundedMantissa, hsecond,
      hmantissa, Nat.cast_zero, add_zero]
    rw [dif_neg (by omega)]
  · have hlog' : (halfEven n s).log2 = 52 + 1 := by
      rw [heq]
      exact Nat.log2_two_pow
    have hsecond := shiftToTargetExponent_of_log2 (e := e + s) hlog' (by push_cast; omega)
    have hmantissa : ((⟨halfEven n s, false, false⟩ : ExtendedMantissa) >>> 1).mantissa =
        2 ^ 52 := by
      rw [heq]
      rfl
    refine ⟨2 ^ 52, e + s + 1, by norm_num, ?_, le_rfl, by norm_num, by omega, le_rfl, ?_,
      fun _ => by norm_num⟩
    · simp only [roundWithAccuracy, hfirst, (shifted_shiftRight n s).roundedMantissa, hsecond,
        hmantissa, Nat.cast_one]
      rw [dif_neg (by norm_num)]
    · rw [heq, zpow_add_one₀ two_ne_zero]
      push_cast
      ring

/-- A positive number is converted by shifting it to 53 bits, to the left if it is shorter. -/
theorem ofNat_eq_roundWithAccuracy (hn : 0 < n) : UnpackedFloat.ofNat Format.binary64 n =
    roundWithAccuracy Format.binary64 .positive (n <<< (52 - n.log2)) (-(52 - n.log2 : ℕ))
      .exact := by
  have htarget : Format.binary64.targetExponent (Float.Model.totalExponent n 0) =
      n.log2 - 52 := by
    simp only [Format.targetExponent, Float.Model.totalExponent, Format.mantissaBits,
      Format.minExponent]
    omega
  have hcompare : compare (n : ℤ) 0 = .gt := compare_gt_iff_gt.mpr (by exact_mod_cast hn)
  have hamount : (-(n.log2 - 52 : ℤ)).toNat = 52 - n.log2 := by omega
  rw [UnpackedFloat.ofNat, UnpackedFloat.ofInt, UnpackedFloat.normalize, hcompare]
  simp only [UnpackedFloat.round, htarget, decreaseExponent, Int.toNat_natCast, zero_sub, hamount]

theorem log2_shiftLeft_of_le {d : Nat} (hn : 0 < n) (hd : 52 = n.log2 + d) :
    (n <<< d).log2 = 52 := by
  obtain ⟨hlow, hhigh⟩ := (Nat.log2_eq_iff hn.ne').mp rfl
  have hpos := Nat.two_pow_pos d
  rw [Nat.shiftLeft_eq, Nat.log2_eq_iff (by positivity)]
  constructor
  · calc 2 ^ 52 = 2 ^ n.log2 * 2 ^ d := by rw [← pow_add, ← hd]
      _ ≤ n * 2 ^ d := Nat.mul_le_mul_right _ hlow
  · calc n * 2 ^ d < 2 ^ (n.log2 + 1) * 2 ^ d := Nat.mul_lt_mul_of_pos_right hhigh hpos
      _ = 2 ^ (52 + 1) := by rw [← pow_add, hd]; congr 1; omega

/-- A positive number is converted by rounding. -/
theorem exists_ofNat (hn : 0 < n) (hsize : n < 2 ^ 64) :
    ∃ m e hm, UnpackedFloat.ofNat Format.binary64 n = .finite .positive m e hm ∧
      2 ^ 52 ≤ m ∧ m < 2 ^ 53 ∧ -1074 ≤ e ∧ e ≤ 971 ∧ Rounds n (m * 2 ^ e) (m % 2 = 0) := by
  have hlog : n.log2 < 64 := (Nat.log2_lt hn.ne').mpr hsize
  rw [ofNat_eq_roundWithAccuracy hn]
  -- a short number is shifted up and nothing is lost, a long one loses what is shifted out
  rcases le_total n.log2 52 with hshort | hlong
  · obtain ⟨d, hd⟩ := Nat.exists_eq_add_of_le hshort
    have hamount : 52 - n.log2 = d := by omega
    obtain ⟨m, e, hm, heq, hlow, hhigh, he, he', hvalue, -⟩ :=
      exists_roundWithAccuracy .positive (e := -d) (s := 0) (log2_shiftLeft_of_le hn hd)
        (by push_cast; omega)
    rw [hamount]
    push_cast at he he' hvalue
    refine ⟨m, e, hm, heq, hlow, hhigh, by omega, by omega, ?_⟩
    have hexact : (m : ℚ) * 2 ^ e = n := by
      rw [hvalue, halfEven_zero, Nat.shiftLeft_eq, add_zero, zpow_neg, zpow_natCast]
      push_cast
      exact mul_inv_cancel_right₀ (by positivity) _
    rw [hexact]
    exact rounds_self _ _
  · obtain ⟨s, hs⟩ := Nat.exists_eq_add_of_le hlong
    obtain ⟨m, e, hm, heq, hlow, hhigh, he, he', hvalue, heven⟩ :=
      exists_roundWithAccuracy .positive (e := 0) hs (by omega)
    have hamount : 52 - n.log2 = 0 := by omega
    rw [hamount]
    refine ⟨m, e, hm, heq, hlow, hhigh, by omega, by omega, ?_⟩
    rw [hvalue, zero_add, zpow_natCast]
    exact (rounds_halfEven hs).imp heven

end

/-! ## Floats by their parts -/

namespace Decimal.Parts

/-- The number that a finite float stands for. -/
def value? : Parts → Option ℚ
  | .finite negative m q => some ((if negative then -1 else 1) * m * 2 ^ q)
  | .notANumber | .infinite _ => none

def HasEvenMantissa : Parts → Prop
  | .finite _ m _ => m % 2 = 0
  | .notANumber | .infinite _ => False

section

variable {sign : Sign} {m : Nat} {e : ℤ}

/-- The bits of a float with a mantissa of 53 bits. -/
theorem pack_of_normal (hm : 0 < m) (hlow : 2 ^ 52 ≤ m) (hhigh : m < 2 ^ 53) (he : -1074 ≤ e)
    (he' : e ≤ 971) : UnpackedFloat.pack Format.binary64 (.finite sign m e hm) =
      packComponents Format.binary64 sign (BitVec.ofNat 11 (e + 1075).toNat)
        (BitVec.ofNat 52 m) := by
  have hlog : m.log2 = 52 := (Nat.log2_eq_iff hm.ne').mpr ⟨hlow, hhigh⟩
  have hbiased : e + (Format.binary64.exponentBias : ℤ) + (52 : ℕ) = e + 1075 := by
    simp [Format.exponentBias]
    omega
  have hfinite : ¬ 2 ^ 11 ≤ (e + 1075).toNat + 1 := by omega
  simp only [UnpackedFloat.pack, hbiased, hfinite, if_false, hlog, Format.mantissaBits, if_true,
    Nat.reduceAdd]

theorem toNat_biased (he : -1074 ≤ e) (he' : e ≤ 971) :
    (BitVec.ofNat 11 (e + 1075).toNat).toNat = (e + 1075).toNat := by
  rw [BitVec.toNat_ofNat, Nat.mod_eq_of_lt (by omega)]

theorem unpack_pack_of_normal (hm : 0 < m) (hlow : 2 ^ 52 ≤ m) (hhigh : m < 2 ^ 53)
    (he : -1074 ≤ e) (he' : e ≤ 971) :
    (Float.Model.pack (.finite sign m e hm)).unpack = .finite sign m e hm := by
  have hbiased := toNat_biased he he'
  have hmantissa : (1#1 ++ BitVec.ofNat 52 m).toNat = m := by
    -- the leading bit was cut off and is put back
    rw [BitVec.toNat_append, BitVec.toNat_ofNat, ← Nat.shiftLeft_add_eq_or_of_lt (by omega)]
    simp
    omega
  -- the exponent is none of the two that stand for zero and for infinity
  have hspecial {b : BitVec 11} (hb : b.toNat = 0 ∨ b.toNat = 2047) :
      BitVec.ofNat 11 (e + 1075).toNat ≠ b := by
    rintro rfl
    omega
  simp only [Float.Model.unpack, Float.Model.pack, UInt64.toBitVec_ofBitVec,
    pack_of_normal hm hlow hhigh he he', UnpackedFloat.unpack, unpackMantissa_packComponents,
    unpackExponent_packComponents, unpackSign_packComponents, Sign.ofBitVec_toBitVec,
    hspecial (b := -1#11) (.inr rfl), hspecial (b := 0#11) (.inl rfl), if_false, hmantissa,
    hbiased]
  congr 1
  simp [Format.exponentBias]
  omega

theorem toNat_packComponents (sign : Sign) (b : BitVec 11) (f : BitVec 52) :
    (packComponents Format.binary64 sign b f).toNat =
      (sign.toBitVec.toNat * 2048 + b.toNat) * leadingBit + f.toNat := by
  simp only [packComponents, BitVec.toNat_append]
  rw [← Nat.shiftLeft_add_eq_or_of_lt b.isLt, ← Nat.shiftLeft_add_eq_or_of_lt f.isLt,
    Nat.shiftLeft_eq, Nat.shiftLeft_eq]
  rfl

theorem toNat_toBits_of_normal (hm : 0 < m) (hlow : 2 ^ 52 ≤ m) (hhigh : m < 2 ^ 53)
    (he : -1074 ≤ e) (he' : e ≤ 971) :
    (Float.toBits ⟨Float.Model.pack (.finite sign m e hm)⟩).toNat =
      (sign.toBitVec.toNat * 2048 + (e + 1075).toNat) * leadingBit + (m - leadingBit) := by
  have hmantissa : (BitVec.ofNat 52 m).toNat = m - leadingBit := by
    rw [BitVec.toNat_ofNat, leadingBit]
    omega
  show (UnpackedFloat.pack Format.binary64 _).toNat = _
  rw [pack_of_normal hm hlow hhigh he he', toNat_packComponents, toNat_biased he he', hmantissa]

/-- The parts of a float with a leading bit, which is not among its bits. -/
theorem ofFloat_of_toNat {x : Float} {σ b f : Nat}
    (hbits : x.toBits.toNat = (σ * 2048 + b) * leadingBit + f) (hb : 0 < b) (hb' : b < 2047)
    (hf : f < leadingBit) : ofFloat x = .finite (σ = 1) (f + leadingBit) (b - 1075) := by
  have hfraction : x.toBits.toNat % leadingBit = f := by
    rw [hbits, Nat.mul_add_mod_of_lt hf]
  have hupper : x.toBits.toNat / leadingBit = σ * 2048 + b := by
    rw [hbits, Nat.mul_comm, Nat.mul_add_div (by decide), Nat.div_eq_of_lt hf, add_zero]
  have hexponent : (σ * 2048 + b) % 2048 = b := by omega
  have hnegative : (σ * 2048 + b) / 2048 = σ := by omega
  rw [ofFloat, hfraction, hupper, hexponent, hnegative, if_neg (by omega), if_neg (by omega)]

/-- A float that was packed has the parts that it was packed of. -/
theorem ofFloat_of_normal (hm : 0 < m) (hlow : 2 ^ 52 ≤ m) (hhigh : m < 2 ^ 53) (he : -1074 ≤ e)
    (he' : e ≤ 971) :
    ofFloat ⟨Float.Model.pack (.finite sign m e hm)⟩ = .finite (sign == .negative) m e := by
  -- the three fields are read back one by one
  have hsign : decide (sign.toBitVec.toNat = 1) = (sign == .negative) := by
    cases sign <;> rfl
  have hfraction : m - leadingBit < leadingBit := by
    rw [leadingBit]
    omega
  have hmantissa : m - leadingBit + leadingBit = m := Nat.sub_add_cancel hlow
  rw [ofFloat_of_toNat (toNat_toBits_of_normal hm hlow hhigh he he') (by omega) (by omega)
    hfraction, hsign, hmantissa]
  congr 1
  omega

end

variable {x y : Float} {t : ℚ}

/-- The mantissa of a finite float has 53 bits. -/
theorem mantissa_lt {negative : Bool} {m : Nat} {q : ℤ} (h : ofFloat x = .finite negative m q) :
    m < 2 ^ 53 := by
  have hfraction : x.toBits.toNat % leadingBit < leadingBit := Nat.mod_lt _ (by decide)
  rw [ofFloat] at h
  split at h
  · split at h <;> cases h
  · split at h <;> cases h <;> rw [leadingBit] at * <;> omega

theorem representable_of_value? (h : (ofFloat x).value? = some t) : Representable t := by
  cases hparts : ofFloat x with
  | notANumber | infinite => simp [hparts, value?] at h
  | finite negative m q =>
    have hm := mantissa_lt hparts
    rw [hparts] at h
    cases h
    refine ⟨(if negative then -1 else 1) * m, q, ?_, by push_cast; rfl⟩
    cases negative <;> simp <;> exact_mod_cast hm

/-- Floats that are equal stand for the same number. -/
theorem value?_eq_of_beq (h : (x == y) = true) : (ofFloat x).value? = (ofFloat y).value? := by
  have hzero : (ofFloat 0).value? = (ofFloat (-0)).value? := by
    have hpositive : ofFloat 0 = .finite false 0 (-1074) := rfl
    have hnegative : ofFloat (-0) = .finite true 0 (-1074) := rfl
    rw [hpositive, hnegative, value?, value?, Nat.cast_zero, mul_zero, mul_zero]
  obtain ⟨-, -, rfl | ⟨rfl, rfl⟩ | ⟨rfl, rfl⟩⟩ := Float.beq_iff_ne_nan_and_eq.mp h
  · rfl
  · exact hzero
  · exact hzero.symm

end Decimal.Parts

/-! ## Integers as floats -/

open Decimal (Parts)

/-- The float stands for a number that is nearest to `z`: no finite float is nearer, and if another
number is equally near, the mantissa of the float is even. -/
def NearestEven (z : ℚ) (x : Float) : Prop :=
  ∃ r, (Parts.ofFloat x).value? = some r ∧
    ∀ y t, (Parts.ofFloat y).value? = some t →
      |z - r| < |z - t| ∨ |z - r| = |z - t| ∧ (t = r ∨ (Parts.ofFloat x).HasEvenMantissa)

/-- An integer other than zero becomes a float with its sign and its size, which is rounded. -/
theorem exists_floatOfInt {n : Int64} (hn : n ≠ 0) :
    ∃ m e, Parts.ofFloat (floatOfInt n) = .finite (decide (n < 0)) m e ∧
      Rounds n.toInt.natAbs (m * 2 ^ e) (m % 2 = 0) := by
  have hne : n.toInt ≠ 0 := fun h => hn (Int64.toInt_inj.mp h)
  have hsize : n.toInt.natAbs < 2 ^ 64 := by
    -- the size of the least integer is one more than that of the greatest, and fits all the same
    have := Int64.le_toInt n
    have := Int64.toInt_lt n
    omega
  obtain ⟨m, e, hm, heq, hlow, hhigh, he, he', hrounds⟩ := exists_ofNat (by omega) hsize
  have hpositive : (UInt64.ofNat n.toInt.natAbs).toFloat =
      ⟨Float.Model.pack (.finite .positive m e hm)⟩ := by
    show Float.ofModel (Float.Model.pack (UnpackedFloat.ofNat _ (UInt64.ofNat _).toNat)) = _
    rw [UInt64.toNat_ofNat_of_lt' hsize, heq]
  -- changing the sign takes the float apart and packs it again, which loses nothing
  have hnegative : -(UInt64.ofNat n.toInt.natAbs).toFloat =
      ⟨Float.Model.pack (.finite .negative m e hm)⟩ := by
    rw [hpositive]
    show Float.ofModel (Float.Model.pack (Float.Model.pack _).unpack.neg) = _
    rw [Parts.unpack_pack_of_normal hm hlow hhigh he he']
    rfl
  refine ⟨m, e, ?_, hrounds⟩
  simp only [floatOfInt]
  split
  · next h =>
    rw [hnegative, Parts.ofFloat_of_normal hm hlow hhigh he he', decide_eq_true h]
    rfl
  · next h =>
    rw [hpositive, Parts.ofFloat_of_normal hm hlow hhigh he he', decide_eq_false h]
    rfl

theorem rounds_floatOfInt (n : Int64) : ∃ r, (Parts.ofFloat (floatOfInt n)).value? = some r ∧
    Rounds n.toInt r (Parts.ofFloat (floatOfInt n)).HasEvenMantissa := by
  -- zero has no leading bit, so it is packed by itself
  by_cases hn : n = 0
  · subst hn
    have hzero : (Parts.ofFloat (floatOfInt 0)).value? = some ((0 : Int64).toInt : ℚ) := by
      have hparts : Parts.ofFloat (floatOfInt 0) = .finite false 0 (-1074) := rfl
      rw [hparts]
      simp [Parts.value?]
    exact ⟨_, hzero, rounds_self _ _⟩
  · obtain ⟨m, e, hparts, hrounds⟩ := exists_floatOfInt hn
    refine ⟨_, by rw [hparts, Parts.value?], ?_⟩
    rw [hparts, mul_assoc]
    -- rounding is the same on both sides of zero
    have hsign : n < 0 ↔ n.toInt < 0 := Int64.lt_iff_toInt_lt
    by_cases hneg : n < 0
    · have hsize : (n.toInt : ℚ) = -n.toInt.natAbs := by
        rw [Nat.cast_natAbs, abs_of_neg (hsign.mp hneg)]
        push_cast
        ring
      rw [hsize, decide_eq_true hneg, if_pos rfl, neg_one_mul]
      exact hrounds.neg
    · have hsize : (n.toInt : ℚ) = n.toInt.natAbs := by
        rw [Nat.cast_natAbs, abs_of_nonneg (not_lt.mp (mt hsign.mpr hneg))]
      rw [hsize, decide_eq_false hneg, if_neg Bool.false_ne_true, one_mul]
      exact hrounds

/-- Integers become floats by the rounding of IEEE 754, to nearest and half to even. -/
theorem nearestEven_floatOfInt (n : Int64) : NearestEven n.toInt (floatOfInt n) := by
  obtain ⟨r, hvalue, hrounds⟩ := rounds_floatOfInt n
  exact ⟨r, hvalue, fun y t hy => hrounds t (Parts.representable_of_value? hy)⟩

/-- An integer with 53 bits of mantissa becomes a float that is equal to it. -/
theorem value?_floatOfInt {n : Int64} (h : Representable n.toInt) :
    (Parts.ofFloat (floatOfInt n)).value? = some (n.toInt : ℚ) := by
  obtain ⟨r, hvalue, hrounds⟩ := rounds_floatOfInt n
  rw [hvalue, hrounds.eq h]

/-- Different integers become equal floats only if one of them is larger than `2 ^ 53`. -/
theorem lt_abs_of_floatOfInt_beq {m n : Int64} (hne : m ≠ n)
    (h : (floatOfInt m == floatOfInt n) = true) :
    2 ^ 53 < |m.toInt| ∨ 2 ^ 53 < |n.toInt| := by
  by_contra hsmall
  obtain ⟨hm, hn⟩ := not_or.mp hsmall
  have hvalue := Parts.value?_eq_of_beq h
  rw [value?_floatOfInt (representable_of_le (not_lt.mp hm)),
    value?_floatOfInt (representable_of_le (not_lt.mp hn))] at hvalue
  exact hne (Int64.toInt_inj.mp (by exact_mod_cast Option.some.inj hvalue))

end LateBinding
