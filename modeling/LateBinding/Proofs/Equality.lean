import LateBinding.Proofs.NearestFloat

/-!
# Equality of values

Equality of values is symmetric, and every value is equal to itself unless it contains what is not
a number. It is transitive but for one case: a float is equal to each integer that becomes it, and
beyond `2 ^ 53` different integers become the same float. This case, at any depth of lists, is
`Value.Clash`, and `Value.equal_laws` says that it is the only one.
-/

namespace LateBinding

namespace Value

variable {a b c v : Value} {as bs cs : List Value}

/-! ## Symmetry -/

mutual

theorem equal_comm (a b : Value) : a.equal b = b.equal a := by
  cases a with
  | list as =>
    cases b with
    | list bs => exact equalLists_comm as bs
    | _ => rfl
  | _ => cases b <;> first | rfl | exact BEq.comm

theorem equalLists_comm (as bs : List Value) : equalLists as bs = equalLists bs as := by
  cases as with
  | nil => cases bs <;> rfl
  | cons a as =>
    cases bs with
    | nil => rfl
    | cons b bs => exact congrArg₂ and (equal_comm a b) (equalLists_comm as bs)

end

/-! ## Reflexivity -/

/-- The value is not a number, or contains such a value. -/
inductive ContainsNaN : Value → Prop
  | float {x : Float} (hx : x.isNaN = true) : ContainsNaN (.float x)
  | item {items : List Value} {v : Value} (hv : v ∈ items) (h : ContainsNaN v) :
    ContainsNaN (.list items)

theorem containsNaN_list_iff : (list as).ContainsNaN ↔ ∃ v ∈ as, v.ContainsNaN := by
  constructor
  · rintro (_ | ⟨hv, h⟩)
    exact ⟨_, hv, h⟩
  · rintro ⟨v, hv, h⟩
    exact .item hv h

mutual

theorem equal_self_iff (a : Value) : a.equal a = true ↔ ¬ a.ContainsNaN := by
  cases a with
  | float x =>
    have hnan : (float x).ContainsNaN ↔ x.isNaN = true := ⟨fun | .float hx => hx, .float⟩
    rw [hnan, Float.isNaN_eq_decide_eq_nan, decide_eq_true_eq]
    exact Float.beq_self_iff
  | list as =>
    rw [containsNaN_list_iff]
    push Not
    exact equalLists_self_iff as
  | nil => exact iff_of_true rfl nofun
  | bool | int | str | object => exact iff_of_true (beq_self_eq_true _) nofun

theorem equalLists_self_iff (as : List Value) :
    equalLists as as = true ↔ ∀ a ∈ as, ¬ a.ContainsNaN := by
  cases as with
  | nil => exact iff_of_true rfl nofun
  | cons a as =>
    rw [List.forall_mem_cons, ← equal_self_iff a, ← equalLists_self_iff as]
    exact Bool.and_eq_true_iff

end

/-! ## Transitivity -/

/-- At some position, the outer values have different integers and the one between them has a
float. -/
inductive Clash : Value → Value → Value → Prop
  | number {m n : Int64} {x : Float} (hne : m ≠ n) : Clash (.int m) (.float x) (.int n)
  | item {as bs cs : List Value} {a b c : Value} {i : Nat} (ha : as[i]? = some a)
    (hb : bs[i]? = some b) (hc : cs[i]? = some c) (h : Clash a b c) :
    Clash (.list as) (.list bs) (.list cs)

theorem equal_of_equalLists {i : Nat} (h : equalLists as bs = true) (ha : as[i]? = some a)
    (hb : bs[i]? = some b) : a.equal b = true := by
  -- both lists and the position are taken apart together
  induction as generalizing bs i with
  | nil => cases ha
  | cons a' as ih =>
    cases bs with
    | nil => cases hb
    | cons b' bs =>
      obtain ⟨hhead, htail⟩ := Bool.and_eq_true_iff.mp h
      cases i with
      | zero =>
        cases ha
        cases hb
        exact hhead
      | succ i => exact ih htail ha hb

/-- Values that clash are different. -/
theorem Clash.not_equal (h : Clash a b c) : ¬ a.equal c = true := by
  induction h with
  | number hne => exact fun heq => hne (beq_iff_eq.mp heq)
  | item ha _ hc _ ih => exact fun heq => ih (equal_of_equalLists heq ha hc)

mutual

theorem equal_trans {a b c : Value} (hab : a.equal b = true) (hbc : b.equal c = true)
    (hclash : ¬ Clash a b c) : a.equal c = true := by
  -- kinds can be mixed only among numbers, and there two integers may be on either side of a float
  cases a with
  | nil | bool | str | object =>
    cases b <;> first
      | exact hbc
      | cases hab
      | simp only [equal, beq_iff_eq] at hab
        exact hab ▸ hbc
  | int m =>
    cases b with
    | int k =>
      obtain rfl : m = k := beq_iff_eq.mp hab
      exact hbc
    | float x =>
      cases c with
      -- two integers that equal one float are the same, or they clash
      | int n => exact beq_iff_eq.mpr (not_not.mp fun hne => hclash (.number hne))
      | float y => exact BEq.trans hab hbc
      | _ => cases hbc
    | _ => cases hab
  | float x =>
    cases b with
    | int k =>
      cases c with
      | int n =>
        obtain rfl : k = n := beq_iff_eq.mp hbc
        exact hab
      | float y => exact BEq.trans (BEq.symm hab) hbc
      | _ => cases hbc
    | float y =>
      cases c with
      | int n => exact BEq.trans hbc (BEq.symm hab)
      | float z => exact BEq.trans hab hbc
      | _ => cases hbc
    | _ => cases hab
  | list as =>
    cases b with
    | list bs =>
      cases c with
      | list cs =>
        exact equalLists_trans hab hbc fun _ _ _ _ ha hb hc h => hclash (.item ha hb hc h)
      | _ => cases hbc
    | _ => cases hab

theorem equalLists_trans {as bs cs : List Value} (hab : equalLists as bs = true)
    (hbc : equalLists bs cs = true) (hclash : ∀ (i : Nat) (a b c : Value), as[i]? = some a →
      bs[i]? = some b → cs[i]? = some c → ¬ Clash a b c) : equalLists as cs = true := by
  cases as with
  | nil =>
    cases bs with
    | nil => exact hbc
    | cons => cases hab
  | cons a as =>
    cases bs with
    | nil => cases hab
    | cons b bs =>
      cases cs with
      | nil => cases hbc
      | cons c cs =>
        -- heads by the law for values and tails by the induction, each with the clashes at its
        -- positions
        obtain ⟨hab, habs⟩ := Bool.and_eq_true_iff.mp hab
        obtain ⟨hbc, hbcs⟩ := Bool.and_eq_true_iff.mp hbc
        exact Bool.and_eq_true_iff.mpr ⟨equal_trans hab hbc (hclash 0 a b c rfl rfl rfl),
          equalLists_trans habs hbcs fun i => hclash (i + 1)⟩

end

/-- Integers that clash cannot both be kept as they are in a float. -/
theorem lt_abs_of_equal_float {m n : Int64} {x : Float} (hne : m ≠ n)
    (hm : (int m).equal (float x) = true) (hn : (float x).equal (int n) = true) :
    2 ^ 53 < |m.toInt| ∨ 2 ^ 53 < |n.toInt| :=
  lt_abs_of_floatOfInt_beq hne (BEq.trans hm (BEq.symm hn))

/-! ## The laws -/

/-- Equality of values is symmetric, reflexive for values that contain no NaN and for no others, and
transitive except for values that clash: where different integers and between them a float are at
one position. One of these integers is larger than `2 ^ 53`. Integers are compared to floats by the
nearest float, and objects by their identity. -/
theorem equal_laws :
    (∀ a b : Value, a.equal b = b.equal a) ∧
    (∀ a : Value, a.equal a = true ↔ ¬ a.ContainsNaN) ∧
    (∀ a b c : Value, a.equal b = true → b.equal c = true →
      (a.equal c = true ↔ ¬ Clash a b c)) ∧
    (∀ m n x, m ≠ n → (int m).equal (float x) = true → (float x).equal (int n) = true →
      2 ^ 53 < |m.toInt| ∨ 2 ^ 53 < |n.toInt|) ∧
    (∀ n x, (int n).equal (float x) = (floatOfInt n == x)) ∧
    (∀ n, NearestEven n.toInt (floatOfInt n)) ∧
    ∀ o p, (object o).equal (object p) = true ↔ o = p := by
  refine ⟨equal_comm, equal_self_iff, ?_, ?_, ?_, nearestEven_floatOfInt, ?_⟩
  · intro a b c hab hbc
    constructor
    · intro hac hclash
      exact hclash.not_equal hac
    · exact equal_trans hab hbc
  · intro m n x hne hm hn
    exact lt_abs_of_equal_float hne hm hn
  · intro n x
    rfl
  · intro o p
    exact beq_iff_eq

/-- The number `2 ^ 53` as a float, which has no place for its successor. -/
def sampleFloat : Float := Float.ofBits 0x4340000000000000

/-- Lists of these clash where they hold different integers, and only there. -/
theorem equal_laws_sampleFloat :
    (list [int 9007199254740992]).equal (list [float sampleFloat]) = true ∧
    (list [float sampleFloat]).equal (list [int 9007199254740993]) = true ∧
    ¬ (list [int 9007199254740992]).equal (list [int 9007199254740993]) = true ∧
    (list [int 9007199254740992]).equal (list [int 9007199254740992]) = true ∧
    (2 ^ 53 < |(9007199254740992 : Int64).toInt| ∨
      2 ^ 53 < |(9007199254740993 : Int64).toInt|) := by
  obtain ⟨hcomm, -, htrans, hlarge, -, -, -⟩ := equal_laws
  have hleft : (list [int 9007199254740992]).equal (list [float sampleFloat]) = true := by
    decide +kernel
  have hright : (list [float sampleFloat]).equal (list [int 9007199254740993]) = true := by
    decide +kernel
  have hback : (list [float sampleFloat]).equal (list [int 9007199254740992]) = true := by
    rw [hcomm]
    exact hleft
  refine ⟨hleft, hright, fun h => ?_, ?_,
    hlarge 9007199254740992 9007199254740993 sampleFloat (by decide) (by decide +kernel)
      (by decide +kernel)⟩
  · have hclash : Clash (list [int 9007199254740992]) (list [float sampleFloat])
        (list [int 9007199254740993]) :=
      .item (i := 0) rfl rfl rfl (.number (by decide))
    exact (htrans _ _ _ hleft hright).mp h hclash
  · refine (htrans _ _ _ hleft hback).mpr ?_
    rintro (_ | @⟨_, _, _, _, _, _, i, ha, hb, hc, h⟩)
    cases i with
    | zero =>
      cases ha
      cases hb
      cases hc
      cases h with
      | number hne => exact hne rfl
    | succ => cases ha

/-- Two integers are equal to one float, and different from each other. -/
theorem not_transitive_sampleFloat :
    (¬ (int 9007199254740992).ContainsNaN ∧ ¬ (float sampleFloat).ContainsNaN ∧
      ¬ (int 9007199254740993).ContainsNaN) ∧
    (int 9007199254740992).equal (float sampleFloat) = true ∧
    (float sampleFloat).equal (int 9007199254740993) = true ∧
    ¬ (int 9007199254740992).equal (int 9007199254740993) = true := by
  have hnan : sampleFloat.isNaN = false := by decide +kernel
  refine ⟨⟨nofun, ?_, nofun⟩, by decide +kernel, by decide +kernel, by decide +kernel⟩
  rintro ⟨h⟩
  rw [hnan] at h
  cases h

end Value

end LateBinding
