/-!
# Arithmetic on 64-bit counts

Counts and thresholds are natural numbers below `Word.size`. Sums and products that can
leave that range are named here by what they do there: there is none, or it stops at the
largest word. Everything else in the library is ordinary arithmetic on `Nat`, because no
run is long enough for its counters to reach the bound.
-/

namespace LateBinding.Word

/-- One more than the largest 64-bit word. -/
def size : Nat := 18446744073709551616

def last : Nat := 18446744073709551615

/-- An operation whose exact result is out of range. -/
inductive Overflow
  | add
  | multiply
deriving DecidableEq

def Overflow.message : Overflow → String
  | add => "attempt to add with overflow"
  | multiply => "attempt to multiply with overflow"

/-- The sum, if it is a word. -/
def add (a b : Nat) : Except Overflow Nat := if a + b < size then .ok (a + b) else .error .add

/-- The product, if it is a word. -/
def mul (a b : Nat) : Except Overflow Nat :=
  if a * b < size then .ok (a * b) else .error .multiply

/-- The product, or `last` where it is larger than that. -/
def mulSat (a b : Nat) : Nat := min (a * b) last

theorem size_eq : size = last + 1 := rfl

theorem add_of_lt {a b : Nat} (h : a + b < size) : add a b = .ok (a + b) := if_pos h

theorem add_of_le {a b : Nat} (h : size ≤ a + b) : add a b = .error .add :=
  if_neg (Nat.not_lt_of_le h)

theorem mul_of_lt {a b : Nat} (h : a * b < size) : mul a b = .ok (a * b) := if_pos h

theorem mul_of_le {a b : Nat} (h : size ≤ a * b) : mul a b = .error .multiply :=
  if_neg (Nat.not_lt_of_le h)

end LateBinding.Word
