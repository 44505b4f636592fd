/-!
# The fewest decimal digits that read back

A finite positive binary fraction `m * 2 ^ q` stands for every real number that rounds to
it: the interval that reaches half way to its neighbours, with its ends exactly when `m`
is even. `shortest` finds a decimal in that interval with as few digits as possible, and
among those the one nearest to `m * 2 ^ q`. All comparisons are exact, between natural
numbers.

For one digit, two digits, and so on, the two neighbours of the fraction on the decimal
grid of that many digits are tried; if any point of the grid lies in the interval, so does
one of these two, hence the first grid with a hit is the coarsest there is. Seventeen
digits always suffice for a 64-bit float.
-/

namespace LateBinding.Decimal

/-- The decimal `digits * 10 ^ exponent`, with a last digit other than zero unless the
decimal is zero. -/
structure Scientific where
  digits : Nat
  exponent : Int
deriving DecidableEq

/-- Which of two equally near decimals is taken. -/
inductive Tie
  | up
  | toEven
deriving DecidableEq

/-- A 64-bit float by its parts: a finite one is `mantissa * 2 ^ exponent` with a sign. -/
inductive Parts
  | notANumber
  | infinite (negative : Bool)
  | finite (negative : Bool) (mantissa : Nat) (exponent : Int)

/-- The least mantissa of a float whose exponent is not the least one: `2 ^ 52`. -/
def leadingBit : Nat := 4503599627370496

/-- Take a float apart. Its bits are a sign, eleven bits of exponent and 52 of mantissa.
Mantissas below `leadingBit` occur with the least exponent only. -/
def Parts.ofFloat (x : Float) : Parts :=
  let bits := x.toBits.toNat
  let negative := bits / leadingBit / 2048 = 1
  let exponent : Nat := bits / leadingBit % 2048
  let fraction := bits % leadingBit
  if exponent = 2047 then
    if fraction = 0 then .infinite negative else .notANumber
  else if exponent = 0 then .finite negative fraction (-1074)
  else .finite negative (fraction + leadingBit) ((exponent : Int) - 1075)

/-- How many decimal digits `n` has, at least one. -/
def digitCount (n : Nat) : Nat := (Nat.toDigits 10 n).length

/-- The largest `e` with `10 ^ e ≤ num / den`, for positive `num` and `den`. -/
def magnitude (num den : Nat) : Int :=
  if den ≤ num then digitCount (num / den) - 1
  else -(digitCount ((den + num - 1) / num - 1) : Int)

/-- Remove the zeros at the end of `digits`, of which there are at most `fuel`. -/
def trim : Nat → Scientific → Scientific
  | 0, d => d
  | fuel + 1, d =>
    if d.digits ≠ 0 ∧ d.digits % 10 = 0 then trim fuel ⟨d.digits / 10, d.exponent + 1⟩ else d

/-- The interval of the reals that round to one float, in units of `1 / den`. -/
structure Interval where
  low : Nat
  value : Nat
  high : Nat
  den : Nat
  closed : Bool

namespace Interval

/-- The interval of `m * 2 ^ q`. Below a power of two the neighbour is only half as far
away, unless the exponent is already the least one. -/
def ofParts (m : Nat) (q : Int) : Interval :=
  let scale := Nat.pow 2 (q - 2).toNat
  let below := if m = leadingBit ∧ -1074 < q then 1 else 2
  { low := (4 * m - below) * scale
    value := 4 * m * scale
    high := (4 * m + 2) * scale
    den := Nat.pow 2 (2 - q).toNat
    closed := m % 2 = 0 }

/-- Whether `n * 10 ^ e` lies in the interval. -/
def contains (i : Interval) (n : Nat) (e : Int) : Bool :=
  let point := n * Nat.pow 10 e.toNat * i.den
  let scale := Nat.pow 10 (-e).toNat
  if i.closed then i.low * scale ≤ point ∧ point ≤ i.high * scale
  else i.low * scale < point ∧ point < i.high * scale

/-- The point of the grid of multiples of `10 ^ e` that stands for the interval's value,
if the grid has a point in the interval. -/
def onGrid (i : Interval) (tie : Tie) (e : Int) : Option Nat :=
  let num := i.value * Nat.pow 10 (-e).toNat
  let den := i.den * Nat.pow 10 e.toNat
  let floor := num / den
  let rest := num % den
  match i.contains floor e, i.contains (floor + 1) e with
  | false, false => none
  | true, false => some floor
  | false, true => some (floor + 1)
  | true, true =>
    if 2 * rest < den then some floor
    else if den < 2 * rest then some (floor + 1)
    else match tie with
      | .up => some (floor + 1)
      | .toEven => if floor % 2 = 0 then some floor else some (floor + 1)

/-- The first hit on the grids of multiples of `10 ^ e`, `10 ^ (e - 1)`, and so on. -/
def firstHit (i : Interval) (tie : Tie) : Nat → Int → Scientific
  | 0, e => ⟨i.value * Nat.pow 10 (-e).toNat / (i.den * Nat.pow 10 e.toNat), e⟩
  | fuel + 1, e =>
    match i.onGrid tie e with
    | some n => ⟨n, e⟩
    | none => firstHit i tie fuel (e - 1)

end Interval

/-- The shortest decimal that reads back as `m * 2 ^ q`, for positive `m`. -/
def shortest (tie : Tie) (m : Nat) (q : Int) : Scientific :=
  let i := Interval.ofParts m q
  trim 20 (i.firstHit tie 17 (magnitude i.value i.den))

/-! ### Writing the digits out -/

def Scientific.text (d : Scientific) : List Char := Nat.toDigits 10 d.digits

/-- The decimal written without an exponent; a whole number ends in `whole`. -/
def Scientific.positional (d : Scientific) (whole : String) : String :=
  let ds := d.text
  if 0 ≤ d.exponent then
    String.ofList (ds ++ List.replicate d.exponent.toNat '0') ++ whole
  else
    let places := (-d.exponent).toNat
    if places < ds.length then
      String.ofList (ds.take (ds.length - places) ++ '.' :: ds.drop (ds.length - places))
    else
      String.ofList ('0' :: '.' :: List.replicate (places - ds.length) '0' ++ ds)

/-- The decimal written with one digit before the point and a signed exponent. -/
def Scientific.exponential (d : Scientific) : String :=
  let ds := d.text
  let shown : Int := d.exponent + (ds.length - 1 : Nat)
  let mantissa := match ds with
    | first :: second :: rest => String.ofList (first :: '.' :: second :: rest)
    | _ => String.ofList ds
  mantissa ++ (if 0 ≤ shown then "e+" else "e-") ++ toString shown.natAbs

def Scientific.leading (d : Scientific) : Int := d.exponent + (d.text.length - 1 : Nat)

/-! ### Rounding to a fixed number of places -/

/-- The nearest natural number to `num / den`; a half goes to the even neighbour. -/
def roundDiv (num den : Nat) : Nat :=
  let floor := num / den
  let rest := num % den
  if 2 * rest < den then floor
  else if den < 2 * rest then floor + 1
  else if floor % 2 = 0 then floor else floor + 1

/-- The number `n / 10 ^ places` written with exactly `places` digits after the point. -/
def withPlaces (places n : Nat) : String :=
  let ds := Nat.toDigits 10 n
  let padded := List.replicate (places + 1 - ds.length) '0' ++ ds
  let point := padded.length - places
  String.ofList (padded.take point ++ '.' :: padded.drop point)

end LateBinding.Decimal
