import Reckoner.Number.Parts

/-! The shortest decimal that reads back as a given double. A decimal reads back
as a double when it lies between the midpoints to the neighbouring doubles; the
midpoints themselves count when the mantissa is even. On the grid of decimals
with a given number of digits only the two neighbours of the value can be
closest, so these two are tried for one digit, two digits, and so on. -/

namespace Reckoner.Number

/-- The decimal `d.ddd · 10 ^ exponent`, its digits without trailing zeros. -/
structure Decimal where
  digits : List Char
  exponent : Int
  deriving DecidableEq

/-- How many decimal digits a whole number has. -/
def digitCount (n : Nat) : Nat := (Nat.toDigits 10 n).length

/-- The exponent `e` with `10 ^ e ≤ numerator / denominator < 10 ^ (e + 1)`. -/
def decimalExponent (numerator denominator : Nat) : Int :=
  if denominator ≤ numerator then (digitCount (numerator / denominator) : Int) - 1
  else -(digitCount ((denominator - 1) / numerator) : Int)

/-- A value between the midpoints to its neighbours, all measured in one small unit,
against which a grid of decimals has the given step. -/
structure Interval where
  low : Nat
  value : Nat
  high : Nat
  step : Nat
  closed : Bool

namespace Interval

/-- Whether the grid point with this index reads back as the value. -/
def holds (interval : Interval) (index : Nat) : Bool :=
  let point := index * interval.step
  if interval.closed then decide (interval.low ≤ point) && decide (point ≤ interval.high)
  else decide (interval.low < point) && decide (point < interval.high)

/-- The grid point nearest to the value among those that read back as it; of two
equally near ones the even one. -/
def nearest? (interval : Interval) : Option Nat :=
  let below := interval.value / interval.step
  let above := below + 1
  match interval.holds below, interval.holds above with
  | false, false => none
  | true, false => some below
  | false, true => some above
  | true, true =>
    let down := interval.value - below * interval.step
    let up := above * interval.step - interval.value
    if down < up then some below
    else if up < down then some above
    else if below % 2 = 0 then some below else some above

end Interval

namespace Parts

/-- Below a power of two the doubles lie twice as dense, so the midpoint is half as far. -/
def lowerGap (parts : Parts) : Nat :=
  if parts.mantissa = hiddenBit ∧ -1074 < parts.exponent then 1 else 2

/-- The value against the grid of multiples of `10 ^ power`, in quarters of a mantissa unit. -/
def interval (parts : Parts) (power : Int) : Interval :=
  let scale := parts.exponent - 2
  let unit := Nat.pow 2 scale.toNat * Nat.pow 10 (-power).toNat
  let value := 4 * parts.mantissa
  { low := (value - parts.lowerGap) * unit
    value := value * unit
    high := (value + 2) * unit
    step := Nat.pow 2 (-scale).toNat * Nat.pow 10 power.toNat
    closed := parts.mantissa % 2 == 0 }

/-- The decimal with the given number of digits that reads back, if there is one. -/
def decimal? (parts : Parts) (count : Nat) : Option Decimal :=
  let lead := decimalExponent parts.numerator parts.denominator
  let power := lead - (count : Int) + 1
  (parts.interval power).nearest?.map fun index =>
    let digits := Nat.toDigits 10 index
    ⟨(digits.reverse.dropWhile (· == '0')).reverse, power + (digits.length : Int) - 1⟩

/-- The shortest decimal that reads back as a nonzero value. Seventeen digits always do. -/
def shortest (parts : Parts) : Decimal :=
  ((List.range 17).findSome? fun count => parts.decimal? (count + 1)).getD ⟨['0'], 0⟩

end Parts

end Reckoner.Number
