/-! The positive divisors of a whole number, by trial division up to its square root:
every divisor at most the root brings its partner above the root along. -/

namespace Reckoner.Number

/-- Tries the numbers from `trial` up to the root. What was found before is passed along:
the divisors below the root in descending order, their partners in ascending order. -/
def divisorsFrom (n trial : Nat) (small large : List Nat) : List Nat :=
  if trial * trial ≤ n then
    if n % trial = 0 then
      divisorsFrom n (trial + 1) (trial :: small)
        (if trial * trial = n then large else n / trial :: large)
    else divisorsFrom n (trial + 1) small large
  else small.reverse ++ large
termination_by n + 1 - trial
decreasing_by
  all_goals
    have : trial ≤ trial * trial := Nat.le_mul_self trial
    omega

/-- The positive divisors in ascending order. Zero and negative numbers have none here. -/
def divisors (n : Int) : List Nat :=
  if n < 1 then [] else divisorsFrom n.toNat 1 [] []

end Reckoner.Number
