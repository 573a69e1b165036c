/-! A finite double is a whole number times a power of two. Everything the
calculator needs to know exactly about a number (its whole part, the nearest
whole number, its digits) is computed from that form in whole-number arithmetic. -/

namespace Reckoner.Number

/-- The exact value `±mantissa · 2 ^ exponent` of a finite double. -/
structure Parts where
  negative : Bool
  mantissa : Nat
  exponent : Int
  deriving DecidableEq

/-- Fifty-two bits of the mantissa are stored; the one above them is implied. -/
def hiddenBit : Nat := Nat.pow 2 52

/-- The parts of a finite double; infinities and NaN have none. -/
def parts? (x : Float) : Option Parts :=
  let bits := x.toBits.toNat
  let fraction := bits % hiddenBit
  let biased := bits / hiddenBit % 2048
  let negative := decide (2048 ≤ bits / hiddenBit)
  if biased = 2047 then none
  else if biased = 0 then some ⟨negative, fraction, -1074⟩
  else some ⟨negative, fraction + hiddenBit, Int.ofNat biased - 1075⟩

/-- The nearest whole number to `numerator / denominator`; a half goes to the even one. -/
def nearestEven (numerator denominator : Nat) : Nat :=
  let quotient := numerator / denominator
  let remainder := numerator % denominator
  if 2 * remainder < denominator then quotient
  else if denominator < 2 * remainder then quotient + 1
  else if quotient % 2 = 0 then quotient
  else quotient + 1

namespace Parts

/-- The magnitude is `numerator / denominator`. -/
def numerator (parts : Parts) : Nat := parts.mantissa * Nat.pow 2 parts.exponent.toNat

def denominator (parts : Parts) : Nat := Nat.pow 2 (-parts.exponent).toNat

/-- Puts the sign back on a magnitude. -/
def signed (parts : Parts) (magnitude : Nat) : Int :=
  if parts.negative then -(magnitude : Int) else magnitude

/-- The whole part, toward zero. -/
def truncated (parts : Parts) : Int := parts.signed (parts.numerator / parts.denominator)

/-- The nearest whole number, a half going to the even one. -/
def rounded (parts : Parts) : Int := parts.signed (nearestEven parts.numerator parts.denominator)

def isWhole (parts : Parts) : Bool := parts.numerator % parts.denominator == 0

theorem denominator_pos (parts : Parts) : 0 < parts.denominator := Nat.two_pow_pos _

end Parts

end Reckoner.Number
