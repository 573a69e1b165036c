import Reckoner.Number.Partial

/-! Arithmetic on numbers. It follows the floating-point standard all the way: a
division by zero gives an infinity (or NaN for zero by zero), and a power without
a real answer gives NaN. Division and power are refused there, so each of the two
has a handler that answers in their place. -/

namespace Reckoner

namespace Number

def infinity : Float := 1 / 0

def notANumber : Float := 0 / 0

/-- The magnitude of one number with the sign of another; zeros have a sign as well. -/
def copySign (magnitude sign : Float) : Float :=
  if Nat.pow 2 63 ≤ sign.toBits.toNat then -magnitude.abs else magnitude.abs

def isOdd (x : Float) : Bool :=
  match parts? x with
  | some parts => parts.isWhole && parts.truncated % 2 == 1
  | none => false

end Number

/-- The binary operators. -/
inductive Operator where
  | add
  | sub
  | mul
  | div
  | pow
  deriving DecidableEq

namespace Operator
open Number

/-- A quotient by zero is infinite, its sign that of both operands together. -/
def quotientByZero (a b : Float) : Fault → Except Fault Float
  | .divisionByZero =>
    if a == 0 || a.isNaN then .ok notANumber
    else .ok (copySign infinity a * copySign 1 b)
  | fault => .error fault

/-- An overflowing power is infinite, negative exactly for a negative base with an odd
exponent; zero to a negative power is a pole with the same rule for its sign. -/
def powerBeyond (a b : Float) : Fault → Except Fault Float
  | .outOfRange => .ok (if a < 0 && isOdd b then -infinity else infinity)
  | .outOfDomain =>
    -- What is not the pole is a negative base with a fractional exponent.
    if a == 0 then .ok (if isOdd b then copySign infinity a else infinity)
    else .ok notANumber
  | fault => .error fault

def apply : Operator → Float → Float → Except Fault Float
  | .add, a, b => .ok (a + b)
  | .sub, a, b => .ok (a - b)
  | .mul, a, b => .ok (a * b)
  | .div, a, b => tryCatch (divide a b) (quotientByZero a b)
  | .pow, a, b => tryCatch (power a b) (powerBeyond a b)

/-- A handler that answers for every refusal there may be leaves none. -/
theorem tryCatch_answers {operation : Except Fault Float} {handler : Fault → Except Fault Float}
    (handled : ∀ fault, operation = .error fault → ∃ x, handler fault = .ok x) :
    ∃ x, tryCatch operation handler = .ok x := by
  cases operation with
  | ok x => exact ⟨x, rfl⟩
  | error fault => exact handled fault rfl

theorem quotientByZero_answers (a b : Float) : ∃ x, quotientByZero a b .divisionByZero = .ok x := by
  rw [quotientByZero]
  split
  · exact ⟨_, rfl⟩
  · exact ⟨_, rfl⟩

theorem powerBeyond_answers (a b : Float) {fault : Fault} (refusal : fault = .outOfDomain ∨ fault = .outOfRange) :
    ∃ x, powerBeyond a b fault = .ok x := by
  rcases refusal with rfl | rfl
  · rw [powerBeyond]
    split
    · exact ⟨_, rfl⟩
    · exact ⟨_, rfl⟩
  · exact ⟨_, rfl⟩

/-- Whatever is refused on the way, every operator has an answer for all operands. -/
theorem apply_answers (operator : Operator) (a b : Float) : ∃ x, operator.apply a b = .ok x := by
  cases operator with
  | add | sub | mul => exact ⟨_, rfl⟩
  | div =>
    refine tryCatch_answers fun fault refused => ?_
    rw [divide_refused refused]
    exact quotientByZero_answers a b
  | pow => exact tryCatch_answers fun fault refused => powerBeyond_answers a b (power_refused refused)

end Operator

end Reckoner
