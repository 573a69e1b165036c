import Reckoner.Fault
import Reckoner.Number.Parts

/-! Operations that are refused where they have no number to answer with. Whoever uses one
keeps away from those places or handles the refusal. -/

namespace Reckoner.Number

/-- Division is refused for a zero divisor. -/
def divide (a b : Float) : Except Fault Float :=
  if b == 0 then .error .divisionByZero else .ok (a / b)

/-- A power of finite numbers is refused unless it is finite itself. Without a real answer, or
at the pole of zero to a negative power, it is outside of the domain; otherwise its magnitude
is out of range. -/
def power (base exponent : Float) : Except Fault Float :=
  let answer := Float.pow base exponent
  if answer.isFinite || !(base.isFinite && exponent.isFinite) then .ok answer
  else if answer.isNaN || base == 0 then .error .outOfDomain
  else .error .outOfRange

/-- The infinities have no sine. -/
def sine (x : Float) : Except Fault Float :=
  if x.isInf then .error .outOfDomain else .ok (Float.sin x)

/-- A number made whole in some way; infinities and NaN cannot be. -/
def whole (round : Parts → Int) (x : Float) : Except Fault Int :=
  match parts? x with
  | some parts => .ok (round parts)
  | none => .error (if x.isNaN then .roundingNaN else .roundingInfinity)

/-- The whole part, toward zero. -/
def truncate (x : Float) : Except Fault Int := whole Parts.truncated x

/-- The nearest whole number, a half going to the even one. -/
def nearest (x : Float) : Except Fault Int := whole Parts.rounded x

/-- The double nearest to a whole number, if the number is not too large for one. -/
def ofWhole (n : Nat) : Except Fault Float :=
  let x := Float.ofNat n
  if x.isFinite then .ok x else .error .tooLarge

theorem divide_refused {a b : Float} {fault : Fault} (refused : divide a b = .error fault) :
    fault = .divisionByZero := by
  rw [divide] at refused
  split at refused
  · cases refused
    rfl
  · cases refused

theorem power_refused {base exponent : Float} {fault : Fault} (refused : power base exponent = .error fault) :
    fault = .outOfDomain ∨ fault = .outOfRange := by
  simp only [power] at refused
  split at refused
  · cases refused
  · split at refused
    · cases refused
      exact .inl rfl
    · cases refused
      exact .inr rfl

end Reckoner.Number
