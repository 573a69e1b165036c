import Reckoner.Evaluation
import Reckoner.Proofs.Computations
import Reckoner.Proofs.DivisorListing
import Reckoner.Proofs.DoubleArithmetic

/-! The operations that may be refused, at the places where evaluation uses them. Operators
handle every refusal, and for a quotient they answer what the floating-point standard says; the
sine keeps away from the infinities, and divisors are listed for numbers that have a whole part,
and none so large that it is no double. -/

namespace Reckoner.Proofs.PartialOperations
open Number DoubleValues DoubleArithmetic DivisorListing Computations Float.Model Float.Model.UnpackedFloat

section Division

/-- The sign that a number is stored with. -/
def storedSign (x : Float) : Sign := if Nat.pow 2 63 ≤ x.toBits.toNat then .negative else .positive

/-- Numbers that are decoded with this sign. -/
inductive Signed (sign : Sign) : UnpackedFloat → Prop
  | infinity : Signed sign (.infinity sign)
  | zero : Signed sign (.zero sign)
  | finite {mantissa : Nat} {exponent : Int} {positive : 0 < mantissa} :
      Signed sign (.finite sign mantissa exponent positive)

theorem decoded_signed {x : Float} (known : decoded x ≠ .notANumber) : Signed (storedSign x) (decoded x) := by
  generalize same : x.toModel.toBits.toBitVec = bits
  have stored : storedSign x = if 2048 ≤ bits.toNat / 2 ^ 52 then .negative else .positive := by
    have split : Nat.pow 2 63 ≤ x.toBits.toNat ↔ 2048 ≤ bits.toNat / 2 ^ 52 := by
      rw [← same]
      change 9223372036854775808 ≤ x.toModel.toBits.toNat ↔ 2048 ≤ x.toModel.toBits.toNat / 4503599627370496
      omega
    rw [storedSign]
    simp only [split]
  revert known
  rw [decoded, Float.Model.unpack, same, UnpackedFloat.unpack, sign_eq, ← stored]
  split
  · split
    · exact fun _ => .infinity
    · exact fun unknown => absurd rfl unknown
  · split
    · split
      · exact fun _ => .zero
      · exact fun _ => .finite
    · exact fun _ => .finite

theorem beq_zero {b : Float} (zero : b == 0) : ∃ sign, decoded b = .zero sign := by
  change (decoded b).beq (.zero .positive) = true at zero
  cases same : decoded b with
  | zero sign => exact ⟨sign, rfl⟩
  | notANumber => rw [same] at zero; cases zero
  | infinity sign => rw [same] at zero; cases sign <;> cases zero
  | finite sign => rw [same] at zero; cases sign <;> cases zero

theorem infinity_signed (a b : Float) :
    copySign infinity a * copySign 1 b = .ofModel (.pack (.infinity (storedSign a / storedSign b))) := by
  unfold copySign storedSign
  split <;> split <;> rfl

/-- Division follows the floating-point standard also where it is refused at first. -/
theorem division_standard (a b : Float) : Operator.div.apply a b = .ok (a / b) := by
  rw [Operator.apply, divide]
  split
  next zero =>
    obtain ⟨sign, divisor⟩ := beq_zero zero
    have quotient : a / b = .ofModel (.pack (UnpackedFloat.div Format.binary64 (decoded a) (.zero sign))) := by
      rw [← divisor]
      rfl
    have signed : storedSign b = sign := by
      have known : decoded b ≠ .notANumber := by simp [divisor]
      have signed := decoded_signed known
      rw [divisor] at signed
      cases signed
      rfl
    change (if (decoded a).beq (.zero .positive) || (decoded a).isNaN then Except.ok Number.notANumber
      else .ok (copySign infinity a * copySign 1 b)) = _
    rw [infinity_signed, signed, quotient]
    by_cases known : decoded a = .notANumber
    · rw [known]
      rfl
    · have dividend := decoded_signed known
      generalize storedSign a = sign', decoded a = number at dividend
      cases dividend with
      | infinity => cases sign' <;> rfl
      | zero => rfl
      | finite => cases sign' <;> rfl
  next => rfl

end Division

section Divisors

theorem ofWhole_small {n : Nat} (short : n < 2 ^ 53) : ofWhole n = .ok (Float.ofNat n) := if_pos (ofNat_value short).1

theorem factorsCeiling_value : factorsCeiling.isFinite ∧ value factorsCeiling = 1000000000000 := by
  have same : factorsCeiling = Float.ofNat 1000000000000 := rfl
  rw [same]
  exact_mod_cast ofNat_value (show 1000000000000 < 2 ^ 53 by norm_num)

theorem divisors_le {n : Int} {d : Nat} (member : d ∈ divisors n) : (d : Int) ≤ n := by
  rw [divisors] at member
  split at member
  next => cases member
  next high =>
    have positive : 0 < n.toNat := by omega
    have listed := (divisorsFrom_complete positive (gathered_start n.toNat)).2
    have small : d ≤ n.toNat := Nat.le_of_dvd positive ((listed d).mp member).2
    omega

/-- The divisors of a number between zero and the ceiling are doubles themselves. -/
theorem factorsOf_answers {x : Float} (finite : x.isFinite) (within : ¬ factorsCeiling < x) (least : ¬ x < 1) :
    ∃ items, factorsOf x = .ok items := by
  obtain ⟨whole, truncated, cut⟩ := truncate_finite finite
  have below : value x ≤ 1000000000000 := by
    obtain ⟨finite', same⟩ := factorsCeiling_value
    rw [lt_iff finite' finite, same, not_lt] at within
    exact within
  have above : 1 ≤ value x := by
    obtain ⟨finite', same⟩ := ofNat_value (show 1 < 2 ^ 53 by norm_num)
    rw [show (1 : Float) = Float.ofNat 1 from rfl, lt_iff finite finite', same, not_lt] at least
    exact_mod_cast least
  have bound : whole ≤ 1000000000000 := by
    rw [abs_of_nonneg (zero_le_one.trans above)] at cut
    exact_mod_cast (le_abs_self _).trans (cut.trans below)
  simp only [factorsOf, bind_computed, truncated]
  obtain ⟨items, listed⟩ := mapM_exists.mpr fun d (member : d ∈ divisors whole) =>
    (⟨_, ofWhole_small (by have := divisors_le member; omega)⟩ : ∃ x, ofWhole d = .ok x)
  exact ⟨items, whole, rfl, listed⟩

end Divisors

end Reckoner.Proofs.PartialOperations
