import Reckoner.Proofs.DoubleValues

/-! Rounding to the form of doubles. A rounded number is a nearest one among those that
doubles could hold without a limit to their exponents, so it never passes one of them, and
shifting digits out of a mantissa rounds in this sense. -/

namespace Reckoner.Proofs.DoubleRounding
open Float.Model Float.Model.UnpackedFloat DoubleValues

/-- The numbers a double could hold if its exponent had no upper limit. -/
def Representable (q : ℚ) : Prop :=
  ∃ digits exponent : ℤ, |digits| < 2 ^ 53 ∧ -1074 ≤ exponent ∧ q = digits * 2 ^ exponent

/-- The result is a multiple of a power of two that is fine enough for the exact number,
and no multiple is closer. -/
inductive Rounded (exact : ℚ) : ℚ → Prop
  | grid {digits exponent : ℤ} (low : -1074 ≤ exponent) (fine : exponent = -1074 ∨ 2 ^ (52 + exponent) ≤ |exact|)
      (close : |digits * 2 ^ exponent - exact| ≤ 2 ^ exponent / 2) : Rounded exact (digits * 2 ^ exponent)

section Rounding

variable {exact result other : ℚ}

/-- What is not a multiple of a power of two is small beside it. -/
theorem Representable.on_grid (kept : Representable other) (exponent : ℤ) :
    (∃ digits : ℤ, other = digits * 2 ^ exponent) ∨ |other| < 2 ^ (52 + exponent) ∧ exponent ≠ -1074 := by
  obtain ⟨digits, scale, short, low, rfl⟩ := kept
  by_cases coarse : exponent ≤ scale
  · obtain ⟨shift, rfl⟩ := Int.le.dest coarse
    refine .inl ⟨digits * 2 ^ shift, ?_⟩
    rw [zpow_add₀ two_ne_zero, zpow_natCast]
    push_cast
    ring
  · refine .inr ⟨?_, by omega⟩
    have short : (|digits| : ℚ) < 2 ^ 53 := by exact_mod_cast short
    calc |(digits * 2 ^ scale : ℚ)|
        = |(digits : ℚ)| * 2 ^ scale := by rw [abs_mul, abs_of_pos (by positivity : (0 : ℚ) < 2 ^ scale)]
      _ < 2 ^ 53 * 2 ^ scale := by gcongr
      _ = 2 ^ (53 + scale) := by
          rw [zpow_add₀ two_ne_zero]
          norm_num
      _ ≤ 2 ^ (52 + exponent) := zpow_le_zpow_right₀ one_le_two (by omega)

theorem Representable.neg (kept : Representable other) : Representable (-other) := by
  obtain ⟨digits, exponent, short, low, rfl⟩ := kept
  exact ⟨-digits, exponent, by rwa [abs_neg], low, by rw [Int.cast_neg, neg_mul]⟩

theorem Representable.multiple (kept : Representable other) : ∃ count : ℤ, other = count * 2 ^ (-1074 : ℤ) := by
  rcases kept.on_grid (-1074) with multiple | ⟨-, other⟩
  · exact multiple
  · exact absurd rfl other

theorem representable_whole {whole : ℤ} (short : |whole| < 2 ^ 53) : Representable whole :=
  ⟨whole, 0, short, by norm_num, by rw [zpow_zero, mul_one]⟩

theorem near_multiple {digits exponent : ℤ} (close : |digits * 2 ^ exponent - exact| ≤ 2 ^ exponent / 2) (whole : ℤ) :
    |digits * 2 ^ exponent - exact| ≤ |whole * 2 ^ exponent - exact| := by
  by_cases same : whole = digits
  · rw [same]
  · have unit : (0 : ℚ) < 2 ^ exponent := by positivity
    have apart : (1 : ℚ) ≤ |(whole - digits : ℚ)| := by exact_mod_cast Int.one_le_abs (sub_ne_zero.mpr same)
    have far : (2 : ℚ) ^ exponent ≤ |(whole * 2 ^ exponent : ℚ) - digits * 2 ^ exponent| := by
      rw [← sub_mul, abs_mul, abs_of_pos unit]
      exact le_mul_of_one_le_left unit.le apart
    have around := abs_sub_le (whole * 2 ^ exponent : ℚ) exact (digits * 2 ^ exponent)
    rw [abs_sub_comm exact] at around
    linarith

theorem Rounded.near (rounded : Rounded exact result) (kept : Representable other) :
    |result - exact| ≤ |other - exact| := by
  cases rounded with
  | @grid digits exponent low fine close =>
    rcases kept.on_grid exponent with ⟨whole, rfl⟩ | ⟨small, upper⟩
    · exact near_multiple close whole
    · -- the edge below which doubles lie closer is itself a multiple, and lies between
      have large := fine.resolve_left upper
      have edge : (2 : ℚ) ^ (52 + exponent) = (2 ^ 52 : ℤ) * 2 ^ exponent := by
        rw [zpow_add₀ two_ne_zero]
        norm_num
      obtain ⟨under, above⟩ := abs_lt.mp small
      rcases abs_cases exact with ⟨size, sign⟩ | ⟨size, sign⟩
      · refine (near_multiple close (2 ^ 52)).trans ?_
        rw [← edge, abs_of_nonpos (by linarith), abs_of_nonpos (by linarith)]
        linarith
      · refine (near_multiple close (-2 ^ 52)).trans ?_
        rw [Int.cast_neg, neg_mul, ← edge, abs_of_nonneg (by linarith), abs_of_nonneg (by linarith)]
        linarith

theorem Rounded.le (rounded : Rounded exact result) (kept : Representable other) (below : exact ≤ other) :
    result ≤ other := by
  have near := rounded.near kept
  rw [abs_of_nonneg (sub_nonneg.mpr below)] at near
  linarith [le_abs_self (result - exact)]

theorem Rounded.ge (rounded : Rounded exact result) (kept : Representable other) (above : other ≤ exact) :
    other ≤ result := by
  have near := rounded.near kept
  rw [abs_sub_comm other, abs_of_nonneg (sub_nonneg.mpr above)] at near
  linarith [neg_abs_le (result - exact)]

theorem Rounded.unmoved (rounded : Rounded exact result) (kept : Representable exact) : result = exact :=
  le_antisymm (rounded.le kept le_rfl) (rounded.ge kept le_rfl)

/-- A multiple of the least double is off by a tiny share of itself at most: where doubles
lie no closer to each other, it is one of them. -/
theorem Rounded.share (rounded : Rounded exact result) {count : ℤ} (multiple : exact = count * 2 ^ (-1074 : ℤ)) :
    |result - exact| ≤ |exact| / 2 ^ 53 := by
  cases rounded with
  | @grid digits exponent low fine close =>
    rcases fine with rfl | large
    · have near := near_multiple close count
      rw [← multiple, sub_self, abs_zero] at near
      exact near.trans (by positivity)
    · refine close.trans ?_
      rw [div_le_div_iff₀ two_pos (by positivity)]
      calc (2 : ℚ) ^ exponent * 2 ^ 53 = 2 ^ (52 + exponent) * 2 := by
            rw [zpow_add₀ two_ne_zero]
            norm_num
            ring
        _ ≤ |exact| * 2 := by gcongr

end Rounding

section Residues

/-- What a mantissa and its residual bits say about a number. -/
def Marks (digits : ExtendedMantissa) (q : ℚ) : Prop :=
  match digits.roundBit, digits.stickyBit with
  | false, false => q = digits.mantissa
  | false, true => digits.mantissa < q ∧ q < digits.mantissa + 1 / 2
  | true, false => q = digits.mantissa + 1 / 2
  | true, true => digits.mantissa + 1 / 2 < q ∧ q < digits.mantissa + 1

variable {digits : ExtendedMantissa} {q : ℚ}

theorem Marks.bounds (marks : Marks digits q) : digits.mantissa ≤ q ∧ q < digits.mantissa + 1 := by
  obtain ⟨mantissa, roundBit, stickyBit⟩ := digits
  cases roundBit <;> cases stickyBit <;> simp only [Marks] at marks ⊢ <;> constructor <;> linarith

theorem Marks.rounded (marks : Marks digits q) : |(digits.roundedMantissa : ℚ) - q| ≤ 1 / 2 := by
  obtain ⟨mantissa, roundBit, stickyBit⟩ := digits
  rw [abs_le]
  cases roundBit <;> cases stickyBit <;>
    simp only [Marks, ExtendedMantissa.roundedMantissa, ExtendedMantissa.accuracy,
      Accuracy.roundToNearestEven] at marks ⊢
  · constructor <;> linarith
  · constructor <;> linarith
  · have parity : ((mantissa % 2 : ℕ) : ℚ) ≤ 1 := by exact_mod_cast Nat.lt_succ_iff.mp (Nat.mod_lt mantissa two_pos)
    have least : (0 : ℚ) ≤ (mantissa % 2 : ℕ) := Nat.cast_nonneg _
    push_cast
    constructor <;> linarith
  · push_cast
    constructor <;> linarith

theorem Marks.shiftRightOne (marks : Marks digits q) : Marks digits.shiftRightOne (q / 2) := by
  obtain ⟨mantissa, roundBit, stickyBit⟩ := digits
  have halves : (mantissa : ℚ) = (mantissa % 2 : ℕ) + 2 * (mantissa / 2 : ℕ) := by
    exact_mod_cast (Nat.mod_add_div mantissa 2).symm
  rcases Nat.mod_two_eq_zero_or_one mantissa with parity | parity <;> rw [parity] at halves <;>
    cases roundBit <;> cases stickyBit <;>
    simp [Marks, ExtendedMantissa.shiftRightOne, parity] at marks halves ⊢ <;>
    (try constructor) <;> linarith

theorem Marks.shiftRight (marks : Marks digits q) (count : Nat) : Marks (digits >>> count) (q / 2 ^ count) := by
  change Marks (count.repeat ExtendedMantissa.shiftRightOne digits) _
  induction count with
  | zero => simpa [Nat.repeat] using marks
  | succ count ih =>
    rw [Nat.repeat, pow_succ, ← div_div]
    exact ih.shiftRightOne

theorem mantissa_ofMantissaAndAccuracy (mantissa : Nat) (accuracy : Accuracy) :
    (ExtendedMantissa.ofMantissaAndAccuracy mantissa accuracy).mantissa = mantissa := by
  rcases accuracy with _ | (_ | _ | _) <;> rfl

theorem marks_exact (mantissa : Nat) : Marks (.ofMantissaAndAccuracy mantissa .exact) mantissa := rfl

theorem marks_quotient (dividend : Nat) {divisor : Nat} (positive : 0 < divisor) :
    Marks (.ofMantissaAndAccuracy (dividend / divisor) (accuracyOfFraction (dividend % divisor) divisor))
      (dividend / divisor : ℚ) := by
  have unit : (0 : ℚ) < divisor := by exact_mod_cast positive
  have short : ((dividend % divisor : ℕ) : ℚ) < divisor := by exact_mod_cast Nat.mod_lt dividend positive
  rw [quotient_split dividend positive]
  generalize dividend / divisor = quotient, dividend % divisor = rest at short
  rw [accuracyOfFraction]
  split
  next none => simp [none, Marks, ExtendedMantissa.ofMantissaAndAccuracy]
  next some =>
    have some : (0 : ℚ) < rest := by exact_mod_cast Nat.pos_of_ne_zero some
    have below : (rest / divisor : ℚ) < 1 := (div_lt_one unit).mpr short
    have above : (0 : ℚ) < rest / divisor := by positivity
    rcases lt_trichotomy (2 * rest) divisor with less | same | more
    · rw [compare_lt_iff_lt.mpr less]
      have less : (rest / divisor : ℚ) < 1 / 2 := by
        rw [div_lt_div_iff₀ unit two_pos, one_mul, mul_comm]
        exact_mod_cast less
      exact ⟨lt_add_of_pos_right _ above, (add_lt_add_iff_left _).mpr less⟩
    · rw [compare_eq_iff_eq.mpr same]
      have half : (rest / divisor : ℚ) = 1 / 2 := by
        rw [div_eq_div_iff unit.ne' two_ne_zero, one_mul, mul_comm]
        exact_mod_cast same
      exact congrArg _ half
    · rw [compare_gt_iff_gt.mpr more]
      have more : (1 / 2 : ℚ) < rest / divisor := by
        rw [div_lt_div_iff₀ two_pos unit, one_mul, mul_comm]
        exact_mod_cast more
      exact ⟨(add_lt_add_iff_left _).mpr more, (add_lt_add_iff_left _).mpr below⟩

end Residues

section Settling

def signed : Sign → ℚ → ℚ
  | .positive, q => q
  | .negative, q => -q

theorem abs_signed (sign : Sign) (q : ℚ) : |signed sign q| = |q| := by
  cases sign with
  | positive => rfl
  | negative => exact abs_neg q

theorem reading_finite {sign : Sign} {mantissa : Nat} {exponent : Int} {positive : 0 < mantissa} :
    reading (.finite sign mantissa exponent positive) = signed sign (mantissa * 2 ^ exponent) := by
  cases sign <;> rfl

theorem Rounded.signed {exact result : ℚ} (rounded : Rounded exact result) (sign : Sign) :
    Rounded (signed sign exact) (signed sign result) := by
  cases sign with
  | positive => exact rounded
  | negative =>
    cases rounded with
    | @grid digits exponent low fine close =>
      have negated : -(digits * 2 ^ exponent : ℚ) = (-digits : ℤ) * 2 ^ exponent := by
        rw [Int.cast_neg, neg_mul]
      rw [DoubleRounding.signed, DoubleRounding.signed, negated]
      refine .grid low (by rwa [abs_neg]) ?_
      rwa [← negated, neg_sub_neg, abs_sub_comm]

theorem rounded_zero : Rounded 0 0 := by
  have rounded := @Rounded.grid 0 0 (-1074) le_rfl (.inl rfl) (by simp; positivity)
  rwa [Int.cast_zero, zero_mul] at rounded

theorem Rounded.kept {mantissa : Nat} {exponent : Int} (trim : Trim mantissa exponent) :
    Rounded (mantissa * 2 ^ exponent) (mantissa * 2 ^ exponent) := by
  have unit : (0 : ℚ) < 2 ^ exponent := by positivity
  have close : |((mantissa : ℤ) : ℚ) * 2 ^ exponent - mantissa * 2 ^ exponent| ≤ 2 ^ exponent / 2 := by
    rw [Int.cast_natCast, sub_self, abs_zero]
    positivity
  refine .grid trim.low (trim.full.symm.imp_right fun full => ?_) close
  have full : (2 ^ 52 : ℚ) ≤ mantissa := by exact_mod_cast full
  rw [abs_of_nonneg (by positivity), zpow_add₀ two_ne_zero]
  gcongr
  exact_mod_cast full

/-- A number in the form of doubles that is the exact one, rounded. -/
inductive Settles (exact : ℚ) : UnpackedFloat → Prop
  | zero (sign : Sign) (rounded : Rounded exact 0) : Settles exact (.zero sign)
  | finite {sign : Sign} {mantissa : Nat} {exponent : Int} {positive : 0 < mantissa} (trim : Trim mantissa exponent)
      (rounded : Rounded exact (signed sign (mantissa * 2 ^ exponent))) :
      Settles exact (.finite sign mantissa exponent positive)

theorem target_eq (mantissa : Nat) (exponent : Int) :
    Format.binary64.targetExponent (totalExponent mantissa exponent) = max (mantissa.log2 + exponent - 52) (-1074) := by
  simp only [Format.targetExponent, totalExponent, Format.mantissaBits, Format.minExponent]
  omega

/-- A scale on which a magnitude has at most 53 binary digits, and so many unless no scale
is finer. -/
structure Scaled (exact : ℚ) (scale : ℤ) : Prop where
  low : -1074 ≤ scale
  full : scale = -1074 ∨ 2 ^ (52 + scale) ≤ exact
  short : exact < 2 ^ (53 + scale)

theorem scaled_target {mantissa : Nat} {exponent : Int} {exact : ℚ} (least : mantissa * 2 ^ exponent ≤ exact)
    (most : exact < (mantissa + 1) * 2 ^ exponent) (wide : exponent ≤ max (mantissa.log2 + exponent - 52) (-1074)) :
    Scaled exact (max (mantissa.log2 + exponent - 52) (-1074)) := by
  refine ⟨by omega, ?_, ?_⟩
  · by_cases bottom : mantissa.log2 + exponent - 52 ≤ -1074
    · exact .inl (max_eq_right bottom)
    · refine .inr (le_trans ?_ least)
      have some : mantissa ≠ 0 := by
        intro none
        simp only [none, Nat.log2_zero, Nat.cast_zero] at wide bottom
        omega
      have digits : (2 ^ mantissa.log2 : ℚ) ≤ mantissa := by exact_mod_cast Nat.log2_self_le some
      rw [max_eq_left (by omega), add_sub_cancel, zpow_add₀ two_ne_zero, zpow_natCast]
      gcongr
  · have digits : (mantissa + 1 : ℚ) ≤ 2 ^ (mantissa.log2 + 1) := by exact_mod_cast @Nat.lt_log2_self mantissa
    calc exact < (mantissa + 1) * 2 ^ exponent := most
      _ ≤ 2 ^ (mantissa.log2 + 1) * 2 ^ exponent := by gcongr
      _ = 2 ^ ((mantissa.log2 + 1 : ℕ) + exponent) := by rw [zpow_add₀ two_ne_zero, zpow_natCast]
      _ ≤ 2 ^ (53 + max (mantissa.log2 + exponent - 52) (-1074)) := by
        refine zpow_le_zpow_right₀ one_le_two ?_
        push_cast
        omega

theorem shift_trim {mantissa : Nat} {exponent : Int} (short : mantissa < 2 ^ 53) (low : -1074 ≤ exponent) :
    shiftToTargetExponent Format.binary64 mantissa exponent .exact = (⟨mantissa, false, false⟩, exponent) := by
  have log : mantissa.log2 ≤ 52 := by
    by_cases empty : mantissa = 0
    · simp [empty]
    · have := (Nat.log2_lt empty).mpr short
      omega
  have still : (max (mantissa.log2 + exponent - 52) (-1074) - exponent).toNat = 0 := by omega
  rw [shiftToTargetExponent, target_eq, shiftToExponent, still]
  simp only [Nat.cast_zero, add_zero]
  rfl

theorem shift_carry {exponent : Int} (low : -1074 ≤ exponent) :
    shiftToTargetExponent Format.binary64 (2 ^ 53) exponent .exact = (⟨2 ^ 52, false, false⟩, exponent + 1) := by
  have once : (max ((2 ^ 53 : Nat).log2 + exponent - 52) (-1074) - exponent).toNat = 1 := by
    rw [Nat.log2_two_pow]
    omega
  rw [shiftToTargetExponent, target_eq, shiftToExponent, once]
  rfl

section Digits

variable {exact : ℚ} {scale : ℤ} {digits : ℕ} (scaled : Scaled exact scale)
  (close : |digits - exact / 2 ^ scale| ≤ 1 / 2)

include scaled close

theorem Scaled.rounded : Rounded exact (digits * 2 ^ scale) := by
  have unit : (0 : ℚ) < 2 ^ scale := by positivity
  have near : |((digits : ℤ) : ℚ) * 2 ^ scale - exact| ≤ 2 ^ scale / 2 := by
    have apart : ((digits : ℤ) : ℚ) * 2 ^ scale - exact = (digits - exact / 2 ^ scale) * 2 ^ scale := by
      push_cast
      field_simp
    rw [apart, abs_mul, abs_of_pos unit]
    linarith [mul_le_mul_of_nonneg_right close unit.le]
  exact .grid scaled.low (scaled.full.imp_right fun large => large.trans (le_abs_self exact)) near

theorem Scaled.digits_le : digits ≤ 2 ^ 53 := by
  have short : exact / 2 ^ scale < 2 ^ 53 := by
    rw [div_lt_iff₀ (by positivity), ← zpow_natCast, ← zpow_add₀ two_ne_zero]
    exact scaled.short
  have bound : (digits : ℚ) < (2 ^ 53 + 1 : ℕ) := by
    push_cast
    linarith [(abs_le.mp close).2]
  exact Nat.lt_succ_iff.mp (by exact_mod_cast bound)

theorem Scaled.digits_full : 2 ^ 52 ≤ digits ∨ scale = -1074 := by
  rcases scaled.full with bottom | large
  · exact .inr bottom
  · have long : 2 ^ 52 ≤ exact / 2 ^ scale := by
      rw [le_div_iff₀ (by positivity), ← zpow_natCast, ← zpow_add₀ two_ne_zero]
      exact large
    have bound : ((2 ^ 52 : ℕ) : ℚ) < (digits + 1 : ℕ) := by
      push_cast
      linarith [(abs_le.mp close).1]
    exact .inl (Nat.lt_succ_iff.mp (by exact_mod_cast bound))

/-- Rounding may carry into one more digit; a second shift makes room for it. -/
theorem Scaled.settles (sign : Sign) {final : ExtendedMantissa × Int}
    (shifted : shiftToTargetExponent Format.binary64 digits scale .exact = final) :
    Settles (signed sign exact) (if empty : final.1.mantissa = 0 then .zero sign
      else .finite sign final.1.mantissa final.2 (Nat.pos_of_ne_zero empty)) := by
  have rounded := (scaled.rounded close).signed sign
  have low := scaled.low
  rcases (scaled.digits_le close).lt_or_eq with short | carry
  · rw [shift_trim short low] at shifted
    subst shifted
    split
    next empty =>
      have none : signed sign (digits * 2 ^ scale : ℚ) = 0 := by
        rw [show digits = 0 from empty, Nat.cast_zero, zero_mul]
        cases sign <;> simp [signed]
      rw [none] at rounded
      exact .zero sign rounded
    next => exact .finite ⟨short, low, scaled.digits_full close⟩ rounded
  · rw [carry, shift_carry low] at shifted
    subst shifted
    rw [dif_neg (by norm_num)]
    refine .finite ⟨by norm_num, by omega, .inl le_rfl⟩ ?_
    have same : ((2 ^ 52 : ℕ) : ℚ) * 2 ^ (scale + 1) = digits * 2 ^ scale := by
      rw [carry, zpow_add_one₀ two_ne_zero]
      push_cast
      ring
    rw [same]
    exact rounded

end Digits

theorem round_settles (sign : Sign) {mantissa : Nat} {exponent : Int} {accuracy : Accuracy} {exact : ℚ}
    (marks : Marks (.ofMantissaAndAccuracy mantissa accuracy) (exact / 2 ^ exponent))
    (wide : exponent ≤ max (mantissa.log2 + exponent - 52) (-1074)) :
    Settles (signed sign exact) (roundWithAccuracy Format.binary64 sign mantissa exponent accuracy) := by
  have unit : (0 : ℚ) < 2 ^ exponent := by positivity
  obtain ⟨least, most⟩ := marks.bounds
  rw [mantissa_ofMantissaAndAccuracy] at least most
  rw [le_div_iff₀ unit] at least
  rw [div_lt_iff₀ unit] at most
  have scaled := scaled_target least most wide
  obtain ⟨target, known⟩ : ∃ target, max (mantissa.log2 + exponent - 52) (-1074) = target := ⟨_, rfl⟩
  rw [known] at wide scaled
  have shift : ((target - exponent).toNat : Int) = target - exponent := by omega
  have close := (marks.shiftRight (target - exponent).toNat).rounded
  rw [div_div, ← zpow_natCast, ← zpow_add₀ two_ne_zero, shift, add_sub_cancel] at close
  rw [roundWithAccuracy, shiftToTargetExponent, target_eq, known, shiftToExponent]
  simp only [shift, add_sub_cancel]
  exact scaled.settles close sign rfl

theorem shifted_left (mantissa shift : Nat) (exponent : Int) :
    ((mantissa <<< shift : ℕ) : ℚ) * 2 ^ (exponent - shift) = mantissa * 2 ^ exponent := by
  rw [Nat.shiftLeft_eq, zpow_sub₀ two_ne_zero, zpow_natCast]
  push_cast
  field_simp

theorem log2_shifted {mantissa : Nat} (positive : 0 < mantissa) (shift : Nat) :
    (mantissa <<< shift).log2 = mantissa.log2 + shift := by
  rw [Nat.shiftLeft_eq, Nat.log2_eq_iff (by positivity), pow_add, add_right_comm, pow_add]
  exact ⟨Nat.mul_le_mul_right _ (Nat.log2_self_le positive.ne'), Nat.mul_lt_mul_of_pos_right Nat.lt_log2_self (by positivity)⟩

theorem magnitude_settles (sign : Sign) {mantissa : Nat} (positive : 0 < mantissa) (exponent : Int) :
    Settles (signed sign (mantissa * 2 ^ exponent)) (UnpackedFloat.round Format.binary64 sign mantissa exponent) := by
  rw [UnpackedFloat.round, target_eq, decreaseExponent]
  have wide := log2_shifted positive (exponent - max (mantissa.log2 + exponent - 52) (-1074)).toNat
  have same := shifted_left mantissa (exponent - max (mantissa.log2 + exponent - 52) (-1074)).toNat exponent
  rw [← same]
  refine round_settles sign ?_ ?_
  · rw [mul_div_cancel_right₀ _ (by positivity)]
    exact marks_exact _
  · rw [wide]
    push_cast
    omega

theorem normalize_settles (mantissa exponent : Int) (zeroSign : Sign) :
    Settles (mantissa * 2 ^ exponent) (UnpackedFloat.normalize Format.binary64 mantissa exponent zeroSign) := by
  rw [UnpackedFloat.normalize]
  rcases lt_trichotomy mantissa 0 with less | rfl | more
  · rw [compare_lt_iff_lt.mpr less]
    have settles := magnitude_settles .negative (show 0 < (-mantissa).toNat by omega) exponent
    have same : (((-mantissa).toNat : ℕ) : ℚ) = -mantissa := by exact_mod_cast Int.toNat_of_nonneg (by omega)
    rw [same, signed, neg_mul, neg_neg] at settles
    exact settles
  · rw [compare_eq_iff_eq.mpr rfl, Int.cast_zero, zero_mul]
    exact .zero zeroSign rounded_zero
  · rw [compare_gt_iff_gt.mpr more]
    have settles := magnitude_settles .positive (show 0 < mantissa.toNat by omega) exponent
    have same : ((mantissa.toNat : ℕ) : ℚ) = mantissa := by exact_mod_cast Int.toNat_of_nonneg (by omega)
    rw [same] at settles
    exact settles
end Settling

end Reckoner.Proofs.DoubleRounding
