import Mathlib
import Reckoner.Chart.Coordinate

/-! The values of doubles, as rational numbers. Packing a number into a double and taking it
out again loses nothing but exponents that are too large, finite doubles compare as their
values do, and the nearest whole number is at most a half away from the value. -/

namespace Reckoner.Proofs.DoubleValues
open Number Float.Model Float.Model.UnpackedFloat

def decoded (x : Float) : UnpackedFloat := x.toModel.unpack

/-- What a number stands for; infinities and NaN stand for nothing, and count as zero. -/
def reading : UnpackedFloat → ℚ
  | .finite .positive mantissa exponent _ => mantissa * 2 ^ exponent
  | .finite .negative mantissa exponent _ => -(mantissa * 2 ^ exponent)
  | _ => 0

def value (x : Float) : ℚ := reading (decoded x)

/-- The form in which a double keeps a magnitude: the mantissa has 53 digits, or fewer at
the least exponent. -/
structure Trim (mantissa : Nat) (exponent : Int) : Prop where
  short : mantissa < 2 ^ 53
  low : -1074 ≤ exponent
  full : 2 ^ 52 ≤ mantissa ∨ exponent = -1074

def Canonical : UnpackedFloat → Prop
  | .finite _ mantissa exponent _ => Trim mantissa exponent
  | _ => True

section Decoding

theorem mantissa_toNat (bits : BitVec 64) : (@unpackMantissa Format.binary64 bits).toNat = bits.toNat % 2 ^ 52 := by
  change (bits.extractLsb' 0 52).toNat = _
  simp

theorem exponent_toNat (bits : BitVec 64) :
    (@unpackExponent Format.binary64 bits).toNat = bits.toNat / 2 ^ 52 % 2048 := by
  change (bits.extractLsb' 52 11).toNat = _
  simp [Nat.shiftRight_eq_div_pow]

theorem sign_eq (bits : BitVec 64) : Sign.ofBitVec (@unpackSign Format.binary64 bits) =
    if 2048 ≤ bits.toNat / 2 ^ 52 then .negative else .positive := by
  have bound := bits.isLt
  have top : (@unpackSign Format.binary64 bits).toNat = bits.toNat / 2 ^ 63 % 2 := by
    change (bits.extractLsb' 63 1).toNat = _
    simp [Nat.shiftRight_eq_div_pow]
  have clear : @unpackSign Format.binary64 bits = 0#1 ↔ ¬2048 ≤ bits.toNat / 2 ^ 52 := by
    rw [← BitVec.toNat_inj, top]
    simp only [BitVec.toNat_ofNat]
    omega
  simp only [Sign.ofBitVec, clear, ite_not]

theorem leading_toNat (bits : BitVec 52) : (1#1 ++ bits).toNat = bits.toNat + 2 ^ 52 := by
  simp only [BitVec.toNat_append, Nat.shiftLeft_eq]
  rw [Nat.or_comm]
  exact Nat.or_two_pow_eq_add_of_lt bits.isLt

theorem bias_eq : (Format.binary64.exponentBias : Int) = 1023 := rfl

/-- The parts of a double agree with the number it is decoded to. -/
inductive Decodes : Option Parts → UnpackedFloat → Prop
  | finite {parts : Parts} {sign : Sign} {mantissa : Nat} {exponent : Int} (positive : 0 < mantissa)
      (signed : sign = if parts.negative then .negative else .positive) (digits : mantissa = parts.mantissa)
      (scale : exponent = parts.exponent) (trim : Trim mantissa exponent) (high : exponent ≤ 971) :
      Decodes (some parts) (.finite sign mantissa exponent positive)
  | zero {parts : Parts} (sign : Sign) (digits : parts.mantissa = 0) : Decodes (some parts) (.zero sign)
  | infinity (sign : Sign) : Decodes none (.infinity sign)
  | notANumber : Decodes none .notANumber

theorem decodes (x : Float) : Decodes (parts? x) (decoded x) := by
  generalize same : x.toModel.toBits.toBitVec = bits
  have fraction := mantissa_toNat bits
  have biased := exponent_toNat bits
  have known : parts? x = if bits.toNat / 2 ^ 52 % 2048 = 2047 then none
    else if bits.toNat / 2 ^ 52 % 2048 = 0 then some ⟨2048 ≤ bits.toNat / 2 ^ 52, bits.toNat % 2 ^ 52, -1074⟩
    else some ⟨2048 ≤ bits.toNat / 2 ^ 52, bits.toNat % 2 ^ 52 + 2 ^ 52, (bits.toNat / 2 ^ 52 % 2048 : Nat) - 1075⟩ := by
    rw [← same]
    rfl
  have top : @unpackExponent Format.binary64 bits = -1#_ ↔ bits.toNat / 2 ^ 52 % 2048 = 2047 := by
    rw [← BitVec.toNat_inj, biased]
    rfl
  have bottom : @unpackExponent Format.binary64 bits = 0#_ ↔ bits.toNat / 2 ^ 52 % 2048 = 0 := by
    rw [← BitVec.toNat_inj, biased]
    rfl
  have empty : @unpackMantissa Format.binary64 bits = 0#_ ↔ bits.toNat % 2 ^ 52 = 0 := by
    rw [← BitVec.toNat_inj, fraction]
    rfl
  rw [known, decoded, Float.Model.unpack, same, UnpackedFloat.unpack]
  simp only [sign_eq, top, bottom]
  split
  · split
    · exact .infinity _
    · exact .notANumber
  · split
    · split
      next none => exact .zero _ (empty.mp none)
      next some =>
        rw [empty] at some
        refine .finite _ (by simp) fraction (by simp only [biased, bias_eq]; omega) ⟨?_, ?_, ?_⟩ ?_ <;>
          simp only [biased, bias_eq, fraction] <;> omega
    · refine .finite _ (by simp) (by rw [leading_toNat, fraction]) (by simp only [biased, bias_eq]; omega)
        ⟨?_, ?_, ?_⟩ ?_ <;>
        simp only [biased, bias_eq, fraction, leading_toNat] <;> omega

theorem Decodes.canonical {parts : Option Parts} {number : UnpackedFloat} (given : Decodes parts number) :
    Canonical number := by
  cases given with
  | finite positive signed digits scale trim high => exact trim
  | _ => trivial

theorem canonical (x : Float) : Canonical (decoded x) := (decodes x).canonical

theorem infinite_form {number : UnpackedFloat} (infinite : number.isInf) : ∃ sign, number = .infinity sign := by
  cases number with
  | notANumber | zero | finite => cases infinite
  | infinity sign => exact ⟨sign, rfl⟩

theorem finite_otherwise {x : Float} (bounded : ¬ x.isInf) (known : ¬ x.isNaN) : x.isFinite := by
  change ¬ (decoded x).isInf at bounded
  change ¬ (decoded x).isNaN at known
  change (decoded x).isFinite
  cases number : decoded x with
  | notANumber => exact absurd (number ▸ rfl) known
  | infinity sign => exact absurd (number ▸ rfl) bounded
  | zero | finite => rfl

end Decoding

section Packing

/-- Exponents that are too large for a double make it infinite. -/
def clipped : UnpackedFloat → UnpackedFloat
  | .finite sign mantissa exponent positive =>
    if exponent ≤ 971 then .finite sign mantissa exponent positive else .infinity sign
  | other => other

theorem unpack_normal {sign : Sign} {exponent : BitVec 11} {mantissa : BitVec 52} (bounded : exponent.toNat ≠ 2047)
    (normal : exponent.toNat ≠ 0) (positive : 0 < (1#1 ++ mantissa).toNat) :
    UnpackedFloat.unpack Format.binary64 (packComponents Format.binary64 sign exponent mantissa) =
      .finite sign (1#1 ++ mantissa).toNat (exponent.toNat - 1075) positive := by
  have top : exponent ≠ -1#_ := fun same => bounded (by rw [same]; rfl)
  have bottom : exponent ≠ 0#_ := fun same => normal (by rw [same]; rfl)
  simp only [UnpackedFloat.unpack, unpackExponent_packComponents, unpackMantissa_packComponents,
    unpackSign_packComponents, Sign.ofBitVec_toBitVec, if_neg top, if_neg bottom, bias_eq]
  rfl

theorem unpack_subnormal {sign : Sign} {mantissa : BitVec 52} (positive : 0 < mantissa.toNat) :
    UnpackedFloat.unpack Format.binary64 (packComponents Format.binary64 sign 0#11 mantissa) =
      .finite sign mantissa.toNat (-1074) positive := by
  have some : mantissa ≠ 0#_ := fun same => positive.ne' (by rw [same]; rfl)
  simp only [UnpackedFloat.unpack, unpackExponent_packComponents, unpackMantissa_packComponents,
    unpackSign_packComponents, Sign.ofBitVec_toBitVec, dif_neg some]
  rfl

theorem decoded_pack {number : UnpackedFloat} (canonical : Canonical number) :
    decoded (.ofModel (.pack number)) = clipped number := by
  match number with
  | .notANumber => rfl
  | .infinity .negative => rfl
  | .infinity .positive => rfl
  | .zero .negative => rfl
  | .zero .positive => rfl
  | .finite sign mantissa exponent positive =>
    obtain ⟨short, low, full⟩ := canonical
    have base : (exponent + Format.binary64.exponentBias + Format.binary64.mantissaBitsWithoutImplicit).toNat =
        (exponent + 1075).toNat := by
      simp only [bias_eq]
      omega
    change UnpackedFloat.unpack Format.binary64 (UnpackedFloat.pack Format.binary64 _) = _
    rw [UnpackedFloat.pack]
    simp only [base]
    rw [clipped]
    by_cases high : exponent ≤ 971
    · rw [if_neg (by simp; omega), if_pos high]
      by_cases normal : 2 ^ 52 ≤ mantissa
      · have log : mantissa.log2 = 52 := (Nat.log2_eq_iff positive.ne').mpr ⟨normal, short⟩
        have biased : (BitVec.ofNat 11 (exponent + 1075).toNat).toNat = (exponent + 1075).toNat := by
          rw [BitVec.toNat_ofNat, Nat.mod_eq_of_lt (by omega)]
        have digits : (1#1 ++ BitVec.ofNat 52 mantissa).toNat = mantissa := by
          rw [leading_toNat, BitVec.toNat_ofNat]
          omega
        rw [log, if_pos (by rfl), unpack_normal (by omega) (by omega) (by omega)]
        congr 1
        omega
      · have log : mantissa.log2 < 52 := (Nat.log2_lt positive.ne').mpr (by omega)
        have digits : (BitVec.ofNat 52 mantissa).toNat = mantissa := by
          rw [BitVec.toNat_ofNat, Nat.mod_eq_of_lt (by omega)]
        rw [if_neg (by change mantissa.log2 + 1 ≠ 53; omega), unpack_subnormal (by omega)]
        congr 1
        omega
    · rw [if_pos (by simp; omega), if_neg high]
      cases sign <;> rfl

end Packing

section Order

variable {mantissa mantissa' : Nat} {exponent exponent' : Int}

theorem scaled_pos (exponent : Int) (positive : 0 < mantissa) : (0 : ℚ) < mantissa * 2 ^ exponent := by
  positivity

/-- The larger exponent wins, because a mantissa that could make up for it would have been
shortened. -/
theorem scaled_lt (trim : Trim mantissa exponent) (trim' : Trim mantissa' exponent') (less : exponent < exponent') :
    (mantissa * 2 ^ exponent : ℚ) < mantissa' * 2 ^ exponent' := by
  have full : 2 ^ 52 ≤ mantissa' := trim'.full.resolve_right (by have := trim.low; omega)
  have short : (mantissa : ℚ) < 2 ^ 53 := by exact_mod_cast trim.short
  have long : (2 ^ 52 : ℚ) ≤ mantissa' := by exact_mod_cast full
  calc (mantissa * 2 ^ exponent : ℚ)
      < 2 ^ 53 * 2 ^ exponent := by gcongr
    _ = 2 ^ 52 * 2 ^ (exponent + 1) := by
        rw [zpow_add_one₀ two_ne_zero]
        ring
    _ ≤ 2 ^ 52 * 2 ^ exponent' := by
        gcongr
        · norm_num
        · omega
    _ ≤ mantissa' * 2 ^ exponent' := by gcongr

theorem compare_scaled (trim : Trim mantissa exponent) (trim' : Trim mantissa' exponent') :
    (compare exponent exponent').then (compare mantissa mantissa') =
      compare (mantissa * 2 ^ exponent : ℚ) (mantissa' * 2 ^ exponent') := by
  rcases lt_trichotomy exponent exponent' with less | rfl | more
  · rw [compare_lt_iff_lt.mpr less, compare_lt_iff_lt.mpr (scaled_lt trim trim' less), Ordering.lt_then]
  · rw [compare_eq_iff_eq.mpr (Eq.refl exponent), Ordering.eq_then]
    rcases lt_trichotomy mantissa mantissa' with less | rfl | more
    · rw [compare_lt_iff_lt.mpr less, compare_lt_iff_lt.mpr (by gcongr)]
    · rw [compare_eq_iff_eq.mpr rfl, compare_eq_iff_eq.mpr rfl]
    · rw [compare_gt_iff_gt.mpr more, compare_gt_iff_gt.mpr (by gcongr)]
  · rw [compare_gt_iff_gt.mpr more, compare_gt_iff_gt.mpr (scaled_lt trim' trim more), Ordering.gt_then]

theorem compare_negated (p q : ℚ) : compare (-p) (-q) = (compare p q).swap := by
  rcases lt_trichotomy p q with less | rfl | more
  · rw [compare_lt_iff_lt.mpr less, compare_gt_iff_gt.mpr (neg_lt_neg less), Ordering.swap]
  · rw [compare_eq_iff_eq.mpr rfl, compare_eq_iff_eq.mpr rfl, Ordering.swap]
  · rw [compare_gt_iff_gt.mpr more, compare_lt_iff_lt.mpr (neg_lt_neg more), Ordering.swap]

theorem compare_reading {a b : UnpackedFloat} (canonical : Canonical a) (canonical' : Canonical b)
    (finite : a.isFinite) (finite' : b.isFinite) : a.compare b = some (compare (reading a) (reading b)) := by
  cases a with
  | notANumber | infinity => cases finite
  | zero sign =>
    cases b with
    | notANumber | infinity => cases finite'
    | zero sign' => exact congrArg some (compare_eq_iff_eq.mpr rfl).symm
    | finite sign' mantissa' exponent' positive' =>
      have larger := scaled_pos exponent' positive'
      cases sign' with
      | positive => exact congrArg some (compare_lt_iff_lt.mpr larger).symm
      | negative => exact congrArg some (compare_gt_iff_gt.mpr (neg_neg_of_pos larger)).symm
  | finite sign mantissa exponent positive =>
    have larger := scaled_pos exponent positive
    cases b with
    | notANumber | infinity => cases finite'
    | zero sign' =>
      cases sign with
      | positive => exact congrArg some (compare_gt_iff_gt.mpr larger).symm
      | negative => exact congrArg some (compare_lt_iff_lt.mpr (neg_neg_of_pos larger)).symm
    | finite sign' mantissa' exponent' positive' =>
      have larger' := scaled_pos exponent' positive'
      cases sign with
      | positive =>
        cases sign' with
        | positive => exact congrArg some (compare_scaled canonical canonical')
        | negative => exact congrArg some (compare_gt_iff_gt.mpr ((neg_neg_of_pos larger').trans larger)).symm
      | negative =>
        cases sign' with
        | positive => exact congrArg some (compare_lt_iff_lt.mpr ((neg_neg_of_pos larger).trans larger')).symm
        | negative =>
          rw [reading, reading, compare_negated, ← compare_scaled canonical canonical']
          rfl

theorem finite_between {low middle high : UnpackedFloat} (finite : low.isFinite) (finite' : high.isFinite)
    (above : low.le middle) (below : middle.le high) : middle.isFinite := by
  match middle with
  | .zero _ => rfl
  | .finite .. => rfl
  | .notANumber => cases low <;> exact absurd above Bool.false_ne_true
  | .infinity .negative =>
    cases low with
    | zero | finite | notANumber => exact absurd above Bool.false_ne_true
    | infinity => exact finite
  | .infinity .positive =>
    cases high with
    | zero | finite | notANumber => exact absurd below Bool.false_ne_true
    | infinity => exact finite'

variable {a b : Float}

theorem compare_value (finite : a.isFinite) (finite' : b.isFinite) :
    (decoded a).compare (decoded b) = some (compare (value a) (value b)) :=
  compare_reading (canonical a) (canonical b) finite finite'

theorem le_iff_decoded : a ≤ b ↔ (decoded a).le (decoded b) := by
  change decide ((decoded a).le (decoded b)) = true ↔ _
  rw [decide_eq_true_iff]

theorem le_iff (finite : a.isFinite) (finite' : b.isFinite) : a ≤ b ↔ value a ≤ value b := by
  rw [le_iff_decoded, UnpackedFloat.le, compare_value finite finite', Option.any_some, Ordering.isLE_iff_ne_gt]
  exact compare_le_iff_le

theorem lt_iff (finite : a.isFinite) (finite' : b.isFinite) : a < b ↔ value a < value b := by
  change decide ((decoded a).lt (decoded b)) = true ↔ _
  rw [decide_eq_true_iff, UnpackedFloat.lt, compare_value finite finite', beq_iff_eq, Option.some.injEq,
    compare_lt_iff_lt]

theorem beq_iff (finite : a.isFinite) (finite' : b.isFinite) : (a == b) = true ↔ value a = value b := by
  change (decoded a).beq (decoded b) = true ↔ _
  rw [UnpackedFloat.beq, compare_value finite finite', beq_iff_eq, Option.some.injEq, compare_eq_iff_eq]

end Order

section Nearest

theorem quotient_split (dividend : Nat) {divisor : Nat} (positive : 0 < divisor) :
    (dividend / divisor : ℚ) = (dividend / divisor : ℕ) + (dividend % divisor : ℕ) / divisor := by
  have unit : (divisor : ℚ) ≠ 0 := by exact_mod_cast positive.ne'
  rw [← sub_eq_iff_eq_add', eq_comm, div_eq_iff unit, sub_mul, div_mul_cancel₀ _ unit, eq_sub_iff_add_eq]
  exact_mod_cast Nat.mod_add_div' dividend divisor

theorem nearestEven_close (numerator : Nat) {denominator : Nat} (positive : 0 < denominator) :
    |(nearestEven numerator denominator : ℚ) - numerator / denominator| ≤ 1 / 2 := by
  have unit : (0 : ℚ) < denominator := by exact_mod_cast positive
  have short : ((numerator % denominator : ℕ) : ℚ) / denominator < 1 := by
    rw [div_lt_one unit]
    exact_mod_cast Nat.mod_lt numerator positive
  have least : (0 : ℚ) ≤ (numerator % denominator : ℕ) / denominator := by positivity
  have split := quotient_split numerator positive
  have down (low : 2 * (numerator % denominator) ≤ denominator) :
      |((numerator / denominator : ℕ) : ℚ) - numerator / denominator| ≤ 1 / 2 := by
    have low : ((numerator % denominator : ℕ) : ℚ) / denominator ≤ 1 / 2 := by
      rw [div_le_div_iff₀ unit two_pos, one_mul, mul_comm]
      exact_mod_cast low
    rw [split, abs_le]
    constructor <;> linarith
  have up (high : denominator ≤ 2 * (numerator % denominator)) :
      |((numerator / denominator + 1 : ℕ) : ℚ) - numerator / denominator| ≤ 1 / 2 := by
    have high : (1 / 2 : ℚ) ≤ (numerator % denominator : ℕ) / denominator := by
      rw [div_le_div_iff₀ two_pos unit, one_mul, mul_comm]
      exact_mod_cast high
    rw [split, abs_le]
    push_cast
    constructor <;> linarith
  rw [nearestEven]
  split
  · exact down (by omega)
  · split
    · exact up (by omega)
    · split
      · exact down (by omega)
      · exact up (by omega)

theorem numerator_div_denominator (parts : Parts) :
    (parts.numerator / parts.denominator : ℚ) = parts.mantissa * 2 ^ parts.exponent := by
  have balance : (2 : ℚ) ^ parts.exponent = 2 ^ parts.exponent.toNat / 2 ^ (-parts.exponent).toNat := by
    rw [← zpow_natCast, ← zpow_natCast, ← zpow_sub₀ two_ne_zero]
    congr 1
    omega
  have above : parts.numerator = parts.mantissa * 2 ^ parts.exponent.toNat := rfl
  have below : parts.denominator = 2 ^ (-parts.exponent).toNat := rfl
  rw [balance, above, below, ← mul_div_assoc]
  push_cast
  rfl

theorem Decodes.reading_eq {parts : Parts} {number : UnpackedFloat} (given : Decodes (some parts) number) :
    reading number =
      if parts.negative then -(parts.mantissa * 2 ^ parts.exponent : ℚ) else parts.mantissa * 2 ^ parts.exponent := by
  cases given with
  | zero sign digits => simp [reading, digits]
  | finite positive signed digits scale trim high =>
    subst signed digits scale
    split <;> rfl

theorem Decodes.rounded {parts : Parts} {number : UnpackedFloat} (given : Decodes (some parts) number) :
    |(parts.rounded : ℚ) - reading number| ≤ 1 / 2 := by
  have close := nearestEven_close parts.numerator parts.denominator_pos
  rw [numerator_div_denominator] at close
  rw [given.reading_eq, Parts.rounded, Parts.signed]
  split
  · rw [Int.cast_neg, Int.cast_natCast, neg_sub_neg, abs_sub_comm]
    exact close
  · exact close

/-- Cutting off the fraction does not lead away from zero. -/
theorem Decodes.truncated {parts : Parts} {number : UnpackedFloat} (given : Decodes (some parts) number) :
    |(parts.truncated : ℚ)| ≤ |reading number| := by
  have cut : ((parts.numerator / parts.denominator : ℕ) : ℚ) ≤ parts.mantissa * 2 ^ parts.exponent := by
    rw [← numerator_div_denominator]
    exact Nat.cast_div_le
  have size : |(parts.truncated : ℚ)| = ((parts.numerator / parts.denominator : ℕ) : ℚ) := by
    rw [Parts.truncated, Parts.signed]
    split
    · rw [Int.cast_neg, abs_neg, Int.cast_natCast, Nat.abs_cast]
    · rw [Int.cast_natCast, Nat.abs_cast]
  have exact : |reading number| = parts.mantissa * 2 ^ parts.exponent := by
    rw [given.reading_eq]
    split
    · rw [abs_neg, abs_of_nonneg (by positivity)]
    · rw [abs_of_nonneg (by positivity)]
  rw [size, exact]
  exact cut

theorem Decodes.isSome {parts : Option Parts} {number : UnpackedFloat} (given : Decodes parts number) :
    parts.isSome = number.isFinite := by
  cases given <;> rfl

theorem nearest_finite {x : Float} (finite : x.isFinite) :
    ∃ whole, Number.nearest x = .ok whole ∧ |(whole : ℚ) - value x| ≤ 1 / 2 := by
  have given := decodes x
  obtain ⟨parts, found⟩ := Option.isSome_iff_exists.mp (given.isSome.trans finite)
  rw [found] at given
  exact ⟨parts.rounded, by rw [Number.nearest, whole, found], given.rounded⟩

theorem truncate_finite {x : Float} (finite : x.isFinite) :
    ∃ whole, truncate x = .ok whole ∧ |(whole : ℚ)| ≤ |value x| := by
  have given := decodes x
  obtain ⟨parts, found⟩ := Option.isSome_iff_exists.mp (given.isSome.trans finite)
  rw [found] at given
  exact ⟨parts.truncated, by rw [truncate, Number.whole, found], given.truncated⟩

theorem nearest_unbounded {x : Float} (unbounded : x.isFinite = false) :
    Number.nearest x = .error (if x.isNaN then .roundingNaN else .roundingInfinity) := by
  have missing : parts? x = none := by
    have given := (decodes x).isSome.trans unbounded
    simpa using given
  rw [Number.nearest, whole, missing]

theorem nearest_infinite {x : Float} (infinite : x.isInf) : Number.nearest x = .error .roundingInfinity := by
  obtain ⟨sign, same⟩ : ∃ sign, decoded x = .infinity sign := infinite_form infinite
  have known : x.isNaN = false := congrArg UnpackedFloat.isNaN same
  rw [nearest_unbounded (congrArg UnpackedFloat.isFinite same), known]
  rfl

theorem nearest_notANumber {x : Float} (unknown : x.isNaN) : Number.nearest x = .error .roundingNaN := by
  have same : decoded x = .notANumber := isNaN_iff.mp unknown
  rw [nearest_unbounded (congrArg UnpackedFloat.isFinite same), if_pos unknown]

end Nearest

end Reckoner.Proofs.DoubleValues
