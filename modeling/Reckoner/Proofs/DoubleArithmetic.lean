import Reckoner.Proofs.DoubleRounding

/-! Arithmetic in doubles. The sum, difference, product or quotient of finite doubles is the
exact one, rounded, or infinite where that is out of range; whole numbers of 53 digits are
exact, and what is infinite or NaN never becomes finite again except as a divisor. -/

namespace Reckoner.Proofs.DoubleArithmetic
open Float.Model Float.Model.UnpackedFloat DoubleValues DoubleRounding

section Operations

theorem kept_settles {number : UnpackedFloat} (canonical : Canonical number) (finite : number.isFinite) :
    Settles (reading number) number := by
  cases number with
  | notANumber | infinity => cases finite
  | zero sign => exact .zero sign rounded_zero
  | finite sign mantissa exponent positive =>
    rw [reading_finite]
    exact .finite canonical ((Rounded.kept canonical).signed sign)

theorem apply_eq (sign : Sign) (mantissa : Nat) : ((sign.apply mantissa : ℤ) : ℚ) = signed sign mantissa := by
  cases sign <;> simp [Sign.apply, signed]

theorem signed_mul (sign : Sign) (p q : ℚ) : signed sign p * q = signed sign (p * q) := by
  cases sign
  · exact neg_mul p q
  · rfl

theorem decreased (mantissa : Nat) {exponent least : Int} (low : least ≤ exponent) :
    ((decreaseExponent mantissa exponent least).1 : ℚ) * 2 ^ least = mantissa * 2 ^ exponent := by
  have same := shifted_left mantissa (exponent - least).toNat exponent
  rwa [show exponent - ((exponent - least).toNat : Int) = least by omega] at same

theorem add_settles {a b : UnpackedFloat} (canonical : Canonical a) (canonical' : Canonical b) (finite : a.isFinite)
    (finite' : b.isFinite) : Settles (reading a + reading b) (UnpackedFloat.add Format.binary64 a b) := by
  cases a with
  | notANumber | infinity => cases finite
  | zero sign =>
    rw [show reading (.zero sign) = 0 from rfl, zero_add]
    cases b with
    | notANumber | infinity => cases finite'
    | zero sign' =>
      rw [UnpackedFloat.add]
      split
      · exact .zero _ rounded_zero
      · exact .zero _ rounded_zero
    | finite sign' mantissa' exponent' positive' => exact kept_settles canonical' finite'
  | finite sign mantissa exponent positive =>
    cases b with
    | notANumber | infinity => cases finite'
    | zero sign' =>
      rw [show reading (.zero sign') = 0 from rfl, add_zero]
      exact kept_settles canonical finite
    | finite sign' mantissa' exponent' positive' =>
      rw [reading_finite, reading_finite, ← decreased mantissa (min_le_left exponent exponent'),
        ← decreased mantissa' (min_le_right exponent exponent'), ← signed_mul, ← signed_mul, ← apply_eq, ← apply_eq,
        ← add_mul, ← Int.cast_add]
      exact normalize_settles _ _ _

theorem sub_eq_add (a b : UnpackedFloat) :
    UnpackedFloat.sub Format.binary64 a b = UnpackedFloat.add Format.binary64 a b.neg := by
  cases a with
  | notANumber => rfl
  | infinity sign => cases b <;> rfl
  | zero sign => cases b <;> rfl
  | finite sign mantissa exponent positive =>
    cases b with
    | notANumber | infinity | zero => rfl
    | finite sign' mantissa' exponent' positive' =>
      have negated (whole : Int) : (-sign').apply whole = -sign'.apply whole := by
        cases sign' with
        | negative => exact (neg_neg whole).symm
        | positive => rfl
      simp only [UnpackedFloat.sub, UnpackedFloat.add, UnpackedFloat.neg, negated, sub_eq_add_neg]

theorem reading_neg (number : UnpackedFloat) : reading number.neg = -reading number := by
  cases number with
  | notANumber | infinity | zero => exact neg_zero.symm
  | finite sign mantissa exponent positive =>
    cases sign with
    | positive => rfl
    | negative => exact (neg_neg _).symm

theorem isFinite_neg (number : UnpackedFloat) : number.neg.isFinite = number.isFinite := by
  cases number <;> rfl

theorem canonical_neg {number : UnpackedFloat} (canonical : Canonical number) : Canonical number.neg := by
  cases number <;> exact canonical

theorem sub_settles {a b : UnpackedFloat} (canonical : Canonical a) (canonical' : Canonical b) (finite : a.isFinite)
    (finite' : b.isFinite) : Settles (reading a - reading b) (UnpackedFloat.sub Format.binary64 a b) := by
  rw [sub_eq_add, sub_eq_add_neg, ← reading_neg]
  exact add_settles canonical (canonical_neg canonical') finite ((isFinite_neg b).trans finite')

theorem signed_product (sign sign' : Sign) (p q : ℚ) : signed sign p * signed sign' q = signed (sign * sign') (p * q) := by
  cases sign with
  | positive =>
    cases sign' with
    | positive => rfl
    | negative => exact mul_neg p q
  | negative =>
    cases sign' with
    | positive => exact neg_mul p q
    | negative => exact neg_mul_neg p q

theorem signed_quotient (sign sign' : Sign) (p q : ℚ) : signed sign p / signed sign' q = signed (sign / sign') (p / q) := by
  cases sign with
  | positive =>
    cases sign' with
    | positive => rfl
    | negative => exact div_neg p
  | negative =>
    cases sign' with
    | positive => exact neg_div q p
    | negative => exact neg_div_neg_eq p q

theorem mul_settles {a b : UnpackedFloat} (canonical : Canonical a) (canonical' : Canonical b) (finite : a.isFinite)
    (finite' : b.isFinite) : Settles (reading a * reading b) (UnpackedFloat.mul Format.binary64 a b) := by
  cases a with
  | notANumber | infinity => cases finite
  | zero sign =>
    rw [show reading (.zero sign) = 0 from rfl, zero_mul]
    cases b with
    | notANumber | infinity => cases finite'
    | zero sign' => exact .zero _ rounded_zero
    | finite sign' mantissa' exponent' positive' => exact .zero _ rounded_zero
  | finite sign mantissa exponent positive =>
    cases b with
    | notANumber | infinity => cases finite'
    | zero sign' =>
      rw [show reading (.zero sign') = 0 from rfl, mul_zero]
      exact .zero _ rounded_zero
    | finite sign' mantissa' exponent' positive' =>
      rw [reading_finite, reading_finite, signed_product]
      refine round_settles (sign * sign') ?_ ?_
      · rw [mul_mul_mul_comm, ← zpow_add₀ two_ne_zero, mul_div_cancel_right₀ _ (by positivity), ← Nat.cast_mul]
        exact marks_exact _
      · have full : 52 ≤ (mantissa * mantissa').log2 ∨ exponent + exponent' ≤ -1074 := by
          have some : mantissa * mantissa' ≠ 0 := (Nat.mul_pos positive positive').ne'
          rw [Nat.le_log2 some]
          rcases canonical.full with full | low
          · exact .inl (full.trans (Nat.le_mul_of_pos_right _ positive'))
          · rcases canonical'.full with full' | low'
            · exact .inl (full'.trans (Nat.le_mul_of_pos_left _ positive))
            · exact .inr (by omega)
        omega

theorem quotient_long {mantissa mantissa' shift : Nat} (positive : 0 < mantissa) (positive' : 0 < mantissa')
    (enough : mantissa'.log2 + 53 ≤ mantissa.log2 + shift) : 52 ≤ ((mantissa <<< shift) / mantissa').log2 := by
  have long : 2 ^ 52 ≤ (mantissa <<< shift) / mantissa' := by
    rw [Nat.le_div_iff_mul_le positive', Nat.shiftLeft_eq]
    calc 2 ^ 52 * mantissa' ≤ 2 ^ 52 * 2 ^ (mantissa'.log2 + 1) := Nat.mul_le_mul_left _ Nat.lt_log2_self.le
      _ = 2 ^ (mantissa'.log2 + 53) := by
        rw [← pow_add]
        congr 1
        omega
      _ ≤ 2 ^ (mantissa.log2 + shift) := Nat.pow_le_pow_right two_pos enough
      _ = 2 ^ mantissa.log2 * 2 ^ shift := pow_add ..
      _ ≤ mantissa * 2 ^ shift := Nat.mul_le_mul_right _ (Nat.log2_self_le positive.ne')
  exact (Nat.le_log2 (by omega)).mpr long

theorem div_settles {a b : UnpackedFloat} (canonical : Canonical a) (canonical' : Canonical b) (finite : a.isFinite)
    (finite' : b.isFinite) (divisor : reading b ≠ 0) : Settles (reading a / reading b) (UnpackedFloat.div Format.binary64 a b) := by
  cases b with
  | notANumber | infinity => cases finite'
  | zero => exact absurd rfl divisor
  | finite sign' mantissa' exponent' positive' =>
    cases a with
    | notANumber | infinity => cases finite
    | zero sign =>
      rw [show reading (.zero sign) = 0 from rfl, zero_div]
      exact .zero _ rounded_zero
    | finite sign mantissa exponent positive =>
      rw [reading_finite, reading_finite, signed_quotient]
      obtain ⟨target, known⟩ : ∃ target, min (exponent - exponent')
        (Format.binary64.targetExponent (totalExponent mantissa exponent - totalExponent mantissa' exponent')) = target := ⟨_, rfl⟩
      rw [UnpackedFloat.div, divCore, known]
      have bound : target ≤ exponent - exponent' ∧ (target ≤ mantissa.log2 + exponent - mantissa'.log2 - exponent' - 53 ∨ target ≤ -1074) := by
        simp only [Format.targetExponent, totalExponent, Format.mantissaBits, Format.minExponent] at known
        omega
      obtain ⟨low, wide⟩ := bound
      obtain ⟨shift, apart⟩ := Int.le.dest low
      have amount : (exponent - exponent' - target).toNat = shift := by omega
      rw [amount]
      have scale : (mantissa * 2 ^ exponent / (mantissa' * 2 ^ exponent') / 2 ^ target : ℚ) =
          (mantissa <<< shift : ℕ) / mantissa' := by
        rw [show exponent = shift + target + exponent' by omega, zpow_add₀ two_ne_zero, zpow_add₀ two_ne_zero,
          zpow_natCast, Nat.shiftLeft_eq]
        push_cast
        field_simp
      refine round_settles (sign / sign') ?_ ?_
      · rw [scale]
        exact marks_quotient _ positive'
      · rcases wide with wide | wide
        · have long : 52 ≤ ((mantissa <<< shift) / mantissa').log2 := quotient_long positive positive' (by omega)
          omega
        · omega

end Operations

section Storing

/-- A double that holds the rounded result, or is infinite because the result is out of range. -/
def Stored (exact : ℚ) (x : Float) : Prop :=
  ∃ result, Rounded exact result ∧ (x.isFinite ∧ value x = result ∨ x.isInf ∧ 2 ^ 1024 ≤ |result|)

theorem settles_stored {exact : ℚ} {number : UnpackedFloat} (settles : Settles exact number) :
    Stored exact (.ofModel (.pack number)) := by
  cases settles with
  | zero sign rounded =>
    have same : decoded (.ofModel (.pack (.zero sign))) = .zero sign := decoded_pack trivial
    exact ⟨0, rounded, .inl ⟨congrArg UnpackedFloat.isFinite same, congrArg reading same⟩⟩
  | @finite sign mantissa exponent positive trim rounded =>
    have same := decoded_pack (show Canonical (.finite sign mantissa exponent positive) from trim)
    refine ⟨_, rounded, ?_⟩
    by_cases high : exponent ≤ 971
    · rw [clipped, if_pos high] at same
      exact .inl ⟨congrArg UnpackedFloat.isFinite same, (congrArg reading same).trans reading_finite⟩
    · rw [clipped, if_neg high] at same
      refine .inr ⟨congrArg UnpackedFloat.isInf same, ?_⟩
      have full : (2 ^ 52 : ℚ) ≤ mantissa := by exact_mod_cast trim.full.resolve_right (by omega)
      rw [abs_signed, abs_of_nonneg (by positivity)]
      calc (2 ^ 1024 : ℚ) = 2 ^ 52 * 2 ^ ((972 : ℕ) : ℤ) := by rw [zpow_natCast, ← pow_add]
        _ ≤ mantissa * 2 ^ exponent := by
          gcongr
          · norm_num
          · omega

variable {a b : Float}

theorem add_stored (finite : a.isFinite) (finite' : b.isFinite) : Stored (value a + value b) (a + b) :=
  settles_stored (add_settles (canonical a) (canonical b) finite finite')

theorem sub_stored (finite : a.isFinite) (finite' : b.isFinite) : Stored (value a - value b) (a - b) :=
  settles_stored (sub_settles (canonical a) (canonical b) finite finite')

theorem mul_stored (finite : a.isFinite) (finite' : b.isFinite) : Stored (value a * value b) (a * b) :=
  settles_stored (mul_settles (canonical a) (canonical b) finite finite')

theorem div_stored (finite : a.isFinite) (finite' : b.isFinite) (divisor : value b ≠ 0) :
    Stored (value a / value b) (a / b) :=
  settles_stored (div_settles (canonical a) (canonical b) finite finite' divisor)

theorem unpacked_exclusive (number : UnpackedFloat) (finite : number.isFinite) (infinite : number.isInf) : False := by
  cases number with
  | notANumber | infinity => cases finite
  | zero | finite => cases infinite

theorem Stored.rounded {exact : ℚ} {x : Float} (stored : Stored exact x) (finite : x.isFinite) :
    Rounded exact (value x) := by
  obtain ⟨result, rounded, ⟨-, same⟩ | ⟨infinite, -⟩⟩ := stored
  · exact same ▸ rounded
  · exact (unpacked_exclusive _ finite infinite).elim

/-- A result stays between numbers that doubles can hold. -/
theorem Stored.within {exact low high : ℚ} {x : Float} (stored : Stored exact x) (below : Representable low)
    (above : Representable high) (least : low ≤ exact) (most : exact ≤ high) (small : |low| < 2 ^ 1024)
    (small' : |high| < 2 ^ 1024) : x.isFinite ∧ low ≤ value x ∧ value x ≤ high := by
  obtain ⟨result, rounded, ⟨finite, same⟩ | ⟨-, large⟩⟩ := stored
  · rw [same]
    exact ⟨finite, rounded.ge below least, rounded.le above most⟩
  · have inside := abs_lt.mpr ⟨(abs_lt.mp small).1.trans_le (rounded.ge below least),
      (rounded.le above most).trans_lt (abs_lt.mp small').2⟩
    exact absurd large (not_le.mpr inside)

theorem Stored.bounded {exact bound : ℚ} {x : Float} (stored : Stored exact x) (kept : Representable bound)
    (small : |exact| ≤ bound) (limit : bound < 2 ^ 1024) : x.isFinite ∧ |value x| ≤ bound := by
  have size : |bound| < 2 ^ 1024 := by rwa [abs_of_nonneg ((abs_nonneg exact).trans small)]
  obtain ⟨least, most⟩ := abs_le.mp small
  obtain ⟨finite, low, high⟩ := stored.within kept.neg kept least most ((abs_neg bound).trans_lt size) size
  exact ⟨finite, abs_le.mpr ⟨low, high⟩⟩

theorem Stored.unmoved {exact : ℚ} {x : Float} (stored : Stored exact x) (kept : Representable exact)
    (small : |exact| < 2 ^ 1024) : x.isFinite ∧ value x = exact := by
  obtain ⟨finite, least, most⟩ := stored.within kept kept le_rfl le_rfl small small
  exact ⟨finite, le_antisymm most least⟩

theorem representable_reading {number : UnpackedFloat} (canonical : Canonical number) : Representable (reading number) := by
  cases number with
  | notANumber | infinity | zero => exact_mod_cast @representable_whole 0 (by norm_num)
  | finite sign mantissa exponent positive =>
    refine ⟨sign.apply mantissa, exponent, ?_, canonical.low, ?_⟩
    · have short : (|(mantissa : Int)|) < 2 ^ 53 := by exact_mod_cast canonical.short
      cases sign with
      | positive => exact short
      | negative => exact (abs_neg _).trans_lt short
    · rw [reading_finite, apply_eq, signed_mul]

theorem representable_value (x : Float) : Representable (value x) := representable_reading (canonical x)

/-- A difference of doubles is off by a tiny share of itself at most. -/
theorem sub_share (finite : a.isFinite) (finite' : b.isFinite) (finite'' : (a - b).isFinite) :
    |value (a - b) - (value a - value b)| ≤ |value a - value b| / 2 ^ 53 := by
  obtain ⟨count, same⟩ := (representable_value a).multiple
  obtain ⟨count', same'⟩ := (representable_value b).multiple
  have multiple : value a - value b = (count - count' : ℤ) * 2 ^ (-1074 : ℤ) := by
    rw [same, same', Int.cast_sub, sub_mul]
  exact ((sub_stored finite finite').rounded finite'').share multiple

theorem moderate {q : ℚ} (short : |q| < 2 ^ 53) : |q| < 2 ^ 1024 :=
  short.trans_le (pow_le_pow_right₀ one_le_two (by norm_num))

theorem reading_bound {parts : Option Number.Parts} {number : UnpackedFloat} (given : Decodes parts number) :
    |reading number| ≤ (2 ^ 53 - 1) * 2 ^ 971 := by
  cases given with
  | @finite parts sign mantissa exponent positive signed digits scale trim high =>
    have short : (mantissa : ℚ) ≤ 2 ^ 53 - 1 := by
      rw [le_sub_iff_add_le]
      exact_mod_cast trim.short
    rw [reading_finite, abs_signed, abs_of_nonneg (by positivity)]
    calc (mantissa * 2 ^ exponent : ℚ) ≤ (2 ^ 53 - 1) * 2 ^ ((971 : ℕ) : ℤ) := by
          gcongr
          · norm_num
          · exact high
      _ = (2 ^ 53 - 1) * 2 ^ 971 := by rw [zpow_natCast]
  | zero | infinity | notANumber => exact abs_zero.trans_le (by positivity)

theorem value_bound (x : Float) : |value x| ≤ (2 ^ 53 - 1) * 2 ^ 971 := reading_bound (decodes x)

theorem value_small (x : Float) : |value x| < 2 ^ 1024 := by
  have gap : (0 : ℚ) < 2 ^ 971 := by positivity
  calc |value x| ≤ (2 ^ 53 - 1) * 2 ^ 971 := value_bound x
    _ < 2 ^ 53 * 2 ^ 971 := mul_lt_mul_of_pos_right (by norm_num) gap
    _ = 2 ^ 1024 := (pow_add 2 53 971).symm

end Storing

section Whole

theorem neg_stored {x : Float} (finite : x.isFinite) : (-x).isFinite ∧ value (-x) = -value x := by
  have settles : Settles (-value x) (decoded x).neg := by
    rw [value, ← reading_neg]
    exact kept_settles (canonical_neg (canonical x)) ((isFinite_neg _).trans finite)
  exact (settles_stored settles).unmoved (representable_value x).neg ((abs_neg _).trans_lt (value_small x))

theorem ofNat_value {whole : Nat} (short : whole < 2 ^ 53) :
    (Float.ofNat whole).isFinite ∧ value (Float.ofNat whole) = whole := by
  have size : |(whole : ℤ)| < 2 ^ 53 := by exact_mod_cast short
  have kept : Representable whole := by exact_mod_cast representable_whole size
  have small : |(whole : ℚ)| < 2 ^ 1024 := moderate (by exact_mod_cast size)
  have word : whole.toUInt64.toFloat.isFinite ∧ value whole.toUInt64.toFloat = whole := by
    have settles := normalize_settles whole 0 .positive
    rw [zpow_zero, mul_one] at settles
    have same : whole.toUInt64.toFloat = .ofModel (.pack (UnpackedFloat.normalize Format.binary64 whole 0 .positive)) := by
      have size : whole.toUInt64.toNat = whole := Nat.mod_eq_of_lt (by omega)
      change Float.ofModel (.pack (UnpackedFloat.normalize Format.binary64 whole.toUInt64.toNat 0 .positive)) = _
      rw [size]
    rw [same]
    rw [Int.cast_natCast] at settles
    exact (settles_stored settles).unmoved kept small
  have one : value (Float.ofBits 0x3FF0000000000000) = 1 := by
    have same : decoded (Float.ofBits 0x3FF0000000000000) = .finite .positive (2 ^ 52) (-52) (by norm_num) := rfl
    rw [value, same, reading]
    norm_num
  have same : Float.ofNat whole = whole.toUInt64.toFloat * Float.ofBits 0x3FF0000000000000 := by
    change Float.ofScientific whole false 0 = _
    rw [Float.ofScientific, dif_pos ⟨short, by norm_num⟩]
    rfl
  have stored := mul_stored word.1 (show (Float.ofBits 0x3FF0000000000000).isFinite from rfl)
  rw [word.2, one, mul_one] at stored
  rw [same]
  exact stored.unmoved kept small

theorem ofInt_value {whole : Int} (short : |whole| < 2 ^ 53) :
    (Float.ofInt whole).isFinite ∧ value (Float.ofInt whole) = whole := by
  cases whole with
  | ofNat whole => exact_mod_cast ofNat_value (by simpa using short)
  | negSucc before =>
    rw [Int.negSucc_eq] at short ⊢
    obtain ⟨finite, same⟩ := ofNat_value (show before + 1 < 2 ^ 53 by have := (abs_lt.mp short).1; omega)
    obtain ⟨finite', same'⟩ := neg_stored finite
    refine ⟨finite', same'.trans ?_⟩
    rw [same]
    push_cast
    ring

end Whole

section Specials

variable {a b : Float}

theorem finite_pack {number : UnpackedFloat} (finite : (decoded (.ofModel (.pack number))).isFinite) :
    number.isFinite := by
  cases number with
  | notANumber => cases finite
  | infinity sign => cases sign <;> cases finite
  | zero | finite => rfl

theorem finite_operands {a b : UnpackedFloat} (finite : (UnpackedFloat.add Format.binary64 a b).isFinite) :
    a.isFinite ∧ b.isFinite := by
  cases a with
  | notANumber => cases finite
  | infinity sign =>
    cases b with
    | notANumber | zero | finite => cases finite
    | infinity sign' => cases sign <;> cases sign' <;> cases finite
  | zero | finite =>
    cases b with
    | notANumber | infinity => cases finite
    | zero | finite => exact ⟨rfl, rfl⟩

theorem finite_add (finite : (a + b).isFinite) : a.isFinite ∧ b.isFinite := finite_operands (finite_pack finite)

theorem finite_sub (finite : (a - b).isFinite) : a.isFinite ∧ b.isFinite := by
  have both : (UnpackedFloat.sub Format.binary64 (decoded a) (decoded b)).isFinite := finite_pack finite
  rw [sub_eq_add] at both
  obtain ⟨left, right⟩ := finite_operands both
  exact ⟨left, (isFinite_neg _).symm.trans right⟩

theorem finite_mul (finite : (a * b).isFinite) : a.isFinite ∧ b.isFinite := by
  have both : (UnpackedFloat.mul Format.binary64 (decoded a) (decoded b)).isFinite := finite_pack finite
  change (decoded a).isFinite ∧ (decoded b).isFinite
  generalize decoded a = left, decoded b = right at both
  cases left with
  | notANumber => cases both
  | infinity => cases right <;> cases both
  | zero | finite =>
    cases right with
    | notANumber | infinity => cases both
    | zero | finite => exact ⟨rfl, rfl⟩

theorem finite_div (finite : (a / b).isFinite) : a.isFinite := by
  have both : (UnpackedFloat.div Format.binary64 (decoded a) (decoded b)).isFinite := finite_pack finite
  change (decoded a).isFinite
  generalize decoded a = left, decoded b = right at both
  cases left with
  | notANumber => cases both
  | infinity => cases right <;> cases both
  | zero | finite => rfl

theorem decoded_mul : decoded (a * b) = decoded (.ofModel (.pack (UnpackedFloat.mul Format.binary64 (decoded a) (decoded b)))) := rfl

theorem decoded_div : decoded (a / b) = decoded (.ofModel (.pack (UnpackedFloat.div Format.binary64 (decoded a) (decoded b)))) := rfl

theorem infinite_pack (sign : Sign) : (decoded (.ofModel (.pack (.infinity sign)))).isInf := by
  cases sign <;> rfl

theorem notANumber_pack : (decoded (.ofModel (.pack .notANumber))).isNaN := rfl

theorem div_infinite (infinite : a.isInf) (finite : b.isFinite) : (a / b).isInf := by
  obtain ⟨sign, same⟩ : ∃ sign, decoded a = .infinity sign := infinite_form infinite
  change (decoded (a / b)).isInf
  rw [decoded_div, same]
  change (decoded b).isFinite at finite
  generalize decoded b = right at finite
  cases right with
  | notANumber | infinity => cases finite
  | zero | finite => exact infinite_pack _

theorem mul_infinite (infinite : a.isInf) (finite : b.isFinite) (factor : value b ≠ 0) : (a * b).isInf := by
  obtain ⟨sign, same⟩ : ∃ sign, decoded a = .infinity sign := infinite_form infinite
  change (decoded (a * b)).isInf
  rw [decoded_mul, same]
  change (decoded b).isFinite at finite
  rw [value] at factor
  generalize decoded b = right at finite factor
  cases right with
  | notANumber | infinity => cases finite
  | zero => exact absurd rfl factor
  | finite => exact infinite_pack _

theorem div_infinities (infinite : a.isInf) (infinite' : b.isInf) : (a / b).isNaN := by
  obtain ⟨sign, same⟩ : ∃ sign, decoded a = .infinity sign := infinite_form infinite
  obtain ⟨sign', same'⟩ : ∃ sign, decoded b = .infinity sign := infinite_form infinite'
  change (decoded (a / b)).isNaN
  rw [decoded_div, same, same']
  exact notANumber_pack

theorem div_by_infinite (finite : a.isFinite) (infinite : b.isInf) : (a / b).isFinite ∧ value (a / b) = 0 := by
  obtain ⟨sign, same⟩ : ∃ sign, decoded b = .infinity sign := infinite_form infinite
  have vanished : ∃ sign', UnpackedFloat.div Format.binary64 (decoded a) (decoded b) = .zero sign' := by
    rw [same]
    change (decoded a).isFinite at finite
    generalize decoded a = left at finite
    cases left with
    | notANumber | infinity => cases finite
    | zero | finite => exact ⟨_, rfl⟩
  obtain ⟨sign', vanished⟩ := vanished
  have zero : decoded (a / b) = .zero sign' := by
    rw [decoded_div, vanished]
    exact decoded_pack trivial
  exact ⟨congrArg UnpackedFloat.isFinite zero, congrArg reading zero⟩

theorem mul_notANumber (unknown : a.isNaN) : (a * b).isNaN := by
  have same : decoded a = .notANumber := isNaN_iff.mp unknown
  change (decoded (a * b)).isNaN
  rw [decoded_mul, same]
  exact notANumber_pack

end Specials

end Reckoner.Proofs.DoubleArithmetic
