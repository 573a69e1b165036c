import Reckoner.Proofs.ChartDrawing
import Reckoner.Proofs.WindowTrace

/-! Which samples of a curve are drawn. A window shows every sample that is finite. The text
chart interpolates even at the samples, on the first segment that reaches one, so that a
finite sample is drawn there only if the other end of that segment is finite too. -/

namespace Reckoner.Proofs.CurveSamples
open DoubleValues DoubleRounding DoubleArithmetic ChartPlaces ChartDrawing WindowTrace

/-- A sample near enough, and low enough if it is finite, that nothing overflows between it
and another. -/
structure Tame (point : Point Float) : Prop where
  finite : point.x.isFinite
  near : |value point.x| ≤ 10 ^ 6
  low : point.y.isFinite → |value point.y| ≤ 10 ^ 300

structure Measured (points : List (Point Float)) : Prop where
  ascending : points.Pairwise fun left right => left.x < right.x
  tame : ∀ point ∈ points, Tame point

theorem Measured.tail {first : Point Float} {rest : List (Point Float)} (measured : Measured (first :: rest)) :
    Measured rest :=
  ⟨(List.pairwise_cons.mp measured.ascending).2, fun point member => measured.tame point (List.mem_cons_of_mem _ member)⟩

section Segments

theorem Tame.ordinate {point : Point Float} (tame : Tame point) (finite : point.y.isFinite) :
    |value point.y| ≤ 2 ^ 1000 :=
  calc |value point.y| ≤ 10 ^ 300 := tame.low finite
    _ = (10 ^ 3) ^ 100 := by rw [← pow_mul]
    _ ≤ (2 ^ 10) ^ 100 := pow_le_pow_left₀ (by norm_num) (by norm_num) 100
    _ = 2 ^ 1000 := by rw [← pow_mul]

variable {left right : Point Float} {x : Float} (tame : Tame left) (tame' : Tame right) (apart : left.x < right.x)

include tame tame' in
theorem width_bounded : (right.x - left.x).isFinite ∧ |value (right.x - left.x)| ≤ 2 ^ 21 := by
  refine (sub_stored tame'.finite tame.finite).bounded (representable_power 21) ?_ (power_lt (by norm_num))
  calc |value right.x - value left.x| ≤ |value right.x| + |value left.x| := abs_sub _ _
    _ ≤ 10 ^ 6 + 10 ^ 6 := add_le_add tame'.near tame.near
    _ ≤ 2 ^ 21 := by norm_num

include tame tame' in
theorem rise_bounded (finite : left.y.isFinite) (finite' : right.y.isFinite) :
    (right.y - left.y).isFinite ∧ |value (right.y - left.y)| ≤ 2 ^ 1001 := by
  refine (sub_stored finite' finite).bounded (representable_power 1001) ?_ (power_lt (by norm_num))
  calc |value right.y - value left.y| ≤ |value right.y| + |value left.y| := abs_sub _ _
    _ ≤ 2 ^ 1000 + 2 ^ 1000 := add_le_add (tame'.ordinate finite') (tame.ordinate finite)
    _ = 2 ^ 1001 := by rw [← two_mul, ← pow_succ']

include tame tame' apart

theorem width_positive : 0 < value (right.x - left.x) :=
  difference_positive tame.finite tame'.finite ((lt_iff tame.finite tame'.finite).mp apart) (width_bounded tame tame').1

variable (above : left.x ≤ x) (below : x ≤ right.x)

include above below

/-- Rounding may make the way to a point longer than the segment, but not twice as long. -/
theorem offset_bounded : (x - left.x).isFinite ∧ |value (x - left.x)| ≤ 2 ^ 1 * value (right.x - left.x) := by
  have finite := finite_between tame.finite tame'.finite (le_iff_decoded.mp above) (le_iff_decoded.mp below)
  have above := (le_iff tame.finite finite).mp above
  have below := (le_iff finite tame'.finite).mp below
  obtain ⟨bounded, size⟩ := width_bounded tame tame'
  have close := sub_share tame'.finite tame.finite bounded
  rw [abs_of_nonneg (by linarith : 0 ≤ value right.x - value left.x), abs_le] at close
  rw [abs_of_pos (width_positive tame tame' apart)] at size
  refine (sub_stored finite tame.finite).bounded (representable_scaled 1 _) ?_ ?_
  · rw [abs_of_nonneg (by linarith : 0 ≤ value x - value left.x)]
    linarith
  · calc 2 ^ 1 * value (right.x - left.x) ≤ 2 ^ 1 * 2 ^ 21 := mul_le_mul_of_nonneg_left size (by norm_num)
      _ = 2 ^ 22 := by norm_num
      _ < 2 ^ 1024 := power_lt (by norm_num)

theorem product_bounded (finite : left.y.isFinite) (finite' : right.y.isFinite) :
    ((right.y - left.y) * (x - left.x)).isFinite ∧
      |value ((right.y - left.y) * (x - left.x))| ≤ 2 ^ 1002 * value (right.x - left.x) := by
  obtain ⟨rises, rise⟩ := rise_bounded tame tame' finite finite'
  obtain ⟨reaches, offset⟩ := offset_bounded tame tame' apart above below
  have size := (abs_le.mp (width_bounded tame tame').2).2
  refine (mul_stored rises reaches).bounded (representable_scaled 1002 _) ?_ ?_
  · calc |value (right.y - left.y) * value (x - left.x)|
        = |value (right.y - left.y)| * |value (x - left.x)| := abs_mul _ _
      _ ≤ 2 ^ 1001 * (2 ^ 1 * value (right.x - left.x)) := mul_le_mul rise offset (abs_nonneg _) (by positivity)
      _ = 2 ^ 1002 * value (right.x - left.x) := by rw [← mul_assoc, ← pow_add]
  · calc 2 ^ 1002 * value (right.x - left.x) ≤ 2 ^ 1002 * 2 ^ 21 := mul_le_mul_of_nonneg_left size (by positivity)
      _ = 2 ^ 1023 := (pow_add 2 1002 21).symm
      _ < 2 ^ 1024 := power_lt (by norm_num)

theorem quotient_bounded (finite : left.y.isFinite) (finite' : right.y.isFinite) :
    ((right.y - left.y) * (x - left.x) / (right.x - left.x)).isFinite ∧
      |value ((right.y - left.y) * (x - left.x) / (right.x - left.x))| ≤ 2 ^ 1002 := by
  obtain ⟨bounded, size⟩ := product_bounded tame tame' apart above below finite finite'
  have width := width_positive tame tame' apart
  refine (div_stored bounded (width_bounded tame tame').1 width.ne').bounded (representable_power 1002) ?_
    (power_lt (by norm_num))
  rw [abs_div, abs_of_pos width, div_le_iff₀ width]
  exact size

/-- What is not finite at either end of a segment spoils all of it, and nothing else does. -/
theorem segment_finite_iff : ∃ y, Curve.segment left right x = .ok y ∧
    (y.isFinite ↔ left.y.isFinite ∧ right.y.isFinite) := by
  have bounded := (width_bounded tame tame').1
  refine ⟨_, segment_divided tame.finite tame'.finite ((lt_iff tame.finite tame'.finite).mp apart) bounded, ?_⟩
  constructor
  · intro finite
    obtain ⟨start, rise⟩ := finite_add finite
    exact ⟨start, (finite_sub (finite_mul (finite_div rise)).1).1⟩
  · intro ⟨finite, finite'⟩
    obtain ⟨divided, size⟩ := quotient_bounded tame tame' apart above below finite finite'
    refine ((add_stored finite divided).bounded (representable_power 1003) ?_ (power_lt (by norm_num))).1
    calc |value left.y + value ((right.y - left.y) * (x - left.x) / (right.x - left.x))|
        ≤ |value left.y| + |value ((right.y - left.y) * (x - left.x) / (right.x - left.x))| := abs_add_le _ _
      _ ≤ 2 ^ 1000 + 2 ^ 1002 := add_le_add (tame.ordinate finite) size
      _ ≤ 2 ^ 1002 + 2 ^ 1002 := add_le_add_left (pow_le_pow_right₀ one_le_two (by norm_num)) _
      _ = 2 ^ 1003 := by rw [← two_mul, ← pow_succ']

end Segments

section Samples

variable {before after : List (Point Float)} {left point right : Point Float}

theorem le_refl_finite {x : Float} (finite : x.isFinite) : x ≤ x := (le_iff finite finite).mpr le_rfl

theorem le_of_lt_finite {x y : Float} (finite : x.isFinite) (finite' : y.isFinite) (less : x < y) : x ≤ y :=
  (le_iff finite finite').mpr ((lt_iff finite finite').mp less).le

theorem alongSegments_reached {x : Float} (above : left.x ≤ x) (below : x ≤ right.x) :
    Curve.alongSegments x (left :: right :: after) = (Curve.segment left right x).map some :=
  if_pos (Bool.and_eq_true_iff.mpr ⟨decide_eq_true above, decide_eq_true below⟩)

theorem alongSegments_passed {x : Float} (finite : right.x.isFinite) (finite' : x.isFinite) (passed : right.x < x) :
    Curve.alongSegments x (left :: right :: after) = Curve.alongSegments x (right :: after) := by
  refine if_neg fun reached => ?_
  have below := (le_iff finite' finite).mp (of_decide_eq_true (Bool.and_eq_true_iff.mp reached).2)
  exact absurd ((lt_iff finite finite').mp passed) (not_lt.mpr below)

/-- The segment that ends at a sample is the first to reach it. -/
theorem alongSegments_behind (measured : Measured (before ++ left :: point :: after)) :
    Curve.alongSegments point.x (before ++ left :: point :: after) = (Curve.segment left point point.x).map some := by
  induction before with
  | nil =>
    have finite := (measured.tame left (by simp)).finite
    have finite' := (measured.tame point (by simp)).finite
    have apart : left.x < point.x := (List.pairwise_cons.mp measured.ascending).1 point (by simp)
    exact alongSegments_reached (le_of_lt_finite finite finite' apart) (le_refl_finite finite')
  | cons first before ih =>
    have rest : Measured (before ++ left :: point :: after) := measured.tail
    obtain ⟨next, others, same, passed⟩ : ∃ next others, before ++ left :: point :: after = next :: others ∧ next.x < point.x := by
      cases before with
      | nil => exact ⟨left, _, rfl, (List.pairwise_cons.mp rest.ascending).1 point (by simp)⟩
      | cons next before => exact ⟨next, _, rfl, (List.pairwise_cons.mp rest.ascending).1 point (by simp)⟩
    have finite := (rest.tame next (by simp [same])).finite
    have finite' := (rest.tame point (by simp)).finite
    rw [← ih rest, List.cons_append, same]
    exact alongSegments_passed finite finite' passed

/-- The sample at the other end of the segment on which a sample is interpolated: the one
before it, and behind the first sample the second. -/
def partner (before after : List (Point Float)) : Option (Point Float) := before.getLast?.or after.head?

theorem interpolate_sample (measured : Measured (before ++ point :: after)) :
    ∃ y, Curve.interpolate (before ++ point :: after) point.x = .ok (some y) ∧
      (y.isFinite ↔ point.y.isFinite ∧ ∀ other ∈ partner before after, other.y.isFinite) := by
  have tame := measured.tame point (by simp)
  rcases before.eq_nil_or_concat with rfl | ⟨before, left, rfl⟩
  · cases after with
    | nil =>
      have same : Coordinate.equal point.x point.x = true := (beq_iff tame.finite tame.finite).mpr rfl
      refine ⟨point.y, ?_, by simp [partner]⟩
      rw [List.nil_append, Curve.interpolate, if_pos same]
    | cons right after =>
      have tame' := measured.tame right (by simp)
      have apart : point.x < right.x := (List.pairwise_cons.mp measured.ascending).1 right (by simp)
      have above := le_refl_finite tame.finite
      have below := le_of_lt_finite tame.finite tame'.finite apart
      obtain ⟨y, found, finite⟩ := segment_finite_iff tame tame' apart above below
      refine ⟨y, ?_, by simpa [partner] using finite⟩
      change Curve.alongSegments point.x (point :: right :: after) = _
      rw [alongSegments_reached above below, found]
      rfl
  · rw [List.concat_append] at measured ⊢
    have tame' := measured.tame left (by simp)
    have apart : left.x < point.x := by
      have later := measured.ascending.sublist (List.sublist_append_right before _)
      exact (List.pairwise_cons.mp later).1 point (by simp)
    obtain ⟨y, found, finite⟩ :=
      segment_finite_iff tame' tame apart (le_of_lt_finite tame'.finite tame.finite apart) (le_refl_finite tame.finite)
    refine ⟨y, ?_, by simpa [partner, and_comm] using finite⟩
    have several : Curve.interpolate (before ++ left :: point :: after) point.x =
        Curve.alongSegments point.x (before ++ left :: point :: after) := by
      match before with
      | [] => rfl
      | [_] => rfl
      | _ :: _ :: _ => rfl
    rw [several, alongSegments_behind measured, found]
    rfl

theorem finiteRuns_keep (points : List (Point Float)) (point : Point Float) :
    (∃ run ∈ Curve.finiteRuns points, point ∈ run) ↔ point ∈ points ∧ point.y.isFinite := by
  rw [← List.mem_flatten, blocks_flatten (finiteRuns_blocks points), List.mem_filter]
  rfl

end Samples

/-- A window keeps just the samples that are finite. The text chart has a finite height at a
sample only if it is finite and so is the sample that it is interpolated with: the samples
that it loses are the finite ones whose partner is not. -/
theorem samples_compared {points before after : List (Point Float)} {point : Point Float} (measured : Measured points)
    (split : points = before ++ point :: after) :
    (∃ y, Curve.interpolate points point.x = .ok (some y) ∧
      (y.isFinite ↔ point.y.isFinite ∧ ∀ other ∈ partner before after, other.y.isFinite)) ∧
    ((∃ run ∈ Curve.finiteRuns points, point ∈ run) ↔ point.y.isFinite) := by
  subst split
  refine ⟨interpolate_sample measured, (finiteRuns_keep _ _).trans ?_⟩
  exact and_iff_right (by simp)

theorem tame_whole {x y : ℤ} (near : |x| ≤ 10 ^ 6) (low : |y| < 2 ^ 53) : Tame ⟨Float.ofInt x, Float.ofInt y⟩ := by
  obtain ⟨finite, same⟩ := @ofInt_value x (near.trans_lt (by norm_num))
  obtain ⟨-, same'⟩ := @ofInt_value y low
  refine ⟨finite, ?_, fun _ => ?_⟩
  · rw [same]
    exact_mod_cast near
  · rw [same']
    calc |(y : ℚ)| ≤ 2 ^ 53 := by exact_mod_cast low.le
      _ ≤ 10 ^ 16 := by norm_num
      _ ≤ 10 ^ 300 := pow_le_pow_right₀ (by norm_num) (by norm_num)

/-- A curve with a pole at zero. -/
def pole : List (Point Float) :=
  [⟨Float.ofInt (-1), Float.ofInt 2⟩, ⟨Float.ofInt 0, 1 / 0⟩] ++
    ⟨Float.ofInt 1, Float.ofInt 3⟩ :: [⟨Float.ofInt 2, Float.ofInt 4⟩]

theorem pole_measured : Measured pole := by
  have origin : Tame ⟨Float.ofInt 0, 1 / 0⟩ :=
    ⟨origin_value.1, by simp [origin_value.2], fun finite => absurd finite (by decide +kernel)⟩
  refine ⟨by decide +kernel, fun point member => ?_⟩
  simp only [pole, List.cons_append, List.nil_append, List.mem_cons, List.not_mem_nil, or_false] at member
  rcases member with rfl | rfl | rfl | rfl
  · exact tame_whole (by norm_num) (by norm_num)
  · exact origin
  · exact tame_whole (by norm_num) (by norm_num)
  · exact tame_whole (by norm_num) (by norm_num)

theorem samples_compared_pole : Measured pole ∧
    (∃ y, Curve.interpolate pole (Float.ofInt 1) = .ok (some y) ∧ ¬ y.isFinite) ∧
      ∃ run ∈ Curve.finiteRuns pole, ⟨Float.ofInt 1, Float.ofInt 3⟩ ∈ run := by
  obtain ⟨⟨y, found, finite⟩, kept⟩ := samples_compared pole_measured rfl
  have spoiled : (1 / 0 : Float).isFinite = false := by decide +kernel
  refine ⟨pole_measured, ⟨y, found, fun drawn => ?_⟩, kept.mpr (by decide +kernel)⟩
  have partnered := (finite.mp drawn).2 ⟨Float.ofInt 0, 1 / 0⟩ rfl
  exact Bool.false_ne_true (spoiled.symm.trans partnered)

/-- Not every finite sample is finite on the interpolated curve. -/
theorem samples_lost : ¬∀ points, Measured points → ∀ point ∈ points,
    ((∃ y, Curve.interpolate points point.x = .ok (some y) ∧ y.isFinite) ↔ point.y.isFinite) := by
  intro agree
  have sample : (⟨Float.ofInt 1, Float.ofInt 3⟩ : Point Float) ∈ pole := by simp [pole]
  obtain ⟨y, found, finite⟩ := (agree pole pole_measured _ sample).mpr (by decide +kernel)
  have lost : (Curve.interpolate pole (Float.ofInt 1)).toOption.any (Option.any Float.isFinite) = false := by
    decide +kernel
  rw [found] at lost
  exact Bool.false_ne_true (lost.symm.trans finite)

end Reckoner.Proofs.CurveSamples
