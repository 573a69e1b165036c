import Reckoner.Chart
import Reckoner.Proofs.DoubleArithmetic
import Reckoner.Proofs.EvaluationSafety

/-! Where a chart puts the points of a plot, in doubles. The window of a plot is found
whatever was sampled, and its columns never fail. Rows are shares of its height: they fail
if that height rounds to zero or overflows, and else every ordinate that is not far out of
the window lands on the chart. -/

namespace Reckoner.Proofs.ChartPlaces
open DoubleValues DoubleRounding DoubleArithmetic EvaluationSafety

theorem representable_zero : Representable 0 := by exact_mod_cast @representable_whole 0 (by norm_num)

theorem representable_one : Representable 1 := by exact_mod_cast @representable_whole 1 (by norm_num)

theorem representable_power (exponent : ℕ) : Representable (2 ^ exponent) :=
  ⟨1, exponent, by norm_num, by omega, by rw [Int.cast_one, one_mul, zpow_natCast]⟩

theorem power_lt {exponent : ℕ} (short : exponent < 1024) : (2 : ℚ) ^ exponent < 2 ^ 1024 :=
  pow_lt_pow_right₀ one_lt_two short

theorem power_small {exponent : ℕ} (short : exponent < 1024) : |(2 : ℚ) ^ exponent| < 2 ^ 1024 := by
  rw [abs_of_pos (by positivity)]
  exact power_lt short

theorem representable_scaled (shift : ℕ) (x : Float) : Representable (2 ^ shift * value x) := by
  obtain ⟨digits, exponent, short, low, same⟩ := representable_value x
  refine ⟨digits, exponent + shift, short, by omega, ?_⟩
  rw [same, zpow_add₀ two_ne_zero, zpow_natCast]
  ring

theorem representable_double (x : Float) : Representable (value x + value x) := by
  rw [← two_mul, ← pow_one 2]
  exact representable_scaled 1 x

theorem origin_value : (Float.ofInt 0).isFinite ∧ value (Float.ofInt 0) = 0 := by
  exact_mod_cast @ofInt_value 0 (by norm_num)

theorem one_value : (Float.ofInt 1).isFinite ∧ value (Float.ofInt 1) = 1 := by
  exact_mod_cast @ofInt_value 1 (by norm_num)

section Cells

/-- The cell that lies a part of the way along so many cells. -/
def cell (part whole : Float) (count : Int) : Except Fault Int := do
  let share ← Number.divide part whole
  Number.nearest (share * Float.ofInt count)

theorem column_eq (view : Viewport Float) (x : Float) (width : Int) :
    view.column x width = cell (x - view.xMin) (view.xMax - view.xMin) (width - 1) := rfl

theorem row_eq (view : Viewport Float) (y : Float) (height : Int) :
    view.row y height = cell (view.yMax - y) (view.yMax - view.yMin) (height - 1) := rfl

variable {part whole : Float} {count : Int}

theorem cell_flat (flat : (whole == 0) = true) : cell part whole count = .error .divisionByZero := by
  rw [cell, Number.divide, if_pos flat]
  rfl

theorem divide_nonzero (divisor : (whole == 0) = false) : Number.divide part whole = .ok (part / whole) := by
  rw [Number.divide, if_neg (by rw [divisor]; exact Bool.false_ne_true)]

theorem cell_divided (divisor : (whole == 0) = false) :
    cell part whole count = Number.nearest (part / whole * Float.ofInt count) := by
  rw [cell, divide_nonzero divisor]
  rfl

theorem zero_iff (finite : whole.isFinite) : (whole == 0) = true ↔ value whole = 0 := by
  rw [show (0 : Float) = Float.ofInt 0 from rfl, beq_iff finite origin_value.1, origin_value.2]

theorem nonzero_finite (finite : whole.isFinite) (divisor : value whole ≠ 0) : (whole == 0) = false := by
  rw [Bool.eq_false_iff, ne_eq, zero_iff finite]
  exact divisor

theorem nonzero_infinite (infinite : whole.isInf) : (whole == 0) = false := by
  obtain ⟨sign, same⟩ : ∃ sign, decoded whole = .infinity sign := infinite_form infinite
  have zero : decoded 0 = .zero .positive := rfl
  change (decoded whole).beq (decoded 0) = false
  rw [same, zero]
  cases sign <;> rfl

theorem cell_unknown (infinite : part.isInf) (infinite' : whole.isInf) :
    cell part whole count = .error .roundingNaN := by
  rw [cell_divided (nonzero_infinite infinite')]
  exact nearest_notANumber (mul_notANumber (div_infinities infinite infinite'))

theorem count_value (some : 0 < count) (short : count < 2 ^ 48) :
    (Float.ofInt count).isFinite ∧ value (Float.ofInt count) = count :=
  ofInt_value (abs_lt.mpr ⟨by omega, by omega⟩)

section Counts

variable (some : 0 < count) (short : count < 2 ^ 48)

include some short

theorem cell_infinite (infinite : part.isInf) (finite : whole.isFinite) (divisor : value whole ≠ 0) :
    cell part whole count = .error .roundingInfinity := by
  obtain ⟨finite', same⟩ := count_value some short
  have factor : value (Float.ofInt count) ≠ 0 := by
    rw [same]
    exact_mod_cast some.ne'
  rw [cell_divided (nonzero_finite finite divisor)]
  exact nearest_infinite (mul_infinite (div_infinite infinite finite) finite' factor)

theorem cell_vanishing (finite : part.isFinite) (infinite : whole.isInf) : cell part whole count = .ok 0 := by
  obtain ⟨finite', same⟩ := count_value some short
  obtain ⟨finite'', vanished⟩ := div_by_infinite finite infinite
  have stored := mul_stored finite'' finite'
  rw [vanished, zero_mul] at stored
  obtain ⟨product, zero⟩ := stored.unmoved representable_zero (moderate (by norm_num))
  obtain ⟨place, rounded, close⟩ := nearest_finite product
  rw [cell_divided (nonzero_infinite infinite), rounded]
  rw [zero, sub_zero] at close
  have less : |(place : ℚ)| < 1 := close.trans_lt (by norm_num)
  have none : |place| < 1 := by exact_mod_cast less
  rw [Int.abs_lt_one_iff.mp none]

/-- The share may leave the interval from zero to one by a little, and still the cell is
one of those counted. -/
theorem cell_within (finite : part.isFinite) (finite' : whole.isFinite) (positive : 0 < value whole)
    (low : -(value whole / 2 ^ 50) ≤ value part) (high : value part ≤ value whole + value whole / 2 ^ 50) :
    ∃ place, cell part whole count = .ok place ∧ 0 ≤ place ∧ place ≤ count := by
  obtain ⟨finite'', same⟩ := count_value some short
  have below : Representable (-(1 / 2 ^ 50)) := ⟨-1, -50, by norm_num, by norm_num, by norm_num⟩
  have above : Representable (1 + 1 / 2 ^ 50) := ⟨2 ^ 50 + 1, -50, by norm_num, by norm_num, by norm_num⟩
  have least : -(1 / 2 ^ 50) ≤ value part / value whole := by
    rw [le_div_iff₀ positive]
    linarith
  have most : value part / value whole ≤ 1 + 1 / 2 ^ 50 := by
    rw [div_le_iff₀ positive]
    linarith
  have share := div_stored finite finite' positive.ne'
  obtain ⟨bounded, low', high'⟩ := share.within below above least most (moderate (by norm_num)) (moderate (by norm_num))
  have some' : (0 : ℚ) < count := by exact_mod_cast some
  have short' : (count : ℚ) < 2 ^ 48 := by exact_mod_cast short
  have below' : Representable (-(1 / 4)) := ⟨-1, -2, by norm_num, by norm_num, by norm_num⟩
  have above' : Representable (count + 1 / 4) := by
    refine ⟨4 * count + 1, -2, abs_lt.mpr ⟨by omega, by omega⟩, by norm_num, ?_⟩
    push_cast
    ring
  have product := mul_stored bounded finite''
  rw [same] at product
  have least' : -(1 / 4) ≤ value (part / whole) * count := by nlinarith
  have most' : value (part / whole) * count ≤ count + 1 / 4 := by nlinarith
  obtain ⟨bounded', low'', high''⟩ := product.within below' above' least' most' (moderate (by norm_num))
    (moderate (abs_lt.mpr ⟨by linarith, by linarith⟩))
  obtain ⟨place, rounded, close⟩ := nearest_finite bounded'
  obtain ⟨close, close'⟩ := abs_le.mp close
  rw [cell_divided (nonzero_finite finite' positive.ne')]
  have first : (-1 : ℚ) < place := by linarith
  have last : (place : ℚ) < count + 1 := by linarith
  refine ⟨place, rounded, ?_, ?_⟩
  · exact Int.le_of_sub_one_lt (by exact_mod_cast first)
  · exact Int.lt_add_one_iff.mp (by exact_mod_cast last)

end Counts

end Cells

section Windows

/-- A fold that keeps the better number of two ends with one that no number betters. -/
theorem best_finite (order : ℚ → ℚ → Prop) (better : Float → Float → Bool) (same : ∀ p, order p p)
    (chain : ∀ p q r, order p q → order q r → order p r)
    (judged : ∀ {x best}, x.isFinite → best.isFinite →
      if better x best then order (value x) (value best) else order (value best) (value x))
    {first : Float} {rest : List Float} (finite : first.isFinite) (others : ∀ y ∈ rest, y.isFinite) :
    rest.foldl (fun best x => if better x best then x else best) first ∈ first :: rest ∧
      ∀ y ∈ first :: rest, order (value (rest.foldl (fun best x => if better x best then x else best) first)) (value y) := by
  induction rest generalizing first with
  | nil => exact ⟨List.mem_cons_self, fun y member => List.mem_singleton.mp member ▸ same _⟩
  | cons next rest ih =>
    have known : next.isFinite := others next List.mem_cons_self
    have later : ∀ y ∈ rest, y.isFinite := fun y member => others y (List.mem_cons_of_mem _ member)
    have choice := judged known finite
    rw [List.foldl_cons]
    by_cases wins : better next first = true
    · rw [if_pos wins] at choice ⊢
      obtain ⟨one, best⟩ := ih known later
      refine ⟨List.mem_cons_of_mem _ one, fun y member => ?_⟩
      rcases List.mem_cons.mp member with rfl | member
      · exact chain _ _ _ (best next List.mem_cons_self) choice
      · exact best y member
    · rw [if_neg wins] at choice ⊢
      obtain ⟨one, best⟩ := ih finite later
      have kept := best first List.mem_cons_self
      refine ⟨List.cons_subset_cons first (List.subset_cons_self next rest) one, fun y member => ?_⟩
      rcases List.mem_cons.mp member with rfl | member
      · exact kept
      · rcases List.mem_cons.mp member with rfl | member
        · exact chain _ _ _ kept choice
        · exact best y (List.mem_cons_of_mem _ member)

variable {first : Float} {rest : List Float}

theorem least_best (finite : first.isFinite) (others : ∀ y ∈ rest, y.isFinite) :
    Viewport.least first rest ∈ first :: rest ∧ ∀ y ∈ first :: rest, value (Viewport.least first rest) ≤ value y := by
  refine best_finite (· ≤ ·) (fun x best => decide (x < best)) le_refl (fun _ _ _ => le_trans) ?_ finite others
  intro x best finite finite'
  split
  next less => exact ((lt_iff finite finite').mp (of_decide_eq_true less)).le
  next other => exact not_lt.mp fun less => other (decide_eq_true ((lt_iff finite finite').mpr less))

theorem greatest_best (finite : first.isFinite) (others : ∀ y ∈ rest, y.isFinite) :
    Viewport.greatest first rest ∈ first :: rest ∧
      ∀ y ∈ first :: rest, value y ≤ value (Viewport.greatest first rest) := by
  refine best_finite (· ≥ ·) (fun x best => decide (best < x)) le_refl (fun _ _ _ => ge_trans) ?_ finite others
  intro x best finite finite'
  split
  next less => exact ((lt_iff finite' finite).mp (of_decide_eq_true less)).le
  next other => exact not_lt.mp fun less => other (decide_eq_true ((lt_iff finite' finite).mpr less))

theorem beside_finite {exact : ℚ} {x y : Float} (stored : Stored exact y) (close : |value x - exact| ≤ 1) :
    y.isFinite := by
  obtain ⟨result, rounded, ⟨finite, -⟩ | ⟨-, large⟩⟩ := stored
  · exact finite
  · have near := rounded.near (representable_value x)
    have size : |result| ≤ |value x| + 2 := by
      have := abs_sub_abs_le_abs_sub result (value x)
      have := abs_sub_le result exact (value x)
      rw [abs_sub_comm exact] at this
      linarith
    have gap : (2 : ℚ) < 2 ^ 971 := lt_self_pow₀ one_lt_two (by norm_num)
    have limit : (2 ^ 53 - 1) * 2 ^ 971 = (2 ^ 1024 : ℚ) - 2 ^ 971 := by
      rw [sub_mul, one_mul, ← pow_add]
    have bound := value_bound x
    rw [limit] at bound
    -- no tactic should evaluate these powers
    generalize (2 : ℚ) ^ 1024 = most, (2 : ℚ) ^ 971 = step at bound large gap
    linarith

/-- Widening a number by one to both sides moves the ends apart, if it moves them at all.
It does so within the range of exact whole numbers. -/
structure Widened (middle : ℚ) (low high : Float) : Prop where
  bottom : low.isFinite
  top : high.isFinite
  below : value low ≤ middle
  above : middle ≤ value high
  apart : |middle| < 2 ^ 53 → value low < value high ∧ -2 ^ 54 ≤ value low ∧ value high ≤ 2 ^ 54

/-- A whole number lies between a number and what it is moved to in the direction of zero. -/
theorem moved_apart {exact low high : ℚ} (lower : Rounded (exact - 1) low) (upper : Rounded (exact + 1) high)
    (below : low ≤ exact) (above : exact ≤ high) (small : |exact| < 2 ^ 53) : low < high := by
  obtain ⟨small, small'⟩ := abs_lt.mp small
  rcases le_or_gt exact 0 with negative | positive
  · have floor : -2 ^ 53 ≤ ⌊exact⌋ := Int.le_floor.mpr (by push_cast; linarith)
    have floor' : ⌊exact⌋ ≤ 0 := Int.floor_nonpos negative
    have kept : Representable (⌊exact⌋ + 1 : ℤ) := representable_whole (abs_lt.mpr ⟨by omega, by omega⟩)
    push_cast at kept
    have moved := upper.ge kept (by linarith [Int.floor_le exact])
    linarith [Int.lt_floor_add_one exact]
  · have ceiling : ⌈exact⌉ ≤ 2 ^ 53 := Int.ceil_le.mpr (by push_cast; linarith)
    have ceiling' : 0 < ⌈exact⌉ := Int.ceil_pos.mpr positive
    have kept : Representable (⌈exact⌉ - 1 : ℤ) := representable_whole (abs_lt.mpr ⟨by omega, by omega⟩)
    push_cast at kept
    have moved := lower.le kept (by linarith [Int.le_ceil exact])
    linarith [Int.ceil_lt_add_one exact]

theorem widened {x y : Float} (finite : x.isFinite) (finite' : y.isFinite) (same : value x = value y) :
    Widened (value x) (x - Float.ofInt 1) (y + Float.ofInt 1) := by
  have lower := sub_stored finite one_value.1
  have upper := add_stored finite' one_value.1
  rw [one_value.2] at lower upper
  rw [← same] at upper
  have bottom := beside_finite lower (show |value x - (value x - 1)| ≤ 1 by norm_num)
  have top := beside_finite upper (show |value x - (value x + 1)| ≤ 1 by norm_num)
  have lower := lower.rounded bottom
  have upper := upper.rounded top
  have below := lower.le (representable_value x) (by linarith)
  have above := upper.ge (representable_value x) (by linarith)
  refine ⟨bottom, top, below, above, fun small => ⟨moved_apart lower upper below above small, ?_, ?_⟩⟩
  · exact lower.ge (representable_power 54).neg (by linarith [(abs_lt.mp small).1])
  · exact upper.le (representable_power 54) (by linarith [(abs_lt.mp small).2])

/-- What an interval of doubles means to the numbers it was made for. -/
structure Holds (numbers : List Float) (low high : Float) : Prop where
  bottom : low.isFinite
  top : high.isFinite
  within : ∀ y ∈ numbers, value low ≤ value y ∧ value y ≤ value high
  apart : (∀ y ∈ numbers, |value y| < 2 ^ 53) → value low < value high ∧ -2 ^ 54 ≤ value low ∧ value high ≤ 2 ^ 54

theorem range_holds (finite : ∀ y ∈ first :: rest, y.isFinite) :
    Holds (first :: rest) (Viewport.range first rest).1 (Viewport.range first rest).2 := by
  have others : ∀ y ∈ rest, y.isFinite := fun y member => finite y (List.mem_cons_of_mem _ member)
  obtain ⟨low, least⟩ := least_best (finite first List.mem_cons_self) others
  obtain ⟨high, greatest⟩ := greatest_best (finite first List.mem_cons_self) others
  have bottom := finite _ low
  have top := finite _ high
  rw [Viewport.range, Viewport.spread]
  split
  next equal =>
    have wide := widened bottom top ((beq_iff bottom top).mp equal)
    have same := (beq_iff bottom top).mp equal
    refine ⟨wide.bottom, wide.top, fun y member => ⟨wide.below.trans (least y member), ?_⟩, fun small => ?_⟩
    · exact (greatest y member).trans (same ▸ wide.above)
    · exact wide.apart (small _ low)
  next apart =>
    refine ⟨bottom, top, fun y member => ⟨least y member, greatest y member⟩, fun small => ?_⟩
    have lowest := (abs_lt.mp (small _ low)).1
    have highest := (abs_lt.mp (small _ high)).2
    have other : value (Viewport.least first rest) ≠ value (Viewport.greatest first rest) :=
      fun same => apart ((beq_iff bottom top).mpr same)
    exact ⟨(least _ high).lt_of_ne other, by linarith, by linarith⟩

theorem plotDomain_range : ∃ first rest, plotDomain = first :: rest ∧
    Viewport.range first rest = (Float.ofInt (-10), Float.ofInt 9) := by
  refine ⟨_, _, rfl, ?_⟩
  decide +kernel

/-- The part of the plane that a plot shows. -/
structure Frames (points : List (Point Float)) (view : Viewport Float) : Prop where
  left : view.xMin = Float.ofInt (-10)
  right : view.xMax = Float.ofInt 9
  upright : value view.yMin ≤ value view.yMax
  ordinates : Holds ((points.map Point.y).filter Float.isFinite) view.yMin view.yMax

theorem ofPoints_frames {points : List (Point Float)} (sampled : Sampled points) :
    ∃ view, Viewport.ofPoints points = .ok view ∧ Frames points view := by
  obtain ⟨start, later, domain, columns⟩ := plotDomain_range
  rw [Sampled, domain] at sampled
  cases points with
  | nil => cases sampled
  | cons first rest =>
    obtain ⟨same, same'⟩ := List.cons.inj sampled
    have sides : Viewport.range first.x (rest.map (·.x)) = (Float.ofInt (-10), Float.ofInt 9) := by
      rw [same, ← columns]
      exact congrArg _ same'
    rw [Viewport.ofPoints, sides]
    cases ordinates : ((first :: rest).map Point.y).filter Float.isFinite with
    | nil =>
      obtain ⟨bottom, low⟩ := @ofInt_value (-1) (by norm_num)
      push_cast at low
      refine ⟨⟨Float.ofInt (-10), Float.ofInt 9, Float.ofInt (-1), Float.ofInt 1⟩, rfl, rfl, rfl, ?_, ?_⟩
      · rw [low, one_value.2]
        norm_num
      · rw [ordinates]
        exact ⟨bottom, one_value.1, nofun, fun _ => by rw [low, one_value.2]; norm_num⟩
    | cons y ys =>
      have finite : ∀ z ∈ y :: ys, z.isFinite := by
        rw [← ordinates]
        exact fun z member => (List.mem_filter.mp member).2
      have holds := range_holds finite
      obtain ⟨least, most⟩ := holds.within y List.mem_cons_self
      exact ⟨⟨Float.ofInt (-10), Float.ofInt 9, (Viewport.range y ys).1, (Viewport.range y ys).2⟩, rfl, rfl, rfl,
        least.trans most, ordinates ▸ holds⟩

theorem Frames.within {points : List (Point Float)} {view : Viewport Float} (frames : Frames points view)
    {point : Point Float} (member : point ∈ points) (finite : point.y.isFinite) :
    value view.yMin ≤ value point.y ∧ value point.y ≤ value view.yMax :=
  frames.ordinates.within point.y (List.mem_filter.mpr ⟨List.mem_map_of_mem member, finite⟩)

end Windows

section Places

/-- A chart of a size that fits into a machine. -/
structure Modest (size : Chart.Size) : Prop where
  wide : 1 < size.width
  high : 1 < size.height
  narrow : size.width ≤ 2 ^ 48
  low : size.height ≤ 2 ^ 48

/-- The height of the window, as the chart computes it. -/
def span (view : Viewport Float) : Float := view.yMax - view.yMin

/-- A window whose height is neither lost nor beyond the doubles. -/
structure Tall (view : Viewport Float) : Prop where
  finite : (span view).isFinite
  some : value (span view) ≠ 0

/-- A part of a chart is drawn, unless the window is so high that doubles overflow near
its ends. -/
inductive Drawn (view : Viewport Float) {α : Type} (post : α → Prop) : Except Fault α → Prop
  | fine {result : α} (holds : post result) : Drawn view post (.ok result)
  | overflow (huge : (span view + span view).isFinite = false) : Drawn view post (.error .roundingInfinity)

variable {view : Viewport Float} {α β : Type}

theorem Drawn.bind {post : α → Prop} {post' : β → Prop} {part : Except Fault α} {next : α → Except Fault β}
    (first : Drawn view post part) (rest : ∀ result, post result → Drawn view post' (next result)) :
    Drawn view post' (part >>= next) := by
  cases first with
  | fine holds => exact rest _ holds
  | overflow huge => exact .overflow huge

theorem Drawn.mapM {post : β → Prop} {part : α → Except Fault β} {items : List α}
    (each : ∀ item, Drawn view post (part item)) : Drawn view (fun _ => True) (items.mapM part) := by
  induction items with
  | nil => exact .fine trivial
  | cons item rest ih =>
    rw [List.mapM_cons]
    exact (each item).bind fun _ _ => ih.bind fun _ _ => .fine trivial

/-- An abscissa that the window reaches. -/
structure Under (x : Float) : Prop where
  finite : x.isFinite
  left : -10 ≤ value x
  right : value x ≤ 9

/-- An ordinate in the window, or beyond its ends by no more than a rounding. -/
structure Beside (view : Viewport Float) (y : Float) : Prop where
  finite : y.isFinite
  low : value view.yMin - (value view.yMax - value view.yMin) / 2 ^ 52 ≤ value y
  high : value y ≤ value view.yMax + (value view.yMax - value view.yMin) / 2 ^ 52

theorem under_origin : Under (Float.ofInt 0) := by
  constructor
  · exact origin_value.1
  · rw [origin_value.2]
    norm_num
  · rw [origin_value.2]
    norm_num

theorem beside_within {y : Float} (finite : y.isFinite) (low : value view.yMin ≤ value y)
    (high : value y ≤ value view.yMax) : Beside view y := by
  have room : 0 ≤ (value view.yMax - value view.yMin) / 2 ^ 52 := by linarith
  exact ⟨finite, by linarith, by linarith⟩

variable {points : List (Point Float)} {size : Chart.Size} (frames : Frames points view) (modest : Modest size)

section Windowed

include frames

theorem under_left : Under view.xMin := by
  obtain ⟨finite, same⟩ := @ofInt_value (-10) (by norm_num)
  push_cast at same
  rw [frames.left]
  constructor
  · exact finite
  · rw [same]
  · rw [same]
    norm_num

include modest

theorem column_within {x : Float} (under : Under x) :
    ∃ column, view.column x size.width = .ok column ∧ 0 ≤ column ∧ column < size.width := by
  obtain ⟨finite', first⟩ := @ofInt_value (-10) (by norm_num)
  obtain ⟨finite'', last⟩ := @ofInt_value 9 (by norm_num)
  push_cast at first last
  have nineteen : Representable 19 := by exact_mod_cast @representable_whole 19 (by norm_num)
  have whole := sub_stored finite'' finite'
  have part := sub_stored under.finite finite'
  rw [first, last] at whole
  rw [first] at part
  obtain ⟨finite₁, same⟩ := whole.unmoved (by norm_num; exact nineteen) (moderate (by norm_num))
  obtain ⟨finite₂, least, most⟩ := part.within representable_zero nineteen (by linarith [under.left])
    (by linarith [under.right]) (moderate (by norm_num)) (moderate (by norm_num))
  obtain ⟨wide, -, narrow, -⟩ := modest
  obtain ⟨column, placed, first, last⟩ := cell_within (show 0 < size.width - 1 by omega) (by omega) finite₂ finite₁
    (by rw [same]; norm_num) (by rw [same]; linarith) (by rw [same]; linarith)
  refine ⟨column, ?_, first, by omega⟩
  rw [column_eq, frames.left, frames.right]
  exact placed

end Windowed

section Upright

variable (tall : Tall view)

include frames tall

theorem span_positive : 0 < value (span view) := by
  have rounded := (sub_stored frames.ordinates.top frames.ordinates.bottom).rounded tall.finite
  exact (rounded.ge representable_zero (by linarith [frames.upright])).lt_of_ne' tall.some

include modest

theorem row_drawn {y : Float} (beside : Beside view y) :
    Drawn view (fun row => 0 ≤ row ∧ row < size.height) (view.row y size.height) := by
  obtain ⟨finite, low, high⟩ := beside
  obtain ⟨-, some, -, short⟩ := modest
  have positive := span_positive frames tall
  have upright := frames.upright
  have close : |value (span view) - _| ≤ _ := sub_share frames.ordinates.top frames.ordinates.bottom tall.finite
  rw [abs_of_nonneg (by linarith : 0 ≤ value view.yMax - value view.yMin), abs_le] at close
  have part := sub_stored frames.ordinates.top finite
  have large : |value view.yMax - value y| ≤
      value view.yMax - value view.yMin + (value view.yMax - value view.yMin) / 2 ^ 52 :=
    abs_le.mpr ⟨by linarith, by linarith⟩
  rw [row_eq]
  by_cases bounded : (view.yMax - y).isFinite = true
  · have near := sub_share frames.ordinates.top finite bounded
    rw [abs_le] at near
    obtain ⟨row, placed, first, last⟩ := cell_within (show 0 < size.height - 1 by omega) (by omega) bounded tall.finite
      positive (by linarith) (by linarith)
    rw [span] at placed
    rw [placed]
    exact .fine ⟨first, by omega⟩
  · -- a part that is not finite is larger than a window whose double is finite
    have huge : (span view + span view).isFinite = false := by
      rw [← Bool.not_eq_true]
      intro doubled
      have kept := representable_double (span view)
      have same := ((add_stored tall.finite tall.finite).rounded doubled).unmoved kept
      have small : |value (span view) + value (span view)| < 2 ^ 1024 := same ▸ value_small _
      have room := abs_le.mp (large.trans (show _ ≤ value (span view) + value (span view) by linarith))
      exact bounded (part.within kept.neg kept room.1 room.2 ((abs_neg _).trans_lt small) small).1
    obtain ⟨-, -, ⟨bounded', -⟩ | ⟨infinite, -⟩⟩ := part
    · exact absurd bounded' bounded
    · have placed := cell_infinite (show 0 < size.height - 1 by omega) (by omega) infinite tall.finite tall.some
      rw [span] at placed
      rw [placed]
      exact .overflow huge

theorem toGrid_drawn {x y : Float} (under : Under x) (beside : Beside view y) :
    Drawn view (fun place => (0 ≤ place.1 ∧ place.1 < size.width) ∧ 0 ≤ place.2 ∧ place.2 < size.height)
      (view.toGrid x y size.width size.height) := by
  obtain ⟨column, placed, first, last⟩ := column_within frames modest under
  rw [Viewport.toGrid, placed]
  exact (row_drawn frames modest tall beside).bind fun row inside => .fine ⟨⟨first, last⟩, inside⟩

end Upright

end Places

end Reckoner.Proofs.ChartPlaces
