import Reckoner.Proofs.ChartPasses
import Reckoner.Proofs.ChartPlaces

/-! Drawing the chart of a plot, in doubles. The curve between two samples leaves the window
by no more than a rounding, so that the height of the window alone decides whether a chart
can be drawn. -/

namespace Reckoner.Proofs.ChartDrawing
open DoubleValues DoubleRounding DoubleArithmetic EvaluationSafety ChartPlaces

section Axes

variable {points : List (Point Float)} {view : Viewport Float} {size : Chart.Size}

theorem index?_inside {count index : Int} (first : 0 ≤ index) (last : index < count) :
    Chart.index? count.toNat index = some index.toNat := by
  rw [Chart.index?, if_pos first, if_pos (by omega)]

theorem containsX_origin (frames : Frames points view) : view.containsX (Coordinate.ofInt 0) = true := by
  rw [Viewport.containsX, frames.left, frames.right]
  rfl

variable (frames : Frames points view) (modest : Modest size)

include frames modest

theorem axisRow_drawn (tall : Tall view) : Drawn view (fun _ => True) (Chart.axisRow view size) := by
  rw [Chart.axisRow]
  split
  next inside =>
    obtain ⟨below, above⟩ := Bool.and_eq_true_iff.mp inside
    have below := (le_iff frames.ordinates.bottom origin_value.1).mp (of_decide_eq_true below)
    have above := (le_iff origin_value.1 frames.ordinates.top).mp (of_decide_eq_true above)
    refine (toGrid_drawn frames modest tall (under_left frames) (beside_within origin_value.1 below above)).bind ?_
    intro place inside
    obtain ⟨column, row⟩ := place
    obtain ⟨-, first, last⟩ := inside
    have found : Chart.index? size.rows row = some row.toNat := index?_inside first last
    simp only [found]
    exact .fine trivial
  next => exact .fine trivial

theorem axisColumn_drawn (tall : Tall view) : Drawn view (fun _ => True) (Chart.axisColumn view size) := by
  rw [Chart.axisColumn, if_pos (containsX_origin frames)]
  have bottom : Beside view view.yMin := beside_within frames.ordinates.bottom le_rfl frames.upright
  refine (toGrid_drawn frames modest tall under_origin bottom).bind ?_
  intro place inside
  obtain ⟨column, row⟩ := place
  obtain ⟨⟨first, last⟩, -⟩ := inside
  have found : Chart.index? size.columns column = some column.toNat := index?_inside first last
  simp only [found]
  split
  · exact .fine trivial
  · exact .fine trivial

theorem toGrid_stuck {x y : Float} (under : Under x) {fault : Fault} (missing : view.row y size.height = .error fault) :
    view.toGrid x y size.width size.height = .error fault := by
  obtain ⟨column, placed, -, -⟩ := column_within frames modest under
  rw [Viewport.toGrid, placed, missing]
  rfl

/-- The axes come first, and the vertical one looks for the row of the lower end. -/
theorem layout_stuck {fault : Fault} (bottom : view.row view.yMin size.height = .error fault)
    (origin : view.row (Float.ofInt 0) size.height = .error fault ∨ view.row (Float.ofInt 0) size.height = .ok 0) :
    Chart.layout points view size = .error fault := by
  have vertical : Chart.axisColumn view size = .error fault := by
    have stuck : view.toGrid (Coordinate.ofInt 0) view.yMin size.width size.height = .error fault :=
      toGrid_stuck frames modest under_origin bottom
    rw [Chart.axisColumn, if_pos (containsX_origin frames), stuck]
    rfl
  have horizontal : Chart.axisRow view size = .error fault ∨ ∃ row, Chart.axisRow view size = .ok row := by
    rw [Chart.axisRow]
    split
    next =>
      rcases origin with missing | found
      · have stuck : view.toGrid view.xMin (Coordinate.ofInt 0) size.width size.height = .error fault :=
          toGrid_stuck frames modest (under_left frames) missing
        rw [stuck]
        exact .inl rfl
      · obtain ⟨column, placed, -, -⟩ := column_within frames modest (under_left frames)
        have found : view.toGrid view.xMin (Coordinate.ofInt 0) size.width size.height = .ok (column, 0) := by
          rw [Viewport.toGrid, placed]
          change (view.row (Float.ofInt 0) size.height >>= _) = _
          rw [found]
          rfl
        have first : Chart.index? size.rows 0 = some 0 := index?_inside le_rfl (by linarith [modest.high])
        refine .inr ⟨some 0, ?_⟩
        rw [found]
        simp only [bind, Except.bind, first]
        rfl
    next => exact .inr ⟨none, rfl⟩
  rw [Chart.layout]
  rcases horizontal with stuck | ⟨row, drawn⟩
  · rw [stuck]
    rfl
  · rw [drawn, vertical]
    rfl

end Axes

section Curves

/-- Neighbours among the places where plots sample. -/
structure Step (left right : Float) : Prop where
  finite : left.isFinite
  finite' : right.isFinite
  unit : value right = value left + 1
  first : -10 ≤ value left
  last : value right ≤ 9

theorem sample_value {index : Nat} (bound : index < 20) :
    (Float.ofInt (Int.ofNat index - 10)).isFinite ∧ value (Float.ofInt (Int.ofNat index - 10)) = index - 10 := by
  obtain ⟨finite, same⟩ := @ofInt_value (Int.ofNat index - 10) (abs_lt.mpr ⟨by simp; omega, by simp; omega⟩)
  exact ⟨finite, same.trans (by simp)⟩

theorem plotDomain_steps : plotDomain.IsChain Step := by
  rw [plotDomain, List.isChain_map]
  refine (List.isChain_range_succ _ 19).mpr fun index bound => ?_
  obtain ⟨finite, same⟩ := sample_value (show index < 20 by omega)
  obtain ⟨finite', same'⟩ := sample_value (show index.succ < 20 by omega)
  have bound : (index : ℚ) + 1 ≤ 19 := by exact_mod_cast bound
  have least : (0 : ℚ) ≤ index := Nat.cast_nonneg index
  push_cast at same'
  exact ⟨finite, finite', by linarith, by linarith, by linarith⟩

/-- A point between two others may be rounded beyond them, but only by a tiny share of the
room they have. -/
theorem between_rounded {start finish rise difference result low high : ℚ} (kept : Representable low)
    (kept' : Representable high) (starts : low ≤ start ∧ start ≤ high) (finishes : low ≤ finish ∧ finish ≤ high)
    (near : |difference - (finish - start)| ≤ |finish - start| / 2 ^ 53)
    (between : 0 ≤ rise ∧ rise ≤ difference ∨ difference ≤ rise ∧ rise ≤ 0) (rounded : Rounded (start + rise) result) :
    low - (high - low) / 2 ^ 52 ≤ result ∧ result ≤ high + (high - low) / 2 ^ 52 := by
  have room : |finish - start| ≤ high - low := abs_le.mpr ⟨by linarith, by linarith⟩
  have near := abs_le.mp (near.trans (div_le_div_of_nonneg_right room (by positivity)))
  have under : low - (high - low) / 2 ^ 53 ≤ start + rise := by rcases between with ⟨up, down⟩ | ⟨up, down⟩ <;> linarith
  have above : start + rise ≤ high + (high - low) / 2 ^ 53 := by rcases between with ⟨up, down⟩ | ⟨up, down⟩ <;> linarith
  constructor
  · rcases le_total low (start + rise) with inside | outside
    · linarith [rounded.ge kept inside]
    · have close := rounded.near kept
      rw [abs_of_nonneg (by linarith : 0 ≤ low - (start + rise))] at close
      linarith [(abs_le.mp close).1]
  · rcases le_total (start + rise) high with inside | outside
    · linarith [rounded.le kept' inside]
    · have close := rounded.near kept'
      rw [abs_sub_comm high, abs_of_nonneg (by linarith : 0 ≤ start + rise - high)] at close
      linarith [(abs_le.mp close).2]

variable {left right : Point Float} {x : Float}

theorem step_unit (step : Step left.x right.x) : (right.x - left.x).isFinite ∧ value (right.x - left.x) = 1 := by
  have stored := sub_stored step.finite' step.finite
  rw [step.unit, add_sub_cancel_left] at stored
  exact stored.unmoved representable_one (moderate (by norm_num))

theorem difference_positive {a b : Float} (finite : a.isFinite) (finite' : b.isFinite) (apart : value a < value b)
    (bounded : (b - a).isFinite) : 0 < value (b - a) := by
  have near := sub_share finite' finite bounded
  rw [abs_of_pos (sub_pos.mpr apart), abs_le] at near
  linarith

theorem segment_divided (finite : left.x.isFinite) (finite' : right.x.isFinite) (apart : value left.x < value right.x)
    (bounded : (right.x - left.x).isFinite) : Curve.segment left right x =
      .ok (left.y + (right.y - left.y) * (x - left.x) / (right.x - left.x)) := by
  have different : (right.x == left.x) = false := by
    rw [Bool.eq_false_iff, ne_eq, beq_iff finite' finite]
    exact apart.ne'
  have divided : (right.x - left.x == 0) = false :=
    nonzero_finite bounded (difference_positive finite finite' apart bounded).ne'
  change (if (right.x == left.x) = true then _
    else (Number.divide ((right.y - left.y) * (x - left.x)) (right.x - left.x)).bind _) = _
  rw [different, if_neg Bool.false_ne_true, divide_nonzero divided]
  rfl

theorem segment_eq (step : Step left.x right.x) : Curve.segment left right x =
    .ok (left.y + (right.y - left.y) * (x - left.x) / (right.x - left.x)) :=
  segment_divided step.finite step.finite' (by linarith [step.unit]) (step_unit step).1

theorem segment_between {view : Viewport Float} {points : List (Point Float)} (frames : Frames points view)
    (member : left ∈ points) (member' : right ∈ points) (step : Step left.x right.x) (above : left.x ≤ x)
    (below : x ≤ right.x) {y : Float} (found : Curve.segment left right x = .ok y) (finite : y.isFinite) :
    Under x ∧ Beside view y := by
  have known : x.isFinite := finite_between step.finite step.finite' (le_iff_decoded.mp above) (le_iff_decoded.mp below)
  have above := (le_iff step.finite known).mp above
  have below := (le_iff known step.finite').mp below
  obtain ⟨unit_finite, unit⟩ := step_unit step
  rw [segment_eq step] at found
  cases found
  -- a finite result has only finite parts
  obtain ⟨start, rise⟩ := finite_add finite
  have product := finite_div rise
  obtain ⟨difference, offset⟩ := finite_mul product
  obtain ⟨finish, -⟩ := finite_sub difference
  have stepped := (sub_stored known step.finite).rounded offset
  have least : 0 ≤ value (x - left.x) := stepped.ge representable_zero (by linarith)
  have most : value (x - left.x) ≤ 1 := stepped.le representable_one (by linarith [step.unit])
  have multiplied := (mul_stored difference offset).rounded product
  have divided := (div_stored product unit_finite (by rw [unit]; norm_num)).rounded rise
  rw [unit, div_one] at divided
  have same := divided.unmoved (representable_value _)
  have between : 0 ≤ value ((right.y - left.y) * (x - left.x)) ∧
        value ((right.y - left.y) * (x - left.x)) ≤ value (right.y - left.y) ∨
      value (right.y - left.y) ≤ value ((right.y - left.y) * (x - left.x)) ∧
        value ((right.y - left.y) * (x - left.x)) ≤ 0 := by
    rcases le_total 0 (value (right.y - left.y)) with rises | falls
    · exact .inl ⟨multiplied.ge representable_zero (mul_nonneg rises least),
        multiplied.le (representable_value _) (mul_le_of_le_one_right rises most)⟩
    · exact .inr ⟨multiplied.ge (representable_value _) (by nlinarith),
        multiplied.le representable_zero (mul_nonpos_of_nonpos_of_nonneg falls least)⟩
  have added := (add_stored start rise).rounded finite
  rw [same] at added
  obtain ⟨low, high⟩ := between_rounded (representable_value _) (representable_value _) (frames.within member start)
    (frames.within member' finish) (sub_share finish start difference) between added
  exact ⟨⟨known, step.first.trans above, below.trans step.last⟩, finite, low, high⟩

theorem alongSegments_found {points : List (Point Float)} (chain : points.IsChain fun left right => Step left.x right.x)
    (x : Float) : ∃ found, Curve.alongSegments x points = .ok found ∧ ∀ y, found = some y →
      ∃ left ∈ points, ∃ right ∈ points, Step left.x right.x ∧ left.x ≤ x ∧ x ≤ right.x ∧
        Curve.segment left right x = .ok y := by
  induction points with
  | nil => exact ⟨none, rfl, nofun⟩
  | cons left rest ih =>
    cases rest with
    | nil => exact ⟨none, rfl, nofun⟩
    | cons right rest =>
      obtain ⟨step, chain⟩ := List.isChain_cons_cons.mp chain
      rw [Curve.alongSegments]
      split
      next inside =>
        obtain ⟨above, below⟩ := Bool.and_eq_true_iff.mp inside
        have found := @segment_eq left right x step
        rw [found]
        refine ⟨_, rfl, fun y same => ?_⟩
        cases same
        exact ⟨left, List.mem_cons_self, right, List.mem_cons_of_mem _ List.mem_cons_self, step,
          of_decide_eq_true above, of_decide_eq_true below, found⟩
      next =>
        obtain ⟨found, same, origin⟩ := ih chain
        refine ⟨found, same, fun y some => ?_⟩
        obtain ⟨left', member, right', member', rest⟩ := origin y some
        exact ⟨left', List.mem_cons_of_mem _ member, right', List.mem_cons_of_mem _ member', rest⟩

theorem interpolate_found {view : Viewport Float} {points : List (Point Float)} (sampled : Sampled points)
    (frames : Frames points view) (x : Float) : ∃ found, Curve.interpolate points x = .ok found ∧
      ∀ y, found = some y → y.isFinite → Under x ∧ Beside view y := by
  have chain : points.IsChain fun left right => Step left.x right.x := by
    rw [← List.isChain_map Point.x, show points.map Point.x = plotDomain from sampled]
    exact plotDomain_steps
  obtain ⟨found, same, origin⟩ := alongSegments_found chain x
  have whole : Curve.interpolate points x = Curve.alongSegments x points := by
    have count : points.length = 20 := by
      rw [← List.length_map Point.x, show points.map Point.x = plotDomain from sampled]
      rfl
    match points, count with
    | [only], count => cases count
    | _ :: _ :: _, _ => rfl
  refine ⟨found, whole.trans same, fun y some finite => ?_⟩
  obtain ⟨left, member, right, member', step, above, below, segment⟩ := origin y some
  exact segment_between frames member member' step above below segment finite

end Curves

section Drawing

variable {points : List (Point Float)} {view : Viewport Float} {size : Chart.Size}

theorem columnX_found (column : Int) (modest : Modest size) : ∃ x, view.columnX column size.width = .ok x := by
  obtain ⟨wide, -, narrow, -⟩ := modest
  obtain ⟨finite, same⟩ := count_value (show 0 < size.width - 1 by omega) (by omega)
  have divided : (Float.ofInt (size.width - 1) == 0) = false := by
    refine nonzero_finite finite ?_
    rw [same]
    exact_mod_cast (show size.width - 1 ≠ 0 by omega)
  refine ⟨view.xMin + (view.xMax - view.xMin) * Float.ofInt column / Float.ofInt (size.width - 1), ?_⟩
  change (Number.divide ((view.xMax - view.xMin) * Float.ofInt column) (Float.ofInt (size.width - 1))).bind _ = _
  rw [divide_nonzero divided]
  rfl

theorem star_drawn (sampled : Sampled points) (frames : Frames points view) (modest : Modest size) (tall : Tall view)
    (column : Nat) : Drawn view (fun _ => True) (Chart.star points view size column) := by
  obtain ⟨x, placed⟩ := @columnX_found view size column modest
  obtain ⟨found, interpolated, between⟩ := interpolate_found sampled frames x
  rw [Chart.star, placed]
  change Drawn view _ (Curve.interpolate points x >>= _)
  rw [interpolated]
  cases found with
  | none => exact .fine trivial
  | some y =>
    change Drawn view _ (if y.isFinite then _ else _)
    split
    next finite =>
      obtain ⟨under, beside⟩ := between y rfl finite
      refine (toGrid_drawn frames modest tall under beside).bind ?_
      intro place inside
      obtain ⟨column, row⟩ := place
      obtain ⟨-, first, last⟩ := inside
      have found : Chart.index? size.rows row = some row.toNat := index?_inside first last
      simp only [found]
      exact .fine trivial
    next => exact .fine trivial

theorem layout_drawn (sampled : Sampled points) (frames : Frames points view) (modest : Modest size) (tall : Tall view) :
    Drawn view (fun _ => True) (Chart.layout points view size) := by
  rw [Chart.layout]
  refine (axisRow_drawn frames modest tall).bind fun _ _ => ?_
  refine (axisColumn_drawn frames modest tall).bind fun _ _ => ?_
  exact (Drawn.mapM (star_drawn sampled frames modest tall)).bind fun _ _ => .fine trivial

/-- The height of the window decides what becomes of a chart. -/
inductive Charted (view : Viewport Float) : Except Fault (List String) → Prop
  | drawn {lines : List String} (tall : Tall view) : Charted view (.ok lines)
  | flat (level : (span view == 0) = true) : Charted view (.error .divisionByZero)
  | endless (infinite : (span view).isInf) : Charted view (.error .roundingNaN)
  | steep (tall : Tall view) (huge : (span view + span view).isFinite = false) : Charted view (.error .roundingInfinity)

theorem draw_layout (framed : Viewport.ofPoints points = .ok view) : Chart.draw points size =
    (Chart.layout points view size).map fun layout =>
      (layout.lines size.rows).map String.ofList ++ [Chart.caption view] := by
  rw [Chart.draw, ChartPasses.grid_eq, framed]
  change ((Chart.layout points view size >>= _) >>= _) = _
  cases Chart.layout points view size <;> rfl

theorem draw_charted (sampled : Sampled points) (modest : Modest size) (framed : Viewport.ofPoints points = .ok view)
    (frames : Frames points view) : Charted view (Chart.draw points size) := by
  obtain ⟨-, -, ⟨finite, -⟩ | ⟨infinite, -⟩⟩ := sub_stored frames.ordinates.top frames.ordinates.bottom
  · by_cases level : (span view == 0) = true
    · have stuck : Chart.layout points view size = .error .divisionByZero :=
        layout_stuck frames modest (cell_flat level) (.inl (cell_flat level))
      rw [draw_layout framed, stuck]
      exact .flat level
    · have tall : Tall view := ⟨finite, fun zero => level ((zero_iff finite).mpr zero)⟩
      have laid := layout_drawn sampled frames modest tall
      rw [draw_layout framed]
      generalize Chart.layout points view size = layout at laid ⊢
      cases laid with
      | fine => exact .drawn tall
      | overflow huge => exact .steep tall huge
  · obtain ⟨-, some, -, short⟩ := id modest
    have above := sub_stored frames.ordinates.top origin_value.1
    rw [origin_value.2, sub_zero] at above
    have bounded := (above.unmoved (representable_value _) (value_small _)).1
    have origin : view.row (Float.ofInt 0) size.height = .ok 0 :=
      cell_vanishing (show 0 < size.height - 1 by omega) (by omega) bounded infinite
    have stuck : Chart.layout points view size = .error .roundingNaN :=
      layout_stuck frames modest (cell_unknown infinite infinite) (.inr origin)
    rw [draw_layout framed, stuck]
    exact .endless infinite

/-- Where all finite ordinates are within the range of exact whole numbers, a chart is drawn. -/
theorem draw_moderate (frames : Frames points view)
    (small : ∀ point ∈ points, point.y.isFinite → |value point.y| < 2 ^ 53) {drawn : Except Fault (List String)}
    (charted : Charted view drawn) : ∃ lines, drawn = .ok lines := by
  have small' : ∀ y ∈ (points.map Point.y).filter Float.isFinite, |value y| < 2 ^ 53 := by
    intro y member
    obtain ⟨member, finite⟩ := List.mem_filter.mp member
    obtain ⟨point, given, rfl⟩ := List.mem_map.mp member
    exact small point given finite
  obtain ⟨apart, lowest, highest⟩ := frames.ordinates.apart small'
  obtain ⟨finite, least, most⟩ : (span view).isFinite ∧ 0 ≤ value (span view) ∧ value (span view) ≤ 2 ^ 55 :=
    (sub_stored frames.ordinates.top frames.ordinates.bottom).within representable_zero (representable_power 55)
      (by linarith) (by linarith) (moderate (by norm_num)) (power_small (by norm_num))
  have share : |value (span view) - _| ≤ _ := sub_share frames.ordinates.top frames.ordinates.bottom finite
  rw [abs_of_pos (by linarith : 0 < value view.yMax - value view.yMin), abs_le] at share
  cases charted with
  | drawn => exact ⟨_, rfl⟩
  | flat level => linarith [(zero_iff finite).mp level]
  | endless infinite => exact (unpacked_exclusive _ finite infinite).elim
  | steep tall huge =>
    have doubled := (add_stored finite finite).within representable_zero (representable_power 56) (by linarith)
      (by linarith) (moderate (by norm_num)) (power_small (by norm_num))
    exact absurd doubled.1 (by rw [huge]; exact Bool.false_ne_true)

end Drawing

end Reckoner.Proofs.ChartDrawing
