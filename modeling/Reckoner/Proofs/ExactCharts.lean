import Reckoner.Proofs.ChartDrawing
import Reckoner.Proofs.ChartShape

/-! Charts in exact arithmetic. The program draws its charts in doubles; read in rational
numbers, the same definitions never fail on points that ascend, and each column of the
chart has its star where the straight lines between the points run through it. -/

namespace Reckoner.Proofs.ExactCharts
open Chart ChartPasses ChartShape Computations

/-- A whole number is nearest to a number if it is at most a half away, and even if it is
just a half away. -/
structure Nearest (q : ℚ) (whole : ℤ) : Prop where
  close : |(whole : ℚ) - q| ≤ 1 / 2
  even : |(whole : ℚ) - q| = 1 / 2 → Even whole

/-- Rounding by sign and magnitude, as doubles are rounded. -/
def rounded (q : ℚ) : ℤ :=
  if q < 0 then -(Number.nearestEven q.num.natAbs q.den : ℤ) else Number.nearestEven q.num.natAbs q.den

instance : Coordinate ℚ where
  ofInt whole := whole
  less a b := decide (a < b)
  atMost a b := decide (a ≤ b)
  equal a b := decide (a = b)
  isFinite _ := true
  divide a b := if b = 0 then .error .divisionByZero else .ok (a / b)
  nearest q := .ok (rounded q)

theorem divide_exact {a b : ℚ} (divisor : b ≠ 0) : Coordinate.divide a b = .ok (a / b) := if_neg divisor

section Rounding

theorem nearestEven_tie {numerator denominator : ℕ} (positive : 0 < denominator)
    (tie : |(Number.nearestEven numerator denominator : ℚ) - numerator / denominator| = 1 / 2) :
    Even (Number.nearestEven numerator denominator) := by
  have unit : (0 : ℚ) < denominator := by exact_mod_cast positive
  have least : (0 : ℚ) ≤ (numerator % denominator : ℕ) / denominator := by positivity
  have short : ((numerator % denominator : ℕ) : ℚ) / denominator < 1 := by
    rw [div_lt_one unit]
    exact_mod_cast Nat.mod_lt numerator positive
  rw [DoubleValues.quotient_split numerator positive] at tie
  rw [Number.nearestEven] at tie ⊢
  split at tie
  next low =>
    have low : ((numerator % denominator : ℕ) : ℚ) / denominator < 1 / 2 := by
      rw [div_lt_div_iff₀ unit two_pos, one_mul, mul_comm]
      exact_mod_cast low
    rw [sub_add_cancel_left, abs_neg, abs_of_nonneg least] at tie
    linarith
  next low =>
    rw [if_neg low]
    split at tie
    next high =>
      have high : (1 / 2 : ℚ) < (numerator % denominator : ℕ) / denominator := by
        rw [div_lt_div_iff₀ two_pos unit, one_mul, mul_comm]
        exact_mod_cast high
      rw [Nat.cast_succ, add_sub_add_left_eq_sub, abs_of_pos (by linarith)] at tie
      linarith
    next high =>
      rw [if_neg high]
      split
      next even => exact Nat.even_iff.mpr even
      next odd => exact Nat.even_add_one.mpr fun even => odd (Nat.even_iff.mp even)

theorem Nearest.neg {q : ℚ} {whole : ℤ} (nearest : Nearest q whole) : Nearest (-q) (-whole) := by
  have same : |((-whole : ℤ) : ℚ) - -q| = |(whole : ℚ) - q| := by rw [Int.cast_neg, neg_sub_neg, abs_sub_comm]
  exact ⟨same ▸ nearest.close, fun tie => (nearest.even (same ▸ tie)).neg⟩

theorem rounded_nearest (q : ℚ) : Nearest q (rounded q) := by
  have magnitude : ((q.num.natAbs : ℕ) : ℚ) / q.den = |q| := by
    conv_rhs => rw [← Rat.num_div_den q, abs_div]
    rw [Nat.cast_natAbs, Int.cast_abs, Nat.abs_cast]
  have nearest : Nearest |q| (Number.nearestEven q.num.natAbs q.den) := by
    rw [← magnitude]
    exact ⟨DoubleValues.nearestEven_close _ q.den_pos, fun tie => by exact_mod_cast nearestEven_tie q.den_pos tie⟩
  rw [rounded]
  split
  next negative =>
    rw [abs_of_neg negative] at nearest
    simpa using nearest.neg
  next positive => rwa [abs_of_nonneg (not_lt.mp positive)] at nearest

/-- A share of so many cells lies on one of them. -/
theorem rounded_share {part whole : ℚ} {count : ℤ} (some : 0 ≤ count) (positive : 0 < whole) (low : 0 ≤ part)
    (high : part ≤ whole) : 0 ≤ rounded (part / whole * count) ∧ rounded (part / whole * count) ≤ count := by
  have some : (0 : ℚ) ≤ count := by exact_mod_cast some
  have least : 0 ≤ part / whole := div_nonneg low positive.le
  have most : part / whole ≤ 1 := (div_le_one positive).mpr high
  have least : 0 ≤ part / whole * count := mul_nonneg least some
  have most : part / whole * count ≤ count := mul_le_of_le_one_left some most
  obtain ⟨close, close'⟩ := abs_le.mp (rounded_nearest (part / whole * count)).close
  have first : (-1 : ℚ) < rounded (part / whole * count) := by linarith
  have last : (rounded (part / whole * count) : ℚ) < count + 1 := by linarith
  exact ⟨Int.le_of_sub_one_lt (by exact_mod_cast first), Int.lt_add_one_iff.mp (by exact_mod_cast last)⟩

end Rounding

section Windows

theorem least_spec (first : ℚ) (rest : List ℚ) :
    Viewport.least first rest ∈ first :: rest ∧ ∀ q ∈ first :: rest, Viewport.least first rest ≤ q := by
  have same : Viewport.least first rest = rest.foldl min first := by
    refine congrArg (List.foldl · first rest) (funext₂ fun best q => ?_)
    rw [min_comm, min_def_lt]
    exact if_congr (decide_eq_true_iff) rfl rfl
  exact List.min?_eq_some_iff.mp (same ▸ rfl)

theorem greatest_spec (first : ℚ) (rest : List ℚ) :
    Viewport.greatest first rest ∈ first :: rest ∧ ∀ q ∈ first :: rest, q ≤ Viewport.greatest first rest := by
  have same : Viewport.greatest first rest = rest.foldl max first := by
    refine congrArg (List.foldl · first rest) (funext₂ fun best q => ?_)
    rw [max_def_lt]
    exact if_congr (decide_eq_true_iff) rfl rfl
  exact List.max?_eq_some_iff.mp (same ▸ rfl)

/-- An interval with room in it that holds the given numbers, and ends at some of them if
they are not all the same. -/
structure Covers (numbers : List ℚ) (low high : ℚ) : Prop where
  room : low < high
  within : ∀ q ∈ numbers, low ≤ q ∧ q ≤ high
  ends : ∀ p ∈ numbers, ∀ q ∈ numbers, p < q → low ∈ numbers ∧ high ∈ numbers

theorem range_covers (first : ℚ) (rest : List ℚ) :
    Covers (first :: rest) (Viewport.range first rest).1 (Viewport.range first rest).2 := by
  obtain ⟨low, least⟩ := least_spec first rest
  obtain ⟨high, greatest⟩ := greatest_spec first rest
  rw [Viewport.range, Viewport.spread]
  split
  next equal =>
    have same : Viewport.least first rest = Viewport.greatest first rest := of_decide_eq_true equal
    have unit : (Coordinate.ofInt 1 : ℚ) = 1 := Int.cast_one
    refine ⟨?_, fun q member => ⟨?_, ?_⟩, fun p member q member' less => ?_⟩
    · change Viewport.least first rest - Coordinate.ofInt 1 < Viewport.greatest first rest + Coordinate.ofInt 1
      rw [unit, same]
      linarith
    · change Viewport.least first rest - Coordinate.ofInt 1 ≤ q
      rw [unit]
      linarith [least q member]
    · change q ≤ Viewport.greatest first rest + Coordinate.ofInt 1
      rw [unit]
      linarith [greatest q member]
    · linarith [least p member, greatest q member']
  next apart =>
    have other : Viewport.least first rest ≠ Viewport.greatest first rest := fun same => apart (decide_eq_true same)
    exact ⟨(least _ high).lt_of_ne other, fun q member => ⟨least q member, greatest q member⟩,
      fun _ _ _ _ _ => ⟨low, high⟩⟩

/-- The part of the plane that a chart shows. -/
structure Framed (points : List (Point ℚ)) (view : Viewport ℚ) : Prop where
  columns : Covers (points.map Point.x) view.xMin view.xMax
  rows : Covers (points.map Point.y) view.yMin view.yMax

theorem ofPoints_framed {points : List (Point ℚ)} (filled : points ≠ []) :
    ∃ view, Viewport.ofPoints points = .ok view ∧ Framed points view := by
  cases points with
  | nil => exact absurd rfl filled
  | cons first rest =>
    have known : ((first :: rest).map Point.y).filter Coordinate.isFinite = first.y :: rest.map Point.y :=
      List.filter_eq_self.mpr fun _ _ => rfl
    rw [Viewport.ofPoints, known]
    exact ⟨_, rfl, range_covers first.x (rest.map Point.x), range_covers first.y (rest.map Point.y)⟩

end Windows

section Curves

variable {left right : Point ℚ} {x low high : ℚ}

/-- The height of the straight line through two points. -/
def chord (left right : Point ℚ) (x : ℚ) : ℚ := left.y + (right.y - left.y) * (x - left.x) / (right.x - left.x)

theorem chord_left : chord left right left.x = left.y := by
  rw [chord, sub_self, mul_zero, zero_div, add_zero]

theorem chord_right (apart : left.x < right.x) : chord left right right.x = right.y := by
  rw [chord, mul_div_cancel_right₀ _ (sub_ne_zero.mpr apart.ne'), add_sub_cancel]

/-- A straight line stays between its ends. -/
theorem chord_between (apart : left.x < right.x) (above : left.x ≤ x) (below : x ≤ right.x)
    (starts : low ≤ left.y ∧ left.y ≤ high) (finishes : low ≤ right.y ∧ right.y ≤ high) :
    low ≤ chord left right x ∧ chord left right x ≤ high := by
  have room : 0 < right.x - left.x := sub_pos.mpr apart
  obtain ⟨share, known⟩ : ∃ share, (x - left.x) / (right.x - left.x) = share := ⟨_, rfl⟩
  have least : 0 ≤ share := known ▸ div_nonneg (sub_nonneg.mpr above) room.le
  have most : share ≤ 1 := known ▸ (div_le_one room).mpr (by linarith)
  have mixed : chord left right x = (1 - share) * left.y + share * right.y := by
    rw [chord, mul_div_assoc, known]
    ring
  rw [mixed]
  constructor
  · nlinarith
  · nlinarith

theorem segment_chord (apart : left.x < right.x) : Curve.segment left right x = .ok (chord left right x) := by
  have different : Coordinate.equal right.x left.x = false := decide_eq_false apart.ne'
  rw [Curve.segment, different]
  change (Coordinate.divide ((right.y - left.y) * (x - left.x)) (right.x - left.x)).bind _ = _
  rw [divide_exact (sub_ne_zero.mpr apart.ne')]
  rfl

def Ascending (points : List (Point ℚ)) : Prop := points.Pairwise fun left right => left.x < right.x

variable {points : List (Point ℚ)}

/-- Where two segments meet, both have the height of the point they share. -/
theorem alongSegments_chord (ascending : Ascending points) (neighbours : [left, right] <:+: points) (above : left.x ≤ x)
    (below : x ≤ right.x) : Curve.alongSegments x points = .ok (some (chord left right x)) := by
  induction points with
  | nil => cases List.infix_nil.mp neighbours
  | cons first rest ih =>
    obtain ⟨later, ascending⟩ := List.pairwise_cons.mp ascending
    match rest with
    | [] => exact absurd neighbours.length_le (by simp)
    | second :: rest =>
      have apart := later second List.mem_cons_self
      rw [Curve.alongSegments, segment_chord apart]
      rcases List.infix_cons_iff.mp neighbours with front | behind
      · obtain ⟨rfl, next⟩ := List.cons_prefix_cons.mp front
        obtain ⟨rfl, -⟩ := List.cons_prefix_cons.mp next
        exact if_pos (Bool.and_eq_true_iff.mpr ⟨decide_eq_true above, decide_eq_true below⟩)
      · have member : left ∈ second :: rest := behind.subset List.mem_cons_self
        split
        next inside =>
          have reached : x ≤ second.x := of_decide_eq_true (Bool.and_eq_true_iff.mp inside).2
          rcases List.mem_cons.mp member with rfl | member
          · rw [le_antisymm reached above, chord_right apart, chord_left]
            rfl
          · exact absurd ((List.pairwise_cons.mp ascending).1 left member) (by linarith)
        next => exact ih ascending behind

theorem interpolate_chord (ascending : Ascending points) (neighbours : [left, right] <:+: points) (above : left.x ≤ x)
    (below : x ≤ right.x) : Curve.interpolate points x = .ok (some (chord left right x)) := by
  match points with
  | [] => cases List.infix_nil.mp neighbours
  | [only] => exact absurd neighbours.length_le (by simp)
  | first :: second :: rest => exact alongSegments_chord ascending neighbours above below

theorem neighbours_apart (ascending : Ascending points) (neighbours : [left, right] <:+: points) : left.x < right.x :=
  (List.pairwise_cons.mp (ascending.sublist neighbours.sublist)).1 right (by simp)

/-- Neighbouring points leave no gap between the first and the last. -/
theorem neighbours_around {first last : Point ℚ} (ascending : Ascending points) (several : 2 ≤ points.length)
    (member : first ∈ points) (member' : last ∈ points) (above : first.x ≤ x) (below : x ≤ last.x) :
    ∃ left right, [left, right] <:+: points ∧ left.x ≤ x ∧ x ≤ right.x := by
  induction points generalizing first with
  | nil => cases member
  | cons left rest ih =>
    obtain ⟨later, ascending⟩ := List.pairwise_cons.mp ascending
    match rest with
    | [] => exact absurd several (by simp)
    | right :: rest =>
      by_cases reached : x ≤ right.x
      · refine ⟨left, right, ⟨[], rest, rfl⟩, ?_, reached⟩
        rcases List.mem_cons.mp member with rfl | member
        · exact above
        · exact (later first member).le.trans above
      · have apart := later right List.mem_cons_self
        have member' : last ∈ rest := by
          rcases List.mem_cons.mp member' with rfl | member'
          · linarith
          · rcases List.mem_cons.mp member' with rfl | member'
            · exact absurd below reached
            · exact member'
        have several : 2 ≤ (right :: rest).length := Nat.succ_le_succ (List.length_pos_of_mem member')
        obtain ⟨left', right', neighbours, between⟩ := ih ascending several List.mem_cons_self
          (List.mem_cons_of_mem right member') (not_le.mp reached).le
        exact ⟨left', right', List.infix_cons neighbours, between⟩

theorem interpolate_through (ascending : Ascending points) (several : 2 ≤ points.length) {point : Point ℚ}
    (member : point ∈ points) : Curve.interpolate points point.x = .ok (some point.y) := by
  obtain ⟨before, behind, rfl⟩ := List.mem_iff_append.mp member
  cases behind with
  | cons next behind =>
    have neighbours : [point, next] <:+: before ++ point :: next :: behind := ⟨before, behind, by simp⟩
    rw [interpolate_chord ascending neighbours le_rfl (neighbours_apart ascending neighbours).le, chord_left]
  | nil =>
    rcases before.eq_nil_or_concat with rfl | ⟨before, previous, rfl⟩
    · exact absurd several (by simp)
    · have neighbours : [previous, point] <:+: before.concat previous ++ [point] := ⟨before, [], by simp⟩
      have apart := neighbours_apart ascending neighbours
      rw [interpolate_chord ascending neighbours apart.le le_rfl, chord_right apart]

end Curves

section Places

variable {points : List (Point ℚ)} {view : Viewport ℚ} {size : Size} {x y : ℚ}

/-- A point of the plane that the viewport shows. -/
structure Inside (view : Viewport ℚ) (x y : ℚ) : Prop where
  left : view.xMin ≤ x
  right : x ≤ view.xMax
  bottom : view.yMin ≤ y
  top : y ≤ view.yMax

theorem share_exact {part whole : ℚ} {count : ℤ} (divisor : whole ≠ 0) :
    (Coordinate.divide part whole >>= fun share => Coordinate.nearest (share * Coordinate.ofInt count)) =
      .ok (rounded (part / whole * count)) := by
  rw [divide_exact divisor]
  rfl

section Sized

variable (framed : Framed points view) (wide : 2 ≤ size.width) (high : 2 ≤ size.height)

include framed

theorem column_exact (width : ℤ) :
    view.column x width = .ok (rounded ((x - view.xMin) / (view.xMax - view.xMin) * (width - 1 : ℤ))) :=
  share_exact (sub_ne_zero.mpr framed.columns.room.ne')

theorem row_exact (height : ℤ) :
    view.row y height = .ok (rounded ((view.yMax - y) / (view.yMax - view.yMin) * (height - 1 : ℤ))) :=
  share_exact (sub_ne_zero.mpr framed.rows.room.ne')

include wide

theorem columnX_exact {column : ℤ} (first : 0 ≤ column) (last : column < size.width) :
    ∃ x, view.columnX column size.width = .ok x ∧ view.xMin ≤ x ∧ x ≤ view.xMax := by
  have count : (0 : ℚ) < (size.width - 1 : ℤ) := by exact_mod_cast (show 0 < size.width - 1 by omega)
  refine ⟨view.xMin + (view.xMax - view.xMin) * column / (size.width - 1 : ℤ), ?_, ?_, ?_⟩
  · change (Coordinate.divide ((view.xMax - view.xMin) * column) ((size.width - 1 : ℤ) : ℚ)).bind _ = _
    rw [divide_exact count.ne']
    rfl
  · have first : (0 : ℚ) ≤ column := by exact_mod_cast first
    have room : 0 ≤ view.xMax - view.xMin := sub_nonneg.mpr framed.columns.room.le
    linarith [div_nonneg (mul_nonneg room first) count.le]
  · have last : (column : ℚ) ≤ (size.width - 1 : ℤ) := by exact_mod_cast (show column ≤ size.width - 1 by omega)
    have room : 0 ≤ view.xMax - view.xMin := sub_nonneg.mpr framed.columns.room.le
    have most : (view.xMax - view.xMin) * column / (size.width - 1 : ℤ) ≤ view.xMax - view.xMin := by
      rw [div_le_iff₀ count]
      exact mul_le_mul_of_nonneg_left last room
    linarith

include high

theorem toGrid_exact (inside : Inside view x y) :
    ∃ column row, view.toGrid x y size.width size.height = .ok (column, row) ∧ (0 ≤ column ∧ column < size.width) ∧
      (0 ≤ row ∧ row < size.height) ∧ row = rounded ((view.yMax - y) / (view.yMax - view.yMin) * (size.height - 1 : ℤ)) := by
  have across := rounded_share (show 0 ≤ size.width - 1 by omega) (sub_pos.mpr framed.columns.room)
    (sub_nonneg.mpr inside.left) (sub_le_sub_right inside.right view.xMin)
  have down := rounded_share (show 0 ≤ size.height - 1 by omega) (sub_pos.mpr framed.rows.room)
    (sub_nonneg.mpr inside.top) (sub_le_sub_left inside.bottom view.yMax)
  refine ⟨_, _, ?_, ⟨across.1, by omega⟩, ⟨down.1, by omega⟩, rfl⟩
  rw [Viewport.toGrid, column_exact framed, row_exact framed]
  rfl

theorem axisRow_exact : ∃ horizontal, axisRow view size = .ok horizontal := by
  rw [axisRow]
  split
  next seen =>
    obtain ⟨below, above⟩ := Bool.and_eq_true_iff.mp seen
    have inside : Inside view view.xMin (Coordinate.ofInt 0) :=
      ⟨le_rfl, framed.columns.room.le, of_decide_eq_true below, of_decide_eq_true above⟩
    obtain ⟨column, row, placed, -, ⟨first, last⟩, -⟩ := toGrid_exact framed wide high inside
    have found : index? size.rows row = some row.toNat := ChartDrawing.index?_inside first last
    simp only [placed, bind, Except.bind, found]
    exact ⟨_, rfl⟩
  next => exact ⟨none, rfl⟩

theorem axisColumn_exact : ∃ vertical, axisColumn view size = .ok vertical := by
  rw [axisColumn]
  split
  next seen =>
    obtain ⟨below, above⟩ := Bool.and_eq_true_iff.mp seen
    have inside : Inside view (Coordinate.ofInt 0) view.yMin :=
      ⟨of_decide_eq_true below, of_decide_eq_true above, le_rfl, framed.rows.room.le⟩
    obtain ⟨column, row, placed, ⟨first, last⟩, -, -⟩ := toGrid_exact framed wide high inside
    have found : index? size.columns column = some column.toNat := ChartDrawing.index?_inside first last
    simp only [placed, bind, Except.bind, found]
    split
    · exact ⟨_, rfl⟩
    · exact ⟨_, rfl⟩
  next => exact ⟨none, rfl⟩

end Sized

end Places

section Drawing

variable {points : List (Point ℚ)} {view : Viewport ℚ} {size : Size}

theorem interpolate_framed (framed : Framed points view) (ascending : Ascending points) (several : 2 ≤ points.length)
    {x : ℚ} (left : view.xMin ≤ x) (right : x ≤ view.xMax) :
    ∃ y, Curve.interpolate points x = .ok (some y) ∧ Inside view x y := by
  obtain ⟨first, second, rest, rfl⟩ : ∃ first second rest, points = first :: second :: rest := by
    match points, several with
    | first :: second :: rest, _ => exact ⟨first, second, rest, rfl⟩
  -- two points at least, so the window ends at points
  have apart : first.x < second.x := (List.pairwise_cons.mp ascending).1 second List.mem_cons_self
  obtain ⟨low, high⟩ := framed.columns.ends first.x (by simp) second.x (by simp) apart
  obtain ⟨lowest, member, low⟩ := List.mem_map.mp low
  obtain ⟨highest, member', high⟩ := List.mem_map.mp high
  obtain ⟨before, behind, neighbours, above, below⟩ :=
    neighbours_around ascending several member member' (low.trans_le left) (right.trans_eq high.symm)
  have known : before ∈ first :: second :: rest := neighbours.subset (by simp)
  have known' : behind ∈ first :: second :: rest := neighbours.subset (by simp)
  obtain ⟨bottom, top⟩ := chord_between (neighbours_apart ascending neighbours) above below
    (framed.rows.within before.y (List.mem_map_of_mem known)) (framed.rows.within behind.y (List.mem_map_of_mem known'))
  exact ⟨_, interpolate_chord ascending neighbours above below, left, right, bottom, top⟩

/-- What becomes of a column: the curve passes it, and its row is computed. -/
structure Passed (points : List (Point ℚ)) (view : Viewport ℚ) (size : Size) (column row : ℕ) (x y : ℚ) : Prop where
  abscissa : view.columnX column size.width = .ok x
  ordinate : Curve.interpolate points x = .ok (some y)
  inside : Inside view x y
  nearest : Nearest ((view.yMax - y) / (view.yMax - view.yMin) * (size.height - 1)) row
  bound : row < size.rows

section Sized

variable (framed : Framed points view) (ascending : Ascending points) (several : 2 ≤ points.length)
  (wide : 2 ≤ size.width) (high : 2 ≤ size.height)

include framed ascending several wide high

theorem star_exact {column : ℕ} (bound : column < size.columns) :
    ∃ row x y, Passed points view size column row x y ∧ Chart.star points view size column = .ok (some row) := by
  rw [Size.columns] at bound
  obtain ⟨x, reached, left, right⟩ :=
    columnX_exact framed wide (show (0 : ℤ) ≤ column by omega) (show (column : ℤ) < size.width by omega)
  obtain ⟨y, interpolated, inside⟩ := interpolate_framed framed ascending several left right
  obtain ⟨_, row, placed, -, ⟨first, last⟩, same⟩ := toGrid_exact framed wide high inside
  have found : index? size.rows row = some row.toNat := ChartDrawing.index?_inside first last
  have nearest := rounded_nearest ((view.yMax - y) / (view.yMax - view.yMin) * (size.height - 1 : ℤ))
  rw [← same, ← Int.toNat_of_nonneg first] at nearest
  push_cast at nearest
  refine ⟨row.toNat, x, y, ⟨reached, interpolated, inside, nearest, index?_lt found⟩, ?_⟩
  rw [Chart.star, reached]
  change (Curve.interpolate points x >>= _) = _
  rw [interpolated]
  change (view.toGrid x y size.width size.height >>= _) = _
  simp only [placed, bind, Except.bind, found]
  rfl

theorem grid_exact (window : Viewport.ofPoints points = .ok view) : ∃ rows, grid points size = .ok (view, rows) := by
  obtain ⟨horizontal, across⟩ := axisRow_exact framed wide high
  obtain ⟨vertical, down⟩ := axisColumn_exact framed wide high
  obtain ⟨stars, starred⟩ : ∃ stars, (List.range size.columns).mapM (Chart.star points view size) = .ok stars := by
    refine mapM_exists.mpr fun column member => ?_
    obtain ⟨row, -, -, -, placed⟩ := star_exact framed ascending several wide high (List.mem_range.mp member)
    exact ⟨some row, placed⟩
  refine ⟨Layout.lines ⟨horizontal, vertical, stars⟩ size.rows, ?_⟩
  rw [grid_eq]
  simp only [Chart.layout, window, across, down, starred, bind, Except.bind]
  rfl

end Sized

/-- The window of a chart, the curve through it and the cells of its points. -/
structure Sound (points : List (Point ℚ)) (size : Size) (view : Viewport ℚ) : Prop where
  wide : view.xMin < view.xMax
  high : view.yMin < view.yMax
  holds : ∀ point ∈ points, Inside view point.x point.y
  defined : ∀ x, view.xMin ≤ x → x ≤ view.xMax → ∃ y, Curve.interpolate points x = .ok (some y) ∧ Inside view x y
  through : ∀ point ∈ points, Curve.interpolate points point.x = .ok (some point.y)
  cells : ∀ x y, Inside view x y → ∃ column row, view.toGrid x y size.width size.height = .ok (column, row) ∧
    (0 ≤ column ∧ column < size.width) ∧ 0 ≤ row ∧ row < size.height

theorem framed_sound (framed : Framed points view) (ascending : Ascending points) (several : 2 ≤ points.length)
    (wide : 2 ≤ size.width) (high : 2 ≤ size.height) : Sound points size view := by
  refine ⟨framed.columns.room, framed.rows.room, ?_, ?_, ?_, ?_⟩
  · intro point member
    obtain ⟨left, right⟩ := framed.columns.within point.x (List.mem_map_of_mem member)
    obtain ⟨bottom, top⟩ := framed.rows.within point.y (List.mem_map_of_mem member)
    exact ⟨left, right, bottom, top⟩
  · exact fun x left right => interpolate_framed framed ascending several left right
  · exact fun point member => interpolate_through ascending several member
  · intro x y inside
    obtain ⟨column, row, placed, across, down, -⟩ := toGrid_exact framed wide high inside
    exact ⟨column, row, placed, across, down⟩

/-- In exact arithmetic the chart of any points that ascend is drawn, at any size: the window has
room and holds the points, the curve through them never leaves it, every cell is on the chart,
and each column has one star, in the row nearest to the curve. -/
theorem grid_sound (several : 2 ≤ points.length) (ascending : Ascending points) (wide : 2 ≤ size.width)
    (high : 2 ≤ size.height) : ∃ view rows, Viewport.ofPoints points = .ok view ∧ Sound points size view ∧
      grid points size = .ok (view, rows) ∧ rows.length = size.rows ∧
        ∀ column < size.columns, ∃ row x y, Passed points view size column row x y ∧
          ∀ other, shown rows other column = some '*' ↔ other = row := by
  have filled : points ≠ [] := by
    rintro rfl
    exact absurd several (by simp)
  obtain ⟨view, window, framed⟩ := ofPoints_framed filled
  obtain ⟨rows, drawn⟩ := grid_exact framed ascending several wide high window
  have count := (grid_shaped (Int.lt_toNat.mpr (by omega)) drawn).count
  refine ⟨view, rows, window, framed_sound framed ascending several wide high, drawn, count, fun column bound => ?_⟩
  obtain ⟨row, x, y, passed, starred⟩ := star_exact framed ascending several wide high bound
  refine ⟨row, x, y, passed, fun other => ?_⟩
  rw [grid_stars drawn, starred]
  constructor
  · intro ⟨_, _, same⟩
    cases same
    rfl
  · intro same
    exact ⟨bound, same ▸ passed.bound, by rw [same]⟩

/-- A flat curve that falls off. -/
def ledge : List (Point ℚ) := [⟨-1, 3⟩, ⟨1 / 3, 3⟩, ⟨2, -5 / 7⟩]

theorem grid_sound_ledge : 2 ≤ ledge.length ∧ Ascending ledge ∧
    ∃ view rows, Viewport.ofPoints ledge = .ok view ∧ Sound ledge ⟨7, 4⟩ view ∧
      grid ledge ⟨7, 4⟩ = .ok (view, rows) ∧ rows.length = 4 ∧
        ∀ column < 7, ∃ row x y, Passed ledge view ⟨7, 4⟩ column row x y ∧
          ∀ other, shown rows other column = some '*' ↔ other = row := by
  have ascending : Ascending ledge := by
    simp only [Ascending, ledge, List.pairwise_cons]
    norm_num
  exact ⟨by decide, ascending, grid_sound (by decide) ascending (by decide) (by decide)⟩

example : (grid ledge ⟨7, 4⟩).toOption.map Prod.snd =
    some ["****".toList, "  | *".toList, "--+--*-".toList, "  |   *".toList] := by
  decide +kernel

end Drawing

end Reckoner.Proofs.ExactCharts
