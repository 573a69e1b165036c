import Mathlib.Data.List.DropRight
import Reckoner.Proofs.ChartPasses

/-! The characters of a chart, whatever it is computed in. Axes are drawn over a blank grid
and the curve over both, then blanks at the ends of rows are taken away; what is left of a
cell tells which of them reached it last. -/

namespace Reckoner.Proofs.ChartShape
open Chart Coordinate ChartPasses Computations

/-- The character in a cell; there is none behind the end of a row. -/
def shown (rows : List (List Char)) (row column : ℕ) : Option Char := rows[row]?.bind (·[column]?)

section Cells

variable {layout : Layout} {rows row column : ℕ} {mark : Char}

/-- A row of cells before blanks are taken away. -/
def cells (layout : Layout) (row : ℕ) : List Char :=
  layout.stars.mapIdx fun column star => layout.cell row column star

theorem line_eq (layout : Layout) (row : ℕ) : layout.line row = (cells layout row).rdropWhile (· == ' ') := rfl

theorem getElem?_trimmed {cells : List Char} (visible : mark ≠ ' ') :
    (cells.rdropWhile (· == ' '))[column]? = some mark ↔ cells[column]? = some mark := by
  have split := @List.rdropWhile_append_rtakeWhile _ (· == ' ') cells
  constructor
  · intro kept
    obtain ⟨inside, -⟩ := List.getElem?_eq_some_iff.mp kept
    rw [← split, List.getElem?_append_left inside, kept]
  · intro found
    rw [← split, List.getElem?_append] at found
    split at found
    next => exact found
    next =>
      have blank := List.mem_rtakeWhile_imp (List.mem_of_getElem? found)
      exact absurd (beq_iff_eq.mp blank) visible

theorem lines_shown (visible : mark ≠ ' ') : shown (layout.lines rows) row column = some mark ↔
    row < rows ∧ ∃ star, layout.stars[column]? = some star ∧ layout.cell row column star = mark := by
  rw [shown, Layout.lines, List.getElem?_map]
  by_cases inside : row < rows
  · rw [List.getElem?_range inside, Option.map_some, Option.bind_some, line_eq, getElem?_trimmed visible, cells,
      List.getElem?_mapIdx, Option.map_eq_some_iff]
    simp [inside]
  · rw [List.getElem?_eq_none (by simpa using inside)]
    simp [inside]

theorem cell_mark (layout : Layout) (row column : ℕ) (star : Option ℕ) :
    layout.cell row column star ∈ [' ', '-', '|', '+', '*'] := by
  rw [Layout.cell]
  split_ifs <;> simp

theorem cell_star {star : Option ℕ} : layout.cell row column star = '*' ↔ star = some row := by
  rw [Layout.cell]
  split_ifs <;> simp_all

theorem cell_dash {star : Option ℕ} : layout.cell row column star = '-' → layout.axisRow = some row := by
  rw [Layout.cell]
  split_ifs <;> simp_all

theorem cell_bar {star : Option ℕ} : layout.cell row column star = '|' → layout.axisColumn = some column := by
  rw [Layout.cell]
  split_ifs <;> simp_all

theorem cell_plus {star : Option ℕ} :
    layout.cell row column star = '+' → layout.axisRow = some row ∧ layout.axisColumn = some column := by
  rw [Layout.cell]
  split_ifs <;> simp_all

theorem cell_across {star : Option ℕ} (across : layout.axisRow = some row) :
    layout.cell row column star ∈ ['*', '-', '+'] := by
  rw [Layout.cell, if_pos across]
  split_ifs <;> simp

theorem cell_down {star : Option ℕ} (down : layout.axisColumn = some column) :
    layout.cell row column star ∈ ['*', '|', '+'] := by
  rw [Layout.cell, if_pos down]
  split_ifs <;> simp

theorem shown_axis {marks : List Char} (inside : row < rows) (inside' : column < layout.stars.length)
    (visible : ' ' ∉ marks) (member : ∀ star, layout.cell row column star ∈ marks) :
    ∃ mark ∈ marks, shown (layout.lines rows) row column = some mark := by
  refine ⟨_, member layout.stars[column], (lines_shown fun blank => visible ?_).mpr ⟨inside, _, List.getElem?_eq_getElem inside', rfl⟩⟩
  exact blank ▸ member _

theorem mem_line (member : mark ∈ layout.line row) : mark ∈ [' ', '-', '|', '+', '*'] := by
  have kept := List.rdropWhile_prefix (· == ' ') (cells layout row)
  obtain ⟨column, inside, same⟩ := List.mem_mapIdx.mp (kept.subset member)
  exact same ▸ cell_mark layout row column _

end Cells

section Computed

variable {α : Type} [Coordinate α] {points : List (Point α)} {view : Viewport α} {size : Size}

/-- Zero has a row on the chart if it is in view, and else there is no axis. -/
theorem axisRow_computed {horizontal : Option ℕ} (computed : axisRow view size = .ok horizontal) :
    if view.containsY (ofInt 0) then ∃ row < size.rows, horizontal = some row else horizontal = none := by
  rw [axisRow] at computed
  split
  next inside =>
    rw [if_pos inside, bind_computed] at computed
    obtain ⟨⟨_, place⟩, -, computed⟩ := computed
    dsimp only at computed
    split at computed
    next row found => exact ⟨row, index?_lt found, by cases computed; rfl⟩
    next => cases computed
  next outside =>
    rw [if_neg outside] at computed
    cases computed
    rfl

theorem axisColumn_computed (high : 0 < size.rows) {vertical : Option ℕ} (computed : axisColumn view size = .ok vertical) :
    if view.containsX (ofInt 0) then ∃ column < size.columns, vertical = some column else vertical = none := by
  rw [axisColumn] at computed
  split
  next inside =>
    rw [if_pos inside, bind_computed] at computed
    obtain ⟨⟨place, _⟩, -, computed⟩ := computed
    simp only [if_neg high.ne'] at computed
    split at computed
    next column found => exact ⟨column, index?_lt found, by cases computed; rfl⟩
    next => cases computed
  next outside =>
    rw [if_neg outside] at computed
    cases computed
    rfl

/-- A column has a star on the chart if the curve is finite there, and else none. -/
theorem star_computed {column : ℕ} {place : Option ℕ} (computed : Chart.star points view size column = .ok place) :
    ∃ x found, view.columnX column size.width = .ok x ∧ Curve.interpolate points x = .ok found ∧
      if found.any isFinite then ∃ row < size.rows, place = some row else place = none := by
  rw [Chart.star, bind_computed] at computed
  obtain ⟨x, reached, computed⟩ := computed
  rw [bind_computed] at computed
  obtain ⟨found, interpolated, computed⟩ := computed
  refine ⟨x, found, reached, interpolated, ?_⟩
  cases found with
  | none =>
    cases computed
    rfl
  | some y =>
    rw [Option.any_some]
    split
    next finite =>
      simp only [if_pos finite, bind_computed] at computed
      obtain ⟨⟨_, place⟩, -, computed⟩ := computed
      split at computed
      next row found => exact ⟨row, index?_lt found, by cases computed; rfl⟩
      next => cases computed
    next missing =>
      simp only [if_neg missing] at computed
      cases computed
      rfl

/-- The parts of a chart that was drawn. -/
structure Composed (points : List (Point α)) (view : Viewport α) (size : Size) (layout : Layout) : Prop where
  across : axisRow view size = .ok layout.axisRow
  down : axisColumn view size = .ok layout.axisColumn
  count : layout.stars.length = size.columns
  curve : ∀ column place, layout.stars[column]? = some place → Chart.star points view size column = .ok place

theorem layout_composed {layout : Layout} (computed : Chart.layout points view size = .ok layout) :
    Composed points view size layout := by
  simp only [Chart.layout, bind_computed] at computed
  obtain ⟨across, acrossed, down, downed, stars, starred, same⟩ := computed
  cases same
  rw [mapM_computed] at starred
  refine ⟨acrossed, downed, by simpa using starred.length_eq.symm, fun column place found => ?_⟩
  obtain ⟨inside, rfl⟩ := List.getElem?_eq_some_iff.mp found
  have here := starred.get (i := column) (by simpa [starred.length_eq] using inside) inside
  simpa using here

theorem grid_composed {rows : List (List Char)} (computed : grid points size = .ok (view, rows)) :
    Viewport.ofPoints points = .ok view ∧
      ∃ layout, Chart.layout points view size = .ok layout ∧ rows = layout.lines size.rows := by
  rw [grid_eq] at computed
  simp only [bind_computed] at computed
  obtain ⟨found, framed, layout, laid, same⟩ := computed
  cases same
  exact ⟨framed, layout, laid, rfl⟩

theorem grid_stars {rows : List (List Char)} (computed : grid points size = .ok (view, rows)) {row column : ℕ} :
    shown rows row column = some '*' ↔ column < size.columns ∧ row < size.rows ∧
      Chart.star points view size column = .ok (some row) := by
  obtain ⟨-, layout, laid, rfl⟩ := grid_composed computed
  have composed := layout_composed laid
  rw [lines_shown (by decide)]
  simp only [cell_star]
  constructor
  · intro ⟨inside, place, found, same⟩
    refine ⟨?_, inside, same ▸ composed.curve column place found⟩
    rw [← composed.count]
    exact (List.getElem?_eq_some_iff.mp found).1
  · intro ⟨inside, inside', starred⟩
    have found := List.getElem?_eq_getElem (composed.count ▸ inside : column < layout.stars.length)
    have same := Except.ok.inj ((composed.curve column _ found).symm.trans starred)
    exact ⟨inside', some row, same ▸ found, rfl⟩

end Computed

section Shape

variable {α : Type} [Coordinate α]

/-- The axes of a chart. Every dash or plus stands in the row of zero, every bar or plus in
its column, and these are drawn from end to end as far as the curve does not cover them. -/
structure Ruled (view : Viewport α) (size : Size) (rows : List (List Char)) (horizontal vertical : Option ℕ) : Prop where
  across : axisRow view size = .ok horizontal
  down : axisColumn view size = .ok vertical
  dash : ∀ row column, shown rows row column = some '-' → horizontal = some row
  bar : ∀ row column, shown rows row column = some '|' → vertical = some column
  plus : ∀ row column, shown rows row column = some '+' → horizontal = some row ∧ vertical = some column
  level : if view.containsY (ofInt 0) then ∃ row < size.rows, horizontal = some row ∧
      ∀ column < size.columns, ∃ mark ∈ ['*', '-', '+'], shown rows row column = some mark
    else horizontal = none
  upright : if view.containsX (ofInt 0) then ∃ column < size.columns, vertical = some column ∧
      ∀ row < size.rows, ∃ mark ∈ ['*', '|', '+'], shown rows row column = some mark
    else vertical = none

/-- The shape of the rows of a chart. -/
structure Shaped (points : List (Point α)) (view : Viewport α) (size : Size) (rows : List (List Char)) : Prop where
  count : rows.length = size.rows
  narrow : ∀ line ∈ rows, line.length ≤ size.columns
  marks : ∀ line ∈ rows, ∀ mark ∈ line, mark ∈ [' ', '-', '|', '+', '*']
  trimmed : ∀ line ∈ rows, line.getLast? ≠ some ' '
  curve : ∀ column < size.columns, ∃ x found, view.columnX column size.width = .ok x ∧
    Curve.interpolate points x = .ok found ∧
      if found.any isFinite then ∃! row, shown rows row column = some '*'
      else ∀ row, shown rows row column ≠ some '*'
  axes : ∃ horizontal vertical, Ruled view size rows horizontal vertical

variable {points : List (Point α)} {view : Viewport α} {size : Size} {layout : Layout}

theorem Composed.ruled (composed : Composed points view size layout) (high : 0 < size.rows) :
    Ruled view size (layout.lines size.rows) layout.axisRow layout.axisColumn := by
  have level := axisRow_computed composed.across
  have upright := axisColumn_computed high composed.down
  refine ⟨composed.across, composed.down, ?_, ?_, ?_, ?_, ?_⟩
  · intro row column dash
    obtain ⟨-, star, -, same⟩ := (lines_shown (by decide)).mp dash
    exact cell_dash same
  · intro row column bar
    obtain ⟨-, star, -, same⟩ := (lines_shown (by decide)).mp bar
    exact cell_bar same
  · intro row column plus
    obtain ⟨-, star, -, same⟩ := (lines_shown (by decide)).mp plus
    exact cell_plus same
  · split
    next seen =>
      rw [if_pos seen] at level
      obtain ⟨row, inside, same⟩ := level
      refine ⟨row, inside, same, fun column inside' => ?_⟩
      exact shown_axis inside (composed.count ▸ inside') (by decide) fun star => cell_across same
    next unseen => rwa [if_neg unseen] at level
  · split
    next seen =>
      rw [if_pos seen] at upright
      obtain ⟨column, inside, same⟩ := upright
      refine ⟨column, inside, same, fun row inside' => ?_⟩
      exact shown_axis inside' (composed.count ▸ inside) (by decide) fun star => cell_down same
    next unseen => rwa [if_neg unseen] at upright

theorem line_trimmed (layout : Layout) (row : ℕ) : (layout.line row).getLast? ≠ some ' ' := by
  intro blank
  have filled : layout.line row ≠ [] := fun empty => by simp [empty] at blank
  rw [List.getLast?_eq_some_getLast filled, Option.some.injEq] at blank
  exact List.rdropWhile_last_not _ _ filled (beq_iff_eq.mpr blank)

theorem line_narrow (layout : Layout) (row : ℕ) : (layout.line row).length ≤ layout.stars.length := by
  have kept := List.rdropWhile_prefix (· == ' ') (cells layout row)
  exact kept.length_le.trans_eq List.length_mapIdx

theorem grid_shaped {rows : List (List Char)} (high : 0 < size.rows) (computed : grid points size = .ok (view, rows)) :
    Shaped points view size rows := by
  have stars {row column : ℕ} := @grid_stars _ _ _ _ _ _ computed row column
  obtain ⟨-, layout, laid, rfl⟩ := grid_composed computed
  have composed := layout_composed laid
  have lines {line : List Char} (member : line ∈ layout.lines size.rows) : ∃ row, layout.line row = line := by
    obtain ⟨row, -, same⟩ := List.mem_map.mp member
    exact ⟨row, same⟩
  refine ⟨by simp [Layout.lines], ?_, ?_, ?_, ?_, _, _, composed.ruled high⟩
  · intro line member
    obtain ⟨row, rfl⟩ := lines member
    exact composed.count ▸ line_narrow layout row
  · intro line member
    obtain ⟨row, rfl⟩ := lines member
    exact fun mark => mem_line
  · intro line member
    obtain ⟨row, rfl⟩ := lines member
    exact line_trimmed layout row
  · intro column inside
    have found := List.getElem?_eq_getElem (composed.count ▸ inside : column < layout.stars.length)
    have starred := composed.curve column _ found
    obtain ⟨x, height, reached, interpolated, placed⟩ := star_computed starred
    refine ⟨x, height, reached, interpolated, ?_⟩
    simp only [ne_eq, stars, starred]
    split
    next finite =>
      rw [if_pos finite] at placed
      obtain ⟨row, inside', same⟩ := placed
      rw [same]
      refine ⟨row, ⟨inside, inside', rfl⟩, ?_⟩
      rintro other ⟨-, -, same⟩
      cases same
      rfl
    next missing =>
      rw [if_neg missing] at placed
      rw [placed]
      rintro row ⟨-, -, same⟩
      cases same

end Shape

/-- Whatever was sampled, a chart that can be drawn has as many rows as it should and a caption.
No row is too long, ends in a blank or holds other characters than those of axes and curve;
the curve has one star in each column where it is finite and none elsewhere; and the axes are
one row and one column at most, through zero. -/
theorem draw_shaped {points : List (Point Float)} {size : Size} (high : 0 < size.height) {lines : List String}
    (drawn : draw points size = .ok lines) : lines.length = size.height + 1 ∧
      ∃ view rows, Viewport.ofPoints points = .ok view ∧ lines = rows.map String.ofList ++ [caption view] ∧
        Shaped points view size rows := by
  simp only [draw, bind_computed] at drawn
  obtain ⟨⟨view, rows⟩, computed, same⟩ := drawn
  cases same
  have high' : 0 < size.rows := Int.lt_toNat.mpr high
  have shaped := grid_shaped high' computed
  refine ⟨?_, view, rows, (grid_composed computed).1, rfl, shaped⟩
  rw [List.length_append, List.length_map, shaped.count, List.length_singleton, Size.rows]
  omega

/-- A curve with a pole where the axes cross. -/
def polar : List (Point Float) := [⟨-2, -2⟩, ⟨-1, -1⟩, ⟨0, 1 / 0⟩, ⟨1, 1⟩, ⟨2, 2⟩]

def pictured : List String := ["    |  **", "    |", "----+----", "  * |", "**  |", "x: -2 .. 2   y: -2 .. 2"]

theorem polar_drawn : draw polar ⟨9, 5⟩ = .ok pictured := by
  have drawn : (draw polar ⟨9, 5⟩).toOption = some pictured := by decide +kernel
  generalize draw polar ⟨9, 5⟩ = chart at drawn
  cases chart with
  | error fault => cases drawn
  | ok lines => exact congrArg Except.ok (Option.some.inj drawn)

theorem draw_shaped_polar : draw polar ⟨9, 5⟩ = .ok pictured ∧
    ∃ view rows, Viewport.ofPoints polar = .ok view ∧ pictured = rows.map String.ofList ++ [caption view] ∧
      Shaped polar view ⟨9, 5⟩ rows :=
  ⟨polar_drawn, (draw_shaped (by decide) polar_drawn).2⟩

end Reckoner.Proofs.ChartShape
