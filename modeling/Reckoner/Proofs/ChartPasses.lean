import Reckoner.Chart
import Reckoner.Proofs.Computations

/-! What the passes over the grid of a chart leave behind. Each pass computes a place and
overwrites cells there; where nothing breaks down, all three together give each cell the
character that the last of them drew into it. -/

namespace Reckoner

namespace Chart
open Coordinate

variable {α : Type} [Coordinate α]

/-- What is drawn where: the row of the horizontal axis, the column of the vertical one,
and for each column the row of the curve. -/
structure Layout where
  axisRow : Option Nat
  axisColumn : Option Nat
  stars : List (Option Nat)

def axisRow (view : Viewport α) (size : Size) : Except Fault (Option Nat) :=
  if view.containsY (ofInt 0) then do
    let (_, row) ← view.toGrid view.xMin (ofInt 0) size.width size.height
    match index? size.rows row with
    | some row => return some row
    | none => .error .rowMissing
  else .ok none

def axisColumn (view : Viewport α) (size : Size) : Except Fault (Option Nat) :=
  if view.containsX (ofInt 0) then do
    let (column, _) ← view.toGrid (ofInt 0) view.yMin size.width size.height
    if size.rows = 0 then return none
    match index? size.columns column with
    | some column => return some column
    | none => .error .cellMissing
  else .ok none

/-- The row of the curve in a column, if the curve is finite there. -/
def star (points : List (Point α)) (view : Viewport α) (size : Size) (column : Nat) :
    Except Fault (Option Nat) := do
  let x ← view.columnX column size.width
  match ← Curve.interpolate points x with
  | none => return none
  | some y =>
    if isFinite y then do
      let (_, row) ← view.toGrid x y size.width size.height
      match index? size.rows row with
      | some row => return some row
      | none => .error .cellMissing
    else return none

def layout (points : List (Point α)) (view : Viewport α) (size : Size) : Except Fault Layout := do
  let axisRow ← axisRow view size
  let axisColumn ← axisColumn view size
  let stars ← (List.range size.columns).mapM (star points view size)
  return ⟨axisRow, axisColumn, stars⟩

namespace Layout

/-- The curve covers the axes, and the axes cross in a plus sign. -/
def cell (layout : Layout) (row column : Nat) (star : Option Nat) : Char :=
  if star = some row then '*'
  else if layout.axisRow = some row then
    if layout.axisColumn = some column then '+' else '-'
  else if layout.axisColumn = some column then '|'
  else ' '

/-- One row of cells, without the blanks at its end. -/
def line (layout : Layout) (row : Nat) : List Char :=
  ((layout.stars.mapIdx fun column star => layout.cell row column star).reverse.dropWhile (· == ' ')).reverse

def lines (layout : Layout) (rows : Nat) : List (List Char) := (List.range rows).map layout.line

end Layout

end Chart

namespace Proofs.ChartPasses
open Chart Coordinate Computations

section Places

variable {β : Type} {count : ℕ}

theorem index?_lt {index : Int} {place : ℕ} (found : index? count index = some place) : place < count := by
  rw [index?] at found
  split_ifs at found <;> cases found <;> omega

theorem itemAt_range (item : ℕ → β) (index : Int) : itemAt ((List.range count).map item) index =
    match index? count index with
    | some place => .ok (item place)
    | none => .error .cellMissing := by
  rw [itemAt, List.length_map, List.length_range]
  cases found : index? count index with
  | none => rfl
  | some place => simp [index?_lt found]

theorem set_range (item : ℕ → β) (place : ℕ) (other : β) : ((List.range count).map item).set place other =
    (List.range count).map fun i => if i = place then other else item i := by
  refine List.ext_getElem (by simp) fun i inside inside' => ?_
  rw [List.getElem_set, List.getElem_map, List.getElem_map, List.getElem_range]
  simp only [eq_comm]

theorem putAt_range (item : ℕ → β) (index : Int) (other : β) : putAt ((List.range count).map item) index other =
    match index? count index with
    | some place => .ok ((List.range count).map fun i => if i = place then other else item i)
    | none => .error .rowMissing := by
  rw [putAt, List.length_map, List.length_range]
  cases found : index? count index with
  | none => rfl
  | some place => exact congrArg Except.ok (set_range item place other)

end Places

section Passes

variable {α : Type} [Coordinate α] {points : List (Point α)} {view : Viewport α} {size : Size} {rows columns : ℕ}

/-- Cells with the character given for each row and column. -/
def painted (rows columns : ℕ) (mark : ℕ → ℕ → Char) : Cells :=
  (List.range rows).map fun row => (List.range columns).map (mark row)

theorem blank_painted (size : Size) : Cells.blank size = painted size.rows size.columns fun _ _ => ' ' := by
  simp [Cells.blank, painted, List.map_const']

theorem drawAcross_painted : drawAcross view size (.blank size) = (axisRow view size).map fun horizontal =>
    painted size.rows size.columns fun row _ => if horizontal = some row then '-' else ' ' := by
  rw [drawAcross, axisRow, blank_painted]
  split
  next =>
    cases view.toGrid view.xMin (ofInt 0) size.width size.height with
    | error fault => rfl
    | ok place =>
      change putAt _ place.2 _ = Except.map _ (match index? size.rows place.2 with
        | some row => _
        | none => _)
      rw [painted, putAt_range]
      cases index? size.rows place.2 with
      | none => rfl
      | some across =>
        refine congrArg Except.ok (List.map_congr_left fun row _ => ?_)
        simp only [Option.some.injEq, eq_comm (a := row)]
        split <;> simp [List.map_const']
  next => rfl

theorem crossed_range (mark : ℕ → Char) (index : Int) : crossed index ((List.range columns).map mark) =
    match index? columns index with
    | some place => .ok ((List.range columns).map fun column =>
        if column = place then if mark column = '-' then '+' else '|' else mark column)
    | none => .error .cellMissing := by
  rw [crossed, itemAt_range]
  cases found : index? columns index with
  | none => rfl
  | some place =>
    change putAt _ index _ = _
    rw [putAt_range, found]
    refine congrArg Except.ok (List.map_congr_left fun column _ => ?_)
    split
    next same => rw [same]
    next => rfl

theorem drawDown_painted (mark : ℕ → ℕ → Char) :
    drawDown view size (painted size.rows size.columns mark) = (axisColumn view size).map fun vertical =>
      painted size.rows size.columns fun row column =>
        if vertical = some column then if mark row column = '-' then '+' else '|' else mark row column := by
  rw [drawDown, axisColumn]
  split
  next =>
    cases view.toGrid (ofInt 0) view.yMin size.width size.height with
    | error fault => rfl
    | ok place =>
      change (painted size.rows size.columns mark).mapM (crossed place.1) =
        Except.map _ (if size.rows = 0 then _ else match index? size.columns place.1 with
          | some column => _
          | none => _)
      rw [painted, List.mapM_map]
      have line (row : ℕ) : crossed place.1 ((List.range size.columns).map (mark row)) = _ :=
        crossed_range (mark row) place.1
      by_cases empty : size.rows = 0
      · rw [if_pos empty, empty]
        rfl
      · rw [if_neg empty]
        cases found : index? size.columns place.1 with
        | none =>
          simp only [found] at line
          exact mapM_refused (by simpa using empty) line
        | some down =>
          simp only [found] at line
          refine (mapM_answers line).trans (congrArg Except.ok (List.map_congr_left fun row _ => ?_))
          refine List.map_congr_left fun column _ => ?_
          simp only [Option.some.injEq, eq_comm (a := column)]
  next => rfl

theorem put_painted (mark : ℕ → ℕ → Char) (row : Int) {column : ℕ} (inside : column < columns) :
    (painted rows columns mark).put row column '*' =
      match index? rows row with
      | some place => .ok (painted rows columns fun i j => if i = place ∧ j = column then '*' else mark i j)
      | none => .error .cellMissing := by
  have here : index? columns column = some column := by simp [index?, inside]
  rw [Cells.put, painted, itemAt_range]
  cases found : index? rows row with
  | none => rfl
  | some place =>
    simp only [bind, Except.bind, putAt_range, here, found]
    refine congrArg Except.ok (List.map_congr_left fun i _ => ?_)
    split
    next same => simp [same]
    next other => simp [other]

theorem drawPoint_painted (mark : ℕ → ℕ → Char) {column : ℕ} (inside : column < size.columns) :
    drawPoint points view size (painted size.rows size.columns mark) column =
      (Chart.star points view size column).map fun place =>
        painted size.rows size.columns fun i j => if place = some i ∧ j = column then '*' else mark i j := by
  rw [drawPoint, Chart.star]
  cases view.columnX column size.width with
  | error fault => rfl
  | ok x =>
    change (Curve.interpolate points x >>= _) = Except.map _ (Curve.interpolate points x >>= _)
    cases Curve.interpolate points x with
    | error fault => rfl
    | ok found =>
      cases found with
      | none => simp [bind, Except.bind, pure, Except.pure, Except.map]
      | some y =>
        by_cases finite : isFinite y
        · simp only [bind, Except.bind, if_pos finite]
          cases view.toGrid x y size.width size.height with
          | error fault => rfl
          | ok place =>
            simp only [put_painted mark place.2 inside]
            cases index? size.rows place.2 with
            | none => rfl
            | some row =>
              refine congrArg Except.ok ?_
              simp only [Option.some.injEq, eq_comm]
        · simp [bind, Except.bind, pure, Except.pure, Except.map, finite]

/-- The last column of a curve so far is the only one that its point changes. -/
theorem next_star {stars : List (Option ℕ)} (place : Option ℕ) (row column : ℕ) :
    (stars ++ [place])[column]? = some (some row) ↔
      place = some row ∧ column = stars.length ∨ stars[column]? = some (some row) := by
  rcases Nat.lt_trichotomy column stars.length with before | rfl | behind
  · simp [List.getElem?_append_left before, Nat.ne_of_lt before]
  · simp
  · have missing : stars[column]? = none := List.getElem?_eq_none (Nat.le_of_lt behind)
    have missing' : (stars ++ [place])[column]? = none := List.getElem?_eq_none (by simp; omega)
    simp [missing, missing', Nat.ne_of_gt behind]

theorem foldlM_painted (mark : ℕ → ℕ → Char) {count : ℕ} (inside : count ≤ size.columns) :
    (List.range count).foldlM (drawPoint points view size) (painted size.rows size.columns mark) =
      ((List.range count).mapM (Chart.star points view size)).map fun stars =>
        painted size.rows size.columns fun i j => if stars[j]? = some (some i) then '*' else mark i j := by
  induction count with
  | zero => rfl
  | succ count ih =>
    rw [List.range_succ, List.foldlM_append, List.mapM_append, ih (by omega)]
    cases drawn : (List.range count).mapM (Chart.star points view size) with
    | error fault => rfl
    | ok stars =>
      have length : stars.length = count := by simpa using (mapM_computed.mp drawn).length_eq.symm
      change (drawPoint points view size _ count >>= _) = Except.map _ (([count].mapM _) >>= _)
      rw [drawPoint_painted _ (by omega), List.mapM_cons]
      cases Chart.star points view size count with
      | error fault => rfl
      | ok place =>
        refine congrArg (fun marks => Except.ok (painted _ _ marks)) (funext fun i => funext fun j => ?_)
        change _ = if (stars ++ [place])[j]? = some (some i) then _ else _
        simp only [← length, next_star]
        by_cases here : place = some i ∧ j = stars.length
        · rw [if_pos here, if_pos (.inl here)]
        · simp only [here, false_or, if_false]

/-- What is left in a cell by the passes is what the layout says. -/
theorem cell_last (layout : Layout) (row column : ℕ) :
    layout.cell row column (layout.stars[column]?.getD none) =
      if layout.stars[column]? = some (some row) then '*'
      else if layout.axisColumn = some column then
        if (if layout.axisRow = some row then '-' else ' ') = '-' then '+' else '|'
      else if layout.axisRow = some row then '-' else ' ' := by
  have covered : layout.stars[column]?.getD none = some row ↔ layout.stars[column]? = some (some row) := by
    cases layout.stars[column]? <;> simp
  rw [Layout.cell]
  simp only [covered]
  by_cases across : layout.axisRow = some row
  · simp [across]
  · simp [across]

theorem lines_painted {layout : Layout} (length : layout.stars.length = columns) : layout.lines rows =
    (painted rows columns fun row column => layout.cell row column (layout.stars[column]?.getD none)).trimmed := by
  rw [Layout.lines, Cells.trimmed, painted, List.map_map]
  refine List.map_congr_left fun row _ => ?_
  have same : layout.stars.mapIdx (fun column star => layout.cell row column star) =
      (List.range columns).map fun column => layout.cell row column (layout.stars[column]?.getD none) := by
    refine List.ext_getElem (by simp [length]) fun column inside _ => ?_
    have inside' : column < layout.stars.length := by simpa using inside
    simp [inside']
  rw [Layout.line, same]
  rfl

/-- The passes over the grid leave what the layout says. -/
theorem grid_eq (points : List (Point α)) (size : Size) : grid points size = (do
    let view ← Viewport.ofPoints points
    let layout ← layout points view size
    return (view, layout.lines size.rows)) := by
  rw [grid]
  refine bind_congr fun view => ?_
  simp only [layout, bind_assoc, pure_bind, drawAcross_painted, mapped_bind, drawDown_painted,
    foldlM_painted _ (Nat.le_refl _)]
  refine bind_congr fun horizontal => bind_congr fun vertical => ?_
  cases drawn : (List.range size.columns).mapM (Chart.star points view size) with
  | error fault => rfl
  | ok stars =>
    have length : stars.length = size.columns := by simpa using (mapM_computed.mp drawn).length_eq.symm
    change Except.ok (view, _) = .ok (view, Layout.lines ⟨horizontal, vertical, stars⟩ size.rows)
    rw [lines_painted length]
    refine congrArg (fun marks => Except.ok (view, (painted _ _ marks).trimmed)) (funext fun row => funext fun column => ?_)
    exact (cell_last ⟨horizontal, vertical, stars⟩ row column).symm

end Passes

end Proofs.ChartPasses

end Reckoner
