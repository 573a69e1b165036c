import Reckoner.Chart.Coordinate
import Reckoner.Chart.Point

/-! The part of the plane that a chart shows, and where its points land on a grid of
cells or pixels. Row zero is at the top. -/

namespace Reckoner

open Coordinate

structure Viewport (α : Type) where
  xMin : α
  xMax : α
  yMin : α
  yMax : α

namespace Viewport

variable {α : Type} [Coordinate α]

/-- The first number that no later one is below. -/
def least (first : α) (rest : List α) : α :=
  rest.foldl (fun best x => if less x best then x else best) first

/-- The first number that no later one is above. -/
def greatest (first : α) (rest : List α) : α :=
  rest.foldl (fun best x => if less best x then x else best) first

/-- An interval that is a single number is widened by one to both sides. -/
def spread (low high : α) : α × α :=
  if equal low high then (low - ofInt 1, high + ofInt 1) else (low, high)

/-- The interval that holds all the given numbers. -/
def range (first : α) (rest : List α) : α × α := spread (least first rest) (greatest first rest)

/-- The smallest viewport that holds all points. Ordinates that are not finite are left
out; they cannot be drawn anyway. -/
def ofPoints : List (Point α) → Except Fault (Viewport α)
  | [] => .error .nothingToPlot
  | first :: rest =>
    let (xMin, xMax) := range first.x (rest.map (·.x))
    let (yMin, yMax) :=
      match ((first :: rest).map (·.y)).filter isFinite with
      | [] => (ofInt (-1), ofInt 1)
      | y :: ys => range y ys
    .ok ⟨xMin, xMax, yMin, yMax⟩

/-- The column of an abscissa on a grid of the given width. -/
def column (view : Viewport α) (x : α) (width : Int) : Except Fault Int := do
  let share ← divide (x - view.xMin) (view.xMax - view.xMin)
  nearest (share * ofInt (width - 1))

/-- The row of an ordinate on a grid of the given height. -/
def row (view : Viewport α) (y : α) (height : Int) : Except Fault Int := do
  let share ← divide (view.yMax - y) (view.yMax - view.yMin)
  nearest (share * ofInt (height - 1))

/-- The cell of a point; the column is computed first. -/
def toGrid (view : Viewport α) (x y : α) (width height : Int) : Except Fault (Int × Int) := do
  let column ← view.column x width
  let row ← view.row y height
  return (column, row)

/-- The abscissa in the middle of a column. -/
def columnX (view : Viewport α) (column width : Int) : Except Fault α := do
  let offset ← divide ((view.xMax - view.xMin) * ofInt column) (ofInt (width - 1))
  return view.xMin + offset

def containsX (view : Viewport α) (x : α) : Bool := atMost view.xMin x && atMost x view.xMax

def containsY (view : Viewport α) (y : α) : Bool := atMost view.yMin y && atMost y view.yMax

end Viewport

end Reckoner
