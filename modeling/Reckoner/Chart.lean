import Reckoner.Chart.Curve
import Reckoner.Chart.Viewport
import Reckoner.Number.Spelling

/-! A curve drawn with characters, with axes where zero is in view. -/

namespace Reckoner.Chart

open Coordinate

structure Size where
  width : Int
  height : Int

namespace Size

def usual : Size := ⟨60, 20⟩

/-- A chart needs at least two columns and two rows. -/
def check (size : Size) : Except Fault Unit :=
  if 1 < size.width ∧ 1 < size.height then .ok () else .error .chartTooSmall

def columns (size : Size) : Nat := size.width.toNat

def rows (size : Size) : Nat := size.height.toNat

end Size

/-- The place of an index among so many; a negative index counts from the end. -/
def index? (count : Nat) (index : Int) : Option Nat :=
  if 0 ≤ index then
    if index < count then some index.toNat else none
  else if -(count : Int) ≤ index then some (index + count).toNat
  else none

/-- The item at an index. -/
def itemAt {β : Type} (items : List β) (index : Int) : Except Fault β :=
  match (index? items.length index).bind (items[·]?) with
  | some item => .ok item
  | none => .error .cellMissing

/-- The items with another one at an index. -/
def putAt {β : Type} (items : List β) (index : Int) (item : β) : Except Fault (List β) :=
  match index? items.length index with
  | some place => .ok (items.set place item)
  | none => .error .rowMissing

/-- The cells of a chart, line by line. -/
abbrev Cells := List (List Char)

namespace Cells

def blank (size : Size) : Cells := List.replicate size.rows (List.replicate size.columns ' ')

def put (cells : Cells) (row column : Int) (mark : Char) : Except Fault Cells := do
  let line ← itemAt cells row
  let line ← putAt line column mark
  putAt cells row line

/-- The lines that are written, without the blanks at their ends. -/
def trimmed (cells : Cells) : List (List Char) :=
  cells.map fun line => (line.reverse.dropWhile (· == ' ')).reverse

end Cells

variable {α : Type} [Coordinate α]

/-- Where zero is in view, its line is overwritten from end to end. -/
def drawAcross (view : Viewport α) (size : Size) (cells : Cells) : Except Fault Cells :=
  if view.containsY (ofInt 0) then do
    let (_, row) ← view.toGrid view.xMin (ofInt 0) size.width size.height
    putAt cells row (List.replicate size.columns '-')
  else .ok cells

/-- A line with the vertical axis in one place; the axes cross in a plus sign. -/
def crossed (column : Int) (line : List Char) : Except Fault (List Char) := do
  let mark ← itemAt line column
  putAt line column (if mark = '-' then '+' else '|')

/-- Where zero is in view, its column is overwritten line by line. -/
def drawDown (view : Viewport α) (size : Size) (cells : Cells) : Except Fault Cells :=
  if view.containsX (ofInt 0) then do
    let (column, _) ← view.toGrid (ofInt 0) view.yMin size.width size.height
    cells.mapM (crossed column)
  else .ok cells

/-- The curve covers whatever is in its cell of a column, if it is finite there. -/
def drawPoint (points : List (Point α)) (view : Viewport α) (size : Size) (cells : Cells) (column : Nat) :
    Except Fault Cells := do
  let x ← view.columnX column size.width
  match ← Curve.interpolate points x with
  | none => return cells
  | some y =>
    if isFinite y then do
      let (_, row) ← view.toGrid x y size.width size.height
      cells.put row column '*'
    else return cells

/-- The axes are drawn over a blank grid, and the curve over both. -/
def grid (points : List (Point α)) (size : Size) : Except Fault (Viewport α × List (List Char)) := do
  let view ← Viewport.ofPoints points
  let cells ← drawAcross view size (.blank size)
  let cells ← drawDown view size cells
  let cells ← (List.range size.columns).foldlM (drawPoint points view size) cells
  return (view, cells.trimmed)

def caption (view : Viewport Float) : String :=
  "x: " ++ Number.render view.xMin ++ " .. " ++ Number.render view.xMax ++
    "   y: " ++ Number.render view.yMin ++ " .. " ++ Number.render view.yMax

/-- The lines of a chart: its rows and a caption. -/
def draw (points : List (Point Float)) (size : Size) : Except Fault (List String) := do
  let (view, rows) ← grid points size
  return rows.map String.ofList ++ [caption view]

def renderer (size : Size) (points : List (Point Float)) : Except Fault Unit :=
  (draw points size).map fun _ => ()

/-- A chart as it is written; one that breaks down writes nothing. -/
def written (size : Size) (points : List (Point Float)) : String :=
  match draw points size with
  | .ok lines => String.join (lines.map (· ++ "\n"))
  | .error _ => ""

end Reckoner.Chart
