import Reckoner.Chart.Coordinate
import Reckoner.Chart.Point

/-! Points as a curve: straight lines between neighbours, broken where an ordinate is not
finite. -/

namespace Reckoner.Curve

open Coordinate

variable {α : Type} [Coordinate α]

/-- The height of the straight line between two points. -/
def segment (left right : Point α) (x : α) : Except Fault α :=
  if equal right.x left.x then .ok left.y
  else do
    let rise ← divide ((right.y - left.y) * (x - left.x)) (right.x - left.x)
    return left.y + rise

/-- The height on the first segment that reaches over the abscissa. -/
def alongSegments (x : α) : List (Point α) → Except Fault (Option α)
  | left :: right :: rest =>
    if atMost left.x x && atMost x right.x then (segment left right x).map some
    else alongSegments x (right :: rest)
  | _ => .ok none

/-- The height of the curve through points that ascend in x; none outside of them. -/
def interpolate (points : List (Point α)) (x : α) : Except Fault (Option α) :=
  match points with
  | [only] => .ok (if equal only.x x then some only.y else none)
  | _ => alongSegments x points

/-- The runs of points with finite ordinates, where a run has already begun. -/
def runsFrom (run : List (Point α)) : List (Point α) → List (List (Point α))
  | [] => if run.isEmpty then [] else [run]
  | point :: rest =>
    if isFinite point.y then runsFrom (run ++ [point]) rest
    else if run.isEmpty then runsFrom [] rest
    else run :: runsFrom [] rest

/-- Splits the points wherever an ordinate is not finite. -/
def finiteRuns (points : List (Point α)) : List (List (Point α)) := runsFrom [] points

end Reckoner.Curve
