import Reckoner.Chart.Curve
import Reckoner.Chart.Viewport

/-! A curve drawn in a window. The window opens, shows axes and curve, and stays until a
key, a click or its own closing dismisses it. What is asked of the window system is
recorded call by call. -/

namespace Reckoner.Screen

inductive Signal where
  | quit
  | keyDown
  | keyUp
  | mouseDown
  | mouseUp
  | mouseMotion
  deriving DecidableEq

def Signal.dismisses : Signal → Bool
  | .quit | .keyDown | .mouseUp => true
  | .keyUp | .mouseDown | .mouseMotion => false

structure Color where
  red : Nat
  green : Nat
  blue : Nat
  deriving DecidableEq

def background : Color := ⟨255, 255, 255⟩

def axisColor : Color := ⟨160, 160, 160⟩

def curveColor : Color := ⟨30, 60, 200⟩

structure Pixel where
  x : Int
  y : Int
  deriving DecidableEq

inductive Call where
  | init
  | setMode (width height : Int)
  | setCaption (caption : String)
  | fill (color : Color)
  | line (color : Color) (start stop : Pixel)
  | lines (color : Color) (pixels : List Pixel) (thickness : Nat)
  | circle (color : Color) (center : Pixel) (radius : Nat)
  | flip
  | get (signals : List Signal)
  | tick (fps : Int)
  | quit
  deriving DecidableEq

structure Settings where
  width : Int
  height : Int
  margin : Int
  fps : Int

def Settings.usual : Settings := ⟨640, 480, 30, 30⟩

/-- Batches of signals still to come. -/
abbrev Script := List (List Signal)

/-- What comes behind the end of a script: the window is closed from outside. -/
def closing : List Signal := [.quit]

/-- What became of a drawing: the calls, the signals left over, and the fault that broke
it off, if one did. -/
structure Trace where
  calls : List Call
  script : Script
  fault : Option Fault

/-- The pixel of a point; a margin stays free on all sides. -/
def pixel (settings : Settings) (view : Viewport Float) (x y : Float) : Except Fault Pixel := do
  let (column, row) ← view.toGrid x y (settings.width - 2 * settings.margin) (settings.height - 2 * settings.margin)
  return ⟨column + settings.margin, row + settings.margin⟩

/-- Both ends of the horizontal axis come first, then those of the vertical one. -/
def axes (settings : Settings) (view : Viewport Float) : List (Except Fault (List Call)) :=
  let axis (x y x' y' : Float) : Except Fault (List Call) := do
    let start ← pixel settings view x y
    let stop ← pixel settings view x' y'
    return [.line axisColor start stop]
  (if view.containsY 0 then [axis view.xMin 0 view.xMax 0] else []) ++
    (if view.containsX 0 then [axis 0 view.yMin 0 view.yMax] else [])

/-- A run of points: a polyline if there are two or more, and a dot on each. -/
def run (settings : Settings) (view : Viewport Float) (points : List (Point Float)) : Except Fault (List Call) := do
  let pixels ← points.mapM fun point => pixel settings view point.x point.y
  let dots := pixels.map (Call.circle curveColor · 3)
  return if 1 < pixels.length then .lines curveColor pixels 2 :: dots else dots

/-- The strokes of a drawing, each computed before it is drawn. -/
def strokes (settings : Settings) (view : Viewport Float) (points : List (Point Float)) :
    List (Except Fault (List Call)) :=
  axes settings view ++ (Curve.finiteRuns points).map (run settings view)

def record : List (Except Fault (List Call)) → List Call × Option Fault
  | [] => ([], none)
  | .error fault :: _ => ([], some fault)
  | .ok calls :: rest =>
    let (others, fault) := record rest
    (calls ++ others, fault)

/-- Waits for a signal that dismisses the window. Behind a script without one comes the
closing batch; else the wait would never end. -/
def wait (fps : Int) : Script → List Call × Script
  | [] => ([.get closing], [])
  | signals :: rest =>
    if signals.any Signal.dismisses then ([.get signals], rest)
    else
      let (calls, left) := wait fps rest
      (.get signals :: .tick fps :: calls, left)

/-- Shows the points in a window. The window is closed whatever happens, and not even
opened if there is nothing to show. -/
def display (settings : Settings) (points : List (Point Float)) (script : Script) : Trace :=
  match Viewport.ofPoints points with
  | .error fault => ⟨[], script, some fault⟩
  | .ok view =>
    let opening := [.init, .setMode settings.width settings.height, .setCaption "Matika: plot", .fill background]
    match record (strokes settings view points) with
    | (drawn, some fault) => ⟨opening ++ drawn ++ [.quit], script, some fault⟩
    | (drawn, none) =>
      let (waited, left) := wait settings.fps script
      ⟨opening ++ drawn ++ .flip :: waited ++ [.quit], left, none⟩

/-- Whether a window can be drawn; no signal changes that. -/
def renderer (settings : Settings) (points : List (Point Float)) : Except Fault Unit :=
  match (display settings points []).fault with
  | some fault => .error fault
  | none => .ok ()

end Reckoner.Screen
