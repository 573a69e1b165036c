import Reckoner.Chart.Point
import Reckoner.Failure
import Reckoner.Scope.Chain
import Reckoner.Value

/-! The state of a running program: the active scopes, the batch the running code came
from, and what has been shown to the outside so far. -/

namespace Reckoner

inductive Event where
  | printed (line : String)
  | plotted (points : List (Point Float))

structure Machine where
  scopes : Chain Value
  origin : Origin
  events : Array Event

/-- Draws a list of points, or breaks down on it. -/
abbrev Renderer := List (Point Float) → Except Fault Unit

def Renderer.accepting : Renderer := fun _ => .ok ()

/-- A computation on the machine. What it did to the machine stays done when it stops
early. -/
abbrev Run (α : Type) := ExceptT Stop (StateM Machine) α

namespace Machine

def preamble : Frame Value :=
  Frame.empty.defineAll (Builtin.all.map fun builtin => (builtin.name, .function (.builtin builtin)))

end Machine

namespace Run

def emit (event : Event) : Run Unit :=
  modify fun machine => { machine with events := machine.events.push event }

def define (name : String) (value : Value) : Run Unit :=
  modify fun machine => { machine with scopes := machine.scopes.define name value }

/-- A result that neither needs the machine nor changes it. -/
def settled (result : Except Stop Value) : Run Value := fun machine => (result, machine)

/-- Looks a name up. A name without a meaning becomes a free symbol of the active scope. -/
def lookup (name : String) : Run Value := do
  match (← get).scopes.get? name with
  | some value => return value
  | none => do
    define name (.unbound name)
    return .unbound name

/-- Runs a body in a new innermost scope, as code of the given batch. However the body
ends, the scope is left and the batch is again the one before. -/
def within (frame : Frame Value) (origin : Origin) (body : Run Value) : Run Value :=
  fun machine =>
    let (result, after) := body { machine with scopes := machine.scopes.enter frame, origin }
    (result, { after with scopes := after.scopes.leave, origin := machine.origin })

/-- Changes the failure, if there is one, in view of the machine as it is left. -/
def adjusting (change : Machine → Failure → Failure) (body : Run Value) : Run Value :=
  fun machine =>
    match body machine with
    | (.error (.failed failure), after) => (.error (.failed (change after failure)), after)
    | ended => ended

end Run

end Reckoner
