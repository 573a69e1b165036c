import Reckoner.Evaluation
import Reckoner.Grammar

/-! One session: one global scope and many batches of statements. Bindings accumulate
from batch to batch, and what a failing batch managed to bind before its failure stays
bound. -/

namespace Reckoner

/-- How deep programs may nest and recurse. -/
def depthLimit : Nat := 1000

/-- What a session draws with, and how deep it follows programs. -/
structure Host where
  renderer : Option Renderer
  depth : Nat := depthLimit

structure Session where
  scopes : Chain Value
  origin : Origin
  /-- The number of batches run so far, which numbers the next one. -/
  batches : Nat

/-- What a batch comes to, and what it showed on the way. -/
structure Result where
  outcome : Except Trouble Value
  events : List Event

namespace Result

def printed (result : Result) : List String :=
  result.events.filterMap fun
    | .printed line => some line
    | .plotted _ => none

def plots (result : Result) : List (List (Point Float)) :=
  result.events.filterMap fun
    | .printed _ => none
    | .plotted points => some points

end Result

namespace Session

def start : Session := ⟨.single Machine.preamble, none, 0⟩

/-- Runs a computation on the session's scopes as code of the given batch. -/
def perform (session : Session) (origin : Origin) (run : Run Value) : Result × Session :=
  let (ended, machine) := run ⟨session.scopes, origin, #[]⟩
  (⟨ended.mapError Stop.trouble, machine.events.toList⟩,
    { session with scopes := machine.scopes, origin := machine.origin })

/-- Scans, reads and runs a text. A text that cannot be read leaves the session as it is. -/
def evaluate (host : Host) (session : Session) (text : String) : Result × Session :=
  match Grammar.ofText host.depth text.toList with
  | .error stop => (⟨.error stop.trouble, []⟩, session)
  | .ok statements =>
    { session with batches := session.batches + 1 }.perform (some session.batches)
      (interpret host.renderer host.depth statements)

/-- Evaluates an expression as code of the batch that ran last. -/
def evaluateExpr (host : Host) (session : Session) (expr : Expr) : Result × Session :=
  session.perform session.origin (expr.evaluate host.renderer host.depth)

def evaluateAll (host : Host) : Session → List String → List (Result × Session)
  | _, [] => []
  | session, text :: rest =>
    let (result, after) := session.evaluate host text
    (result, after) :: evaluateAll host after rest

def globals (session : Session) : Frame Value := session.scopes.globals

end Session

end Reckoner
