import Reckoner.Expr
import Reckoner.Number.Spelling

/-! Values of running programs. -/

namespace Reckoner

inductive Builtin where
  | pi
  | sin
  | factors
  | plot
  deriving DecidableEq

namespace Builtin

def all : List Builtin := [.pi, .sin, .factors, .plot]

def name : Builtin → String
  | .pi => "pi"
  | .sin => "sin"
  | .factors => "factors"
  | .plot => "plot"

def arity : Builtin → Nat
  | .pi => 0
  | .sin | .factors | .plot => 1

end Builtin

/-- A batch of statements, numbered within its session. Code that runs before any batch
has none. -/
abbrev Origin := Option Nat

/-- A function that can be called. A declared one remembers the batch that declared it,
but no scope: its body runs on top of whichever scope is active when it is called. -/
inductive Function where
  | builtin (which : Builtin)
  | declared (declaration : Declaration) (origin : Origin)

namespace Function

def name : Function → String
  | .builtin which => which.name
  | .declared declaration _ => declaration.name.lexeme

def arity : Function → Nat
  | .builtin which => which.arity
  | .declared declaration _ => declaration.parameters.length

def render (function : Function) : String := "<fnc:" ++ function.name ++ ">"

end Function

inductive Value where
  | number (x : Float)
  | list (items : List Float)
  | function (target : Function)
  /-- What a name means before anybody gives it a meaning. It reads as the name itself. -/
  | unbound (name : String)

namespace Value

/-- The value of a statement that is no expression, and of an empty program. -/
def nothing : Value := .number 0

def renderList (items : List Float) : String :=
  "[" ++ ", ".intercalate (items.map Number.render) ++ "]"

/-- The text of a value as `print` shows it. -/
def render : Value → String
  | .number x => Number.render x
  | .list items => renderList items
  | .function target => target.render
  | .unbound name => name

def debugUnbound (name : String) : String := "<Unbound " ++ name ++ ">"

end Value

end Reckoner
