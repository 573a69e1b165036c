import Reckoner.Machine
import Reckoner.Number.Divisors

/-! Evaluation walks over expressions. A depth bounds how far expressions and calls nest;
every step inward costs one. -/

namespace Reckoner

open Run

/-- Where a plot samples its subject, in this order: the whole numbers from -10 to 9. -/
def plotDomain : List Float := (List.range 20).map fun i => Float.ofInt (Int.ofNat i - 10)

/-- Trial division stays quick up to here. -/
def factorsCeiling : Float := 1000000000000

/-- The ratio of a circle's circumference to its diameter. -/
def circleRatio : Float := 3.141592653589793

/-- A number as it is plotted: anything else counts as zero. -/
def Value.ordinate : Value → Float
  | .number x => x
  | _ => 0

def fail (cause : Failure.Cause) (site : Option Span) : Except Stop Value :=
  .error (.failed { cause, site })

/-- What an operation on numbers answers, as a value. A refusal that nobody has handled breaks
the evaluation. -/
def computed {α : Type} (value : α → Value) : Except Fault α → Except Stop Value
  | .ok answer => .ok (value answer)
  | .error fault => .error (.broken fault)

theorem computed_cases {α : Type} (value : α → Value) (answer : Except Fault α) :
    (∃ a, answer = .ok a ∧ computed value answer = .ok (value a)) ∨
      ∃ fault, answer = .error fault ∧ computed value answer = .error (.broken fault) := by
  cases answer with
  | ok a => exact .inl ⟨a, rfl, rfl⟩
  | error fault => exact .inr ⟨fault, rfl, rfl⟩

/-- The value of a literal; every number token of a text has one. -/
def literalValue (token : Token) : Except Stop Value :=
  match token.literal with
  | some x => .ok (.number x)
  | none => .error (.broken .malformed)

def negated (expr : Expr) (operator : Token) (operand : Value) : Except Stop Value :=
  match operand with
  | .number x =>
    if operator.kind = .mark .minus then .ok (.number (-x)) else .error (.broken .malformed)
  | other => fail (.notNegatable operator.kind.label other.render) (some expr.span)

/-- Applies a binary operator; the left operand is checked first. -/
def combined (left right : Expr) (operator : Token) (a b : Value) : Except Stop Value :=
  match a, b with
  | .number x, .number y =>
    match operator.kind.operator? with
    | some operation => computed .number (operation.apply x y)
    | none => .error (.broken .malformed)
  | .number _, other => fail (.notNumeric other.render) (some right.span)
  | other, _ => fail (.notNumeric other.render) (some left.span)

/-- Calls a function with arguments, whose number is checked here. A failure without a
site is blamed on the call. -/
def called (expr callee : Expr) (target : Value) (arguments : List Value)
    (apply : Function → List Value → Run Value) : Run Value :=
  match target with
  | .function function =>
    if arguments.length = function.arity then
      adjusting (fun _ failure => failure.blame (some expr.span)) (apply function arguments)
    else settled (fail (.arity function.arity arguments.length) (some expr.span))
  | other => settled (fail (.notCallable other.render) (some callee.span))

/-- Runs a declared function's body with its parameters bound in a new scope. A site in
another batch's text than the caller's is forgotten. -/
def entered (declaration : Declaration) (origin : Origin) (arguments : List Value)
    (body : Run Value) : Run Value :=
  adjusting (fun machine failure => if origin = machine.origin then failure else failure.unsited)
    (within (Frame.empty.defineAll (declaration.parameterNames.zip arguments)) origin body)

def sine : Value → Except Stop Value
  | .number x =>
    if x.isInf then .ok (.number Number.notANumber) else computed .number (Number.sine x)
  | other => fail (.needsNumber (Function.builtin .sin).render other.render) none

/-- The divisors of the whole part of a number, as numbers again. -/
def factorsOf (x : Float) : Except Fault (List Float) := do
  (Number.divisors (← Number.truncate x)).mapM Number.ofWhole

/-- Every positive divisor of the argument, in ascending order. Fractions are cut off, and
what lies below one has no divisors. -/
def factors : Value → Except Stop Value
  | .number x =>
    let function := (Function.builtin .factors).render
    if x.isInf then fail (.needsFinite function) none
    else if factorsCeiling < x then fail (.aboveCeiling function (Number.render factorsCeiling)) none
    else if x.isNaN || x < 1 then .ok (.list [])
    else computed .list (factorsOf x)
  | other => fail (.needsNumber (Function.builtin .factors).render other.render) none

/-- Samples a function of one argument, then hands all points to the renderer at once. -/
def plotted (renderer : Option Renderer) (subject : Value)
    (apply : Function → List Value → Run Value) : Run Value :=
  match subject with
  | .function function =>
    if function.arity = 1 then do
      let points ← plotDomain.mapM fun x => do
        let y ← apply function [.number x]
        return (⟨x, y.ordinate⟩ : Point Float)
      match renderer with
      | none => return .nothing
      | some draw =>
        emit (.plotted points)
        match draw points with
        | .ok _ => return .nothing
        | .error fault => throw (.broken fault)
    else settled (fail (.arity function.arity 1) none)
  | other => settled (fail (.needsFunction (Function.builtin .plot).render other.render) none)

mutual

def Expr.evaluate (renderer : Option Renderer) : Nat → Expr → Run Value
  | 0, _ => throw .tooDeep
  | depth + 1, expr =>
    match expr with
    | .literal token => settled (literalValue token)
    | .symbol name => lookup name.lexeme
    | .grouping inner => Expr.evaluate renderer depth inner
    | .unary operator operand => do
      let value ← Expr.evaluate renderer depth operand
      settled (negated expr operator value)
    | .binary left operator right => do
      let a ← Expr.evaluate renderer depth left
      let b ← Expr.evaluate renderer depth right
      settled (combined left right operator a b)
    | .call callee arguments _ => do
      let target ← Expr.evaluate renderer depth callee
      let values ← arguments.mapM (Expr.evaluate renderer depth)
      called expr callee target values (Function.apply renderer depth)

def Function.apply (renderer : Option Renderer) : Nat → Function → List Value → Run Value
  | 0, _, _ => throw .tooDeep
  | depth + 1, function, arguments =>
    match function, arguments with
    | .declared declaration origin, _ =>
      entered declaration origin arguments (Expr.evaluate renderer depth declaration.body)
    | .builtin .pi, [] => return .number circleRatio
    | .builtin .sin, [argument] => settled (sine argument)
    | .builtin .factors, [argument] => settled (factors argument)
    | .builtin .plot, [subject] => plotted renderer subject (Function.apply renderer depth)
    | .builtin _, _ => throw (.broken .malformed)

end

def Statement.execute (renderer : Option Renderer) (depth : Nat) : Statement → Run Value
  | .expression expr => Expr.evaluate renderer depth expr
  | .print _ expr => do
    let value ← Expr.evaluate renderer depth expr
    emit (.printed value.render)
    return .nothing
  | .assign name value => do
    define name.lexeme (← Expr.evaluate renderer depth value)
    return .nothing
  | .declare declaration => do
    define declaration.name.lexeme (.function (.declared declaration (← get).origin))
    return .nothing

/-- Runs statements one after the other; the last one's value counts. -/
def interpret (renderer : Option Renderer) (depth : Nat) (statements : List Statement) : Run Value :=
  statements.foldlM (fun _ statement => Statement.execute renderer depth statement) .nothing

end Reckoner
