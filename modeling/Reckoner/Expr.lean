import Reckoner.Token

/-! Expressions and statements. Every one of them knows its extent in the text, which
is all that messages need. -/

namespace Reckoner

inductive Expr where
  | literal (token : Token)
  | symbol (name : Token)
  /-- Parentheses. They steer the grammar and mean nothing afterwards. -/
  | grouping (inner : Expr)
  | binary (left : Expr) (operator : Token) (right : Expr)
  | unary (operator : Token) (operand : Expr)
  | call (callee : Expr) (arguments : List Expr) (closing : Token)

namespace Expr

/-- The offset of the first character. Parentheses around an expression do not count. The
program recurses into the expression as this does; the limit that the runtime sets to such
recursion is left out here. -/
def start : Expr → Int
  | .literal token => token.span.start
  | .symbol name => name.span.start
  | .grouping inner => inner.start
  | .binary left _ _ => left.start
  | .unary operator _ => operator.span.start
  | .call callee _ _ => callee.start

/-- The offset just past the last character; recursive in the program as well, and without
the runtime's limit here. -/
def stop : Expr → Int
  | .literal token => token.span.stop
  | .symbol name => name.span.stop
  | .grouping inner => inner.stop
  | .binary _ _ right => right.stop
  | .unary _ operand => operand.stop
  | .call _ _ closing => closing.span.stop

def span (expr : Expr) : Span := ⟨expr.start, expr.stop⟩

end Expr

/-- A function written as an equation, such as `f(x, y) = x*y`. The body waits,
unevaluated, until somebody calls the function. -/
structure Declaration where
  name : Token
  parameters : List Token
  body : Expr

namespace Declaration

def parameterNames (declaration : Declaration) : List String :=
  declaration.parameters.map (·.lexeme)

end Declaration

inductive Statement where
  | expression (expr : Expr)
  | print (keyword : Token) (expr : Expr)
  | assign (name : Token) (value : Expr)
  | declare (declaration : Declaration)

namespace Statement

/-- The expression a statement is made around: what it evaluates, or the function's body. -/
def expr : Statement → Expr
  | .expression expr => expr
  | .print _ expr => expr
  | .assign _ value => value
  | .declare declaration => declaration.body

def start : Statement → Int
  | .expression expr => expr.start
  | .print keyword _ => keyword.span.start
  | .assign name _ => name.span.start
  | .declare declaration => declaration.name.span.start

def span (statement : Statement) : Span := ⟨statement.start, statement.expr.stop⟩

end Statement

end Reckoner
