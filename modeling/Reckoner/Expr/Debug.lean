import Reckoner.Expr
import Reckoner.Number.Spelling

/-! The form of expressions for debugging: every operation in parentheses, so that the
structure can be read off. -/

namespace Reckoner

namespace Expr

mutual

/-- Recursive in the program as well; the limit that the runtime sets to such recursion is left
out here. -/
def debug : Expr → String
  | .literal token => "<Literal " ++ (token.literal.map Number.spell).getD "None" ++ ">"
  | .symbol name => "<ref:" ++ name.lexeme ++ ">"
  | .grouping inner => "(" ++ inner.debug ++ ")"
  | .binary left operator right =>
    "(" ++ left.debug ++ " " ++ operator.kind.label ++ " " ++ right.debug ++ ")"
  | .unary operator operand => "(" ++ operator.kind.label ++ operand.debug ++ ")"
  | .call callee arguments _ => callee.debug ++ "(" ++ ", ".intercalate (debugAll arguments) ++ ")"

def debugAll : List Expr → List String
  | [] => []
  | expr :: rest => expr.debug :: debugAll rest

end

end Expr

/-- A declaration's head: its name and its parameters. -/
def Declaration.debug (declaration : Declaration) : String :=
  "<fnc:" ++ declaration.name.lexeme ++ "(" ++ ", ".intercalate declaration.parameterNames ++ ")>"

end Reckoner
