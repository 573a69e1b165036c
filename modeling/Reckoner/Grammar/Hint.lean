import Reckoner.Token.Kind

/-! Hints for the grammar's complaints. They look at the kind of token consumed last and
at the kind of token that is in the way. -/

namespace Reckoner.Grammar

/-- What this pair of neighbours usually means. -/
def pairHint? : Kind → Kind → Option String
  | .mark .opening, .mark .closing =>
    some "Empty parentheses only make sense after a function name, as in pi()."
  | .mark .equals, .finish => some "There needs to be an expression on the right of '='."
  | .mark .comma, .mark .closing => some "There is a stray comma before the closing parenthesis."
  | .mark .caret, .mark .minus =>
    some "The exponent must be a number, a name, or parenthesized: write 2^(-1)."
  | previous, ahead =>
    if previous.operator?.isNone then none
    else if ahead = .finish then
      some ("Something seems to be missing after the final '" ++ previous.label ++ "'.")
    else if ahead = previous then some "Two operators in a row. Is one of them a typo?"
    else none

/-- What a token in the way means whatever stands before it. -/
def aheadHint? : Kind → Option String
  | .mark .closing => some "This ')' seems to have no partner."
  | .mark sign =>
    if [.less, .lessEqual, .greater, .greaterEqual, .bang, .dot].contains sign then
      some ("'" ++ sign.glyph ++ "' is a token, but no expression makes use of it.")
    else none
  | _ => none

/-- The more specific hint wins. -/
def hint? (previous : Option Kind) (ahead : Kind) : Option String :=
  (previous.bind (pairHint? · ahead)).or (aheadHint? ahead)

end Reckoner.Grammar
