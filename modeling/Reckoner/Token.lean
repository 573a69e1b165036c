import Reckoner.Span
import Reckoner.Token.Kind

/-! Tokens, the words of the language. -/

namespace Reckoner

/-- One word of a text. Numbers carry their value. A token that stands for something
unwritten, such as the product in `2x`, has an empty span. -/
structure Token where
  kind : Kind
  lexeme : String
  literal : Option Float
  line : Nat
  span : Span

namespace Token

/-- A token that is not written in the text, placed at an offset. -/
def implied (kind : Kind) (line : Nat) (offset : Int) : Token :=
  ⟨kind, kind.label, none, line, ⟨offset, offset⟩⟩

def describe (token : Token) : String := "(" ++ token.kind.label ++ ", " ++ token.lexeme ++ ")"

end Token

end Reckoner
