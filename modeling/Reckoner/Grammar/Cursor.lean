import Reckoner.Failure
import Reckoner.Grammar.Hint
import Reckoner.Token

/-! A cursor walks over a token sequence. It sees one token ahead and remembers the kind
of the token it passed last, which only the hints look at. -/

namespace Reckoner.Grammar

structure Cursor where
  previous : Option Kind
  ahead : List Token

/-- Reads something from the cursor's place on and moves the cursor behind it. -/
abbrev Reader (α : Type) := Cursor → Except Stop (α × Cursor)

namespace Cursor

def ofTokens (tokens : List Token) : Cursor := ⟨none, tokens⟩

/-- Passes the next token if its kind is wanted. -/
def accept? (wanted : Kind → Bool) (cursor : Cursor) : Option (Token × Cursor) :=
  match cursor.ahead with
  | [] => none
  | token :: rest => if wanted token.kind then some (token, ⟨some token.kind, rest⟩) else none

/-- Complains about the next token, which is not what was wanted. -/
def refuse (wanted : Failure.Expectation) (cursor : Cursor) : Stop :=
  match cursor.ahead with
  | [] => .broken .unfinished
  | token :: _ =>
    .failed
      { cause :=
          if token.kind = .finish then .unexpectedEnd wanted
          else .unexpectedToken token.lexeme wanted
        site := some token.span
        hint := hint? cursor.previous token.kind }

/-- Passes a token of the given kind or complains. -/
def expect (kind : Kind) (wanted : Failure.Expectation) : Reader Token := fun cursor =>
  match cursor.accept? (· == kind) with
  | some passed => .ok passed
  | none => .error (cursor.refuse wanted)

end Cursor

end Reckoner.Grammar
