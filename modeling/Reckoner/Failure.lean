import Reckoner.Fault
import Reckoner.Span
import Reckoner.Text.Quoted

/-! Failures are what the author of a program hears about. A failure has a cause, from
which its kind and its message follow, a site in the text, and sometimes a hint. -/

namespace Reckoner

namespace Failure

inductive Kind where
  | lexical
  | parse
  | type
  | arity
  | depth
  | general
  deriving DecidableEq

def Kind.title : Kind → String
  | .lexical => "Lexical error"
  | .parse => "Parse error"
  | .type => "Type error"
  | .arity => "Arity error"
  | .depth => "Recursion error"
  | .general => "Error"

inductive Expectation where
  | expression
  | closingAfterExpression
  | closingAfterArguments
  deriving DecidableEq

def Expectation.message : Expectation → String
  | .expression => "Expected an expression."
  | .closingAfterExpression => "Expected ')' after expression."
  | .closingAfterArguments => "Expected ')' after arguments."

/-- Why a program fails. Values and functions stand here as they are shown. -/
inductive Cause where
  | strayCharacter (character : Char) (line : Nat)
  | unexpectedEnd (wanted : Expectation)
  | unexpectedToken (lexeme : String) (wanted : Expectation)
  | groupCount (count : Nat)
  | notDeclarable
  | notNegatable (operator shown : String)
  | notNumeric (shown : String)
  | notCallable (shown : String)
  | needsNumber (function shown : String)
  | needsFinite (function : String)
  | aboveCeiling (function ceiling : String)
  | needsFunction (function shown : String)
  | arity (need got : Nat)
  | tooDeep
  /-- A failure that a host words for itself. -/
  | reported (kind : Kind) (message : String)
  deriving DecidableEq

namespace Cause

def kind : Cause → Kind
  | .strayCharacter .. => .lexical
  | .unexpectedEnd .. | .unexpectedToken .. | .groupCount .. | .notDeclarable => .parse
  | .notNegatable .. | .notNumeric .. | .notCallable .. | .needsNumber .. | .needsFinite ..
  | .aboveCeiling .. | .needsFunction .. => .type
  | .arity .. => .arity
  | .tooDeep => .depth
  | .reported kind _ => kind

def message : Cause → String
  | .strayCharacter character line =>
    "Unexpected character " ++ Text.quoted (String.singleton character) ++ " on line " ++ toString line ++ "."
  | .unexpectedEnd wanted => "Unexpected end of input. " ++ wanted.message
  | .unexpectedToken lexeme wanted => "Unexpected " ++ Text.quoted lexeme ++ ". " ++ wanted.message
  | .groupCount count =>
    "A number may be followed by one parenthesized expression, not " ++ toString count ++ "."
  | .notDeclarable => "Declaration not supported."
  | .notNegatable operator shown => "Cannot apply '" ++ operator ++ "' to " ++ shown ++ "."
  | .notNumeric shown => "Arithmetic needs numbers, but " ++ shown ++ " is not one."
  | .notCallable shown => shown ++ " is not a function."
  | .needsNumber function shown => function ++ " needs a number, but got " ++ shown ++ "."
  | .needsFinite function => function ++ " needs a finite number."
  | .aboveCeiling function ceiling => function ++ " only goes up to " ++ ceiling ++ "."
  | .needsFunction function shown => function ++ " needs a function, but got " ++ shown ++ "."
  | .arity need got =>
    "This takes " ++ toString need ++ " argument" ++ (if need = 1 then "" else "s") ++ ", but got " ++
      toString got ++ " instead."
  | .tooDeep => "Nesting or recursion went too deep to follow."
  | .reported _ message => message

end Cause

end Failure

structure Failure where
  cause : Failure.Cause
  site : Option Span := none
  hint : Option String := none
  deriving DecidableEq

namespace Failure

def kind (failure : Failure) : Kind := failure.cause.kind

def message (failure : Failure) : String := failure.cause.message

def text (failure : Failure) : String := failure.kind.title ++ ": " ++ failure.message

/-- Attaches a site if nothing more specific has done so already. -/
def blame (failure : Failure) (site : Option Span) : Failure :=
  match failure.site with
  | some _ => failure
  | none => { failure with site }

/-- Forgets a site that points into a text the reader does not see. -/
def unsited (failure : Failure) : Failure := { failure with site := none }

end Failure

/-- Why reading or running a program stops early. Running out of depth is kept apart
from failures, since nobody is to be blamed for it on the way out. -/
inductive Stop where
  | failed (failure : Failure)
  | tooDeep
  | broken (fault : Fault)
  deriving DecidableEq

/-- How a batch ends without a value. -/
inductive Trouble where
  | failure (failure : Failure)
  | fault (fault : Fault)
  deriving DecidableEq

/-- What is told to the outside: running out of depth becomes a failure without a site. -/
def Stop.trouble : Stop → Trouble
  | .failed failure => .failure failure
  | .tooDeep => .failure { cause := .tooDeep }
  | .broken fault => .fault fault

end Reckoner
