import Reckoner.Expr
import Reckoner.Grammar.Cursor
import Reckoner.Token.Scan

/-! From tokens to statements, one reader for each rung of the precedence ladder:

    term   := factor (("+" | "-") factor)*
    factor := power (("*" | "/") power)*
    power  := unary ("^" primary)*
    unary  := "-" unary | call
    call   := primary ("(" arguments? ")")*

The rungs are readers over the readers below them, and the knot is tied at one place,
where an expression stands inside another one. A depth bounds how far that goes.
Repetitions do not count as depth. Each of their rounds passes at least one token, so
none goes on for more rounds than the sequence has tokens.

A statement followed by `=` turns out to have been the head of a declaration, which is
how `x = 5` and `f(x) = x^2` both come out of one grammar. The first problem ends the
reading. -/

namespace Reckoner.Grammar

/-- Operands separated by wanted operators, grouped from the left, in at most so many
rounds. -/
def chainFrom (wanted : Kind → Bool) (operand : Reader Expr) : Nat → Expr → Reader Expr
  | 0, left, cursor => .ok (left, cursor)
  | rounds + 1, left, cursor =>
    match cursor.accept? wanted with
    | none => .ok (left, cursor)
    | some (operator, cursor) => do
      let (right, cursor) ← operand cursor
      chainFrom wanted operand rounds (.binary left operator right) cursor

def chain (rounds : Nat) (wanted : Kind → Bool) (first operand : Reader Expr) : Reader Expr := fun cursor => do
  let (left, cursor) ← first cursor
  chainFrom wanted operand rounds left cursor

def argumentsFrom (expression : Reader Expr) : Nat → Reader (List Expr)
  | 0, cursor => .ok ([], cursor)
  | rounds + 1, cursor =>
    match cursor.accept? (· == .mark .comma) with
    | none => .ok ([], cursor)
    | some (_, cursor) => do
      let (argument, cursor) ← expression cursor
      let (others, cursor) ← argumentsFrom expression rounds cursor
      return (argument :: others, cursor)

/-- The expressions between the parentheses of a call; there may be none. -/
def arguments (rounds : Nat) (expression : Reader Expr) : Reader (List Expr) := fun cursor =>
  match cursor.accept? (· == .mark .closing) with
  | some _ => .ok ([], cursor)
  | none => do
    let (argument, cursor) ← expression cursor
    let (others, cursor) ← argumentsFrom expression rounds cursor
    return (argument :: others, cursor)

def primary (expression : Reader Expr) : Reader Expr := fun cursor =>
  match cursor.accept? (· == .number) with
  | some (token, cursor) => .ok (.literal token, cursor)
  | none =>
  match cursor.accept? (· == .name) with
  | some (token, cursor) => .ok (.symbol token, cursor)
  | none =>
  match cursor.accept? (· == .mark .opening) with
  | some (_, cursor) => do
    let (inner, cursor) ← expression cursor
    let (_, cursor) ← cursor.expect (.mark .closing) .closingAfterExpression
    return (.grouping inner, cursor)
  | none => .error (cursor.refuse .expression)

/-- What a group of arguments behind an expression makes of it: a bare number is
multiplied, and so takes exactly one argument; anything else is called. -/
def applied (callee : Expr) (opening : Token) (arguments : List Expr) (closing : Token) :
    Except Stop Expr :=
  match callee with
  | .literal _ =>
    match arguments with
    | [factor] => .ok (.binary callee (.implied (.mark .star) opening.line opening.span.start) factor)
    | _ => .error (.failed
      { cause := .groupCount arguments.length
        site := some opening.span
        hint := some "Did you mean to multiply? Then write one expression in the parentheses." })
  | _ => .ok (.call callee arguments closing)

/-- The groups of arguments behind an expression, in at most so many rounds. Each group
is read with the given reader of its inside. -/
def groupsFrom (inside : Reader (List Expr)) : Nat → Expr → Reader Expr
  | 0, callee, cursor => .ok (callee, cursor)
  | rounds + 1, callee, cursor =>
    match cursor.accept? (· == .mark .opening) with
    | none => .ok (callee, cursor)
    | some (opening, cursor) => do
      let (given, cursor) ← inside cursor
      let (closing, cursor) ← cursor.expect (.mark .closing) .closingAfterArguments
      let expr ← applied callee opening given closing
      groupsFrom inside rounds expr cursor

def call (rounds : Nat) (expression : Reader Expr) : Reader Expr := fun cursor => do
  let (callee, cursor) ← primary expression cursor
  groupsFrom (arguments rounds expression) rounds callee cursor

def isSum (kind : Kind) : Bool := kind == .mark .plus || kind == .mark .minus

def isProduct (kind : Kind) : Bool := kind == .mark .star || kind == .mark .slash

/-- Powers group from the left too, and an exponent is only a primary: `2^3^2` is
`(2^3)^2`. -/
def power (rounds : Nat) (unary expression : Reader Expr) : Reader Expr :=
  chain rounds (· == .mark .caret) unary (primary expression)

def factor (rounds : Nat) (unary expression : Reader Expr) : Reader Expr :=
  chain rounds isProduct (power rounds unary expression) (power rounds unary expression)

def term (rounds : Nat) (unary expression : Reader Expr) : Reader Expr :=
  chain rounds isSum (factor rounds unary expression) (factor rounds unary expression)

mutual

def expression (rounds : Nat) : Nat → Reader Expr
  | 0, _ => .error .tooDeep
  | depth + 1, cursor => term rounds (unary rounds depth) (expression rounds depth) cursor

def unary (rounds : Nat) : Nat → Reader Expr
  | 0, _ => .error .tooDeep
  | depth + 1, cursor =>
    match cursor.accept? (· == .mark .minus) with
    | some (operator, cursor) => do
      let (operand, cursor) ← unary rounds depth cursor
      return (.unary operator operand, cursor)
    | none => call rounds (expression rounds depth) cursor

end

/-- The parameters that a list of arguments declares, if all of them are names. -/
def parameters? : List Expr → Option (List Token)
  | [] => some []
  | .symbol name :: rest => (parameters? rest).map (name :: ·)
  | _ :: _ => none

/-- What the statement left of an equals sign declares. -/
def declared? (head : Statement) (body : Expr) : Option Statement :=
  match head with
  | .expression (.symbol name) => some (.assign name body)
  | .expression (.call (.symbol name) arguments _) =>
    (parameters? arguments).map fun parameters => .declare ⟨name, parameters, body⟩
  | _ => none

def plainStatement (expression : Reader Expr) : Reader Statement := fun cursor =>
  match cursor.accept? (· == .print) with
  | some (keyword, cursor) => do
    let (expr, cursor) ← expression cursor
    return (.print keyword expr, cursor)
  | none => do
    let (expr, cursor) ← expression cursor
    return (.expression expr, cursor)

def statement (expression : Reader Expr) : Reader Statement := fun cursor => do
  let (head, cursor) ← plainStatement expression cursor
  match cursor.accept? (· == .mark .equals) with
  | none => return (head, cursor)
  | some (equals, cursor) => do
    let (body, cursor) ← expression cursor
    match declared? head body with
    | some declaration => return (declaration, cursor)
    | none => .error (.failed
      { cause := .notDeclarable
        site := some equals.span
        hint := some "Only a name, or a name applied to parameter names, may stand left of '='." })

/-- Statements up to the end, in at most so many rounds. -/
def statementsFrom (expression : Reader Expr) : Nat → Cursor → Except Stop (List Statement)
  | 0, _ => .error (.broken .unfinished)
  | rounds + 1, cursor =>
    match cursor.ahead with
    | [] => .error (.broken .unfinished)
    | token :: _ =>
      if token.kind = .finish then .ok []
      else do
        let (first, cursor) ← statement expression cursor
        let others ← statementsFrom expression rounds cursor
        return first :: others

/-- Reads a whole token sequence, which has to hold an end token; what follows the first
one is never looked at. -/
def program (depth : Nat) (tokens : List Token) : Except Stop (List Statement) :=
  statementsFrom (expression tokens.length depth) tokens.length (.ofTokens tokens)

def ofText (depth : Nat) (text : List Char) : Except Stop (List Statement) :=
  match Token.scan text with
  | .error failure => .error (.failed failure)
  | .ok tokens => program depth tokens

end Reckoner.Grammar
