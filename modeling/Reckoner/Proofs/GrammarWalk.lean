import Reckoner.Proofs.GrammarReading

/-! The grammar once more, on a cursor that stays where the reading ended even if it ended
badly. A reader forgets that place when it fails and is the same walk otherwise. -/

namespace Reckoner

namespace Grammar

/-- Walks on from the cursor's place. The cursor ends in front of the first token that was
not passed. -/
abbrev Walk (α : Type) := ExceptT Stop (StateM Cursor) α

namespace Walk

/-- Passes the next token if its kind is wanted. -/
def pass? (wanted : Kind → Bool) : Walk (Option Token) := fun cursor =>
  match cursor.accept? wanted with
  | none => (.ok none, cursor)
  | some (token, after) => (.ok (some token), after)

/-- Looks at the next token and leaves it there. -/
def next? : Walk (Option Token) := fun cursor => (.ok cursor.ahead.head?, cursor)

/-- A result that passes no token. -/
def settled {α : Type} (result : Except Stop α) : Walk α := fun cursor => (result, cursor)

def refuse {α : Type} (wanted : Failure.Expectation) : Walk α := fun cursor =>
  (.error (cursor.refuse wanted), cursor)

def expect (kind : Kind) (wanted : Failure.Expectation) : Walk Token := do
  match ← pass? (· == kind) with
  | some token => return token
  | none => refuse wanted

def chainFrom (wanted : Kind → Bool) (operand : Walk Expr) : Nat → Expr → Walk Expr
  | 0, left => return left
  | rounds + 1, left => do
    match ← pass? wanted with
    | none => return left
    | some operator => do
      let right ← operand
      chainFrom wanted operand rounds (.binary left operator right)

def chain (rounds : Nat) (wanted : Kind → Bool) (first operand : Walk Expr) : Walk Expr := do
  let left ← first
  chainFrom wanted operand rounds left

def argumentsFrom (expression : Walk Expr) : Nat → Walk (List Expr)
  | 0 => return []
  | rounds + 1 => do
    match ← pass? (· == .mark .comma) with
    | none => return []
    | some _ => do
      let argument ← expression
      let others ← argumentsFrom expression rounds
      return argument :: others

def arguments (rounds : Nat) (expression : Walk Expr) : Walk (List Expr) := do
  let next ← next?
  if next.any (·.kind == .mark .closing) then return []
  else
    let argument ← expression
    let others ← argumentsFrom expression rounds
    return argument :: others

def primary (expression : Walk Expr) : Walk Expr := do
  match ← pass? (· == .number) with
  | some token => return .literal token
  | none =>
  match ← pass? (· == .name) with
  | some token => return .symbol token
  | none =>
  match ← pass? (· == .mark .opening) with
  | some _ => do
    let inner ← expression
    let _ ← expect (.mark .closing) .closingAfterExpression
    return .grouping inner
  | none => refuse .expression

def groupsFrom (inside : Walk (List Expr)) : Nat → Expr → Walk Expr
  | 0, callee => return callee
  | rounds + 1, callee => do
    match ← pass? (· == .mark .opening) with
    | none => return callee
    | some opening => do
      let given ← inside
      let closing ← expect (.mark .closing) .closingAfterArguments
      let expr ← settled (applied callee opening given closing)
      groupsFrom inside rounds expr

def call (rounds : Nat) (expression : Walk Expr) : Walk Expr := do
  let callee ← primary expression
  groupsFrom (arguments rounds expression) rounds callee

def power (rounds : Nat) (unary expression : Walk Expr) : Walk Expr :=
  chain rounds (· == .mark .caret) unary (primary expression)

def factor (rounds : Nat) (unary expression : Walk Expr) : Walk Expr :=
  chain rounds isProduct (power rounds unary expression) (power rounds unary expression)

def term (rounds : Nat) (unary expression : Walk Expr) : Walk Expr :=
  chain rounds isSum (factor rounds unary expression) (factor rounds unary expression)

mutual

def expression (rounds : Nat) : Nat → Walk Expr
  | 0 => settled (.error .tooDeep)
  | depth + 1 => term rounds (unary rounds depth) (expression rounds depth)

def unary (rounds : Nat) : Nat → Walk Expr
  | 0 => settled (.error .tooDeep)
  | depth + 1 => do
    match ← pass? (· == .mark .minus) with
    | some operator => do
      let operand ← unary rounds depth
      return .unary operator operand
    | none => call rounds (expression rounds depth)

end

def plainStatement (expression : Walk Expr) : Walk Statement := do
  match ← pass? (· == .print) with
  | some keyword => do
    let expr ← expression
    return .print keyword expr
  | none => do
    let expr ← expression
    return .expression expr

/-- What a declaration comes to when its initializer has been read. -/
def declared (head : Statement) (equals : Token) (body : Expr) : Except Stop Statement :=
  match declared? head body with
  | some declaration => .ok declaration
  | none => .error (.failed
    { cause := .notDeclarable
      site := some equals.span
      hint := some "Only a name, or a name applied to parameter names, may stand left of '='." })

def statement (expression : Walk Expr) : Walk Statement := do
  let head ← plainStatement expression
  match ← pass? (· == .mark .equals) with
  | none => return head
  | some equals => do
    let body ← expression
    settled (declared head equals body)

def statementsFrom (expression : Walk Expr) : Nat → Walk (List Statement)
  | 0 => settled (.error (.broken .unfinished))
  | rounds + 1 => do
    match ← next? with
    | none => settled (.error (.broken .unfinished))
    | some token =>
      if token.kind = .finish then return []
      else
        let first ← statement expression
        let others ← statementsFrom expression rounds
        return first :: others

def program (depth : Nat) (tokens : List Token) : Except Stop (List Statement) × Cursor :=
  statementsFrom (expression tokens.length depth) tokens.length (.ofTokens tokens)

end Walk

end Grammar

namespace Proofs.GrammarWalk
open Grammar

variable {α β : Type}

theorem walk_bind (walk : Walk α) (next : α → Walk β) (cursor : Cursor) :
    (walk >>= next) cursor =
      match walk cursor with
      | (.ok value, after) => next value after
      | (.error stop, after) => (.error stop, after) := by
  change (ExceptT.bindCont next (walk cursor).1) (walk cursor).2 = _
  rcases walk cursor with ⟨_ | _, _⟩ <;> rfl

theorem pass_bind (wanted : Kind → Bool) (next : Option Token → Walk β) (cursor : Cursor) :
    (Walk.pass? wanted >>= next) cursor =
      match cursor.accept? wanted with
      | none => next none cursor
      | some (token, after) => next (some token) after := by
  rw [walk_bind]
  unfold Walk.pass?
  cases cursor.accept? wanted <;> rfl

theorem next_bind (next : Option Token → Walk β) (cursor : Cursor) :
    (Walk.next? >>= next) cursor = next cursor.ahead.head? cursor := walk_bind _ next cursor

theorem head_any (wanted : Kind → Bool) (cursor : Cursor) :
    (cursor.ahead.head?.any fun token => wanted token.kind) = (cursor.accept? wanted).isSome := by
  rcases cursor with ⟨previous, _ | ⟨token, rest⟩⟩
  · rfl
  · cases agreed : wanted token.kind <;> simp [Cursor.accept?, agreed]

/-- What a reader says of a walk. The place where it failed is lost. -/
def told : Except Stop α × Cursor → Except Stop (α × Cursor)
  | (.ok value, after) => .ok (value, after)
  | (.error stop, _) => .error stop

def Follows (reader : Reader α) (walk : Walk α) : Prop := ∀ cursor, reader cursor = told (walk cursor)

theorem Follows.bind {reader : Reader α} {walk : Walk α} {further : α × Cursor → Except Stop (β × Cursor)}
    {next : α → Walk β} (follows : Follows reader walk)
    (rest : ∀ value after, further (value, after) = told (next value after)) (cursor : Cursor) :
    (reader cursor >>= further) = told ((walk >>= next) cursor) := by
  rw [follows cursor, walk_bind]
  rcases walk cursor with ⟨stop | value, after⟩
  · rfl
  · exact rest value after

theorem expect_follows (kind : Kind) (wanted : Failure.Expectation) :
    Follows (Cursor.expect kind wanted) (Walk.expect kind wanted) := by
  intro cursor
  rw [Walk.expect, pass_bind, Cursor.expect]
  cases cursor.accept? (· == kind) <;> rfl

theorem chainFrom_follows {wanted : Kind → Bool} {reader : Reader Expr} {walk : Walk Expr}
    (operand : Follows reader walk) (rounds : Nat) (left : Expr) :
    Follows (chainFrom wanted reader rounds left) (Walk.chainFrom wanted walk rounds left) := by
  induction rounds generalizing left with
  | zero => exact fun _ => rfl
  | succ rounds ih =>
    intro cursor
    rw [Walk.chainFrom, pass_bind, chainFrom]
    cases cursor.accept? wanted with
    | none => rfl
    | some passed => exact operand.bind (fun right after => ih _ after) passed.2

theorem chain_follows {wanted : Kind → Bool} {reader further : Reader Expr} {walk next : Walk Expr}
    (first : Follows reader walk) (operand : Follows further next) (rounds : Nat) :
    Follows (chain rounds wanted reader further) (Walk.chain rounds wanted walk next) :=
  first.bind fun left after => chainFrom_follows operand rounds left after

theorem groupsFrom_follows {inside : Reader (List Expr)} {given : Walk (List Expr)} (follows : Follows inside given)
    (rounds : Nat) (callee : Expr) : Follows (groupsFrom inside rounds callee) (Walk.groupsFrom given rounds callee) := by
  induction rounds generalizing callee with
  | zero => exact fun _ => rfl
  | succ rounds ih =>
    intro cursor
    rw [Walk.groupsFrom, pass_bind, groupsFrom]
    cases cursor.accept? (· == .mark .opening) with
    | none => rfl
    | some passed =>
      refine follows.bind (fun arguments after => (expect_follows _ _).bind (fun closing final => ?_) after) passed.2
      dsimp only
      rw [walk_bind, Walk.settled]
      cases applied callee passed.1 arguments closing with
      | error stop => rfl
      | ok expr => exact ih expr final

section Groups

variable {reader : Reader Expr} {walk : Walk Expr} (expression : Follows reader walk)
include expression

theorem argumentsFrom_follows (rounds : Nat) :
    Follows (argumentsFrom reader rounds) (Walk.argumentsFrom walk rounds) := by
  induction rounds with
  | zero => exact fun _ => rfl
  | succ rounds ih =>
    intro cursor
    rw [Walk.argumentsFrom, pass_bind, argumentsFrom]
    cases cursor.accept? (· == .mark .comma) with
    | none => rfl
    | some passed =>
      exact expression.bind (fun argument after => ih.bind (fun others final => rfl) after) passed.2

theorem arguments_follows (rounds : Nat) : Follows (arguments rounds reader) (Walk.arguments rounds walk) := by
  intro cursor
  rw [Walk.arguments, next_bind, head_any (· == .mark .closing), arguments]
  cases cursor.accept? (· == .mark .closing) with
  | some passed => rfl
  | none =>
    exact expression.bind
      (fun argument after => (argumentsFrom_follows expression rounds).bind (fun others final => rfl) after) cursor

theorem primary_follows : Follows (primary reader) (Walk.primary walk) := by
  intro cursor
  rw [Walk.primary, pass_bind, primary]
  cases cursor.accept? (· == .number) with
  | some passed => rfl
  | none =>
  dsimp only
  rw [pass_bind]
  cases cursor.accept? (· == .name) with
  | some passed => rfl
  | none =>
  dsimp only
  rw [pass_bind]
  cases cursor.accept? (· == .mark .opening) with
  | none => rfl
  | some passed =>
    exact expression.bind (fun inner after => (expect_follows _ _).bind (fun closing final => rfl) after) passed.2

theorem call_follows (rounds : Nat) : Follows (call rounds reader) (Walk.call rounds walk) :=
  (primary_follows expression).bind fun callee after =>
    groupsFrom_follows (arguments_follows expression rounds) rounds callee after

section Terms

variable {unary : Reader Expr} {operand : Walk Expr} (signed : Follows unary operand) (rounds : Nat)
include signed

theorem power_follows : Follows (power rounds unary reader) (Walk.power rounds operand walk) :=
  chain_follows signed (primary_follows expression) rounds

theorem factor_follows : Follows (factor rounds unary reader) (Walk.factor rounds operand walk) :=
  have power := power_follows expression signed rounds
  chain_follows power power rounds

theorem term_follows : Follows (term rounds unary reader) (Walk.term rounds operand walk) :=
  have factor := factor_follows expression signed rounds
  chain_follows factor factor rounds

end Terms

theorem plainStatement_follows : Follows (plainStatement reader) (Walk.plainStatement walk) := by
  intro cursor
  rw [Walk.plainStatement, pass_bind, plainStatement]
  cases cursor.accept? (· == .print) with
  | none => exact expression.bind (fun expr after => rfl) cursor
  | some passed => exact expression.bind (fun expr after => rfl) passed.2

theorem statement_follows : Follows (statement reader) (Walk.statement walk) := by
  refine (plainStatement_follows expression).bind fun head after => ?_
  dsimp only
  rw [pass_bind]
  cases after.accept? (· == .mark .equals) with
  | none => rfl
  | some passed =>
    refine expression.bind (fun body final => ?_) passed.2
    dsimp only
    rw [Walk.declared, Walk.settled]
    cases declared? head body <;> rfl

theorem statementsFrom_follows (rounds : Nat) (cursor : Cursor) :
    statementsFrom reader rounds cursor = (Walk.statementsFrom walk rounds cursor).1 := by
  induction rounds generalizing cursor with
  | zero => rfl
  | succ rounds ih =>
    rw [Walk.statementsFrom, next_bind, statementsFrom]
    cases cursor.ahead with
    | nil => rfl
    | cons token rest =>
    dsimp only [List.head?_cons]
    split
    · rfl
    · rw [statement_follows expression cursor, walk_bind]
      rcases Walk.statement walk cursor with ⟨stop | first, after⟩
      · rfl
      · simp only [told, GrammarReading.ok_bind, ih after, walk_bind]
        rcases Walk.statementsFrom walk rounds after with ⟨stop | others, final⟩ <;> rfl

end Groups

theorem ladder_follows (rounds depth : Nat) :
    Follows (expression rounds depth) (Walk.expression rounds depth) ∧
      Follows (unary rounds depth) (Walk.unary rounds depth) := by
  induction depth with
  | zero => exact ⟨fun _ => rfl, fun _ => rfl⟩
  | succ depth ih =>
    refine ⟨fun cursor => ?_, fun cursor => ?_⟩
    · rw [expression, Walk.expression]
      exact term_follows ih.1 ih.2 rounds cursor
    · rw [Walk.unary, pass_bind, unary]
      cases cursor.accept? (· == .mark .minus) with
      | none => exact call_follows ih.1 rounds cursor
      | some passed => exact ih.2.bind (fun operand after => rfl) passed.2

/-- Reading a program comes to what the walk over it comes to. -/
theorem program_follows (depth : Nat) (tokens : List Token) :
    program depth tokens = (Walk.program depth tokens).1 :=
  statementsFrom_follows (ladder_follows tokens.length depth).1 tokens.length (.ofTokens tokens)

end Proofs.GrammarWalk

end Reckoner
