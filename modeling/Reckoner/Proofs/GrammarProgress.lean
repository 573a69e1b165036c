import Reckoner.Proofs.EvaluationFrame
import Reckoner.Proofs.FirstFailure
import Reckoner.Proofs.GrammarDepth

/-! Progress of the grammar. Whatever reads an expression or a statement passes a token at
least and never the end. So a round for each token and twice as much depth are enough to
read anything, and a program is no larger than the tokens in front of the end. -/

namespace Reckoner.Proofs.GrammarProgress
open Grammar GrammarPhrases GrammarReading GrammarWalk GrammarLookahead GrammarDepth FirstFailure

variable {α : Type} {tokens front : List Token} {expr : Expr} {phrase : Phrase}

section Sizes

/-- Literals, symbols, negations and calls each keep a token that stands for nothing else. -/
def keepsToken : Expr → Bool
  | .literal _ | .symbol _ | .unary _ _ | .call _ _ _ => true
  | .grouping _ | .binary _ _ _ => false

/-- How many of the nodes of an expression keep a token of their own. -/
def size (expr : Expr) : Nat := expr.nodes.countP keepsToken

def totalSize (exprs : List Expr) : Nat := (exprs.flatMap Expr.nodes).countP keepsToken

def statementSize (statement : Statement) : Nat := size statement.expr

@[simp] theorem size_literal (token : Token) : size (.literal token) = 1 := rfl

@[simp] theorem size_symbol (name : Token) : size (.symbol name) = 1 := rfl

@[simp] theorem size_grouping (inner : Expr) : size (.grouping inner) = size inner := rfl

@[simp] theorem size_unary (operator : Token) (operand : Expr) : size (.unary operator operand) = size operand + 1 :=
  List.countP_cons_of_pos rfl

@[simp] theorem size_binary (left : Expr) (operator : Token) (right : Expr) :
    size (.binary left operator right) = size left + size right :=
  List.countP_append

@[simp] theorem size_call (callee : Expr) (arguments : List Expr) (closing : Token) :
    size (.call callee arguments closing) = size callee + totalSize arguments + 1 := by
  rw [size, Expr.nodes, List.countP_cons_of_pos rfl, List.countP_append, Expr.nodesAll_eq]
  rfl

@[simp] theorem totalSize_nil : totalSize [] = 0 := rfl

@[simp] theorem totalSize_cons (expr : Expr) (rest : List Expr) : totalSize (expr :: rest) = size expr + totalSize rest := by
  rw [totalSize, List.flatMap_cons, List.countP_append]
  rfl

theorem further_size {others : List Further} (sizes : ∀ other ∈ others, size other.expr ≤ other.tokens.length) :
    totalSize (others.map Further.expr) ≤ (furtherTokens others).length := by
  induction others with
  | nil => simp
  | cons first others ih =>
    rw [List.forall_mem_cons] at sizes
    have rest := ih sizes.2
    simp only [List.map_cons, totalSize_cons, furtherTokens_cons, List.length_cons, List.length_append]
    omega

/-- Parentheses, commas and operators with two operands come on top. -/
theorem spells_size (spelled : Spells phrase tokens expr) : size expr ≤ tokens.length := by
  induction spelled with
  | expression _ ih | factor _ ih | power _ ih | unary _ ih | call _ ih => exact ih
  | literal | symbol => exact Nat.le_refl _
  | sum _ _ _ first second | product _ _ _ first second | exponent _ _ _ first second =>
    simp only [size_binary, List.length_append, List.length_cons]
    omega
  | negation _ _ ih =>
    simp only [size_unary, List.length_cons]
    omega
  | scaled _ _ _ _ ih =>
    simp only [size_binary, size_literal, List.length_cons, List.length_append]
    omega
  | invoked _ _ _ _ ih =>
    simp only [size_call, totalSize_nil, List.length_append, List.length_cons]
    omega
  | applied _ _ _ _ _ _ _ head first others =>
    have further := further_size others
    simp only [size_call, totalSize_cons, List.length_append, List.length_cons]
    omega
  | grouping _ _ _ ih =>
    simp only [size_grouping, List.length_cons, List.length_append]
    omega

theorem statement_size {statement : Statement} (spelled : SpellsStatement tokens statement) :
    statementSize statement ≤ tokens.length := by
  cases spelled with
  | expression rest => exact spells_size rest
  | print _ rest | assign _ _ rest | declare _ _ _ _ _ rest =>
    have body := spells_size rest
    simp only [statementSize, Statement.expr, List.length_cons, List.length_append]
    omega

theorem program_size {statements : List Statement} (spelled : SpellsProgram tokens statements) :
    statements.length ≤ tokens.length ∧ totalSize (statements.map Statement.expr) ≤ tokens.length := by
  induction spelled with
  | finish => exact ⟨Nat.le_refl _, Nat.le_refl _⟩
  | @statement front back first others head tail ih =>
    have some := List.length_pos_iff.mpr head.nonempty
    have fits : size first.expr ≤ front.length := statement_size head
    simp only [List.map_cons, totalSize_cons, List.length_cons, List.length_append]
    omega

end Sizes

section Readers

/-- A reader that passes a token at least when it comes to a value, and never an end, however it comes off. The
value is no larger than what was passed. Only the want of an end can break the reader. -/
structure Advances (measure : α → Nat) (reader : Reader α) (walk : Walk α) : Prop where
  follows : Follows reader walk
  passes : ∀ cursor, ∃ passed, cursor.ahead = passed ++ (walk cursor).2.ahead ∧
    (∀ token ∈ passed, token.kind ≠ .finish) ∧
    ∀ value, (walk cursor).1 = .ok value → passed ≠ [] ∧ measure value ≤ passed.length
  unbroken : ∀ cursor fault, reader cursor = .error (.broken fault) → ∀ token ∈ cursor.ahead, token.kind ≠ .finish

/-- The readers of expressions and statements, over the same rounds and depth. -/
structure Advancing (rounds depth : Nat) : Prop where
  expression : Advances size (expression rounds depth) (Walk.expression rounds depth)
  term : Advances size (term rounds (unary rounds depth) (Grammar.expression rounds depth))
    (Walk.term rounds (Walk.unary rounds depth) (Walk.expression rounds depth))
  factor : Advances size (factor rounds (unary rounds depth) (Grammar.expression rounds depth))
    (Walk.factor rounds (Walk.unary rounds depth) (Walk.expression rounds depth))
  power : Advances size (power rounds (unary rounds depth) (Grammar.expression rounds depth))
    (Walk.power rounds (Walk.unary rounds depth) (Walk.expression rounds depth))
  unary : Advances size (unary rounds depth) (Walk.unary rounds depth)
  call : Advances size (call rounds (Grammar.expression rounds depth)) (Walk.call rounds (Walk.expression rounds depth))
  primary : Advances size (primary (Grammar.expression rounds depth)) (Walk.primary (Walk.expression rounds depth))
  plainStatement : Advances statementSize (plainStatement (Grammar.expression rounds depth))
    (Walk.plainStatement (Walk.expression rounds depth))
  statement : Advances statementSize (statement (Grammar.expression rounds depth))
    (Walk.statement (Walk.expression rounds depth))

theorem advances_of {means : List Token → α → Prop} {measure : α → Nat} {reader : Reader α} {walk : Walk α}
    (follows : Follows reader walk) (stops : ∀ cursor, Stops [] means cursor (walk cursor))
    (delivers : ∀ cursor, Delivers 0 [] means cursor (reader cursor))
    (grows : ∀ {front value}, means front value → front ≠ [] ∧ measure value ≤ front.length) :
    Advances measure reader walk := by
  refine ⟨follows, fun cursor => ?_, fun cursor fault broken => ?_⟩
  · obtain ⟨front, place, unfinished, outcome⟩ := stops cursor
    refine ⟨front, place, unfinished, fun value ended => grows ?_⟩
    rw [ended] at outcome
    exact outcome
  · have delivered := delivers cursor
    rw [broken] at delivered
    exact delivered

theorem open_start (phrase : Phrase) (other : phrase ≠ .group) : Open phrase [] := by
  have expression : Open .expression [] := .plain .finish
  have unary : Open .unary [] := .unary (.power (.factor expression))
  cases phrase with
  | expression => exact expression
  | factor => exact .factor expression
  | power => exact .power (.factor expression)
  | unary => exact unary
  | call => exact .call unary
  | primary => exact .primary (.call unary)
  | group => exact absurd rfl other

theorem advances_phrase {reader : Reader Expr} {walk : Walk Expr} (follows : Follows reader walk)
    (sound : Sound phrase walk) (faithful : Faithful 0 phrase reader) (other : phrase ≠ .group) :
    Advances size reader walk :=
  advances_of follows (fun cursor => sound [] cursor (open_start phrase other)) (faithful [])
    fun spelled => ⟨spelled.nonempty, spells_size spelled⟩

theorem advances_statement {reader : Reader Statement} {walk : Walk Statement} (follows : Follows reader walk)
    (stops : ∀ cursor, Stops [] SpellsStatement cursor (walk cursor))
    (delivers : ∀ cursor, Delivers 0 [] SpellsStatement cursor (reader cursor)) : Advances statementSize reader walk :=
  advances_of follows stops delivers fun spelled => ⟨spelled.nonempty, statement_size spelled⟩

theorem advancing (rounds depth : Nat) : Advancing rounds depth := by
  obtain ⟨follows, signedFollows⟩ := ladder_follows rounds depth
  obtain ⟨sound, signedSound⟩ := ladder_sound rounds depth
  have faithful := (ladder_faithful rounds depth).1 0 (Nat.zero_le _)
  have signedFaithful := (ladder_faithful rounds depth).2 0 (Nat.zero_le _)
  exact
    { expression := advances_phrase follows sound faithful nofun
      term := advances_phrase (term_follows follows signedFollows rounds) (term_sound sound signedSound rounds)
        (term_faithful signedFaithful faithful rounds) nofun
      factor := advances_phrase (factor_follows follows signedFollows rounds) (factor_sound sound signedSound rounds)
        (factor_faithful signedFaithful faithful rounds) nofun
      power := advances_phrase (power_follows follows signedFollows rounds) (power_sound sound signedSound rounds)
        (power_faithful signedFaithful faithful rounds) nofun
      unary := advances_phrase signedFollows signedSound signedFaithful nofun
      call := advances_phrase (call_follows follows rounds) (call_sound sound rounds) (call_faithful faithful rounds)
        nofun
      primary := advances_phrase (primary_follows follows) (primary_sound sound) (primary_faithful faithful) nofun
      plainStatement := advances_statement (plainStatement_follows follows) (plainStatement_stops sound .finish)
        (plainStatement_delivers faithful)
      statement := advances_statement (statement_follows follows) (statement_stops sound .finish)
        (statement_delivers faithful) }

end Readers

section Programs

/-- The tokens in front of the first end. -/
def beforeEnd (tokens : List Token) : List Token := tokens.takeWhile (·.kind ≠ .finish)

theorem prefix_beforeEnd {rest : List Token} (place : tokens = front ++ rest)
    (unfinished : ∀ token ∈ front, token.kind ≠ .finish) : front <+: beforeEnd tokens := by
  rw [place, beforeEnd, List.takeWhile_append_of_pos (by simpa using unfinished)]
  exact List.prefix_append _ _

theorem beforeEnd_split {finish : Token} {rest : List Token} (unfinished : ∀ token ∈ front, token.kind ≠ .finish)
    (ends : finish.kind = .finish) : beforeEnd (front ++ finish :: rest) = front := by
  rw [beforeEnd, List.takeWhile_append_of_pos (by simpa using unfinished), List.takeWhile_cons_of_neg (by simpa using ends),
    List.append_nil]

/-- What reading tokens with an end among them comes to: statements that are no more and no larger than the
tokens in front of the end, or a failure to parse. -/
def Proper (tokens : List Token) : Except Stop (List Statement) → Prop
  | .ok statements => statements.length ≤ (beforeEnd tokens).length ∧
    totalSize (statements.map Statement.expr) ≤ (beforeEnd tokens).length
  | .error (.failed failure) => failure.kind = .parse
  | .error .tooDeep => False
  | .error (.broken _) => False

variable (ended : ∃ token ∈ tokens, token.kind = .finish)
include ended

theorem program_proper {depth : Nat} (deep : 2 * (tokens.length + 1) ≤ depth) : Proper tokens (program depth tokens) := by
  have settles := program_settles depth tokens (tokens.length + 1) deep
  generalize program depth tokens = result at settles
  match result with
  | .ok statements =>
    obtain ⟨body, finish, rest, place, unfinished, ends, spelled⟩ := settles
    have front : beforeEnd tokens = body := by
      rw [← beforeEnd_split unfinished ends, ← place]
      rfl
    rw [Proper, front]
    exact program_size spelled
  | .error (.failed failure) => exact settles.1
  | .error .tooDeep => exact absurd settles (Nat.not_succ_le_self _)
  | .error (.broken fault) =>
    obtain ⟨token, member, ends⟩ := ended
    exact settles token member ends

/-- More rounds than there are tokens are never begun. -/
theorem statementsFrom_rounds {rounds : Nat} (enough : tokens.length ≤ rounds) (depth : Nat) :
    statementsFrom (expression rounds depth) rounds (.ofTokens tokens) = program depth tokens := by
  have room : 0 < rounds := by
    obtain ⟨token, member, -⟩ := ended
    exact Nat.lt_of_lt_of_le (List.length_pos_of_mem member) enough
  have looks : Looks tokens.length rounds (Walk.statementsFrom (Walk.expression tokens.length depth) tokens.length)
      (Walk.statementsFrom (Walk.expression rounds depth) rounds) :=
    statementsFrom_looks (ladder_looks room depth).1 room (ladder_follows tokens.length depth).1
      ((ladder_faithful tokens.length depth).1 0 (Nat.zero_le _)) _ _ (Nat.le_refl _) (Nat.le_refl _)
  obtain ⟨front, place, agrees⟩ := looks (.ofTokens tokens) (Nat.le_refl _)
  -- The tokens left over are taken as they are, so both walks have the same ones ahead.
  have same := agrees _ rfl (place ▸ enough)
  rw [← place] at same
  rw [program_follows, statementsFrom_follows (ladder_follows rounds depth).1]
  exact congrArg Prod.fst same

/-- With depth to spare the result is the one that no depth cuts off. -/
theorem statementsFrom_settled {rounds depth : Nat} (enough : tokens.length ≤ rounds)
    (deep : 2 * (tokens.length + 1) ≤ depth) :
    statementsFrom (expression rounds depth) rounds (.ofTokens tokens) = program (2 * (tokens.length + 1)) tokens := by
  rw [statementsFrom_rounds ended enough]
  have proper := program_proper ended (Nat.le_refl (2 * (tokens.length + 1)))
  rcases program_curtails deep tokens with cut | same
  · rw [cut] at proper
    exact proper.elim
  · exact same.symm

omit ended in
theorem statementsFrom_stays (rounds depth : Nat) (tokens : List Token) :
    ∃ passed, tokens = passed ++ (Walk.statementsFrom (Walk.expression rounds depth) rounds (.ofTokens tokens)).2.ahead ∧
      passed <+: beforeEnd tokens := by
  obtain ⟨passed, place, unfinished, -⟩ :=
    statementsFrom_stops (ladder_sound rounds depth).1 .finish rounds (.ofTokens tokens)
  exact ⟨passed, place, prefix_beforeEnd place unfinished⟩

/-- Reading comes to one result however many rounds and whatever depth there are to spare, and the cursor stays
in front of the end even if there are not enough. -/
structure Progress (tokens : List Token) : Prop where
  settles : ∃ result, Proper tokens result ∧
    ∀ rounds depth, tokens.length ≤ rounds → 2 * (tokens.length + 1) ≤ depth →
      statementsFrom (expression rounds depth) rounds (.ofTokens tokens) = result
  follows : ∀ rounds depth, statementsFrom (expression rounds depth) rounds (.ofTokens tokens) =
    (Walk.statementsFrom (Walk.expression rounds depth) rounds (.ofTokens tokens)).1
  stays : ∀ rounds depth, ∃ passed,
    tokens = passed ++ (Walk.statementsFrom (Walk.expression rounds depth) rounds (.ofTokens tokens)).2.ahead ∧
      passed <+: beforeEnd tokens
  advances : ∀ rounds depth, Advancing rounds depth

/-- Tokens with an end among them are read up to that end or to a failure. -/
theorem reading_progresses : Progress tokens where
  settles := ⟨_, program_proper ended (Nat.le_refl _), fun _ _ => statementsFrom_settled ended⟩
  follows rounds depth := statementsFrom_follows (ladder_follows rounds depth).1 rounds (.ofTokens tokens)
  stays rounds depth := statementsFrom_stays rounds depth tokens
  advances := advancing

/-- Two statements, and after them a token behind the end. -/
def twoStatements : List Token :=
  [⟨.number, "2", none, 1, ⟨0, 1⟩⟩, ⟨.name, "f", none, 1, ⟨2, 3⟩⟩, ⟨.mark .opening, "(", none, 1, ⟨3, 4⟩⟩,
    ⟨.mark .closing, ")", none, 1, ⟨4, 5⟩⟩, .implied .finish 1 5, ⟨.mark .caret, "^", none, 1, ⟨5, 6⟩⟩]

omit ended in
theorem reading_progresses_before_end : (∃ token ∈ twoStatements, token.kind = .finish) ∧
    (∃ statements, program 14 twoStatements = .ok statements ∧ statements.length = 2 ∧
      totalSize (statements.map Statement.expr) = 3) ∧
    Progress twoStatements :=
  have ended : ∃ token ∈ twoStatements, token.kind = .finish := by decide
  ⟨ended, ⟨_, rfl, rfl, rfl⟩, reading_progresses ended⟩

end Programs

end Reckoner.Proofs.GrammarProgress
