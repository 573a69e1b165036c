import Reckoner.Grammar
import Reckoner.Proofs.RunLikeness

/-! Like token sequences are read into like trees, or refused alike. The grammar looks at
the kinds of tokens, copies tokens into trees, and takes spans from them for the sites of
its complaints; that is all it does with them. -/

namespace Reckoner

open Grammar

namespace Likeness

variable (likeness : Likeness) (origin : Origin) {α β : Type}

/-- Cursors in front of sequences whose tokens stand for each other one by one. -/
structure Cursors (cursor other : Cursor) : Prop where
  previous : cursor.previous = other.previous
  ahead : List.Forall₂ (likeness.edge origin) cursor.ahead other.ahead

/-- What was read is alike, and so is what is left to read. -/
structure Passed (related : α → β → Prop) (passed : α × Cursor) (other : β × Cursor) : Prop where
  read : related passed.1 other.1
  left : likeness.Cursors origin passed.2 other.2

def Readers (related : α → β → Prop) (reader : Reader α) (other : Reader β) : Prop :=
  ∀ cursor opposite, likeness.Cursors origin cursor opposite →
    likeness.Results origin (likeness.Passed origin related) (reader cursor) (other opposite)

end Likeness

namespace Proofs.GrammarLikeness
open Likeness

variable {likeness : Likeness} {origin : Origin}

section Tokens

variable {α β γ δ : Type} {related : α → β → Prop} {target : γ → δ → Prop}

theorem results_bind {result : Except Stop α} {other : Except Stop β} {next : α → Except Stop γ}
    {rest : β → Except Stop δ} (first : likeness.Results origin related result other)
    (second : ∀ value opposite, related value opposite → likeness.Results origin target (next value) (rest opposite)) :
    likeness.Results origin target (result >>= next) (other >>= rest) := by
  cases first with
  | ok like => exact second _ _ like
  | error stops => exact .error stops

variable {cursor opposite : Cursor} (cursors : likeness.Cursors origin cursor opposite)
include cursors

theorem accept_like (wanted : Kind → Bool) :
    Option.Rel (likeness.Passed origin (likeness.edge origin)) (cursor.accept? wanted) (opposite.accept? wanted) := by
  obtain ⟨previous, ahead⟩ := cursor
  obtain ⟨before, behind⟩ := opposite
  obtain ⟨-, tokens⟩ := cursors
  cases tokens with
  | nil => exact .none
  | cons edge rest =>
    dsimp only [Cursor.accept?]
    rw [(likeness.same (likeness.token_of_edge edge)).kind]
    split
    · exact .some ⟨edge, rfl, rest⟩
    · exact .none

/-- Complaints name a token by its lexeme and point at it; a hint goes by kinds. -/
theorem refuse_like (wanted : Failure.Expectation) :
    likeness.Stops origin (cursor.refuse wanted) (opposite.refuse wanted) := by
  obtain ⟨previous, ahead⟩ := cursor
  obtain ⟨before, behind⟩ := opposite
  obtain ⟨rfl, tokens⟩ : previous = before ∧ List.Forall₂ (likeness.edge origin) ahead behind :=
    ⟨cursors.previous, cursors.ahead⟩
  cases tokens with
  | nil => exact .broken _
  | cons edge rest =>
    have same := likeness.same (likeness.token_of_edge edge)
    dsimp only [Cursor.refuse]
    rw [same.kind, same.lexeme]
    exact .failed ⟨rfl, rfl, fun _ => .some ⟨_, _, _, _, edge, edge, rfl, rfl⟩⟩

theorem expect_like (kind : Kind) (wanted : Failure.Expectation) :
    likeness.Results origin (likeness.Passed origin (likeness.edge origin)) (cursor.expect kind wanted)
      (opposite.expect kind wanted) := by
  have accepted := accept_like cursors (· == kind)
  unfold Cursor.expect
  generalize cursor.accept? _ = here, opposite.accept? _ = there at accepted
  cases accepted with
  | none => exact .error (refuse_like cursors wanted)
  | some passed => exact .ok passed

end Tokens

section Readers

variable {reader other : Reader Expr} (readers : likeness.Readers origin (likeness.Exprs origin) reader other)
include readers

theorem chainFrom_like (wanted : Kind → Bool) (rounds : Nat) {left first : Expr} (lefts : likeness.Exprs origin left first) :
    likeness.Readers origin (likeness.Exprs origin) (chainFrom wanted reader rounds left)
      (chainFrom wanted other rounds first) := by
  induction rounds generalizing left first with
  | zero => exact fun _ _ cursors => .ok ⟨lefts, cursors⟩
  | succ rounds ih =>
    intro cursor opposite cursors
    have accepted := accept_like cursors wanted
    rw [chainFrom, chainFrom]
    generalize cursor.accept? wanted = here, opposite.accept? wanted = there at accepted
    cases accepted with
    | none => exact .ok ⟨lefts, cursors⟩
    | some operators =>
      refine results_bind (readers _ _ operators.left) fun right second rights => ?_
      exact ih (.binary lefts (likeness.token_of_edge operators.read) rights.read) _ _ rights.left

theorem chain_like (wanted : Kind → Bool) (rounds : Nat) {start head : Reader Expr}
    (starts : likeness.Readers origin (likeness.Exprs origin) start head) :
    likeness.Readers origin (likeness.Exprs origin) (chain rounds wanted start reader) (chain rounds wanted head other) :=
  fun cursor opposite cursors => results_bind (starts cursor opposite cursors) fun _ _ lefts =>
    chainFrom_like readers wanted rounds lefts.read _ _ lefts.left

theorem argumentsFrom_like (rounds : Nat) :
    likeness.Readers origin (List.Forall₂ (likeness.Exprs origin)) (argumentsFrom reader rounds)
      (argumentsFrom other rounds) := by
  induction rounds with
  | zero => exact fun _ _ cursors => .ok ⟨.nil, cursors⟩
  | succ rounds ih =>
    intro cursor opposite cursors
    have accepted := accept_like cursors (· == .mark .comma)
    rw [argumentsFrom, argumentsFrom]
    generalize cursor.accept? _ = here, opposite.accept? _ = there at accepted
    cases accepted with
    | none => exact .ok ⟨.nil, cursors⟩
    | some commas =>
      refine results_bind (readers _ _ commas.left) fun argument first heads => ?_
      exact results_bind (ih _ _ heads.left) fun others rest tails => .ok ⟨.cons heads.read tails.read, tails.left⟩

theorem arguments_like (rounds : Nat) :
    likeness.Readers origin (List.Forall₂ (likeness.Exprs origin)) (arguments rounds reader) (arguments rounds other) := by
  intro cursor opposite cursors
  have accepted := accept_like cursors (· == .mark .closing)
  rw [arguments, arguments]
  generalize cursor.accept? _ = here, opposite.accept? _ = there at accepted
  cases accepted with
  | some closings => exact .ok ⟨.nil, cursors⟩
  | none =>
    refine results_bind (readers _ _ cursors) fun argument first heads => ?_
    exact results_bind (argumentsFrom_like readers rounds _ _ heads.left) fun others rest tails =>
      .ok ⟨.cons heads.read tails.read, tails.left⟩

theorem plainStatement_like :
    likeness.Readers origin (likeness.Statements origin) (plainStatement reader) (plainStatement other) := by
  intro cursor opposite cursors
  have accepted := accept_like cursors (· == .print)
  rw [plainStatement, plainStatement]
  generalize cursor.accept? _ = here, opposite.accept? _ = there at accepted
  cases accepted with
  | some keywords =>
    refine results_bind (readers _ _ keywords.left) fun expr first exprs => ?_
    exact .ok ⟨.print (likeness.token_of_edge keywords.read) exprs.read, exprs.left⟩
  | none => exact results_bind (readers _ _ cursors) fun expr first exprs => .ok ⟨.expression exprs.read, exprs.left⟩

variable (kept : ¬likeness.unwrapped)
include kept

theorem primary_like : likeness.Readers origin (likeness.Exprs origin) (primary reader) (primary other) := by
  intro cursor opposite cursors
  have numbers := accept_like cursors (· == .number)
  have names := accept_like cursors (· == .name)
  have openings := accept_like cursors (· == .mark .opening)
  rw [primary, primary]
  generalize cursor.accept? (· == .number) = here, opposite.accept? (· == .number) = there at numbers
  cases numbers with
  | some number => exact .ok ⟨.literal number.read, number.left⟩
  | none =>
    generalize cursor.accept? (· == .name) = here, opposite.accept? (· == .name) = there at names
    cases names with
    | some name => exact .ok ⟨.symbol name.read, name.left⟩
    | none =>
      generalize cursor.accept? (· == .mark .opening) = here, opposite.accept? (· == .mark .opening) = there at openings
      cases openings with
      | none => exact .error (refuse_like cursors _)
      | some opening =>
        refine results_bind (readers _ _ opening.left) fun inner inside exprs => ?_
        exact results_bind (expect_like exprs.left _ _) fun _ _ closing => .ok ⟨.grouping kept exprs.read, closing.left⟩

end Readers

section Groups

-- The grammar makes a star of its own where a group follows a number. It stands where the group
-- opens, but no phrase begins or ends at it.
theorem implied_same (kind : Kind) (line other : Nat) (offset place : Int) :
    (Token.implied kind line offset).Same (Token.implied kind other place) :=
  ⟨rfl, rfl, rfl⟩

variable (kept : ¬likeness.unwrapped) (tokens : ∀ {token other : Token}, token.Same other → likeness.token token other)
include kept tokens

theorem applied_like {callee head : Expr} {opening start closing final : Token} {arguments others : List Expr}
    (heads : likeness.Exprs origin callee head) (begins : likeness.edge origin opening start)
    (each : List.Forall₂ (likeness.Exprs origin) arguments others) (ends : likeness.edge origin closing final) :
    likeness.Results origin (likeness.Exprs origin) (applied callee opening arguments closing)
      (applied head start others final) := by
  have calls : likeness.Exprs origin (.call callee arguments closing) (.call head others final) :=
    .call heads each.length_eq (fun pair member => List.forall₂_zip each member) ends
  have refused (hint : Option String) : likeness.Stops origin
      (.failed ⟨.groupCount arguments.length, some opening.span, hint⟩)
      (.failed ⟨.groupCount others.length, some start.span, hint⟩) :=
    .failed ⟨congrArg Failure.Cause.groupCount each.length_eq, rfl, fun _ => .some ⟨_, _, _, _, begins, begins, rfl, rfl⟩⟩
  cases heads with
  | unwrapped lost => exact absurd lost kept
  | symbol | grouping | binary | unary | call => exact .ok calls
  | literal edge =>
    cases each with
    | nil => exact .error (refused _)
    | cons factor rest =>
      cases rest with
      | nil => exact .ok (.binary (.literal edge) (tokens (implied_same ..)) factor)
      | cons => exact .error (refused _)

theorem groupsFrom_like {inside content : Reader (List Expr)}
    (contents : likeness.Readers origin (List.Forall₂ (likeness.Exprs origin)) inside content) (rounds : Nat)
    {callee head : Expr} (heads : likeness.Exprs origin callee head) :
    likeness.Readers origin (likeness.Exprs origin) (groupsFrom inside rounds callee) (groupsFrom content rounds head) := by
  induction rounds generalizing callee head with
  | zero => exact fun _ _ cursors => .ok ⟨heads, cursors⟩
  | succ rounds ih =>
    intro cursor opposite cursors
    have accepted := accept_like cursors (· == .mark .opening)
    rw [groupsFrom, groupsFrom]
    generalize cursor.accept? _ = here, opposite.accept? _ = there at accepted
    cases accepted with
    | none => exact .ok ⟨heads, cursors⟩
    | some openings =>
      refine results_bind (contents _ _ openings.left) fun given others arguments => ?_
      refine results_bind (expect_like arguments.left _ _) fun closing final closings => ?_
      refine results_bind (applied_like kept tokens heads openings.read arguments.read closings.read) ?_
      exact fun expr applied exprs => ih exprs _ _ closings.left

end Groups

section Ladder

variable (kept : ¬likeness.unwrapped) (tokens : ∀ {token other : Token}, token.Same other → likeness.token token other)
include kept

theorem term_like {reader other signed negated : Reader Expr}
    (readers : likeness.Readers origin (likeness.Exprs origin) reader other)
    (unaries : likeness.Readers origin (likeness.Exprs origin) signed negated) (rounds : Nat) :
    likeness.Readers origin (likeness.Exprs origin) (term rounds signed reader) (term rounds negated other) := by
  have powers : likeness.Readers origin (likeness.Exprs origin) (power rounds signed reader) (power rounds negated other) :=
    chain_like (primary_like readers kept) _ rounds unaries
  have factors : likeness.Readers origin (likeness.Exprs origin) (factor rounds signed reader) (factor rounds negated other) :=
    chain_like powers _ rounds powers
  exact chain_like factors _ rounds factors

include tokens

theorem call_like {reader other : Reader Expr} (readers : likeness.Readers origin (likeness.Exprs origin) reader other)
    (rounds : Nat) : likeness.Readers origin (likeness.Exprs origin) (call rounds reader) (call rounds other) :=
  fun cursor opposite cursors => results_bind (primary_like readers kept cursor opposite cursors) fun _ _ heads =>
    groupsFrom_like kept tokens (arguments_like readers rounds) rounds heads.read _ _ heads.left

/-- The two readers of the knot, together. -/
theorem ladder_like (rounds depth : Nat) :
    likeness.Readers origin (likeness.Exprs origin) (expression rounds depth) (expression rounds depth) ∧
      likeness.Readers origin (likeness.Exprs origin) (unary rounds depth) (unary rounds depth) := by
  induction depth with
  | zero =>
    refine ⟨fun _ _ _ => ?_, fun _ _ _ => ?_⟩
    · rw [expression, expression]
      exact .error .tooDeep
    · rw [unary, unary]
      exact .error .tooDeep
  | succ depth ih =>
    obtain ⟨expressions, unaries⟩ := ih
    refine ⟨fun cursor opposite cursors => ?_, fun cursor opposite cursors => ?_⟩
    · rw [expression, expression]
      exact term_like kept expressions unaries rounds _ _ cursors
    · have accepted := accept_like cursors (· == .mark .minus)
      rw [unary, unary]
      generalize cursor.accept? _ = here, opposite.accept? _ = there at accepted
      cases accepted with
      | none => exact call_like kept tokens expressions rounds _ _ cursors
      | some signs =>
        refine results_bind (unaries _ _ signs.left) fun operand inside operands => ?_
        exact .ok ⟨.unary signs.read operands.read, operands.left⟩

end Ladder

section Statements

variable (kept : ¬likeness.unwrapped)
include kept

theorem parameters_like {arguments others : List Expr} (each : List.Forall₂ (likeness.Exprs origin) arguments others) :
    Option.Rel (List.Forall₂ likeness.token) (parameters? arguments) (parameters? others) := by
  induction each with
  | nil => exact .some .nil
  | @cons _ _ rest more head tail ih =>
    cases head with
    | unwrapped lost => exact absurd lost kept
    | literal | grouping | binary | unary | call => exact .none
    | symbol edge =>
      rw [parameters?, parameters?]
      generalize parameters? rest = here, parameters? more = there at ih
      cases ih with
      | none => exact .none
      | some names => exact .some (.cons (likeness.token_of_edge edge) names)

/-- Alike, they both declare something or neither does. -/
theorem declared_like {head start : Statement} {body inside : Expr} (heads : likeness.Statements origin head start)
    (bodies : likeness.Exprs origin body inside) :
    Option.Rel (likeness.Statements origin) (declared? head body) (declared? start inside) := by
  cases heads with
  | print | assign | declare => exact .none
  | expression exprs =>
    cases exprs with
    | unwrapped lost => exact absurd lost kept
    | literal | grouping | binary | unary => exact .none
    | symbol edge => exact .some (.assign (likeness.token_of_edge edge) bodies)
    | @call _ _ arguments others _ _ callees count each =>
      cases callees with
      | unwrapped lost => exact absurd lost kept
      | literal | grouping | binary | unary | call => exact .none
      | symbol edge =>
        have parameters := parameters_like kept (List.forall₂_iff_zip.mpr ⟨count, fun member => each _ member⟩)
        rw [declared?, declared?]
        generalize parameters? arguments = here, parameters? others = there at parameters
        cases parameters with
        | none => exact .none
        | some names => exact .some (.declare ⟨likeness.token_of_edge edge, names, bodies⟩)

variable {reader other : Reader Expr} (readers : likeness.Readers origin (likeness.Exprs origin) reader other)
include readers

theorem statement_like : likeness.Readers origin (likeness.Statements origin) (statement reader) (statement other) := by
  intro cursor opposite cursors
  refine results_bind (plainStatement_like readers _ _ cursors) fun head start heads => ?_
  have accepted := accept_like heads.left (· == .mark .equals)
  dsimp only
  generalize head.2.accept? _ = here, start.2.accept? _ = there at accepted
  cases accepted with
  | none => exact .ok heads
  | some equals =>
    refine results_bind (readers _ _ equals.left) fun body inside bodies => ?_
    have declared := declared_like kept heads.read bodies.read
    generalize declared? head.1 body.1 = found, declared? start.1 inside.1 = again at declared
    cases declared with
    | some declarations => exact .ok ⟨declarations, bodies.left⟩
    | none => exact .error (.failed ⟨rfl, rfl, fun _ => .some ⟨_, _, _, _, equals.read, equals.read, rfl, rfl⟩⟩)

theorem statementsFrom_like (rounds : Nat) {cursor opposite : Cursor} (cursors : likeness.Cursors origin cursor opposite) :
    likeness.Results origin (List.Forall₂ (likeness.Statements origin)) (statementsFrom reader rounds cursor)
      (statementsFrom other rounds opposite) := by
  induction rounds generalizing cursor opposite with
  | zero => exact .error (.broken _)
  | succ rounds ih =>
    obtain ⟨previous, ahead⟩ := cursor
    obtain ⟨before, behind⟩ := opposite
    rw [statementsFrom, statementsFrom]
    cases cursors.ahead with
    | nil => exact .error (.broken _)
    | cons edge rest =>
      dsimp only
      rw [(likeness.same (likeness.token_of_edge edge)).kind]
      split
      · exact .ok .nil
      · refine results_bind (statement_like kept readers _ _ cursors) fun first start heads => ?_
        exact results_bind (ih heads.left) fun others more tails => .ok (.cons heads.read tails)

end Statements

/-- Sequences whose tokens stand for each other hold like programs, or are refused at tokens that
stand for each other. -/
theorem program_like (kept : ¬likeness.unwrapped)
    (words : ∀ {token other : Token}, token.Same other → likeness.token token other) (depth : Nat)
    {tokens others : List Token} (like : List.Forall₂ (likeness.edge origin) tokens others) :
    likeness.Results origin (List.Forall₂ (likeness.Statements origin)) (program depth tokens) (program depth others) := by
  unfold program
  rw [← like.length_eq]
  exact statementsFrom_like kept (ladder_like kept words tokens.length depth).1 tokens.length ⟨rfl, like⟩

end Proofs.GrammarLikeness

end Reckoner
