import Reckoner.Proofs.GrammarDepth
import Reckoner.Proofs.GrammarRecovery

/-! Printing and parsing undo each other. Which trees the precedence ladder can make at
all is said of the trees alone. Every such tree can be printed, every one of its prints
is parsed back to it, and nothing else is ever parsed. Places in the text are what
printing may change, so trees are compared without them. -/

namespace Reckoner

/-- A token without its place in the text. -/
def Token.bare (token : Token) : Token := { token with line := 0, span := ⟨0, 0⟩ }

namespace Expr

mutual

def bare : Expr → Expr
  | .literal token => .literal token.bare
  | .symbol name => .symbol name.bare
  | .grouping inner => .grouping inner.bare
  | .binary left operator right => .binary left.bare operator.bare right.bare
  | .unary operator operand => .unary operator.bare operand.bare
  | .call callee arguments closing => .call callee.bare (bareAll arguments) closing.bare

def bareAll : List Expr → List Expr
  | [] => []
  | expr :: rest => expr.bare :: bareAll rest

end

theorem bareAll_eq (exprs : List Expr) : bareAll exprs = exprs.map bare := by
  induction exprs with
  | nil => rfl
  | cons expr rest ih => rw [bareAll, ih, List.map_cons]

theorem opener_bare : (expr : Expr) → expr.bare.opener = expr.opener
  | .literal _ | .symbol _ | .grouping _ | .unary .. => rfl
  | .binary left .. => left.opener_bare
  | .call callee .. => callee.opener_bare

theorem bare_literal {expr : Expr} {token : Token} (same : expr.bare = .literal token) :
    ∃ literal, expr = .literal literal := by
  cases expr with
  | literal literal => exact ⟨literal, rfl⟩
  | symbol | grouping | binary | unary | call => cases same

end Expr

namespace Statement

def bare : Statement → Statement
  | .expression expr => .expression expr.bare
  | .print keyword expr => .print keyword.bare expr.bare
  | .assign name value => .assign name.bare value.bare
  | .declare declaration =>
    .declare ⟨declaration.name.bare, declaration.parameters.map Token.bare, declaration.body.bare⟩

theorem opener_bare (statement : Statement) : statement.bare.opener = statement.opener := by
  cases statement with
  | expression expr => exact expr.opener_bare
  | print | assign | declare => rfl

end Statement

namespace Proofs.GrammarPrinting
open Grammar GrammarPhrases GrammarReading GrammarAcceptance GrammarRecovery GrammarDepth

/-- The trees of the precedence ladder, phrase by phrase. The product of a number and a
group stands among the calls, with a star that nobody wrote. -/
inductive Shaped : Phrase → Expr → Prop where
  | sum {left right : Expr} {operator : Token} (first : Shaped .expression left) (sign : isSum operator.kind)
      (second : Shaped .factor right) : Shaped .expression (.binary left operator right)
  | expression {expr : Expr} (rest : Shaped .factor expr) : Shaped .expression expr
  | product {left right : Expr} {operator : Token} (first : Shaped .factor left) (sign : isProduct operator.kind)
      (second : Shaped .power right) : Shaped .factor (.binary left operator right)
  | factor {expr : Expr} (rest : Shaped .power expr) : Shaped .factor expr
  | exponent {left right : Expr} {operator : Token} (first : Shaped .power left)
      (sign : operator.kind = .mark .caret) (second : Shaped .primary right) :
      Shaped .power (.binary left operator right)
  | power {expr : Expr} (rest : Shaped .unary expr) : Shaped .power expr
  | negation {operator : Token} {operand : Expr} (sign : operator.kind = .mark .minus)
      (rest : Shaped .unary operand) : Shaped .unary (.unary operator operand)
  | unary {expr : Expr} (rest : Shaped .call expr) : Shaped .unary expr
  | applied {callee : Expr} {arguments : List Expr} {closing : Token} (head : Shaped .call callee)
      (unnumbered : ∀ token, callee ≠ .literal token) (closes : closing.kind = .mark .closing)
      (rest : ∀ argument ∈ arguments, Shaped .expression argument) :
      Shaped .call (.call callee arguments closing)
  | scaled {number operator : Token} {factor : Expr} (kind : number.kind = .number)
      (sign : operator.bare = (Token.implied (.mark .star) 0 0).bare) (only : Shaped .expression factor) :
      Shaped .call (.binary (.literal number) operator factor)
  | call {expr : Expr} (rest : Shaped .primary expr) : Shaped .call expr
  | literal {token : Token} (kind : token.kind = .number) : Shaped .primary (.literal token)
  | symbol {name : Token} (kind : name.kind = .name) : Shaped .primary (.symbol name)
  | grouping {inner : Expr} (rest : Shaped .expression inner) : Shaped .primary (.grouping inner)

inductive ShapedStatement : Statement → Prop where
  | expression {expr : Expr} (rest : Shaped .expression expr) : ShapedStatement (.expression expr)
  | print {keyword : Token} {expr : Expr} (kind : keyword.kind = .print) (rest : Shaped .expression expr) :
      ShapedStatement (.print keyword expr)
  | assign {name : Token} {value : Expr} (kind : name.kind = .name) (rest : Shaped .expression value) :
      ShapedStatement (.assign name value)
  | declare {declaration : Declaration} (kind : declaration.name.kind = .name)
      (names : ∀ parameter ∈ declaration.parameters, parameter.kind = .name)
      (rest : Shaped .expression declaration.body) : ShapedStatement (.declare declaration)

/-- Tokens print statements if they spell them, apart from places. A product of a number
may be printed with its star or, where the number is all there is to its left, as a group. -/
def Prints (tokens : List Token) (statements : List Statement) : Prop :=
  ∃ same, SpellsProgram tokens same ∧ same.map Statement.bare = statements.map Statement.bare

section Shapes

theorem spells_shaped {phrase : Phrase} {tokens : List Token} {expr : Expr} (spelled : Spells phrase tokens expr) :
    Shaped phrase expr := by
  induction spelled with
  | sum _ sign _ first second => exact .sum first sign second
  | expression _ ih => exact .expression ih
  | product _ sign _ first second => exact .product first sign second
  | factor _ ih => exact .factor ih
  | exponent _ sign _ first second => exact .exponent first sign second
  | power _ ih => exact .power ih
  | negation sign _ ih => exact .negation sign ih
  | unary _ ih => exact .unary ih
  | scaled kind _ _ _ ih => exact .scaled kind rfl ih
  | invoked _ unnumbered _ closes ih => exact .applied ih unnumbered closes (by simp)
  | applied _ unnumbered _ closes _ _ _ head first rest =>
    refine .applied head unnumbered closes ?_
    intro argument member
    rcases List.mem_cons.mp member with rfl | later
    · exact first
    · obtain ⟨other, inside, rfl⟩ := List.mem_map.mp later
      exact rest other inside
  | call _ ih => exact .call ih
  | literal kind => exact .literal kind
  | symbol kind => exact .symbol kind
  | grouping _ _ _ ih => exact .grouping ih

theorem lists_names {listed parameters : List Token} (listing : Lists listed parameters) :
    ∀ parameter ∈ parameters, parameter.kind = .name := by
  cases listing with
  | none => simp
  | some name _ names =>
    intro parameter member
    rcases List.mem_cons.mp member with rfl | later
    · exact name
    · obtain ⟨other, inside, rfl⟩ := List.mem_map.mp later
      exact names other inside

theorem statement_shaped {tokens : List Token} {statement : Statement} (spelled : SpellsStatement tokens statement) :
    ShapedStatement statement := by
  cases spelled with
  | expression rest => exact .expression (spells_shaped rest)
  | print kind rest => exact .print kind (spells_shaped rest)
  | assign kind _ rest => exact .assign kind (spells_shaped rest)
  | declare kind _ listing _ _ rest => exact .declare kind (lists_names listing) (spells_shaped rest)

theorem program_shaped {tokens : List Token} {statements : List Statement} (spelled : SpellsProgram tokens statements) :
    ∀ statement ∈ statements, ShapedStatement statement := by
  induction spelled with
  | finish => simp
  | statement head _ ih => simpa using ⟨statement_shaped head, ih⟩

end Shapes

section Printing

/-- A mark that a tree does not keep; its place is of no matter. -/
def unplaced (mark : Mark) : Token := .implied (.mark mark) 0 0

theorem unplaced_kind (mark : Mark) : (unplaced mark).kind = .mark mark := rfl

/-- Some tokens spell the tree, apart from places. -/
def Printed (phrase : Phrase) (expr : Expr) : Prop :=
  ∃ tokens same, Spells phrase tokens same ∧ same.bare = expr.bare

theorem further_printed {arguments : List Expr} (printed : ∀ argument ∈ arguments, Printed .expression argument) :
    ∃ tokens given, SpellsFurther tokens given ∧ given.map Expr.bare = arguments.map Expr.bare := by
  induction arguments with
  | nil => exact ⟨[], [], ⟨[], rfl, rfl, by simp, by simp⟩, rfl⟩
  | cons argument arguments ih =>
    obtain ⟨front, first, spelled, same⟩ := printed argument (by simp)
    obtain ⟨back, others, further, rest⟩ := ih fun item member => printed item (by simp [member])
    exact ⟨_, first :: others, further.cons (unplaced_kind .comma) spelled, by rw [List.map_cons, same, rest, List.map_cons]⟩

theorem arguments_printed {arguments : List Expr} (printed : ∀ argument ∈ arguments, Printed .expression argument) :
    ∃ inside given, SpellsArguments inside given ∧ given.map Expr.bare = arguments.map Expr.bare := by
  cases arguments with
  | nil => exact ⟨[], [], .inl ⟨rfl, rfl⟩, rfl⟩
  | cons argument arguments =>
    obtain ⟨front, first, spelled, same⟩ := printed argument (by simp)
    have later : ∀ item ∈ arguments, Printed .expression item := fun item member => printed item (by simp [member])
    obtain ⟨back, others, further, rest⟩ := further_printed later
    exact ⟨front ++ back, first :: others, .inr ⟨front, first, back, others, rfl, rfl, spelled, further⟩,
      by rw [List.map_cons, same, rest, List.map_cons]⟩

theorem Printed.lift {below phrase : Phrase} {expr : Expr} (printed : Printed below expr)
    (rises : ∀ {tokens same}, Spells below tokens same → Spells phrase tokens same) : Printed phrase expr := by
  obtain ⟨tokens, same, spelled, equal⟩ := printed
  exact ⟨tokens, same, rises spelled, equal⟩

theorem Printed.binary {front back phrase : Phrase} {left right : Expr} {operator : Token}
    (first : Printed front left) (second : Printed back right)
    (joins : ∀ {leftTokens rightTokens sameLeft sameRight}, Spells front leftTokens sameLeft →
      Spells back rightTokens sameRight →
      Spells phrase (leftTokens ++ operator :: rightTokens) (.binary sameLeft operator sameRight)) :
    Printed phrase (.binary left operator right) := by
  obtain ⟨leftTokens, sameLeft, spelledLeft, equalLeft⟩ := first
  obtain ⟨rightTokens, sameRight, spelledRight, equalRight⟩ := second
  exact ⟨_, _, joins spelledLeft spelledRight, by rw [Expr.bare, Expr.bare, equalLeft, equalRight]⟩

theorem shaped_printed {phrase : Phrase} {expr : Expr} (shaped : Shaped phrase expr) : Printed phrase expr := by
  induction shaped with
  | sum _ sign _ first second => exact first.binary second fun left right => .sum left sign right
  | product _ sign _ first second => exact first.binary second fun left right => .product left sign right
  | exponent _ sign _ first second => exact first.binary second fun left right => .exponent left sign right
  | expression _ ih => exact ih.lift .expression
  | factor _ ih => exact ih.lift .factor
  | power _ ih => exact ih.lift .power
  | unary _ ih => exact ih.lift .unary
  | call _ ih => exact ih.lift .call
  | negation sign _ ih =>
    obtain ⟨tokens, same, spelled, equal⟩ := ih
    exact ⟨_, _, .negation sign spelled, by rw [Expr.bare, Expr.bare, equal]⟩
  | @applied callee arguments closing _ unnumbered closes _ head rest =>
    obtain ⟨front, same, spelled, equal⟩ := head
    obtain ⟨inside, given, filled, sameGiven⟩ := arguments_printed rest
    have apart : ∀ token, same ≠ .literal token := by
      intro token literal
      rw [literal, Expr.bare] at equal
      obtain ⟨number, numbered⟩ := Expr.bare_literal equal.symm
      exact unnumbered number numbered
    refine ⟨_, _, filled.applied spelled apart (unplaced_kind .opening) closes, ?_⟩
    rw [Expr.bare, Expr.bare, equal, Expr.bareAll_eq, Expr.bareAll_eq, sameGiven]
  | scaled kind sign _ ih =>
    obtain ⟨inside, same, spelled, equal⟩ := ih
    refine ⟨_, _, .scaled kind (unplaced_kind .opening) (unplaced_kind .closing) spelled, ?_⟩
    simp only [Expr.bare, equal, sign]
    rfl
  | literal kind => exact ⟨_, _, .literal kind, rfl⟩
  | symbol kind => exact ⟨_, _, .symbol kind, rfl⟩
  | grouping _ ih =>
    obtain ⟨tokens, same, spelled, equal⟩ := ih
    exact ⟨_, _, .grouping (unplaced_kind .opening) (unplaced_kind .closing) spelled,
      by rw [Expr.bare, Expr.bare, equal]⟩

theorem names_listed {parameters : List Token} (names : ∀ parameter ∈ parameters, parameter.kind = .name) :
    ∃ listed, Lists listed parameters := by
  cases parameters with
  | nil => exact ⟨[], .none⟩
  | cons first others =>
    let pairs := others.map fun other => (unplaced .comma, other)
    have commas : ∀ pair ∈ pairs, pair.1.kind = .mark .comma := by simp [pairs, unplaced_kind]
    have named : ∀ pair ∈ pairs, pair.2.kind = .name := by
      simpa [pairs] using fun other member => names other (by simp [member])
    exact ⟨_, by simpa [pairs, Function.comp_def] using Lists.some (names first (by simp)) commas named⟩

theorem statement_printed {statement : Statement} (shaped : ShapedStatement statement) :
    ∃ tokens same, SpellsStatement tokens same ∧ same.bare = statement.bare := by
  cases shaped with
  | expression rest =>
    obtain ⟨tokens, same, spelled, equal⟩ := shaped_printed rest
    exact ⟨_, _, .expression spelled, by rw [Statement.bare, Statement.bare, equal]⟩
  | print kind rest =>
    obtain ⟨tokens, same, spelled, equal⟩ := shaped_printed rest
    exact ⟨_, _, .print kind spelled, by rw [Statement.bare, Statement.bare, equal]⟩
  | assign kind rest =>
    obtain ⟨tokens, same, spelled, equal⟩ := shaped_printed rest
    exact ⟨_, _, .assign kind (unplaced_kind .equals) spelled, by rw [Statement.bare, Statement.bare, equal]⟩
  | declare kind names rest =>
    obtain ⟨tokens, same, spelled, equal⟩ := shaped_printed rest
    obtain ⟨listed, listing⟩ := names_listed names
    refine ⟨_, _, .declare kind (unplaced_kind .opening) listing (unplaced_kind .closing) (unplaced_kind .equals) spelled,
      ?_⟩
    rw [Statement.bare, Statement.bare, equal]

theorem program_printed {statements : List Statement} (shaped : ∀ statement ∈ statements, ShapedStatement statement) :
    ∃ tokens, Prints tokens statements := by
  induction statements with
  | nil => exact ⟨[], [], .finish, rfl⟩
  | cons statement statements ih =>
    obtain ⟨front, first, head, equal⟩ := statement_printed (shaped statement (by simp))
    obtain ⟨back, others, tail, rest⟩ := ih fun item member => shaped item (by simp [member])
    exact ⟨front ++ back, first :: others, .statement head tail, by rw [List.map_cons, equal, rest, List.map_cons]⟩

end Printing

theorem apart_bare {same statements : List Statement} (equal : same.map Statement.bare = statements.map Statement.bare)
    (apart : ∀ statement ∈ statements.tail, Apart statement.opener) :
    ∀ statement ∈ same.tail, Apart statement.opener := by
  have tails : same.tail.map Statement.bare = statements.tail.map Statement.bare := by
    rw [List.map_tail, equal, List.map_tail]
  intro statement member
  have bared : statement.bare ∈ statements.tail.map Statement.bare := tails ▸ List.mem_map_of_mem member
  obtain ⟨other, inside, bare⟩ := List.mem_map.mp bared
  rw [← statement.opener_bare, ← bare, other.opener_bare]
  exact apart other inside

/-- Running out of depth is the only thing that keeps a print from being parsed back, and
two steps of depth for every token are enough. -/
theorem print_restored_or_deep {depth : Nat} {body rest : List Token} {finish : Token} {statements : List Statement}
    (prints : Prints body statements) (apart : ∀ statement ∈ statements.tail, Apart statement.opener)
    (finished : finish.kind = .finish) :
    (∃ read, program depth (body ++ finish :: rest) = .ok read ∧
      read.map Statement.bare = statements.map Statement.bare) ∨
    program depth (body ++ finish :: rest) = .error .tooDeep ∧ depth < 2 * body.length := by
  obtain ⟨same, spelled, equal⟩ := prints
  by_cases deep : 2 * body.length ≤ depth
  · exact .inl ⟨same, program_restored spelled (apart_bare equal apart) finished deep, equal⟩
  · have restored : program (2 * body.length) (body ++ finish :: rest) = .ok same :=
      program_restored spelled (apart_bare equal apart) finished (Nat.le_refl _)
    rcases program_curtails (Nat.le_of_not_le deep) (body ++ finish :: rest) with cut | read
    · exact .inr ⟨cut, Nat.lt_of_not_le deep⟩
    · exact .inl ⟨same, read.trans restored, equal⟩

theorem parsed_prints {depth : Nat} {tokens : List Token} {read : List Statement}
    (parsed : program depth tokens = .ok read) :
    ∃ body finish rest, tokens = body ++ finish :: rest ∧ finish.kind = .finish ∧ SpellsProgram body read := by
  have settles := program_settles depth tokens 0 (Nat.zero_le _)
  rw [parsed] at settles
  obtain ⟨body, finish, rest, same, _, finished, spelled⟩ := settles
  exact ⟨body, finish, rest, same, finished, spelled⟩

/-- Statements of ladder-shaped trees can be printed, and every print of them, with an end
behind it, is parsed back to the same statements, or is too deep for the depth allowed. In
turn, whatever is parsed has that shape, and its tokens are a print of it. -/
theorem parsing_undoes_printing :
    (∀ statements : List Statement, (∀ statement ∈ statements, ShapedStatement statement) →
      (∀ statement ∈ statements.tail, Apart statement.opener) →
      (∃ body, Prints body statements) ∧
      ∀ body finish rest depth, Prints body statements → finish.kind = .finish →
        (∃ read, program depth (body ++ finish :: rest) = .ok read ∧
          read.map Statement.bare = statements.map Statement.bare) ∨
        program depth (body ++ finish :: rest) = .error .tooDeep ∧ depth < 2 * body.length) ∧
    ∀ depth tokens read, program depth tokens = .ok read →
      (∀ statement ∈ read, ShapedStatement statement) ∧
      ∃ body finish rest, tokens = body ++ finish :: rest ∧ finish.kind = .finish ∧ Prints body read := by
  refine ⟨fun statements shaped apart => ⟨program_printed shaped, ?_⟩, ?_⟩
  · intro body finish rest depth prints finished
    exact print_restored_or_deep prints apart finished
  · intro depth tokens read parsed
    obtain ⟨body, finish, rest, same, finished, spelled⟩ := parsed_prints parsed
    exact ⟨program_shaped spelled, body, finish, rest, same, finished, read, spelled, rfl⟩

section Example

def word (text : String) : Token := ⟨.name, text, none, 1, ⟨0, 0⟩⟩

def digit (text : String) (value : Float) : Token := ⟨.number, text, some value, 1, ⟨0, 0⟩⟩

/-- A negated product raised to a power, and a function that multiplies its parameter
with what its parameter returns: `-2(x)^y` and `f(a) = a*a(3)`. -/
def scaledPower : List Statement :=
  [.expression (.binary (.unary (unplaced .minus) (.binary (.literal (digit "2" 2)) (unplaced .star) (.symbol (word "x"))))
      (unplaced .caret) (.symbol (word "y"))),
    .declare ⟨word "f", [word "a"], .binary (.symbol (word "a")) (unplaced .star)
      (.call (.symbol (word "a")) [.literal (digit "3" 3)] (unplaced .closing))⟩]

theorem scaledPower_shaped : ∀ statement ∈ scaledPower, ShapedStatement statement := by
  have symbol (text : String) : Shaped .call (.symbol (word text)) := .call (.symbol rfl)
  have whole {expr : Expr} (called : Shaped .call expr) : Shaped .expression expr :=
    .expression (.factor (.power (.unary called)))
  have scaled : Shaped .call (.binary (.literal (digit "2" 2)) (unplaced .star) (.symbol (word "x"))) :=
    .scaled rfl rfl (whole (symbol "x"))
  have called : Shaped .call (.call (.symbol (word "a")) [.literal (digit "3" 3)] (unplaced .closing)) :=
    .applied (symbol "a") (by simp) rfl (by simpa using whole (.call (.literal rfl)))
  intro statement member
  simp only [scaledPower, List.mem_cons, List.not_mem_nil, or_false] at member
  rcases member with rfl | rfl
  · exact .expression (.expression (.factor (.exponent (.power (.negation rfl (.unary scaled))) rfl (.symbol rfl))))
  · exact .declare rfl (by simp [word])
      (.expression (.product (.factor (.power (.unary (symbol "a")))) rfl (.power (.unary called))))

theorem parsing_undoes_printing_scaled_power :
    (∀ statement ∈ scaledPower, ShapedStatement statement) ∧
    (∀ statement ∈ scaledPower.tail, Apart statement.opener) ∧
    ∃ body read, Prints body scaledPower ∧
      program (2 * body.length) (body ++ [Token.implied .finish 1 0]) = .ok read ∧
      read.map Statement.bare = scaledPower.map Statement.bare := by
  have apart : ∀ statement ∈ scaledPower.tail, Apart statement.opener := by
    simpa [scaledPower] using .inl rfl
  obtain ⟨⟨body, prints⟩, restored⟩ := parsing_undoes_printing.1 scaledPower scaledPower_shaped apart
  refine ⟨scaledPower_shaped, apart, body, ?_⟩
  rcases restored body (.implied .finish 1 0) [] (2 * body.length) prints rfl with ⟨read, parsed, equal⟩ | ⟨_, short⟩
  · exact ⟨read, prints, parsed, equal⟩
  · exact absurd short (Nat.lt_irrefl _)

end Example

end Proofs.GrammarPrinting

end Reckoner
