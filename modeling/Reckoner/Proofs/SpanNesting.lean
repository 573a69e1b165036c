import Reckoner.Proofs.FailurePlaces

/-! Where the parts of a program stand. Statements follow one another, and within every
statement and every expression the parts follow one another too, none reaching out of the
whole. Parentheses count for a call only, and a product that nobody wrote takes no space. -/

namespace Reckoner

/-- Where the parts of an expression stand, in the order in which they are written. -/
def Expr.parts : Expr → List Span
  | .literal _ | .symbol _ => []
  | .grouping inner => [inner.span]
  | .binary left operator right => [left.span, operator.span, right.span]
  | .unary operator operand => [operator.span, operand.span]
  | .call callee arguments closing => callee.span :: (arguments.map Expr.span ++ [closing.span])

def Statement.parts : Statement → List Span
  | .expression expr => [expr.span]
  | .print keyword expr => [keyword.span, expr.span]
  | .assign name value => [name.span, value.span]
  | .declare declaration =>
    declaration.name.span :: (declaration.parameters.map Token.span ++ [declaration.body.span])

namespace Proofs.SpanNesting
open Token TokenSpans TokenLexemes FailurePlaces GrammarPhrases GrammarReading

/-- A stretch of the text with its parts inside, one behind the other. -/
structure Nested (length : Nat) (whole : Span) (parts : List Span) : Prop where
  first : 0 ≤ whole.start
  filled : whole.start < whole.stop
  last : whole.stop ≤ length
  inside : ∀ part ∈ parts, whole.start ≤ part.start ∧ part.stop ≤ whole.stop
  ordered : parts.Pairwise fun early late => early.stop ≤ late.start

/-- The arguments of a call end before its last parenthesis does. -/
def Closed : Expr → Prop
  | .call _ arguments closing => ∀ argument ∈ arguments, argument.stop < closing.span.stop
  | _ => True

/-- An operator is one of the tokens, or the product of a number and a group, which has no
extent and stands where the group opens. -/
def Operated (tokens : List Token) : Expr → Prop
  | .binary left operator right => operator ∈ tokens ∨
    ∃ number opening, left = .literal number ∧ opening ∈ tokens ∧ opening.kind = .mark .opening ∧
      operator.kind = .mark .star ∧ operator.span = ⟨opening.span.start, opening.span.start⟩ ∧
      opening.span.stop ≤ right.start
  | _ => True

/-- Spans one behind the other, between two offsets. -/
structure Row (low high : Int) (spans : List Span) : Prop where
  inside : ∀ span ∈ spans, Inside low high span
  ordered : spans.Pairwise fun early late => early.stop ≤ late.start

section Rows

variable {low near far high : Int} {front back : List Span}

theorem Row.nil : Row low high [] := ⟨nofun, .nil⟩

theorem Row.single {span : Span} (inside : Inside low high span) : Row low high [span] :=
  ⟨by simpa using inside, List.pairwise_singleton ..⟩

/-- Two rows, the second behind the first, with room between them. -/
theorem Row.append (first : Row low near front) (second : Row far high back) (rises : low ≤ near)
    (apart : near ≤ far) (falls : far ≤ high) : Row low high (front ++ back) := by
  refine ⟨fun span member => ?_, List.pairwise_append.mpr ⟨first.ordered, second.ordered, ?_⟩⟩
  · rcases List.mem_append.mp member with early | late
    · exact (first.inside span early).mono (Int.le_refl _) (by omega)
    · exact (second.inside span late).mono (by omega) (Int.le_refl _)
  · intro early one late other
    exact Int.le_trans (first.inside early one).2.2 (Int.le_trans apart (second.inside late other).1)

theorem Row.cons {span : Span} (first : Inside low near span) (second : Row far high back) (apart : near ≤ far)
    (falls : far ≤ high) : Row low high (span :: back) := by
  obtain ⟨begins, across, ends⟩ := first
  exact (Row.single ⟨begins, across, ends⟩).append second (by omega) apart falls

theorem tokens_row {tokens : List Token} (within : Within low high tokens) : Row low high (tokens.map Token.span) := by
  induction tokens generalizing low with
  | nil => exact .nil
  | cons token rest ih =>
    obtain ⟨before, across, behind⟩ := within
    exact .cons ⟨before, across, Int.le_refl _⟩ (ih behind) (Int.le_refl _) behind.le

end Rows

section Expressions

variable {low high : Int} {phrase : Phrase} {tokens : List Token}

theorem spells_inside {expr : Expr} (spelled : Spells phrase tokens expr) (within : Within low high tokens) :
    Inside low high expr.span := spells_stands spelled within expr (self_mem_nodes expr)

theorem further_row {others : List Further} (spelled : ∀ other ∈ others, Spells .expression other.tokens other.expr)
    (within : Within low high (furtherTokens others)) : Row low high (others.map fun other => other.expr.span) := by
  induction others generalizing low with
  | nil => exact .nil
  | cons other others ih =>
    obtain ⟨before, across, behind⟩ := within
    obtain ⟨middle, first, second⟩ := within_append.mp behind
    have inside := spells_inside (spelled other List.mem_cons_self) first
    have rest := ih (fun item member => spelled item (List.mem_cons_of_mem _ member)) second
    exact .cons (inside.mono (by omega) (Int.le_refl _)) rest (Int.le_refl _) second.le

theorem arguments_row {inside : List Token} {given : List Expr} (arguments : SpellsArguments inside given)
    (within : Within low high inside) : Row low high (given.map Expr.span) := by
  rcases arguments with ⟨-, rfl⟩ | ⟨first, argument, back, _, rfl, rfl, head, others, rfl, rfl, -, spelled⟩
  · exact .nil
  · obtain ⟨middle, front, rest⟩ := within_append.mp within
    rw [List.map_cons, List.map_map]
    exact .cons (spells_inside head front) (further_row spelled rest) (Int.le_refl _) rest.le

/-- The parts of a binary expression, the operator between the operands. -/
theorem binary_row {front back : List Token} {operator : Span} {left right : Expr} {first second : Phrase}
    (head : Spells first front left) (tail : Spells second back right) {near far : Int}
    (before : Within low near front) (between : Inside near far operator) (behind : Within far high back) :
    Row left.start right.stop [left.span, operator, right.span] := by
  have one := spells_inside head before
  have other := spells_inside tail behind
  simp only [Inside, Expr.span] at one between other
  have last : Row right.start right.stop [right.span] := .single ⟨Int.le_refl _, other.2.1, Int.le_refl _⟩
  have rest : Row operator.start right.stop [operator, right.span] :=
    .cons ⟨Int.le_refl _, between.2.1, Int.le_refl _⟩ last (by omega) (by omega)
  exact .cons ⟨Int.le_refl _, one.2.1, Int.le_refl _⟩ rest (by simp only [Expr.span]; omega) (by omega)

/-- The parts of a call, its last parenthesis behind all arguments. -/
theorem call_row {front inside : List Token} {opening closing : Token} {callee : Expr} {given : List Expr}
    (head : Spells .call front callee) (arguments : SpellsArguments inside given)
    (within : Within low high (front ++ opening :: (inside ++ [closing]))) :
    Row callee.start closing.span.stop (callee.span :: (given.map Expr.span ++ [closing.span])) := by
  obtain ⟨near, before, starts, across, behind⟩ := within_append.mp within
  obtain ⟨far, inner, closes, wide, -⟩ := within_append.mp behind
  have one := spells_inside head before
  have between := inner.le
  simp only [Inside, Expr.span] at one
  have last : Row closing.span.start closing.span.stop [closing.span] := .single ⟨Int.le_refl _, wide, Int.le_refl _⟩
  have rest := (arguments_row arguments inner).append last between closes wide
  exact .cons ⟨Int.le_refl _, one.2.1, Int.le_refl _⟩ rest (by simp only [Expr.span]; omega) (by omega)

theorem spells_row {expr : Expr} (spelled : Spells phrase tokens expr) (within : Within low high tokens) :
    Row expr.start expr.stop expr.parts := by
  induction spelled generalizing low high with
  | expression _ ih | factor _ ih | power _ ih | unary _ ih | call _ ih => exact ih within
  | sum first _ second | product first _ second | exponent first _ second =>
    obtain ⟨near, before, starts, across, behind⟩ := within_append.mp within
    exact binary_row first second before ⟨starts, across, Int.le_refl _⟩ behind
  | @negation tokens operator operand sign rest ih =>
    obtain ⟨-, across, behind⟩ := within
    have inside := spells_inside rest behind
    simp only [Inside, Expr.span] at inside
    have last : Row operand.start operand.stop [operand.span] := .single ⟨Int.le_refl _, inside.2.1, Int.le_refl _⟩
    exact .cons ⟨Int.le_refl _, across, Int.le_refl _⟩ last inside.1 inside.2.1
  | @scaled number opening closing inside factor kind opens closes only ih =>
    obtain ⟨starts, across, apart, wide, behind⟩ := within
    -- The product stands at the opening parenthesis, which is in front of the factor.
    have back : Within opening.span.start high inside :=
      (behind.sublist (List.sublist_append_left _ _)).lower wide
    exact binary_row (.literal kind) only ⟨starts, across, Int.le_refl _⟩ ⟨apart, Int.le_refl _, Int.le_refl _⟩ back
  | invoked head => exact call_row head (.inl ⟨rfl, rfl⟩) within
  | applied head _ _ _ first commas rest =>
    exact call_row head (.inr ⟨_, _, _, _, rfl, rfl, first, _, rfl, rfl, commas, rest⟩) within
  | literal | symbol => exact .nil
  | grouping opens closes rest =>
    have inside := spells_inside rest (within.sublist ((List.sublist_append_left _ _).cons _))
    exact .single ⟨Int.le_refl _, inside.2.1, Int.le_refl _⟩

theorem spells_closed {expr : Expr} (spelled : Spells phrase tokens expr) (within : Within low high tokens)
    (solid : Solid tokens) : Closed expr := by
  cases expr with
  | literal | symbol | grouping | binary | unary => trivial
  | call callee given closing =>
    obtain ⟨front, opening, inside, rfl, head, -, closes, arguments⟩ := call_tokens spelled
    obtain ⟨near, -, -, -, behind⟩ := within_append.mp within
    obtain ⟨far, inner, starts, -⟩ := within_append.mp behind
    have filled := solid closing (by simp) (by simp [closes])
    intro argument member
    have ends := ((arguments_row arguments inner).inside argument.span (List.mem_map_of_mem member)).2.2
    simp only [Expr.span] at ends
    omega

theorem spells_operated {expr : Expr} (spelled : Spells phrase tokens expr) (within : Within low high tokens) :
    Operated tokens expr := by
  induction spelled generalizing low high with
  | expression _ ih | factor _ ih | power _ ih | unary _ ih | call _ ih => exact ih within
  | sum | product | exponent => exact .inl (by simp)
  | @scaled number opening closing inside factor kind opens closes only ih =>
    obtain ⟨-, -, -, -, behind⟩ := within
    have ahead := spells_inside only (behind.sublist (List.sublist_append_left _ _))
    exact .inr ⟨number, opening, rfl, by simp, opens, rfl, rfl, ahead.1⟩
  | negation | invoked | applied | literal | symbol | grouping => trivial

theorem Operated.sublist {fewer : List Token} {expr : Expr} (operated : Operated fewer expr)
    (sublist : fewer.Sublist tokens) : Operated tokens expr := by
  cases expr with
  | literal | symbol | grouping | unary | call => trivial
  | binary left operator right =>
    rcases operated with member | ⟨number, opening, bare, member, rest⟩
    · exact .inl (sublist.subset member)
    · exact .inr ⟨number, opening, bare, sublist.subset member, rest⟩

/-- Whatever an expression holds is spelled by some of the tokens. -/
def Parted (tokens : List Token) (expr : Expr) : Prop :=
  ∀ node ∈ expr.nodes, ∃ phrase part, part.Sublist tokens ∧ Spells phrase part node

theorem Parted.sublist {fewer : List Token} {expr : Expr} (parted : Parted fewer expr)
    (sublist : fewer.Sublist tokens) : Parted tokens expr := by
  intro node member
  obtain ⟨phrase, part, inside, spelled⟩ := parted node member
  exact ⟨phrase, part, inside.trans sublist, spelled⟩

theorem parted_binary {left right : Expr} {operator : Token} (whole : Spells phrase tokens (.binary left operator right))
    (first : Parted tokens left) (second : Parted tokens right) : Parted tokens (.binary left operator right) := by
  intro node member
  rw [Expr.nodes, List.mem_cons, List.mem_append] at member
  rcases member with rfl | early | late
  · exact ⟨phrase, tokens, .refl _, whole⟩
  · exact first node early
  · exact second node late

theorem parted_call {callee : Expr} {given : List Expr} {closing : Token}
    (whole : Spells phrase tokens (.call callee given closing)) (head : Parted tokens callee)
    (inner : ∀ argument ∈ given, Parted tokens argument) : Parted tokens (.call callee given closing) := by
  intro node member
  rw [Expr.nodes, Expr.nodesAll_eq, List.mem_cons, List.mem_append, List.mem_flatMap] at member
  rcases member with rfl | early | ⟨argument, listed, late⟩
  · exact ⟨phrase, tokens, .refl _, whole⟩
  · exact head node early
  · exact inner argument listed node late

theorem spells_parted {expr : Expr} (spelled : Spells phrase tokens expr) : Parted tokens expr := by
  induction spelled with
  | expression _ ih | factor _ ih | power _ ih | unary _ ih | call _ ih => exact ih
  | sum first sign second left right =>
    exact parted_binary (.sum first sign second) (left.sublist (by simp)) (right.sublist (by simp))
  | product first sign second left right =>
    exact parted_binary (.product first sign second) (left.sublist (by simp)) (right.sublist (by simp))
  | exponent first sign second left right =>
    exact parted_binary (.exponent first sign second) (left.sublist (by simp)) (right.sublist (by simp))
  | negation sign rest ih =>
    intro node member
    rw [Expr.nodes, List.mem_cons] at member
    rcases member with rfl | later
    · exact ⟨_, _, .refl _, .negation sign rest⟩
    · exact ih.sublist (List.sublist_cons_self _ _) node later
  | scaled kind opens closes only ih =>
    refine parted_binary (.scaled kind opens closes only) ?_
      (ih.sublist (((List.sublist_append_left _ _).cons _).cons _))
    intro node member
    rw [List.mem_singleton.mp member]
    exact ⟨_, _, by simp, .literal kind⟩
  | invoked head unnumbered opens closes ih =>
    exact parted_call (.invoked head unnumbered opens closes) (ih.sublist (List.sublist_append_left _ _)) (by simp)
  | @applied front inside opening closing callee argument others head unnumbered opens closes first commas rest
      callees arguments further =>
    refine parted_call (.applied head unnumbered opens closes first commas rest)
      (callees.sublist (List.sublist_append_left _ _)) ?_
    intro listed member
    have group {part : List Token} (sublist : part.Sublist (inside ++ furtherTokens others)) :
        part.Sublist (front ++ opening :: (inside ++ furtherTokens others ++ [closing])) :=
      ((sublist.trans (List.sublist_append_left _ _)).cons _).trans (List.sublist_append_right _ _)
    rcases List.mem_cons.mp member with rfl | later
    · exact arguments.sublist (group (List.sublist_append_left _ _))
    · obtain ⟨other, present, rfl⟩ := List.mem_map.mp later
      exact (further other present).sublist (group ((further_sublist present).trans (List.sublist_append_right _ _)))
  | literal kind =>
    intro node member
    rw [List.mem_singleton.mp member]
    exact ⟨_, _, .refl _, .literal kind⟩
  | symbol kind =>
    intro node member
    rw [List.mem_singleton.mp member]
    exact ⟨_, _, .refl _, .symbol kind⟩
  | grouping opens closes rest ih =>
    intro node member
    rw [Expr.nodes, List.mem_cons] at member
    rcases member with rfl | later
    · exact ⟨_, _, .refl _, .grouping opens closes rest⟩
    · exact ih.sublist ((List.sublist_append_left _ _).cons _) node later

end Expressions

section Statements

variable {low high : Int} {tokens : List Token}

theorem joined_sublist (others : List (Token × Token)) :
    (others.map Prod.snd).Sublist (joined (others.map fun other => (other.1, [other.2]))) := by
  induction others with
  | nil => exact .slnil
  | cons other others ih => exact (ih.cons_cons other.2).cons other.1

/-- Parameters stand among the tokens that list them, in the same order. -/
theorem lists_sublist {listed parameters : List Token} (lists : Lists listed parameters) : parameters.Sublist listed := by
  cases lists with
  | none => exact .slnil
  | @some first others => exact (joined_sublist others).cons_cons first

/-- The parts of a statement that begins with a token of its own and ends with an expression. -/
theorem headed_row {head : Token} {between back listed : List Token} {body : Expr}
    (rest : Spells .expression back body) (sublist : listed.Sublist between)
    (within : Within low high (head :: (between ++ back))) :
    Row head.span.start body.stop (head.span :: (listed.map Token.span ++ [body.span])) ∧
      Inside low high ⟨head.span.start, body.stop⟩ := by
  obtain ⟨starts, across, behind⟩ := within
  obtain ⟨middle, inner, tail⟩ := within_append.mp behind
  have inside := spells_inside rest tail
  have room := inner.le
  simp only [Inside, Expr.span] at inside ⊢
  have last : Row middle body.stop [body.span] := .single ⟨inside.1, inside.2.1, Int.le_refl _⟩
  have row := (tokens_row (inner.sublist sublist)).append last room (Int.le_refl _) (by omega)
  exact ⟨.cons ⟨Int.le_refl _, across, Int.le_refl _⟩ row (Int.le_refl _) (by omega), by omega⟩

theorem statement_row {statement : Statement} (spelled : SpellsStatement tokens statement)
    (within : Within low high tokens) :
    Row statement.start statement.expr.stop statement.parts ∧ Inside low high statement.span := by
  cases spelled with
  | expression rest =>
    have inside := spells_inside rest within
    exact ⟨.single ⟨Int.le_refl _, inside.2.1, Int.le_refl _⟩, inside⟩
  | print kind rest => exact headed_row rest (.refl []) within
  | @assign name equals tokens value kind sign rest => exact headed_row rest (List.nil_sublist [equals]) within
  | @declare name opening closing equals listed parameters tokens body kind opens listing closes sign rest =>
    have sublist : parameters.Sublist (opening :: (listed ++ [closing, equals])) :=
      ((lists_sublist listing).trans (List.sublist_append_left _ _)).cons opening
    exact headed_row rest sublist (by simpa using within)

theorem program_row {statements : List Statement} (spelled : SpellsProgram tokens statements)
    (within : Within low high tokens) : Row low high (statements.map Statement.span) := by
  induction spelled generalizing low with
  | finish => exact .nil
  | statement head tail ih =>
    obtain ⟨middle, front, back⟩ := within_append.mp within
    exact .cons (statement_row head front).2 (ih back) (Int.le_refl _) back.le

theorem Row.nested {length : Nat} {whole : Span} {parts : List Span} (row : Row whole.start whole.stop parts)
    (inside : Inside 0 length whole) (filled : whole.start < whole.stop) : Nested length whole parts where
  first := inside.1
  filled := filled
  last := inside.2.2
  inside := fun span member => ⟨(row.inside span member).1, (row.inside span member).2.2⟩
  ordered := row.ordered

theorem body_mem_parts (statement : Statement) : statement.expr.span ∈ statement.parts := by
  cases statement <;> simp [Statement.expr, Statement.parts]

theorem node_nested {length : Nat} {expr node : Expr} (spelled : Spells .expression tokens expr)
    (within : Within 0 length tokens) (solid : Solid tokens) (member : node ∈ expr.nodes) :
    Nested length node.span node.parts ∧ Closed node ∧ Operated tokens node := by
  obtain ⟨phrase, part, sublist, spells⟩ := spells_parted spelled node member
  have inner := within.sublist sublist
  have filled := spells_filled spelled within solid node member
  exact ⟨(spells_row spells inner).nested (spells_inside spells inner) filled,
    spells_closed spells inner (solid.sublist sublist), (spells_operated spells inner).sublist sublist⟩

/-- Its expression is inside a statement, so the statement takes up space too. -/
theorem statement_nested {length : Nat} {statement : Statement} (spelled : SpellsStatement tokens statement)
    (within : Within 0 length tokens) (solid : Solid tokens) : Nested length statement.span statement.parts := by
  obtain ⟨row, inside⟩ := statement_row spelled within
  have body := (row.inside _ (body_mem_parts statement)).1
  have wide := (statement_filled spelled within solid).root
  have filled : statement.start < statement.expr.stop := Int.lt_of_le_of_lt body wide
  exact row.nested inside filled

end Statements

/-- Everything that is read from a text lies in the text and takes up some of it. Parts
lie in their whole and follow one another, as do the statements. -/
theorem ofText_nests {depth : Nat} {text : List Char} {statements : List Statement}
    (read : Grammar.ofText depth text = .ok statements) :
    ∃ tokens, scan text = .ok tokens ∧
      (statements.map Statement.span).Pairwise (fun early late => early.stop ≤ late.start) ∧
      ∀ statement ∈ statements, Nested text.length statement.span statement.parts ∧
        ∀ node ∈ statement.expr.nodes,
          Nested text.length node.span node.parts ∧ Closed node ∧ Operated tokens node := by
  obtain ⟨tokens, body, scanned, sublist, spelled, within, solid⟩ := ofText_spelled read
  refine ⟨tokens, scanned, (program_row spelled within).ordered, fun statement member => ?_⟩
  obtain ⟨part, fewer, spells⟩ := program_part spelled member
  have inner := within.sublist fewer
  have filled := solid.sublist fewer
  refine ⟨statement_nested spells inner filled, fun node inside => ?_⟩
  obtain ⟨rest, among, expression⟩ := statement_part spells
  obtain ⟨nested, closed, operated⟩ := node_nested expression (inner.sublist among) (filled.sublist among) inside
  exact ⟨nested, closed, operated.sublist ((among.trans fewer).trans sublist)⟩

/-- The product of `3` and `(x)` has no extent and stands at offset 11, where the parenthesis does. -/
theorem ofText_nests_scaled :
    ∃ tokens area shown, Grammar.ofText 20 "f(x, y) = 3(x)^y // area\nprint f(2x, -1)".toList = .ok [area, shown] ∧
      area.span = ⟨0, 16⟩ ∧ shown.span = ⟨25, 40⟩ ∧
      area.parts = [⟨0, 1⟩, ⟨2, 3⟩, ⟨5, 6⟩, ⟨10, 16⟩] ∧ Nested 40 ⟨0, 16⟩ area.parts ∧
      shown.expr.parts = [⟨31, 32⟩, ⟨33, 35⟩, ⟨37, 39⟩, ⟨39, 40⟩] ∧ Nested 40 ⟨31, 40⟩ shown.expr.parts ∧
      ∃ product ∈ area.expr.nodes, product.parts = [⟨10, 11⟩, ⟨11, 11⟩, ⟨12, 13⟩] ∧
        Nested 40 product.span product.parts ∧ Closed product ∧ Operated tokens product := by
  have read : Grammar.ofText 20 "f(x, y) = 3(x)^y // area\nprint f(2x, -1)".toList = .ok [_, _] := rfl
  obtain ⟨tokens, -, -, nested⟩ := ofText_nests read
  obtain ⟨area, parts⟩ := nested _ List.mem_cons_self
  obtain ⟨-, others⟩ := nested _ (List.mem_cons_of_mem _ List.mem_cons_self)
  refine ⟨tokens, _, _, read, rfl, rfl, rfl, area, rfl, (others _ (self_mem_nodes _)).1, ?_⟩
  refine ⟨_, List.mem_cons_of_mem _ List.mem_cons_self, rfl, ?_⟩
  exact parts _ (List.mem_cons_of_mem _ List.mem_cons_self)

end Proofs.SpanNesting

end Reckoner
