import Reckoner.Grammar

/-! The grammar by its rules alone, apart from any reader. Once the rules speak of
kinds, which is all that decides whether a sequence belongs to the language, and once
of the tokens that spell a given tree. -/

namespace Reckoner.Proofs.GrammarPhrases
open Grammar

inductive Phrase where
  | expression
  | factor
  | power
  | unary
  | call
  | primary
  | group

/-- A repetition: each piece is a separator and what follows it. -/
def joined {α : Type} (pieces : List (α × List α)) : List α :=
  pieces.flatMap fun piece => piece.1 :: piece.2

/-- Which kinds make up a phrase. A number stands at the front of a call in a rule of its
own: the first group behind it holds exactly one expression. -/
inductive Derives : Phrase → List Kind → Prop where
  | expression {first : List Kind} (more : List (Kind × List Kind))
      (head : Derives .factor first) (signs : ∀ piece ∈ more, isSum piece.1)
      (rest : ∀ piece ∈ more, Derives .factor piece.2) :
      Derives .expression (first ++ joined more)
  | factor {first : List Kind} (more : List (Kind × List Kind))
      (head : Derives .power first) (signs : ∀ piece ∈ more, isProduct piece.1)
      (rest : ∀ piece ∈ more, Derives .power piece.2) :
      Derives .factor (first ++ joined more)
  | power {first : List Kind} (more : List (Kind × List Kind))
      (head : Derives .unary first) (signs : ∀ piece ∈ more, piece.1 = .mark .caret)
      (rest : ∀ piece ∈ more, Derives .primary piece.2) :
      Derives .power (first ++ joined more)
  | negation {operand : List Kind} (rest : Derives .unary operand) :
      Derives .unary (.mark .minus :: operand)
  | unary {kinds : List Kind} (rest : Derives .call kinds) : Derives .unary kinds
  | call {first : List Kind} (groups : List (List Kind)) (head : Derives .primary first)
      (unnumbered : first ≠ [.number]) (rest : ∀ group ∈ groups, Derives .group group) :
      Derives .call (first ++ groups.flatten)
  | number : Derives .call [.number]
  | scaled {inside : List Kind} (groups : List (List Kind)) (only : Derives .expression inside)
      (rest : ∀ group ∈ groups, Derives .group group) :
      Derives .call (.number :: .mark .opening :: (inside ++ .mark .closing :: groups.flatten))
  | emptyGroup : Derives .group [.mark .opening, .mark .closing]
  | group {first : List Kind} (more : List (Kind × List Kind))
      (head : Derives .expression first) (commas : ∀ piece ∈ more, piece.1 = .mark .comma)
      (rest : ∀ piece ∈ more, Derives .expression piece.2) :
      Derives .group (.mark .opening :: (first ++ joined more ++ [.mark .closing]))
  | literal : Derives .primary [.number]
  | symbol : Derives .primary [.name]
  | grouping {inside : List Kind} (rest : Derives .expression inside) :
      Derives .primary (.mark .opening :: (inside ++ [.mark .closing]))

inductive Names : List Kind → Prop where
  | none : Names []
  | some (count : Nat) : Names (.name :: joined (List.replicate count (.mark .comma, [.name])))

/-- Which kinds make up a statement. -/
inductive Declares : List Kind → Prop where
  | print {kinds : List Kind} (rest : Derives .expression kinds) : Declares (.print :: kinds)
  | expression {kinds : List Kind} (rest : Derives .expression kinds) : Declares kinds
  | assign {kinds : List Kind} (rest : Derives .expression kinds) :
      Declares (.name :: .mark .equals :: kinds)
  | declare {parameters kinds : List Kind} (listed : Names parameters)
      (rest : Derives .expression kinds) :
      Declares (.name :: .mark .opening :: (parameters ++ .mark .closing :: .mark .equals :: kinds))

/-- Which kinds make up a program: statements without anything between them, and the end. -/
inductive Programs : List Kind → Prop where
  | finish : Programs [.finish]
  | statement {first rest : List Kind} (head : Declares first) (tail : Programs rest) :
      Programs (first ++ rest)

/-- An argument behind a comma: the comma, the expression and the tokens that spell it. -/
structure Further where
  comma : Token
  expr : Expr
  tokens : List Token

def furtherTokens (others : List Further) : List Token :=
  joined (others.map fun other => (other.comma, other.tokens))

/-- Which tokens spell a tree, phrase by phrase. Every token that the tree does not keep,
such as parentheses and commas, has its place here too. The product of a number and a
group is the one operator that no token spells. -/
inductive Spells : Phrase → List Token → Expr → Prop where
  | sum {front back : List Token} {operator : Token} {left right : Expr}
      (first : Spells .expression front left) (sign : isSum operator.kind)
      (second : Spells .factor back right) :
      Spells .expression (front ++ operator :: back) (.binary left operator right)
  | expression {tokens : List Token} {expr : Expr} (rest : Spells .factor tokens expr) :
      Spells .expression tokens expr
  | product {front back : List Token} {operator : Token} {left right : Expr}
      (first : Spells .factor front left) (sign : isProduct operator.kind)
      (second : Spells .power back right) :
      Spells .factor (front ++ operator :: back) (.binary left operator right)
  | factor {tokens : List Token} {expr : Expr} (rest : Spells .power tokens expr) :
      Spells .factor tokens expr
  | exponent {front back : List Token} {operator : Token} {left right : Expr}
      (first : Spells .power front left) (sign : operator.kind = .mark .caret)
      (second : Spells .primary back right) :
      Spells .power (front ++ operator :: back) (.binary left operator right)
  | power {tokens : List Token} {expr : Expr} (rest : Spells .unary tokens expr) :
      Spells .power tokens expr
  | negation {tokens : List Token} {operator : Token} {operand : Expr}
      (sign : operator.kind = .mark .minus) (rest : Spells .unary tokens operand) :
      Spells .unary (operator :: tokens) (.unary operator operand)
  | unary {tokens : List Token} {expr : Expr} (rest : Spells .call tokens expr) :
      Spells .unary tokens expr
  | scaled {number opening closing : Token} {inside : List Token} {factor : Expr}
      (kind : number.kind = .number) (opens : opening.kind = .mark .opening)
      (closes : closing.kind = .mark .closing) (only : Spells .expression inside factor) :
      Spells .call (number :: opening :: (inside ++ [closing]))
        (.binary (.literal number) (.implied (.mark .star) opening.line opening.span.start) factor)
  | invoked {front : List Token} {opening closing : Token} {callee : Expr}
      (head : Spells .call front callee) (unnumbered : ∀ token, callee ≠ .literal token)
      (opens : opening.kind = .mark .opening) (closes : closing.kind = .mark .closing) :
      Spells .call (front ++ [opening, closing]) (.call callee [] closing)
  | applied {front inside : List Token} {opening closing : Token} {callee argument : Expr}
      {others : List Further}
      (head : Spells .call front callee) (unnumbered : ∀ token, callee ≠ .literal token)
      (opens : opening.kind = .mark .opening) (closes : closing.kind = .mark .closing)
      (first : Spells .expression inside argument)
      (commas : ∀ other ∈ others, other.comma.kind = .mark .comma)
      (rest : ∀ other ∈ others, Spells .expression other.tokens other.expr) :
      Spells .call (front ++ opening :: (inside ++ furtherTokens others ++ [closing]))
        (.call callee (argument :: others.map Further.expr) closing)
  | call {tokens : List Token} {expr : Expr} (rest : Spells .primary tokens expr) :
      Spells .call tokens expr
  | literal {token : Token} (kind : token.kind = .number) : Spells .primary [token] (.literal token)
  | symbol {token : Token} (kind : token.kind = .name) : Spells .primary [token] (.symbol token)
  | grouping {opening closing : Token} {tokens : List Token} {inner : Expr}
      (opens : opening.kind = .mark .opening) (closes : closing.kind = .mark .closing)
      (rest : Spells .expression tokens inner) :
      Spells .primary (opening :: (tokens ++ [closing])) (.grouping inner)

inductive Lists : List Token → List Token → Prop where
  | none : Lists [] []
  | some {first : Token} {others : List (Token × Token)} (name : first.kind = .name)
      (commas : ∀ other ∈ others, other.1.kind = .mark .comma)
      (names : ∀ other ∈ others, other.2.kind = .name) :
      Lists (first :: joined (others.map fun other => (other.1, [other.2])))
        (first :: others.map Prod.snd)

inductive SpellsStatement : List Token → Statement → Prop where
  | expression {tokens : List Token} {expr : Expr} (rest : Spells .expression tokens expr) :
      SpellsStatement tokens (.expression expr)
  | print {keyword : Token} {tokens : List Token} {expr : Expr} (kind : keyword.kind = .print)
      (rest : Spells .expression tokens expr) :
      SpellsStatement (keyword :: tokens) (.print keyword expr)
  | assign {name equals : Token} {tokens : List Token} {value : Expr} (kind : name.kind = .name)
      (sign : equals.kind = .mark .equals) (rest : Spells .expression tokens value) :
      SpellsStatement (name :: equals :: tokens) (.assign name value)
  | declare {name opening closing equals : Token} {listed parameters tokens : List Token} {body : Expr}
      (kind : name.kind = .name) (opens : opening.kind = .mark .opening)
      (listing : Lists listed parameters) (closes : closing.kind = .mark .closing)
      (sign : equals.kind = .mark .equals) (rest : Spells .expression tokens body) :
      SpellsStatement (name :: opening :: (listed ++ closing :: equals :: tokens))
        (.declare ⟨name, parameters, body⟩)

/-- Which tokens spell statements, one right behind the other. -/
inductive SpellsProgram : List Token → List Statement → Prop where
  | finish : SpellsProgram [] []
  | statement {front back : List Token} {first : Statement} {others : List Statement}
      (head : SpellsStatement front first) (tail : SpellsProgram back others) :
      SpellsProgram (front ++ back) (first :: others)

@[simp] theorem joined_nil {α : Type} : joined ([] : List (α × List α)) = [] := rfl

@[simp] theorem joined_cons {α : Type} (piece : α × List α) (more : List (α × List α)) :
    joined (piece :: more) = piece.1 :: (piece.2 ++ joined more) := rfl

@[simp] theorem joined_append {α : Type} (first second : List (α × List α)) :
    joined (first ++ second) = joined first ++ joined second := by
  simp [joined]

theorem map_joined {α β : Type} (f : α → β) (pieces : List (α × List α)) :
    (joined pieces).map f = joined (pieces.map fun piece => (f piece.1, piece.2.map f)) := by
  induction pieces with
  | nil => rfl
  | cons piece more ih => simp [ih]

@[simp] theorem furtherTokens_nil : furtherTokens [] = [] := rfl

@[simp] theorem furtherTokens_cons (other : Further) (others : List Further) :
    furtherTokens (other :: others) = other.comma :: (other.tokens ++ furtherTokens others) := rfl

theorem Spells.nonempty {phrase : Phrase} {tokens : List Token} {expr : Expr}
    (spelled : Spells phrase tokens expr) : tokens ≠ [] := by
  induction spelled with
  | sum | product | exponent | negation | scaled | invoked | applied | literal | symbol | grouping => simp
  | expression _ ih | factor _ ih | power _ ih | unary _ ih | call _ ih => exact ih

theorem Spells.of_number {phrase : Phrase} {tokens : List Token} {expr : Expr}
    (spelled : Spells phrase tokens expr) (number : tokens.map Token.kind = [.number]) :
    ∃ token, expr = .literal token := by
  induction spelled with
  | sum first | product first | exponent first | invoked first | applied first =>
    have filled := List.length_pos_iff.mpr first.nonempty
    have lengths := congrArg List.length number
    simp only [List.length_map, List.length_append, List.length_cons, List.length_nil] at lengths
    omega
  | negation sign | symbol sign => simp_all
  | scaled | grouping => simp at number
  | expression _ ih | factor _ ih | power _ ih | unary _ ih | call _ ih => exact ih number
  | literal => exact ⟨_, rfl⟩

theorem Spells.literal_tokens {phrase : Phrase} {tokens : List Token} {token : Token}
    (spelled : Spells phrase tokens (.literal token)) : tokens = [token] ∧ token.kind = .number := by
  generalize same : Expr.literal token = expr at spelled
  induction spelled with
  | sum | product | exponent | negation | scaled | invoked | applied | symbol | grouping => cases same
  | expression _ ih | factor _ ih | power _ ih | unary _ ih | call _ ih => exact ih same
  | literal kind =>
    cases same
    exact ⟨rfl, kind⟩

theorem Spells.symbol_tokens {phrase : Phrase} {tokens : List Token} {name : Token}
    (spelled : Spells phrase tokens (.symbol name)) : tokens = [name] ∧ name.kind = .name := by
  generalize same : Expr.symbol name = expr at spelled
  induction spelled with
  | sum | product | exponent | negation | scaled | invoked | applied | literal | grouping => cases same
  | expression _ ih | factor _ ih | power _ ih | unary _ ih | call _ ih => exact ih same
  | symbol kind =>
    cases same
    exact ⟨rfl, kind⟩

theorem Derives.snoc_sum {front back : List Kind} {sign : Kind} (first : Derives .expression front)
    (sum : isSum sign) (second : Derives .factor back) : Derives .expression (front ++ sign :: back) := by
  cases first with
  | expression more head signs rest =>
    have whole := Derives.expression (more ++ [(sign, back)]) head
      (by simpa [or_imp, forall_and] using ⟨fun a b => signs (a, b), sum⟩)
      (by simpa [or_imp, forall_and] using ⟨fun a b => rest (a, b), second⟩)
    simpa using whole

theorem Derives.snoc_product {front back : List Kind} {sign : Kind} (first : Derives .factor front)
    (product : isProduct sign) (second : Derives .power back) : Derives .factor (front ++ sign :: back) := by
  cases first with
  | factor more head signs rest =>
    have whole := Derives.factor (more ++ [(sign, back)]) head
      (by simpa [or_imp, forall_and] using ⟨fun a b => signs (a, b), product⟩)
      (by simpa [or_imp, forall_and] using ⟨fun a b => rest (a, b), second⟩)
    simpa using whole

theorem Derives.snoc_exponent {front back : List Kind} (first : Derives .power front)
    (second : Derives .primary back) : Derives .power (front ++ .mark .caret :: back) := by
  cases first with
  | power more head signs rest =>
    have whole := Derives.power (more ++ [(.mark .caret, back)]) head
      (by simpa [or_imp, forall_and] using fun a b => signs (a, b))
      (by simpa [or_imp, forall_and] using ⟨fun a b => rest (a, b), second⟩)
    simpa using whole

/-- A group behind a call makes a longer call, unless the call is a number alone. -/
theorem Derives.snoc_group {front group : List Kind} (callee : Derives .call front)
    (unnumbered : front ≠ [.number]) (last : Derives .group group) : Derives .call (front ++ group) := by
  cases callee with
  | number => exact absurd rfl unnumbered
  | call groups head apart rest =>
    have whole := Derives.call (groups ++ [group]) head apart
      (by simpa [or_imp, forall_and] using ⟨rest, last⟩)
    simpa using whole
  | scaled groups only rest =>
    have whole := Derives.scaled (groups ++ [group]) only
      (by simpa [or_imp, forall_and] using ⟨rest, last⟩)
    simpa using whole

theorem Derives.of_primary {kinds : List Kind} (first : Derives .primary kinds) : Derives .call kinds := by
  by_cases number : kinds = [.number]
  · exact number ▸ .number
  · simpa using Derives.call [] first number (by simp)

theorem Derives.of_call {kinds : List Kind} (called : Derives .call kinds) : Derives .expression kinds := by
  have power : Derives .power kinds := by simpa using Derives.power [] called.unary (by simp) (by simp)
  have factor : Derives .factor kinds := by simpa using Derives.factor [] power (by simp) (by simp)
  simpa using Derives.expression [] factor (by simp) (by simp)

/-- What spells a tree belongs to the language of its phrase. -/
theorem Spells.derives {phrase : Phrase} {tokens : List Token} {expr : Expr}
    (spelled : Spells phrase tokens expr) : Derives phrase (tokens.map Token.kind) := by
  induction spelled with
  | sum _ sign _ first second => simpa using first.snoc_sum sign second
  | expression _ ih => simpa using Derives.expression [] ih (by simp) (by simp)
  | product _ sign _ first second => simpa using first.snoc_product sign second
  | factor _ ih => simpa using Derives.factor [] ih (by simp) (by simp)
  | exponent _ sign _ first second => simpa [sign] using first.snoc_exponent second
  | power _ ih => simpa using Derives.power [] ih (by simp) (by simp)
  | negation sign _ ih => simpa [sign] using ih.negation
  | unary _ ih => exact ih.unary
  | scaled kind opens closes _ ih =>
    simpa [kind, opens, closes] using Derives.scaled [] ih (by simp)
  | invoked head unnumbered opens closes ih =>
    have apart := fun number => (head.of_number number).elim unnumbered
    simpa [opens, closes] using ih.snoc_group apart .emptyGroup
  | @applied front inside opening closing callee argument others head unnumbered opens closes first commas rest
      calleeDerives argumentDerives othersDerive =>
    have apart := fun number => (head.of_number number).elim unnumbered
    have group := Derives.group
      (others.map fun other => (other.comma.kind, other.tokens.map Token.kind)) argumentDerives
      (by simpa using commas) (by simpa using othersDerive)
    simpa [opens, closes, furtherTokens, map_joined, Function.comp_def] using
      calleeDerives.snoc_group apart group
  | call _ ih => exact ih.of_primary
  | literal kind => simpa [kind] using Derives.literal
  | symbol kind => simpa [kind] using Derives.symbol
  | grouping opens closes _ ih => simpa [opens, closes] using ih.grouping

theorem Names.plain {kinds : List Kind} (names : Names kinds) : ∀ kind ∈ kinds, kind = .name ∨ kind = .mark .comma := by
  cases names with
  | none => simp
  | some count =>
    intro kind member
    rcases List.mem_cons.mp member with same | later
    · exact .inl same
    · obtain ⟨piece, inside, present⟩ := List.mem_flatMap.mp later
      obtain rfl := List.eq_of_mem_replicate inside
      simpa [or_comm] using present

theorem Names.group {kinds : List Kind} (names : Names kinds) :
    Derives .group (.mark .opening :: (kinds ++ [.mark .closing])) := by
  cases names with
  | none => exact .emptyGroup
  | some count =>
    refine Derives.group (List.replicate count (.mark .comma, [.name])) Derives.symbol.of_primary.of_call ?_ ?_
    · intro piece inside
      rw [List.eq_of_mem_replicate inside]
    · intro piece inside
      rw [List.eq_of_mem_replicate inside]
      exact Derives.symbol.of_primary.of_call

theorem Lists.names {tokens parameters : List Token} (listed : Lists tokens parameters) :
    Names (tokens.map Token.kind) := by
  cases listed with
  | none => exact .none
  | @some first others name commas names =>
    have pieces : others.map (fun other => (other.1.kind, [other.2.kind])) =
        List.replicate others.length (.mark .comma, [.name]) := by
      apply List.eq_replicate_iff.mpr
      refine ⟨by simp, ?_⟩
      intro piece member
      obtain ⟨other, inside, rfl⟩ := List.mem_map.mp member
      rw [commas other inside, names other inside]
    have listing := Names.some others.length
    rw [← pieces] at listing
    simpa [name, map_joined, Function.comp_def] using listing

theorem SpellsStatement.declares {tokens : List Token} {statement : Statement}
    (spelled : SpellsStatement tokens statement) : Declares (tokens.map Token.kind) := by
  cases spelled with
  | expression rest => exact .expression rest.derives
  | print kind rest => simpa [kind] using Declares.print rest.derives
  | assign kind sign rest => simpa [kind, sign] using Declares.assign rest.derives
  | declare kind opens listing closes sign rest =>
    simpa [kind, opens, closes, sign] using Declares.declare listing.names rest.derives

theorem SpellsStatement.nonempty {tokens : List Token} {statement : Statement}
    (spelled : SpellsStatement tokens statement) : tokens ≠ [] := by
  cases spelled with
  | expression rest => exact rest.nonempty
  | print | assign | declare => simp

theorem SpellsProgram.programs {tokens : List Token} {statements : List Statement}
    (spelled : SpellsProgram tokens statements) : Programs (tokens.map Token.kind ++ [.finish]) := by
  induction spelled with
  | finish => exact .finish
  | statement head _ ih => simpa using Programs.statement head.declares ih

end Reckoner.Proofs.GrammarPhrases
