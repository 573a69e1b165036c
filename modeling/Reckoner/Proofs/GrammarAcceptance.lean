import Mathlib.Computability.Language
import Reckoner.Proofs.GrammarReading

/-! Everything the rules derive is read. Statements stand next to each other without a
sign between them, so a reader that takes all it can get may run into the next
statement. It then finds there what the rules would let it go on with: a statement in
front of which an expression can go on begins with a minus or with a parenthesis, and
both continue the expression as well as they begin another one. -/

namespace Reckoner.Proofs.GrammarAcceptance
open Grammar GrammarPhrases GrammarReading

def phrases (phrase : Phrase) : Language Kind := {kinds | Derives phrase kinds}

/-- Wanted signs, each with an operand behind it. -/
def repeated (wanted : Kind → Bool) (operand : Language Kind) : Language Kind :=
  {kinds | ∃ pieces : List (Kind × List Kind), kinds = joined pieces ∧
    (∀ piece ∈ pieces, wanted piece.1 = true) ∧ ∀ piece ∈ pieces, piece.2 ∈ operand}

/-! What may stand behind a part of an expression, if the given sequences may stand
behind the whole expression. -/

def behindFactor (rest : Language Kind) : Language Kind := repeated isSum (phrases .factor) * rest

def behindPower (rest : Language Kind) : Language Kind := repeated isProduct (phrases .power) * behindFactor rest

def behindUnary (rest : Language Kind) : Language Kind :=
  repeated (· == .mark .caret) (phrases .primary) * behindPower rest

def behindCallee (rest : Language Kind) : Language Kind := KStar.kstar (phrases .group) * behindUnary rest

/-- Sequences behind an expression that a reader may run into without harm. -/
structure Follows (rest : Language Kind) : Prop where
  opening : ∀ kinds, .mark .opening :: kinds ∈ rest → ∃ inside back,
    kinds = inside ++ .mark .closing :: back ∧ Derives .expression inside ∧ back ∈ behindCallee rest
  minus : ∀ kinds, .mark .minus :: kinds ∈ rest → kinds ∈ phrases .unary * behindUnary rest
  other : ∀ kind kinds, kind :: kinds ∈ rest →
    kind ≠ .mark .plus ∧ isProduct kind = false ∧ kind ≠ .mark .caret

theorem power_eq : phrases .power = phrases .unary * repeated (· == .mark .caret) (phrases .primary) := by
  ext kinds
  rw [Language.mem_mul]
  constructor
  · intro derived
    cases derived with
    | power more head signs rest =>
      exact ⟨_, head, _, ⟨more, rfl, by simpa using fun a b => signs (a, b), rest⟩, rfl⟩
  · rintro ⟨first, head, _, ⟨more, rfl, signs, rest⟩, rfl⟩
    exact .power more head (by simpa using signs) rest

theorem factor_eq : phrases .factor = phrases .power * repeated isProduct (phrases .power) := by
  ext kinds
  rw [Language.mem_mul]
  constructor
  · intro derived
    cases derived with
    | factor more head signs rest => exact ⟨_, head, _, ⟨more, rfl, signs, rest⟩, rfl⟩
  · rintro ⟨first, head, _, ⟨more, rfl, signs, rest⟩, rfl⟩
    exact .factor more head signs rest

theorem expression_eq : phrases .expression = phrases .factor * repeated isSum (phrases .factor) := by
  ext kinds
  rw [Language.mem_mul]
  constructor
  · intro derived
    cases derived with
    | expression more head signs rest => exact ⟨_, head, _, ⟨more, rfl, signs, rest⟩, rfl⟩
  · rintro ⟨first, head, _, ⟨more, rfl, signs, rest⟩, rfl⟩
    exact .expression more head signs rest

/-! An expression and what follows it, seen from every rung. -/

theorem expression_behind (rest : Language Kind) :
    phrases .expression * rest = phrases .factor * behindFactor rest := by
  rw [expression_eq, mul_assoc, behindFactor]

theorem factor_behind (rest : Language Kind) :
    phrases .factor * behindFactor rest = phrases .power * behindPower rest := by
  rw [factor_eq, mul_assoc, behindPower]

theorem power_behind (rest : Language Kind) :
    phrases .power * behindPower rest = phrases .unary * behindUnary rest := by
  rw [power_eq, mul_assoc, behindUnary]

section Repetition

variable {wanted : Kind → Bool} {operand rest : Language Kind} {kind : Kind} {kinds : List Kind}

theorem repeated_cons (member : kind :: kinds ∈ repeated wanted operand * rest) :
    wanted kind = true ∧ kinds ∈ operand * (repeated wanted operand * rest) ∨ kind :: kinds ∈ rest := by
  obtain ⟨_, ⟨pieces, rfl, signs, operands⟩, back, tail, same⟩ := Language.mem_mul.mp member
  cases pieces with
  | nil => exact .inr (same ▸ tail)
  | cons piece more =>
    obtain ⟨sign, first⟩ := piece
    simp only [joined_cons, List.cons_append, List.cons.injEq, List.append_assoc] at same
    obtain ⟨rfl, rfl⟩ := same
    refine .inl ⟨signs (sign, first) (by simp), ?_⟩
    refine Language.mem_mul.mpr ⟨first, operands (sign, first) (by simp), _, ?_, rfl⟩
    refine Language.mem_mul.mpr ⟨_, ⟨more, rfl, ?_, ?_⟩, back, tail, rfl⟩
    · exact fun piece inside => signs piece (by simp [inside])
    · exact fun piece inside => operands piece (by simp [inside])

end Repetition

section Heads

variable {rest : Language Kind} {kind : Kind} {kinds : List Kind}

def Starts (kind : Kind) : Prop :=
  kind = .number ∨ kind = .name ∨ kind = .mark .opening ∨ kind = .mark .minus

theorem starts_expression {phrase : Phrase} (derived : Derives phrase kinds) (inner : phrase ≠ .group) :
    ∃ kind others, kinds = kind :: others ∧ Starts kind := by
  induction derived with
  | expression _ _ _ _ ih | factor _ _ _ _ ih | power _ _ _ _ ih =>
    obtain ⟨kind, others, rfl, starts⟩ := ih (by simp)
    exact ⟨kind, _, rfl, starts⟩
  | call _ _ _ _ ih =>
    obtain ⟨kind, others, rfl, starts⟩ := ih (by simp)
    exact ⟨kind, _, rfl, starts⟩
  | unary _ ih => exact ih (by simp)
  | negation | number | scaled | literal | symbol | grouping => exact ⟨_, _, rfl, by simp [Starts]⟩
  | emptyGroup | group => exact absurd rfl inner

theorem call_unsigned (derived : Derives .call kinds) : ∃ kind others, kinds = kind :: others ∧ kind ≠ .mark .minus := by
  cases derived with
  | number | scaled => exact ⟨_, _, rfl, by simp⟩
  | call groups head =>
    cases head with
    | literal | symbol | grouping => exact ⟨_, _, rfl, by simp⟩

theorem behindUnary_cons (member : kind :: kinds ∈ behindUnary rest) :
    kind = .mark .caret ∧ kinds ∈ phrases .primary * behindUnary rest ∨ kind :: kinds ∈ behindPower rest := by
  simpa [behindUnary] using repeated_cons member

theorem behindPower_cons (member : kind :: kinds ∈ behindPower rest) :
    isProduct kind = true ∧ kinds ∈ phrases .power * behindPower rest ∨ kind :: kinds ∈ behindFactor rest :=
  repeated_cons member

theorem behindFactor_cons (member : kind :: kinds ∈ behindFactor rest) :
    isSum kind = true ∧ kinds ∈ phrases .factor * behindFactor rest ∨ kind :: kinds ∈ rest :=
  repeated_cons member

/-- Behind the operand of a sum: a further operand, also where the next statement begins
with a minus. -/
theorem sum_goes_on (follows : Follows rest) (member : kind :: kinds ∈ behindFactor rest) (sign : isSum kind = true) :
    kinds ∈ phrases .factor * behindFactor rest := by
  rcases behindFactor_cons member with ⟨_, further⟩ | beyond
  · exact further
  · have minus : kind = .mark .minus := by
      simpa [isSum, (follows.other kind kinds beyond).1] using sign
    subst kind
    rw [factor_behind, power_behind]
    exact follows.minus kinds beyond

theorem product_goes_on (follows : Follows rest) (member : kind :: kinds ∈ behindPower rest)
    (sign : isProduct kind = true) : kinds ∈ phrases .power * behindPower rest := by
  rcases behindPower_cons member with ⟨_, further⟩ | beyond
  · exact further
  · rcases behindFactor_cons beyond with ⟨sum, _⟩ | outside
    · simp only [isSum, isProduct, Bool.or_eq_true, beq_iff_eq] at sum sign
      rcases sum with rfl | rfl <;> simp at sign
    · simp [(follows.other kind kinds outside).2.1] at sign

theorem exponent_goes_on (follows : Follows rest) (member : .mark .caret :: kinds ∈ behindUnary rest) :
    kinds ∈ phrases .primary * behindUnary rest := by
  rcases behindUnary_cons member with ⟨_, further⟩ | beyond
  · exact further
  · rcases behindPower_cons beyond with ⟨sign, _⟩ | outside
    · cases sign
    · rcases behindFactor_cons outside with ⟨sign, _⟩ | following
      · cases sign
      · exact absurd rfl (follows.other _ _ following).2.2

/-- A parenthesis behind an operand belongs to what follows the expression. -/
theorem opening_outside (member : .mark .opening :: kinds ∈ behindUnary rest) : .mark .opening :: kinds ∈ rest := by
  rcases behindUnary_cons member with ⟨sign, _⟩ | beyond
  · cases sign
  · rcases behindPower_cons beyond with ⟨sign, _⟩ | outside
    · cases sign
    · rcases behindFactor_cons outside with ⟨sign, _⟩ | following
      · cases sign
      · exact following

end Heads

section Groups

variable {rest : Language Kind} {kinds : List Kind}

def Inside (kinds : List Kind) : Prop :=
  kinds = [] ∨ kinds ∈ phrases .expression * repeated (· == .mark .comma) (phrases .expression)

theorem inside_of_expression (derived : Derives .expression kinds) : Inside kinds :=
  .inr (Language.mem_mul.mpr ⟨kinds, derived, [], ⟨[], rfl, by simp, by simp⟩, by simp⟩)

theorem group_inside (derived : Derives .group kinds) :
    ∃ inside, kinds = .mark .opening :: (inside ++ [.mark .closing]) ∧ Inside inside := by
  cases derived with
  | emptyGroup => exact ⟨[], rfl, .inl rfl⟩
  | group more head commas rest =>
    refine ⟨_, rfl, .inr (Language.mem_mul.mpr ⟨_, head, _, ⟨more, rfl, ?_, rest⟩, rfl⟩)⟩
    simpa using fun first second => commas (first, second)

/-- A parenthesis behind a callee opens a group, also where the next statement begins
with it. -/
theorem group_goes_on (follows : Follows rest) (member : .mark .opening :: kinds ∈ behindCallee rest) :
    ∃ inside back, kinds = inside ++ .mark .closing :: back ∧ Inside inside ∧ back ∈ behindCallee rest := by
  obtain ⟨_, ⟨pieces, rfl, derived⟩, back, tail, same⟩ := Language.mem_mul.mp member
  cases pieces with
  | nil =>
    obtain ⟨inside, behind, rfl, only, further⟩ := follows.opening kinds (opening_outside (same ▸ tail))
    exact ⟨inside, behind, rfl, inside_of_expression only, further⟩
  | cons piece more =>
    obtain ⟨inside, rfl, holds⟩ := group_inside (derived piece (by simp))
    simp only [List.flatten_cons, List.cons_append, List.append_assoc, List.cons.injEq, true_and, List.nil_append] at same
    refine ⟨inside, more.flatten ++ back, same.symm, holds, ?_⟩
    exact Language.mem_mul.mpr ⟨_, ⟨more, rfl, fun group given => derived group (by simp [given])⟩, back, tail, rfl⟩

theorem groups_over (member : kinds ∈ behindCallee rest) (closed : ∀ others, kinds ≠ .mark .opening :: others) :
    kinds ∈ behindUnary rest := by
  obtain ⟨_, ⟨pieces, rfl, derived⟩, back, tail, same⟩ := Language.mem_mul.mp member
  cases pieces with
  | nil => exact same ▸ tail
  | cons piece more =>
    obtain ⟨inside, rfl, _⟩ := group_inside (derived piece (by simp))
    exact absurd same.symm (by simpa using closed _)

end Groups

def kindsAhead (cursor : Cursor) : List Kind := cursor.ahead.map Token.kind

/-- A reader takes a front of the tokens ahead, if these are as many as the limit allows
and what it leaves may stand there. -/
def Accepts {α : Type} (limit : Nat) (front rest : Language Kind) (reader : Reader α) : Prop :=
  ∀ cursor, cursor.ahead.length ≤ limit → kindsAhead cursor ∈ front * rest →
    ∃ value after, reader cursor = .ok (value, after) ∧ kindsAhead after ∈ rest ∧
      after.ahead.length ≤ cursor.ahead.length

theorem accept_wanted {cursor : Cursor} (wanted : Kind → Bool) {kind : Kind} {kinds : List Kind}
    (ahead : kindsAhead cursor = kind :: kinds) (agreed : wanted kind = true) :
    ∃ token after, cursor.accept? wanted = some (token, after) ∧ token.kind = kind ∧ kindsAhead after = kinds ∧
      cursor.ahead.length = after.ahead.length + 1 := by
  obtain ⟨token, rest, place, rfl, rfl⟩ := List.map_eq_cons_iff.mp ahead
  exact ⟨token, ⟨some token.kind, rest⟩, by simp [Cursor.accept?, place, agreed], rfl, rfl, by simp [place]⟩

theorem accept_unwanted {cursor : Cursor} {wanted : Kind → Bool}
    (refused : ∀ kind kinds, kindsAhead cursor = kind :: kinds → wanted kind = false) :
    cursor.accept? wanted = none := by
  unfold Cursor.accept?
  split
  · rfl
  next token rest place =>
    have unwanted := refused token.kind (rest.map Token.kind) (by simp [kindsAhead, place])
    simp [unwanted]

theorem accept_none {cursor : Cursor} {wanted : Kind → Bool} {kind : Kind} {kinds : List Kind}
    (refused : cursor.accept? wanted = none) (ahead : kindsAhead cursor = kind :: kinds) : wanted kind = false := by
  apply Bool.eq_false_iff.mpr
  intro agreed
  obtain ⟨token, after, accepted, _⟩ := accept_wanted wanted ahead agreed
  simp [accepted] at refused

theorem expect_wanted {cursor : Cursor} {kind : Kind} {kinds : List Kind} (expectation : Failure.Expectation)
    (ahead : kindsAhead cursor = kind :: kinds) :
    ∃ token after, cursor.expect kind expectation = .ok (token, after) ∧ kindsAhead after = kinds ∧
      cursor.ahead.length = after.ahead.length + 1 := by
  obtain ⟨token, after, accepted, _, behind, shorter⟩ := accept_wanted (· == kind) ahead (by simp)
  exact ⟨token, after, by simp [Cursor.expect, accepted], behind, shorter⟩

section Chains

variable {limit : Nat} {wanted : Kind → Bool} {front rest : Language Kind} {operand : Reader Expr}

/-- A chain goes on as long as it can, and ends where something else stands. -/
theorem chainFrom_accepts (tail : Language Kind)
    (goesOn : ∀ kind kinds, kind :: kinds ∈ tail → wanted kind = true → kinds ∈ front * tail)
    (isOver : ∀ kinds ∈ tail, (∀ kind others, kinds = kind :: others → wanted kind = false) → kinds ∈ rest)
    (accepts : Accepts limit front tail operand) (rounds : Nat) (left : Expr) (cursor : Cursor)
    (short : cursor.ahead.length ≤ limit) (enough : cursor.ahead.length ≤ rounds)
    (member : kindsAhead cursor ∈ tail) :
    ∃ expr after, chainFrom wanted operand rounds left cursor = .ok (expr, after) ∧ kindsAhead after ∈ rest ∧
      after.ahead.length ≤ cursor.ahead.length := by
  induction rounds generalizing left cursor with
  | zero =>
    have none : cursor.ahead = [] := List.length_eq_zero_iff.mp (by omega)
    exact ⟨left, cursor, rfl, isOver _ member (by simp [kindsAhead, none]), Nat.le_refl _⟩
  | succ rounds ih =>
    rw [chainFrom]
    cases accepted : cursor.accept? wanted with
    | none =>
      exact ⟨left, cursor, rfl, isOver _ member fun _ _ ahead => accept_none accepted ahead, Nat.le_refl _⟩
    | some passed =>
      obtain ⟨operator, behind⟩ := passed
      obtain ⟨place, agreed⟩ := accept_some accepted
      have shorter : cursor.ahead.length = behind.ahead.length + 1 := by simp [place]
      have further := goesOn operator.kind (kindsAhead behind) (by simpa [kindsAhead, place] using member) agreed
      obtain ⟨right, after, read, remains, consumed⟩ := accepts behind (by omega) further
      simp only [read]
      obtain ⟨expr, final, chained, left, fewer⟩ :=
        ih (.binary left operator right) after (by omega) (by omega) remains
      exact ⟨expr, final, chained, left, by omega⟩

theorem chain_accepts (tail : Language Kind) {first : Reader Expr} {head : Language Kind}
    (starts : Accepts limit head tail first)
    (goesOn : ∀ kind kinds, kind :: kinds ∈ tail → wanted kind = true → kinds ∈ front * tail)
    (isOver : ∀ kinds ∈ tail, (∀ kind others, kinds = kind :: others → wanted kind = false) → kinds ∈ rest)
    (accepts : Accepts limit front tail operand) (rounds : Nat) (enough : limit ≤ rounds) (cursor : Cursor)
    (short : cursor.ahead.length ≤ limit) (member : kindsAhead cursor ∈ head * tail) :
    ∃ expr after, chain rounds wanted first operand cursor = .ok (expr, after) ∧ kindsAhead after ∈ rest ∧
      after.ahead.length ≤ cursor.ahead.length := by
  obtain ⟨left, after, read, remains, consumed⟩ := starts cursor short member
  obtain ⟨expr, final, chained, left, fewer⟩ :=
    chainFrom_accepts tail goesOn isOver accepts rounds left after (by omega) (by omega) remains
  refine ⟨expr, final, ?_, left, by omega⟩
  rw [chain, read]
  exact chained

theorem repeated_over (kinds : List Kind) (member : kinds ∈ repeated wanted front * rest)
    (stops : ∀ kind others, kinds = kind :: others → wanted kind = false) : kinds ∈ rest := by
  cases kinds with
  | nil =>
    obtain ⟨_, ⟨pieces, rfl, _⟩, back, tail, same⟩ := Language.mem_mul.mp member
    obtain ⟨_, rfl⟩ := List.append_eq_nil_iff.mp same
    exact tail
  | cons kind others =>
    rcases repeated_cons member with ⟨agreed, _⟩ | ends
    · simp [stops kind others rfl] at agreed
    · exact ends

end Chains

def Separates (kind : Kind) : Prop := kind = .mark .closing ∨ kind = .mark .comma ∨ kind = .mark .equals

theorem follows_single {kind : Kind} (separates : Separates kind) (kinds : List Kind) : Follows {kind :: kinds} := by
  constructor
  · rintro others ⟨⟩
    simp [Separates] at separates
  · rintro others ⟨⟩
    simp [Separates] at separates
  · rintro other others ⟨⟩
    rcases separates with rfl | rfl | rfl <;> decide

def AcceptsExpressions (limit : Nat) (expression : Reader Expr) : Prop :=
  ∀ rest, Follows rest → Accepts limit (phrases .expression) rest expression

section Primaries

variable {limit : Nat} {expression : Reader Expr} {cursor : Cursor}

theorem AcceptsExpressions.before (accepts : AcceptsExpressions limit expression) {inside back : List Kind}
    {kind : Kind} (separates : Separates kind) (derived : Derives .expression inside)
    (ahead : kindsAhead cursor = inside ++ kind :: back) (short : cursor.ahead.length ≤ limit) :
    ∃ expr after, expression cursor = .ok (expr, after) ∧ kindsAhead after = kind :: back ∧
      after.ahead.length ≤ cursor.ahead.length := by
  have member : kindsAhead cursor ∈ phrases .expression * {kind :: back} :=
    Language.mem_mul.mpr ⟨inside, derived, _, rfl, ahead.symm⟩
  exact accepts _ (follows_single separates back) cursor short member

theorem primary_accepts (accepts : AcceptsExpressions (limit - 1) expression) (rest : Language Kind) :
    Accepts limit (phrases .primary) rest (primary expression) := by
  intro cursor short member
  obtain ⟨front, derived, back, tail, same⟩ := Language.mem_mul.mp member
  cases derived with
  | literal =>
    obtain ⟨token, after, accepted, _, behind, shorter⟩ := accept_wanted (· == .number) same.symm rfl
    exact ⟨.literal token, after, by simp [primary, accepted], by simpa [behind] using tail, by omega⟩
  | symbol =>
    have unnumbered : cursor.accept? (· == .number) = none :=
      accept_unwanted fun kind kinds ahead => by cases same.trans ahead; rfl
    obtain ⟨token, after, accepted, _, behind, shorter⟩ := accept_wanted (· == .name) same.symm rfl
    exact ⟨.symbol token, after, by simp [primary, unnumbered, accepted], by simpa [behind] using tail, by omega⟩
  | grouping inner =>
    have unnumbered : cursor.accept? (· == .number) = none :=
      accept_unwanted fun kind kinds ahead => by cases same.trans ahead; rfl
    have unnamed : cursor.accept? (· == .name) = none :=
      accept_unwanted fun kind kinds ahead => by cases same.trans ahead; rfl
    obtain ⟨opening, after, opened, _, behind, shorter⟩ := accept_wanted (· == .mark .opening) same.symm rfl
    obtain ⟨expr, middle, read, remains, consumed⟩ :=
      accepts.before (.inl rfl) inner (by simpa using behind) (by omega)
    obtain ⟨closing, final, closed, left, fewer⟩ := expect_wanted .closingAfterExpression remains
    refine ⟨.grouping expr, final, ?_, by simpa [left] using tail, by omega⟩
    simp only [primary, unnumbered, unnamed, opened, read, ok_bind, closed]
    rfl

theorem separated {pieces : List (Kind × List Kind)} (commas : ∀ piece ∈ pieces, piece.1 = .mark .comma)
    (back : List Kind) :
    ∃ kind others, joined pieces ++ .mark .closing :: back = kind :: others ∧ Separates kind := by
  cases pieces with
  | nil => exact ⟨_, _, rfl, .inl rfl⟩
  | cons piece more => exact ⟨_, _, rfl, .inr (.inl (commas piece (by simp)))⟩

theorem argumentsFrom_accepts (accepts : AcceptsExpressions limit expression) (pieces : List (Kind × List Kind))
    (commas : ∀ piece ∈ pieces, piece.1 = .mark .comma) (derived : ∀ piece ∈ pieces, Derives .expression piece.2)
    (back : List Kind) (rounds : Nat) (cursor : Cursor) (short : cursor.ahead.length ≤ limit + 1)
    (enough : cursor.ahead.length ≤ rounds) (ahead : kindsAhead cursor = joined pieces ++ .mark .closing :: back) :
    ∃ exprs after, argumentsFrom expression rounds cursor = .ok (exprs, after) ∧
      exprs.length = pieces.length ∧ kindsAhead after = .mark .closing :: back ∧
      after.ahead.length ≤ cursor.ahead.length := by
  induction pieces generalizing rounds cursor with
  | nil =>
    have unseparated : cursor.accept? (· == .mark .comma) = none :=
      accept_unwanted fun kind kinds same => by cases ahead.symm.trans same; rfl
    cases rounds with
    | zero => exact ⟨[], cursor, rfl, rfl, ahead, Nat.le_refl _⟩
    | succ rounds => exact ⟨[], cursor, by simp [argumentsFrom, unseparated], rfl, ahead, Nat.le_refl _⟩
  | cons piece more ih =>
    obtain ⟨sign, inside⟩ := piece
    obtain rfl : sign = .mark .comma := commas (sign, inside) (by simp)
    simp only [joined_cons, List.cons_append, List.append_assoc] at ahead
    obtain ⟨comma, behind, accepted, _, remains, shorter⟩ := accept_wanted (· == .mark .comma) ahead rfl
    obtain ⟨rounds, rfl⟩ : ∃ fewer, rounds = fewer + 1 := ⟨rounds - 1, by omega⟩
    have first := derived (.mark .comma, inside) (by simp)
    have laterCommas : ∀ item ∈ more, item.1 = .mark .comma := fun item member => commas item (by simp [member])
    obtain ⟨kind, others, same, separates⟩ := separated laterCommas back
    have here : kindsAhead behind = inside ++ kind :: others := remains.trans (by rw [same])
    obtain ⟨expr, middle, read, left, consumed⟩ := accepts.before separates first here (by omega)
    obtain ⟨exprs, final, listed, count, closing, fewer⟩ :=
      ih laterCommas (fun item member => derived item (by simp [member]))
        rounds middle (by omega) (by omega) (left.trans same.symm)
    refine ⟨expr :: exprs, final, ?_, by simp [count], closing, by omega⟩
    simp only [argumentsFrom, accepted, read, ok_bind, listed]
    rfl

theorem arguments_accepts_some (accepts : AcceptsExpressions limit expression) (rounds : Nat) {first : List Kind}
    (head : Derives .expression first) (pieces : List (Kind × List Kind))
    (commas : ∀ piece ∈ pieces, piece.1 = .mark .comma) (derived : ∀ piece ∈ pieces, Derives .expression piece.2)
    (back : List Kind) (short : cursor.ahead.length ≤ limit) (enough : cursor.ahead.length ≤ rounds)
    (ahead : kindsAhead cursor = first ++ (joined pieces ++ .mark .closing :: back)) :
    ∃ given after, arguments rounds expression cursor = .ok (given, after) ∧ given.length = pieces.length + 1 ∧
      kindsAhead after = .mark .closing :: back ∧ after.ahead.length ≤ cursor.ahead.length := by
  have unclosed : cursor.accept? (· == .mark .closing) = none := by
    apply accept_unwanted
    intro kind kinds same
    obtain ⟨start, others, rfl, starts⟩ := starts_expression head (by simp)
    cases same.symm.trans ahead
    rcases starts with rfl | rfl | rfl | rfl <;> rfl
  obtain ⟨kind, others, same, separates⟩ := separated commas back
  obtain ⟨argument, middle, read, left, consumed⟩ := accepts.before separates head (same ▸ ahead) short
  obtain ⟨exprs, final, listed, count, closing, fewer⟩ :=
    argumentsFrom_accepts accepts pieces commas derived back rounds middle (by omega) (by omega) (left.trans same.symm)
  refine ⟨argument :: exprs, final, ?_, by simp [count], closing, by omega⟩
  simp only [arguments, unclosed, read, ok_bind, listed]
  rfl

theorem arguments_accepts (accepts : AcceptsExpressions limit expression) (rounds : Nat) {inside back : List Kind}
    (holds : Inside inside) (short : cursor.ahead.length ≤ limit) (enough : cursor.ahead.length ≤ rounds)
    (ahead : kindsAhead cursor = inside ++ .mark .closing :: back) :
    ∃ given after, arguments rounds expression cursor = .ok (given, after) ∧
      kindsAhead after = .mark .closing :: back ∧ after.ahead.length ≤ cursor.ahead.length := by
  rcases holds with rfl | some
  · obtain ⟨closing, after, closed, _⟩ := accept_wanted (· == .mark .closing) ahead rfl
    exact ⟨[], cursor, by simp [arguments, closed], ahead, Nat.le_refl _⟩
  · obtain ⟨first, head, _, ⟨pieces, rfl, commas, derived⟩, rfl⟩ := Language.mem_mul.mp some
    obtain ⟨given, after, read, _, left, fewer⟩ :=
      arguments_accepts_some accepts rounds head pieces (by simpa using commas) derived back short enough
        (by simpa using ahead)
    exact ⟨given, after, read, left, fewer⟩

end Primaries

section Calls

variable {limit rounds : Nat} {expression : Reader Expr} {rest : Language Kind}

theorem applied_unnumbered {callee : Expr} (unnumbered : ∀ token, callee ≠ .literal token) (opening : Token)
    (given : List Expr) (closing : Token) :
    applied callee opening given closing = .ok (.call callee given closing) := by
  cases callee with
  | literal token => exact absurd rfl (unnumbered token)
  | symbol | grouping | binary | unary | call => rfl

theorem groupsFrom_accepts (accepts : AcceptsExpressions (limit - 1) expression) (follows : Follows rest)
    (enough : limit ≤ rounds) (turns : Nat) (callee : Expr) (unnumbered : ∀ token, callee ≠ .literal token)
    (cursor : Cursor) (short : cursor.ahead.length ≤ limit) (many : cursor.ahead.length ≤ turns)
    (member : kindsAhead cursor ∈ behindCallee rest) :
    ∃ expr after, groupsFrom (arguments rounds expression) turns callee cursor = .ok (expr, after) ∧
      kindsAhead after ∈ behindUnary rest ∧ after.ahead.length ≤ cursor.ahead.length := by
  induction turns generalizing callee cursor with
  | zero =>
    have none : cursor.ahead = [] := List.length_eq_zero_iff.mp (by omega)
    exact ⟨callee, cursor, rfl, groups_over member (by simp [kindsAhead, none]), Nat.le_refl _⟩
  | succ turns ih =>
    rw [groupsFrom]
    cases accepted : cursor.accept? (· == .mark .opening) with
    | none =>
      refine ⟨callee, cursor, rfl, groups_over member ?_, Nat.le_refl _⟩
      intro others ahead
      cases accept_none accepted ahead
    | some passed =>
      obtain ⟨opening, behind⟩ := passed
      obtain ⟨place, agreed⟩ := accept_some accepted
      have opens : opening.kind = .mark .opening := by simpa using agreed
      have shorter : cursor.ahead.length = behind.ahead.length + 1 := by simp [place]
      have opened : .mark .opening :: kindsAhead behind ∈ behindCallee rest := by
        simpa [kindsAhead, place, opens] using member
      obtain ⟨inside, back, ahead, holds, further⟩ := group_goes_on follows opened
      obtain ⟨given, middle, read, left, consumed⟩ := arguments_accepts accepts rounds holds (by omega) (by omega) ahead
      obtain ⟨closing, after, closed, remains, fewer⟩ := expect_wanted .closingAfterArguments left
      obtain ⟨expr, final, grouped, ends, last⟩ :=
        ih (.call callee given closing) (by simp) after (by omega) (by omega) (remains ▸ further)
      refine ⟨expr, final, ?_, ends, by omega⟩
      simp only [read, ok_bind, closed, applied_unnumbered unnumbered]
      exact grouped

theorem scaled_accepts (accepts : AcceptsExpressions (limit - 1) expression) (follows : Follows rest)
    (enough : limit ≤ rounds) (turns : Nat) (number : Token) {inside back : List Kind} (cursor : Cursor)
    (short : cursor.ahead.length ≤ limit) (many : cursor.ahead.length ≤ turns)
    (only : Derives .expression inside) (further : back ∈ behindCallee rest)
    (ahead : kindsAhead cursor = .mark .opening :: (inside ++ .mark .closing :: back)) :
    ∃ expr after, groupsFrom (arguments rounds expression) turns (.literal number) cursor = .ok (expr, after) ∧
      kindsAhead after ∈ behindUnary rest ∧ after.ahead.length ≤ cursor.ahead.length := by
  obtain ⟨opening, behind, accepted, _, here, shorter⟩ := accept_wanted (· == .mark .opening) ahead rfl
  obtain ⟨turns, rfl⟩ : ∃ fewer, turns = fewer + 1 := ⟨turns - 1, by omega⟩
  obtain ⟨given, middle, read, count, left, consumed⟩ :=
    arguments_accepts_some accepts rounds only [] (by simp) (by simp) back (by omega) (by omega) here
  obtain ⟨factor, rfl⟩ := List.length_eq_one_iff.mp count
  obtain ⟨closing, after, closed, remains, fewer⟩ := expect_wanted .closingAfterArguments left
  obtain ⟨expr, final, grouped, ends, last⟩ :=
    groupsFrom_accepts accepts follows enough turns
      (.binary (.literal number) (.implied (.mark .star) opening.line opening.span.start) factor) (by simp) after
      (by omega) (by omega) (remains ▸ further)
  refine ⟨expr, final, ?_, ends, by omega⟩
  simp only [groupsFrom, accepted, read, ok_bind, closed, applied]
  exact grouped

/-- Behind a number that ends its statement, a parenthesis of the next statement counts
as a group too. -/
theorem number_accepts (accepts : AcceptsExpressions (limit - 1) expression) (follows : Follows rest)
    (enough : limit ≤ rounds) (turns : Nat) (number : Token) (cursor : Cursor)
    (short : cursor.ahead.length ≤ limit) (many : cursor.ahead.length ≤ turns)
    (member : kindsAhead cursor ∈ behindUnary rest) :
    ∃ expr after, groupsFrom (arguments rounds expression) turns (.literal number) cursor = .ok (expr, after) ∧
      kindsAhead after ∈ behindUnary rest ∧ after.ahead.length ≤ cursor.ahead.length := by
  cases accepted : cursor.accept? (· == .mark .opening) with
  | none =>
    refine ⟨.literal number, cursor, ?_, member, Nat.le_refl _⟩
    cases turns with
    | zero => rfl
    | succ turns => simp [groupsFrom, accepted]
  | some passed =>
    obtain ⟨opening, behind⟩ := passed
    obtain ⟨place, agreed⟩ := accept_some accepted
    have opens : opening.kind = .mark .opening := by simpa using agreed
    have ahead : kindsAhead cursor = .mark .opening :: kindsAhead behind := by simp [kindsAhead, place, opens]
    obtain ⟨inside, back, same, only, further⟩ := follows.opening _ (opening_outside (ahead ▸ member))
    exact scaled_accepts accepts follows enough turns number cursor short many only further (same ▸ ahead)

theorem primary_literal {cursor after : Cursor} {token : Token}
    (read : primary expression cursor = .ok (.literal token, after)) :
    cursor.accept? (· == .number) = some (token, after) := by
  unfold primary at read
  split at read
  next number behind accepted =>
    cases read
    exact accepted
  next =>
  split at read
  next => cases read
  next =>
  split at read
  next opening behind _ =>
    cases inner : expression behind with
    | error stop => simp [inner] at read
    | ok passed =>
      obtain ⟨expr, middle⟩ := passed
      cases closed : middle.expect (.mark .closing) .closingAfterExpression with
      | error stop => simp [inner, closed] at read
      | ok closing =>
        simp only [inner, ok_bind, closed] at read
        cases read
  next => cases read

theorem call_accepts (accepts : AcceptsExpressions (limit - 1) expression) (follows : Follows rest)
    (enough : limit ≤ rounds) : Accepts limit (phrases .call) (behindUnary rest) (call rounds expression) := by
  intro cursor short member
  obtain ⟨front, derived, back, tail, same⟩ := Language.mem_mul.mp member
  cases derived with
  | number =>
    obtain ⟨number, behind, accepted, _, here, shorter⟩ := accept_wanted (· == .number) same.symm rfl
    obtain ⟨expr, final, grouped, ends, last⟩ :=
      number_accepts accepts follows enough rounds number behind (by omega) (by omega) (by simpa [here] using tail)
    refine ⟨expr, final, ?_, ends, by omega⟩
    simp only [call, primary, accepted, ok_bind]
    exact grouped
  | scaled groups only derived =>
    obtain ⟨number, behind, accepted, _, here, shorter⟩ := accept_wanted (· == .number) same.symm rfl
    have further : groups.flatten ++ back ∈ behindCallee rest :=
      Language.mem_mul.mpr ⟨_, ⟨groups, rfl, derived⟩, back, tail, rfl⟩
    obtain ⟨expr, final, grouped, ends, last⟩ :=
      scaled_accepts accepts follows enough rounds number behind (by omega) (by omega) only further
        (by simpa using here)
    refine ⟨expr, final, ?_, ends, by omega⟩
    simp only [call, primary, accepted, ok_bind]
    exact grouped
  | @call first groups head unnumbered derived =>
    have member : kindsAhead cursor ∈ phrases .primary * behindCallee rest := by
      refine Language.mem_mul.mpr ⟨first, head, groups.flatten ++ back, ?_, by simpa using same⟩
      exact Language.mem_mul.mpr ⟨_, ⟨groups, rfl, derived⟩, back, tail, rfl⟩
    obtain ⟨callee, behind, read, remains, consumed⟩ := primary_accepts accepts _ cursor short member
    have separate : ∀ token, callee ≠ .literal token := by
      rintro token rfl
      obtain ⟨place, agreed⟩ := accept_some (primary_literal read)
      have number : token.kind = .number := by simpa using agreed
      have ahead : kindsAhead cursor = .number :: kindsAhead behind := by simp [kindsAhead, place, number]
      cases head with
      | literal => exact unnumbered rfl
      | symbol | grouping => cases same.trans ahead
    obtain ⟨expr, final, grouped, ends, last⟩ :=
      groupsFrom_accepts accepts follows enough rounds callee separate behind (by omega) (by omega) remains
    refine ⟨expr, final, ?_, ends, by omega⟩
    simp only [call, read, ok_bind]
    exact grouped

end Calls

section Ladder

variable {limit rounds : Nat} {unary expression : Reader Expr} {rest : Language Kind}
  (signed : Accepts limit (phrases .unary) (behindUnary rest) unary)
  (inner : AcceptsExpressions (limit - 1) expression) (follows : Follows rest) (enough : limit ≤ rounds)
include signed inner follows enough

theorem power_accepts : Accepts limit (phrases .power) (behindPower rest) (power rounds unary expression) := by
  intro cursor short member
  rw [power_behind] at member
  apply chain_accepts (behindUnary rest) signed _ repeated_over (primary_accepts inner _) rounds enough cursor short member
  intro kind kinds ahead sign
  obtain rfl : kind = .mark .caret := by simpa using sign
  exact exponent_goes_on follows ahead

theorem factor_accepts : Accepts limit (phrases .factor) (behindFactor rest) (factor rounds unary expression) := by
  intro cursor short member
  rw [factor_behind] at member
  have powers := power_accepts signed inner follows enough
  exact chain_accepts (behindPower rest) powers (fun _ _ => product_goes_on follows) repeated_over powers rounds
    enough cursor short member

theorem term_accepts : Accepts limit (phrases .expression) rest (term rounds unary expression) := by
  intro cursor short member
  rw [expression_behind] at member
  have factors := factor_accepts signed inner follows enough
  exact chain_accepts (behindFactor rest) factors (fun _ _ => sum_goes_on follows) repeated_over factors rounds
    enough cursor short member

end Ladder

/-- With two steps of depth and one round for every token ahead, nothing derivable is refused. -/
theorem ladder_accepts (rounds depth : Nat) :
    (∀ limit, limit ≤ rounds → 2 * limit ≤ depth → AcceptsExpressions limit (expression rounds depth)) ∧
    ∀ limit, limit ≤ rounds → 2 * limit ≤ depth + 1 → ∀ rest, Follows rest →
      Accepts limit (phrases .unary) (behindUnary rest) (unary rounds depth) := by
  induction depth with
  | zero =>
    -- Without depth there is no token ahead, and no phrase is empty.
    have vacuous : ∀ (phrase : Phrase), phrase ≠ .group → ∀ (rest : Language Kind) (cursor : Cursor),
        cursor.ahead.length ≤ 0 → kindsAhead cursor ∉ phrases phrase * rest := by
      intro phrase inner rest cursor short member
      obtain ⟨front, derived, back, _, same⟩ := Language.mem_mul.mp member
      obtain ⟨kind, others, rfl, _⟩ := starts_expression derived inner
      have lengths := congrArg List.length same
      simp only [kindsAhead, List.length_map, List.cons_append, List.length_cons] at lengths
      omega
    refine ⟨fun limit enough deep rest _ cursor short member => ?_, fun limit enough deep rest _ cursor short member => ?_⟩
    · exact absurd member (vacuous .expression (by simp) rest cursor (by omega))
    · exact absurd member (vacuous .unary (by simp) _ cursor (by omega))
  | succ depth ih =>
    refine ⟨fun limit enough deep rest follows => ?_, fun limit enough deep rest follows cursor short member => ?_⟩
    · exact term_accepts (ih.2 limit enough (by omega) rest follows) (ih.1 (limit - 1) (by omega) (by omega)) follows enough
    · obtain ⟨front, derived, back, tail, same⟩ := Language.mem_mul.mp member
      cases derived with
      | @negation operand derived =>
        obtain ⟨operator, behind, accepted, _, here, shorter⟩ := accept_wanted (· == .mark .minus) same.symm rfl
        have further : kindsAhead behind ∈ phrases .unary * behindUnary rest :=
          Language.mem_mul.mpr ⟨operand, derived, back, tail, here.symm⟩
        obtain ⟨expr, after, read, remains, fewer⟩ :=
          ih.2 (limit - 1) (by omega) (by omega) rest follows behind (by omega) further
        refine ⟨.unary operator expr, after, ?_, remains, by omega⟩
        simp only [unary, accepted, read, ok_bind]
        rfl
      | unary derived =>
        have unsigned : cursor.accept? (· == .mark .minus) = none := by
          apply accept_unwanted
          intro kind kinds ahead
          obtain ⟨start, others, rfl, unsigned⟩ := call_unsigned derived
          cases same.trans ahead
          simpa using unsigned
        have further : kindsAhead cursor ∈ phrases .call * behindUnary rest :=
          Language.mem_mul.mpr ⟨front, derived, back, tail, same⟩
        obtain ⟨expr, after, read, remains, fewer⟩ :=
          call_accepts (ih.1 (limit - 1) (by omega) (by omega)) follows enough cursor short further
        exact ⟨expr, after, by simpa only [unary, unsigned] using read, remains, fewer⟩

def declarations : Language Kind := {kinds | Declares kinds}

def programs : Language Kind := {kinds | Programs kinds}

theorem opening_primary {rest : Language Kind} {kinds : List Kind}
    (member : .mark .opening :: kinds ∈ phrases .unary * behindUnary rest) :
    ∃ inside back, kinds = inside ++ .mark .closing :: back ∧ Derives .expression inside ∧ back ∈ behindCallee rest := by
  obtain ⟨front, derived, back, tail, same⟩ := Language.mem_mul.mp member
  cases derived with
  | negation => cases same
  | unary called =>
    cases called with
    | number | scaled => cases same
    | call groups head unnumbered derived =>
      cases head with
      | literal | symbol => cases same
      | grouping inner =>
        simp only [List.cons_append, List.append_assoc, List.cons.injEq, true_and, List.nil_append] at same
        refine ⟨_, _, same.symm, inner, ?_⟩
        exact Language.mem_mul.mpr ⟨_, ⟨groups, rfl, derived⟩, back, tail, rfl⟩

theorem minus_unary {rest : Language Kind} {kinds : List Kind}
    (member : .mark .minus :: kinds ∈ phrases .unary * behindUnary rest) : kinds ∈ phrases .unary * behindUnary rest := by
  obtain ⟨front, derived, back, tail, same⟩ := Language.mem_mul.mp member
  cases derived with
  | negation derived =>
    cases same
    exact Language.mem_mul.mpr ⟨_, derived, back, tail, rfl⟩
  | unary called =>
    obtain ⟨kind, others, rfl, unsigned⟩ := call_unsigned called
    cases same
    exact absurd rfl unsigned

theorem programs_nonempty {kinds : List Kind} (member : kinds ∈ programs) : kinds ≠ [] := by
  induction member with
  | finish => simp
  | statement _ _ ih => simp [ih]

theorem programs_cons {kind : Kind} {kinds : List Kind} (member : kind :: kinds ∈ programs) :
    kind = .finish ∨ kind = .print ∨ kind = .name ∨
      Starts kind ∧ kind :: kinds ∈ phrases .unary * behindUnary programs := by
  generalize same : kind :: kinds = whole at member
  cases member with
  | finish =>
    cases same
    exact .inl rfl
  | statement head tail =>
    cases head with
    | print =>
      cases same
      exact .inr (.inl rfl)
    | assign | declare =>
      cases same
      exact .inr (.inr (.inl rfl))
    | expression derived =>
      obtain ⟨start, others, rfl, starts⟩ := starts_expression derived (by simp)
      refine .inr (.inr (.inr ⟨?_, ?_⟩))
      · cases same
        exact starts
      · rw [← power_behind, ← factor_behind, ← expression_behind]
        exact Language.mem_mul.mpr ⟨_, derived, _, tail, rfl⟩

theorem follows_programs : Follows programs := by
  constructor
  · intro kinds member
    rcases programs_cons member with same | same | same | ⟨_, further⟩
    · cases same
    · cases same
    · cases same
    · exact opening_primary further
  · intro kinds member
    rcases programs_cons member with same | same | same | ⟨_, further⟩
    · cases same
    · cases same
    · cases same
    · exact minus_unary further
  · intro kind kinds member
    rcases programs_cons member with rfl | rfl | rfl | ⟨starts, _⟩
    · decide
    · decide
    · decide
    · rcases starts with rfl | rfl | rfl | rfl <;> decide

section Heads

/-- The head of a declaration holds no operators and no parentheses but its own. -/
def Plain (token : Token) : Prop := token.kind = .name ∨ token.kind = .mark .comma

theorem spells_plain {phrase : Phrase} {tokens : List Token} {expr : Expr} (spelled : Spells phrase tokens expr)
    (plain : ∀ token ∈ tokens, Plain token) : ∃ name, expr = .symbol name := by
  induction spelled with
  | sum _ sign | product _ sign =>
    rcases plain _ (List.mem_append_right _ (List.mem_cons_self ..)) with kind | kind <;> simp [kind, isSum, isProduct] at sign
  | exponent _ sign =>
    rcases plain _ (List.mem_append_right _ (List.mem_cons_self ..)) with kind | kind <;> simp [kind] at sign
  | negation sign | literal sign | grouping sign =>
    rcases plain _ (List.mem_cons_self ..) with kind | kind <;> simp [kind] at sign
  | scaled sign => rcases plain _ (List.mem_cons_self ..) with kind | kind <;> simp [kind] at sign
  | invoked _ _ sign | applied _ _ sign =>
    rcases plain _ (List.mem_append_right _ (List.mem_cons_self ..)) with kind | kind <;> simp [kind] at sign
  | expression _ ih | factor _ ih | power _ ih | unary _ ih | call _ ih => exact ih plain
  | symbol => exact ⟨_, rfl⟩

theorem parameters_of_symbols {given : List Expr} (symbols : ∀ expr ∈ given, ∃ name, expr = .symbol name) :
    ∃ parameters, parameters? given = some parameters := by
  induction given with
  | nil => exact ⟨[], rfl⟩
  | cons expr rest ih =>
    obtain ⟨name, rfl⟩ := symbols expr (by simp)
    obtain ⟨parameters, found⟩ := ih fun item member => symbols item (by simp [member])
    exact ⟨name :: parameters, by simp [parameters?, found]⟩

theorem arguments_plain {inside : List Token} {given : List Expr} (arguments : SpellsArguments inside given)
    (plain : ∀ token ∈ inside, Plain token) : ∃ parameters, parameters? given = some parameters := by
  apply parameters_of_symbols
  rcases arguments with ⟨rfl, rfl⟩ | ⟨first, argument, back, others, rfl, rfl, head, further⟩
  · simp
  · obtain ⟨pieces, rfl, rfl, commas, rest⟩ := further
    intro expr member
    rcases List.mem_cons.mp member with rfl | later
    · exact spells_plain head fun token inside => plain token (by simp [inside])
    · obtain ⟨piece, present, rfl⟩ := List.mem_map.mp later
      refine spells_plain (rest piece present) fun token inside => plain token ?_
      apply List.mem_append_right
      exact List.mem_flatMap.mpr ⟨_, List.mem_map.mpr ⟨piece, present, rfl⟩, by simp [inside]⟩

theorem spells_call {phrase : Phrase} {tokens rest : List Token} {name second : Token} {expr : Expr}
    (spelled : Spells phrase tokens expr) (starts : tokens = name :: second :: rest) (kind : name.kind = .name)
    (calm : ∀ token ∈ tokens, isSum token.kind = false ∧ isProduct token.kind = false ∧ token.kind ≠ .mark .caret) :
    ∃ callee given last, expr = .call callee given last := by
  induction spelled with
  | sum _ sign => simp [(calm _ (List.mem_append_right _ (List.mem_cons_self ..))).1] at sign
  | product _ sign => simp [(calm _ (List.mem_append_right _ (List.mem_cons_self ..))).2.1] at sign
  | exponent _ sign => exact absurd sign (calm _ (List.mem_append_right _ (List.mem_cons_self ..))).2.2
  | negation sign | scaled sign | grouping sign =>
    obtain ⟨rfl, _⟩ := List.cons.inj starts
    simp [kind] at sign
  | literal | symbol => cases starts
  | expression _ ih | factor _ ih | power _ ih | unary _ ih | call _ ih => exact ih starts calm
  | invoked | applied => exact ⟨_, _, _, rfl⟩

/-- A name with one group of names behind it spells a call and nothing else. -/
theorem spells_head {name opening closing : Token} {listed : List Token} {expr : Expr}
    (kind : name.kind = .name) (opens : opening.kind = .mark .opening) (closes : closing.kind = .mark .closing)
    (plain : ∀ token ∈ listed, Plain token)
    (spelled : Spells .expression (name :: opening :: (listed ++ [closing])) expr) :
    ∃ given last parameters, expr = .call (.symbol name) given last ∧ parameters? given = some parameters := by
  have calm : ∀ token ∈ name :: opening :: (listed ++ [closing]),
      isSum token.kind = false ∧ isProduct token.kind = false ∧ token.kind ≠ .mark .caret := by
    intro token member
    simp only [List.mem_cons, List.mem_append, List.not_mem_nil, or_false] at member
    rcases member with rfl | rfl | inside | rfl
    · simp [kind, isSum, isProduct]
    · simp [opens, isSum, isProduct]
    · rcases plain token inside with same | same <;> simp [same, isSum, isProduct]
    · simp [closes, isSum, isProduct]
  obtain ⟨callee, given, last, rfl⟩ := spells_call spelled rfl kind calm
  obtain ⟨front, first, inside, same, head, firstOpens, _, arguments⟩ := call_tokens spelled
  cases front with
  | nil => exact absurd rfl head.nonempty
  | cons token front =>
    simp only [List.cons_append, List.cons.injEq] at same
    obtain ⟨rfl, same⟩ := same
    cases front with
    | nil =>
      simp only [List.nil_append, List.cons.injEq] at same
      obtain ⟨rfl, same⟩ := same
      obtain ⟨rfl, _⟩ := List.append_inj' same rfl
      obtain ⟨parameters, found⟩ := arguments_plain arguments plain
      obtain ⟨symbol, rfl⟩ := spells_plain head (by simpa using .inl kind)
      obtain ⟨same, _⟩ := head.symbol_tokens
      cases same
      exact ⟨given, last, parameters, rfl, found⟩
    | cons second front =>
      -- A second parenthesis would have to be one of the names, the commas or the closing one.
      simp only [List.cons_append, List.cons.injEq] at same
      have member : first ∈ listed ++ [closing] := by simp [same.2]
      rcases List.mem_append.mp member with inside | outside
      · rcases plain first inside with other | other <;> simp [other] at firstOpens
      · obtain rfl := List.mem_singleton.mp outside
        simp [closes] at firstOpens

end Heads

section Statements

variable {limit loose : Nat} {expression : Reader Expr} {cursor after : Cursor}

theorem programs_unequal (member : kindsAhead after ∈ programs) : after.accept? (· == .mark .equals) = none := by
  apply accept_unwanted
  intro kind kinds ahead
  rcases programs_cons (ahead ▸ member) with rfl | rfl | rfl | ⟨starts, _⟩
  · rfl
  · rfl
  · rfl
  · rcases starts with rfl | rfl | rfl | rfl <;> rfl

theorem head_accepts (accepts : AcceptsExpressions limit expression) (faithful : Faithful loose .expression expression)
    {inside back : List Kind} (derived : Derives .expression inside) (short : cursor.ahead.length ≤ limit)
    (ahead : kindsAhead cursor = inside ++ .mark .equals :: back) :
    ∃ expr after front, expression cursor = .ok (expr, after) ∧ kindsAhead after = .mark .equals :: back ∧
      front.map Token.kind = inside ∧ Spells .expression front expr ∧ after.ahead.length ≤ cursor.ahead.length := by
  obtain ⟨expr, after, read, left, fewer⟩ := accepts.before (.inr (.inr rfl)) derived ahead short
  have delivered := faithful [] cursor
  rw [read] at delivered
  obtain ⟨front, place, _, spelled⟩ := delivered
  refine ⟨expr, after, front, read, left, ?_, spelled, fewer⟩
  have whole : front.map Token.kind ++ kindsAhead after = inside ++ kindsAhead after := by
    rw [left, ← ahead, kindsAhead, place, List.map_append, ← left, kindsAhead]
  exact List.append_cancel_right whole

theorem declared_accepts (accepts : AcceptsExpressions limit expression) (faithful : Faithful loose .expression expression)
    {inside body back : List Kind} (derived : Derives .expression inside)
    (declares : ∀ front expr body, front.map Token.kind = inside → Spells .expression front expr →
      ∃ declaration, declared? (.expression expr) body = some declaration)
    (unprinted : cursor.accept? (· == .print) = none) (defined : Derives .expression body) (tail : Programs back)
    (short : cursor.ahead.length ≤ limit) (ahead : kindsAhead cursor = inside ++ .mark .equals :: (body ++ back)) :
    ∃ result after, statement expression cursor = .ok (result, after) ∧ kindsAhead after ∈ programs ∧
      after.ahead.length ≤ cursor.ahead.length := by
  obtain ⟨target, middle, front, read, left, kinds, spelled, fewer⟩ := head_accepts accepts faithful derived short ahead
  obtain ⟨equals, behind, accepted, _, here, shorter⟩ := accept_wanted (· == .mark .equals) left rfl
  have further : kindsAhead behind ∈ phrases .expression * programs :=
    Language.mem_mul.mpr ⟨body, defined, back, tail, here.symm⟩
  obtain ⟨value, after, bodyRead, remains, consumed⟩ := accepts programs follows_programs behind (by omega) further
  obtain ⟨declaration, declared⟩ := declares front target value kinds spelled
  refine ⟨declaration, after, ?_, remains, by omega⟩
  simp only [statement, plainStatement, unprinted, read, ok_bind, pure_bind, accepted, bodyRead, declared]
  rfl

theorem statement_accepts (accepts : AcceptsExpressions limit expression)
    (faithful : Faithful loose .expression expression) :
    Accepts limit declarations programs (statement expression) := by
  intro cursor short member
  obtain ⟨first, declares, back, tail, same⟩ := Language.mem_mul.mp member
  cases declares with
  | @print kinds derived =>
    obtain ⟨keyword, behind, accepted, _, here, shorter⟩ := accept_wanted (· == .print) same.symm rfl
    have further : kindsAhead behind ∈ phrases .expression * programs :=
      Language.mem_mul.mpr ⟨kinds, derived, back, tail, here.symm⟩
    obtain ⟨expr, after, read, remains, consumed⟩ := accepts programs follows_programs behind (by omega) further
    refine ⟨.print keyword expr, after, ?_, remains, by omega⟩
    simp only [statement, plainStatement, accepted, read, ok_bind, pure_bind, programs_unequal remains]
    rfl
  | expression derived =>
    have unprinted : cursor.accept? (· == .print) = none := by
      apply accept_unwanted
      intro kind kinds ahead
      obtain ⟨start, others, rfl, starts⟩ := starts_expression derived (by simp)
      cases same.trans ahead
      rcases starts with rfl | rfl | rfl | rfl <;> rfl
    have further : kindsAhead cursor ∈ phrases .expression * programs :=
      Language.mem_mul.mpr ⟨first, derived, back, tail, same⟩
    obtain ⟨expr, after, read, remains, consumed⟩ := accepts programs follows_programs cursor short further
    refine ⟨.expression expr, after, ?_, remains, consumed⟩
    simp only [statement, plainStatement, unprinted, read, ok_bind, pure_bind, programs_unequal remains]
    rfl
  | assign derived =>
    have unprinted : cursor.accept? (· == .print) = none :=
      accept_unwanted fun kind kinds ahead => by cases same.trans ahead; rfl
    apply declared_accepts accepts faithful Derives.symbol.of_primary.of_call _ unprinted derived tail short same.symm
    intro front expr body kinds spelled
    obtain ⟨token, rfl, kind⟩ := List.map_eq_singleton_iff.mp kinds
    obtain ⟨name, rfl⟩ := spells_plain spelled (by simpa using .inl kind)
    exact ⟨.assign name body, rfl⟩
  | @declare listed body names derived =>
    have unprinted : cursor.accept? (· == .print) = none :=
      accept_unwanted fun kind kinds ahead => by cases same.trans ahead; rfl
    have head := Derives.symbol.of_primary.snoc_group (by simp) names.group
    apply declared_accepts accepts faithful head.of_call _ unprinted derived tail short (by simp [← same])
    intro front expr value kinds spelled
    obtain ⟨name, front, rfl, kind, kinds⟩ := List.map_eq_cons_iff.mp kinds
    obtain ⟨opening, front, rfl, opens, kinds⟩ := List.map_eq_cons_iff.mp kinds
    obtain ⟨tokens, last, rfl, rfl, closed⟩ := List.map_eq_append_iff.mp kinds
    obtain ⟨closing, rfl, closes⟩ := List.map_eq_singleton_iff.mp closed
    have plain : ∀ token ∈ tokens, Plain token :=
      fun token member => names.plain token.kind (List.mem_map_of_mem member)
    obtain ⟨given, last, parameters, rfl, found⟩ := spells_head kind opens closes plain spelled
    exact ⟨.declare ⟨name, parameters, value⟩, by simp [declared?, found]⟩

theorem statementsFrom_accepts (accepts : AcceptsExpressions limit expression)
    (faithful : Faithful loose .expression expression) (rounds : Nat) (cursor : Cursor)
    (short : cursor.ahead.length ≤ limit) (enough : cursor.ahead.length ≤ rounds)
    (member : kindsAhead cursor ∈ programs) : ∃ statements, statementsFrom expression rounds cursor = .ok statements := by
  induction rounds generalizing cursor with
  | zero =>
    have none : cursor.ahead = [] := List.length_eq_zero_iff.mp (by omega)
    exact absurd (by simp [kindsAhead, none]) (programs_nonempty member)
  | succ rounds ih =>
    rw [statementsFrom]
    split
    next none => exact absurd (by simp [kindsAhead, none]) (programs_nonempty member)
    next token rest place =>
      split
      next => exact ⟨[], rfl⟩
      next unfinished =>
        have statements : kindsAhead cursor ∈ declarations * programs := by
          generalize ahead : kindsAhead cursor = kinds at member
          cases member with
          | finish => simp [kindsAhead, place, unfinished] at ahead
          | statement head tail => exact Language.mem_mul.mpr ⟨_, head, _, tail, rfl⟩
        obtain ⟨first, after, read, remains, _⟩ := statement_accepts accepts faithful cursor short statements
        have delivered : Delivers loose [] SpellsStatement cursor _ := statement_delivers faithful cursor
        rw [read] at delivered
        obtain ⟨front, same, _, spelled⟩ := delivered
        have filled := List.length_pos_iff.mpr spelled.nonempty
        have shorter := congrArg List.length same
        rw [List.length_append] at shorter
        obtain ⟨others, settled⟩ := ih after (by omega) (by omega) remains
        exact ⟨first :: others, by simp only [read, ok_bind, settled]; rfl⟩

end Statements

theorem first_finish {body front rest : List Token} {finish last : Token}
    (unfinished : ∀ token ∈ body, token.kind ≠ .finish) (ended : last.kind = .finish)
    (same : body ++ [finish] = front ++ last :: rest) : body = front := by
  rcases List.append_eq_append_iff.mp same with ⟨more, rfl, tail⟩ | ⟨more, rfl, tail⟩
  · cases more with
    | nil => simp
    | cons token others => simp at tail
  · cases more with
    | nil => simp
    | cons token others =>
      cases tail
      exact absurd ended (unfinished last (by simp))

/-- With two steps of depth for every token, exactly the token sequences of the language
are read, into statements that they spell; every other one is a parse failure. -/
theorem program_accepts_exactly (depth : Nat) (body : List Token) (finish : Token)
    (unfinished : ∀ token ∈ body, token.kind ≠ .finish) (finished : finish.kind = .finish)
    (deep : 2 * (body.length + 2) ≤ depth) :
    ((∃ statements, program depth (body ++ [finish]) = .ok statements) ↔
      Programs ((body ++ [finish]).map Token.kind)) ∧
    (∀ statements, program depth (body ++ [finish]) = .ok statements → SpellsProgram body statements) ∧
    ((¬ ∃ statements, program depth (body ++ [finish]) = .ok statements) →
      ∃ failure, program depth (body ++ [finish]) = .error (.failed failure) ∧ failure.kind = .parse) := by
  have settles := program_settles depth (body ++ [finish]) (body.length + 2) deep
  have spells : ∀ statements, program depth (body ++ [finish]) = .ok statements → SpellsProgram body statements := by
    intro statements read
    rw [read] at settles
    obtain ⟨front, last, rest, same, _, ended, spelled⟩ := settles
    rw [first_finish unfinished ended same]
    exact spelled
  refine ⟨⟨?_, ?_⟩, spells, ?_⟩
  · rintro ⟨statements, read⟩
    simpa [finished] using (spells statements read).programs
  · intro member
    have short : (body ++ [finish]).length ≤ body.length + 1 := by simp
    exact statementsFrom_accepts ((ladder_accepts _ depth).1 (body.length + 1) (by simp) (by omega))
      ((ladder_faithful _ depth).1 0 (by omega)) _ (.ofTokens _) short (Nat.le_refl _) member
  · intro refused
    cases read : program depth (body ++ [finish]) with
    | ok statements => exact absurd ⟨statements, read⟩ refused
    | error stop =>
      rw [read] at settles
      match stop with
      | .failed failure => exact ⟨failure, rfl, settles.1⟩
      | .tooDeep =>
        simp only [Settles, Delivers, Cursor.ofTokens, List.length_append, List.length_singleton] at settles
        omega
      | .broken fault => exact absurd finished (settles finish (by simp [Cursor.ofTokens]))

/-- The tokens of `2^3(4)`, a power and behind it a statement of its own. -/
def powerThenGroup : List Token :=
  [⟨.number, "2", some 2, 1, ⟨0, 1⟩⟩, ⟨.mark .caret, "^", none, 1, ⟨1, 2⟩⟩, ⟨.number, "3", some 3, 1, ⟨2, 3⟩⟩,
    ⟨.mark .opening, "(", none, 1, ⟨3, 4⟩⟩, ⟨.number, "4", some 4, 1, ⟨4, 5⟩⟩, ⟨.mark .closing, ")", none, 1, ⟨5, 6⟩⟩]

theorem program_accepts_exactly_power_then_group :
    (∀ token ∈ powerThenGroup, token.kind ≠ .finish) ∧
    Programs ((powerThenGroup ++ [Token.implied .finish 1 6]).map Token.kind) ∧
    ∃ power group, program 16 (powerThenGroup ++ [Token.implied .finish 1 6]) = .ok [power, group] ∧
      SpellsProgram powerThenGroup [power, group] := by
  have unfinished : ∀ token ∈ powerThenGroup, token.kind ≠ .finish := by decide
  have accepts := program_accepts_exactly 16 powerThenGroup (.implied .finish 1 6) unfinished rfl (by decide)
  have read : program 16 (powerThenGroup ++ [Token.implied .finish 1 6]) = .ok [_, _] := rfl
  exact ⟨unfinished, accepts.1.mp ⟨_, read⟩, _, _, read, accepts.2.1 _ read⟩

end Reckoner.Proofs.GrammarAcceptance
