import Reckoner.Proofs.GrammarLookahead

/-! Where reading stops for the first thing that is wrong. A token that does not fit is
blamed before it is passed. A declaration of something that cannot be declared is blamed
when its initializer has been read, and a number with too many or too few factors in
parentheses when these are closed. Up to there everything is complete, or begun and in
want of more. -/

namespace Reckoner.Proofs.FirstFailure
open Grammar GrammarPhrases GrammarReading GrammarWalk GrammarLookahead

/-- Tokens behind which a phrase is to come. Everything among them is complete but for the
phrases that this one is a part of. -/
inductive Open : Phrase → List Token → Prop where
  | plain {done : List Token} {statements : List Statement} (before : SpellsProgram done statements) :
      Open .expression done
  | print {done : List Token} {statements : List Statement} {keyword : Token}
      (before : SpellsProgram done statements) (kind : keyword.kind = .print) :
      Open .expression (done ++ [keyword])
  | initializer {done head : List Token} {statements : List Statement} {left : Statement} {equals : Token}
      (before : SpellsProgram done statements) (spelled : SpellsStatement head left)
      (sign : equals.kind = .mark .equals) : Open .expression (done ++ head ++ [equals])
  | factor {seen : List Token} (before : Open .expression seen) : Open .factor seen
  | power {seen : List Token} (before : Open .factor seen) : Open .power seen
  | unary {seen : List Token} (before : Open .power seen) : Open .unary seen
  | call {seen : List Token} (before : Open .unary seen) : Open .call seen
  | primary {seen : List Token} (before : Open .call seen) : Open .primary seen
  | sum {seen front : List Token} {operator : Token} {left : Expr} (before : Open .expression seen)
      (first : Spells .expression front left) (sign : isSum operator.kind) :
      Open .factor (seen ++ front ++ [operator])
  | product {seen front : List Token} {operator : Token} {left : Expr} (before : Open .factor seen)
      (first : Spells .factor front left) (sign : isProduct operator.kind) :
      Open .power (seen ++ front ++ [operator])
  | exponent {seen front : List Token} {operator : Token} {left : Expr} (before : Open .power seen)
      (first : Spells .power front left) (sign : operator.kind = .mark .caret) :
      Open .primary (seen ++ front ++ [operator])
  | negation {seen : List Token} {operator : Token} (before : Open .unary seen)
      (sign : operator.kind = .mark .minus) : Open .unary (seen ++ [operator])
  | grouping {seen : List Token} {opening : Token} (before : Open .primary seen)
      (opens : opening.kind = .mark .opening) : Open .expression (seen ++ [opening])
  | argument {seen front : List Token} {opening : Token} {callee : Expr} (before : Open .call seen)
      (head : Spells .call front callee) (opens : opening.kind = .mark .opening) :
      Open .expression (seen ++ front ++ [opening])
  | further {seen front inside : List Token} {opening comma : Token} {callee : Expr} {given : List Expr}
      (before : Open .call seen) (head : Spells .call front callee) (opens : opening.kind = .mark .opening)
      (arguments : SpellsArguments inside given) (some : given ≠ []) (sign : comma.kind = .mark .comma) :
      Open .expression (seen ++ front ++ opening :: (inside ++ [comma]))

/-- Why reading stopped at a cursor when it had consumed certain tokens. -/
inductive Halts (consumed : List Token) (cursor : Cursor) (failure : Failure) : Prop where
  /-- The next token, or the end, is not what has to come. -/
  | unexpected {next : Token} {rest : List Token} (wanted : Failure.Expectation) (place : cursor.ahead = next :: rest)
      (cause : failure.cause =
        if next.kind = .finish then .unexpectedEnd wanted else .unexpectedToken next.lexeme wanted)
      (site : failure.site = some next.span) (hint : failure.hint = hint? cursor.previous next.kind)
  /-- A declaration has just got its initializer, and declares nothing. -/
  | undeclarable {done head body : List Token} {statements : List Statement} {left : Statement} {right : Expr}
      {equals : Token} (before : SpellsProgram done statements) (spelled : SpellsStatement head left)
      (sign : equals.kind = .mark .equals) (initializer : Spells .expression body right)
      (undeclared : declared? left right = none) (whole : consumed = done ++ head ++ equals :: body)
      (cause : failure.cause = .notDeclarable) (site : failure.site = some equals.span)
  /-- The group behind a number has just been closed, and does not hold one factor. -/
  | miscounted {seen inside : List Token} {number opening closing : Token} {given : List Expr}
      (before : Open .call seen) (kind : number.kind = .number) (opens : opening.kind = .mark .opening)
      (closes : closing.kind = .mark .closing) (arguments : SpellsArguments inside given) (several : given.length ≠ 1)
      (whole : consumed = seen ++ number :: opening :: (inside ++ [closing]))
      (cause : failure.cause = .groupCount given.length) (site : failure.site = some opening.span)

variable {α β : Type} {seen : List Token} {cursor : Cursor}

/-- What the tokens passed mean, or why there were no more of them. -/
def Outcome (seen front : List Token) (means : List Token → α → Prop) (after : Cursor) : Except Stop α → Prop
  | .ok value => means front value
  | .error (.failed failure) => Halts (seen ++ front) after failure
  | .error .tooDeep => True
  | .error (.broken _) => True

/-- A walk that sets out behind certain tokens, and what it comes to. -/
def Stops (seen : List Token) (means : List Token → α → Prop) (cursor : Cursor) (ended : Except Stop α × Cursor) : Prop :=
  ∃ front, cursor.ahead = front ++ ended.2.ahead ∧ (∀ token ∈ front, token.kind ≠ .finish) ∧
    Outcome seen front means ended.2 ended.1

theorem Stops.behind {means : List Token → α → Prop} {ended : Except Stop α × Cursor} {after : Cursor}
    (passed : List Token) (place : cursor.ahead = passed ++ after.ahead)
    (unfinished : ∀ token ∈ passed, token.kind ≠ .finish)
    (rest : Stops (seen ++ passed) (fun back => means (passed ++ back)) after ended) : Stops seen means cursor ended := by
  obtain ⟨front, same, clean, outcome⟩ := rest
  refine ⟨passed ++ front, by rw [place, same, List.append_assoc], ?_, ?_⟩
  · intro token member
    rcases List.mem_append.mp member with first | second
    · exact unfinished token first
    · exact clean token second
  · match ended with
    | (.ok value, final) => exact outcome
    | (.error (.failed failure), final) =>
      simp only [Outcome, List.append_assoc] at outcome ⊢
      exact outcome
    | (.error .tooDeep, final) => trivial
    | (.error (.broken fault), final) => trivial

theorem Stops.bind {first : List Token → α → Prop} {means : List Token → β → Prop} {walk : Walk α} {next : α → Walk β}
    (stops : Stops seen first cursor (walk cursor))
    (rest : ∀ front value after, first front value →
      Stops (seen ++ front) (fun back => means (front ++ back)) after (next value after)) :
    Stops seen means cursor ((walk >>= next) cursor) := by
  rw [walk_bind]
  generalize walk cursor = ended at stops ⊢
  match ended with
  | (.ok value, middle) =>
    obtain ⟨front, place, unfinished, holds⟩ := stops
    exact .behind front place unfinished (rest front value middle holds)
  | (.error (.failed failure), middle) => exact stops
  | (.error .tooDeep, middle) => exact stops
  | (.error (.broken fault), middle) => exact stops

theorem stops_here {means : List Token → α → Prop} {value : α} (holds : means [] value) :
    Stops seen means cursor (.ok value, cursor) :=
  ⟨[], rfl, by simp, holds⟩

theorem Stops.mono {first second : List Token → α → Prop} {ended : Except Stop α × Cursor}
    (stops : Stops seen first cursor ended) (implies : ∀ front value, first front value → second front value) :
    Stops seen second cursor ended := by
  obtain ⟨front, place, unfinished, outcome⟩ := stops
  refine ⟨front, place, unfinished, ?_⟩
  match ended with
  | (.ok value, final) => exact implies front value outcome
  | (.error (.failed failure), final) => exact outcome
  | (.error .tooDeep, final) => trivial
  | (.error (.broken fault), final) => trivial

theorem Stops.passing {means : List Token → α → Prop} {wanted : Kind → Bool} {next : Option Token → Walk α}
    (unfinished : wanted .finish = false) (missed : Stops seen means cursor (next none cursor))
    (passed : ∀ token after, wanted token.kind = true →
      Stops (seen ++ [token]) (fun back => means (token :: back)) after (next (some token) after)) :
    Stops seen means cursor ((Walk.pass? wanted >>= next) cursor) := by
  rw [pass_bind]
  cases accepted : cursor.accept? wanted with
  | none => exact missed
  | some found =>
    obtain ⟨token, after⟩ := found
    obtain ⟨place, agreed⟩ := accept_some accepted
    have apart : token.kind ≠ .finish := fun same => by simp [same, unfinished] at agreed
    exact .behind [token] place (by simpa using apart) (passed token after agreed)

theorem refuse_stops {means : List Token → α → Prop} (wanted : Failure.Expectation) :
    Stops seen means cursor ((Walk.refuse wanted : Walk α) cursor) := by
  refine ⟨[], rfl, by simp, ?_⟩
  rcases cursor with ⟨previous, _ | ⟨token, rest⟩⟩
  · trivial
  · exact .unexpected wanted rfl rfl rfl rfl

theorem expect_stops (kind : Kind) (wanted : Failure.Expectation) (unfinished : kind ≠ .finish) :
    Stops seen (fun front token => front = [token] ∧ token.kind = kind) cursor (Walk.expect kind wanted cursor) := by
  refine .passing (by simpa using unfinished.symm) (refuse_stops wanted) fun token after agreed => ?_
  exact stops_here ⟨rfl, by simpa using agreed⟩

/-- A walk over a phrase, wherever the phrase may come. -/
def Sound (phrase : Phrase) (walk : Walk Expr) : Prop :=
  ∀ seen cursor, Open phrase seen → Stops seen (Spells phrase) cursor (walk cursor)

section Chains

variable {wanted : Kind → Bool} {phrase next : Phrase} {operand : Walk Expr}
  (unfinished : wanted .finish = false) (sound : Sound next operand)
  (opens : ∀ {seen front : List Token} {operator : Token} {left : Expr}, Open phrase seen → Spells phrase front left →
    wanted operator.kind = true → Open next (seen ++ front ++ [operator]))
  (grows : ∀ {front back : List Token} {operator : Token} {left right : Expr}, Spells phrase front left →
    wanted operator.kind = true → Spells next back right →
    Spells phrase (front ++ operator :: back) (.binary left operator right))
include unfinished sound opens grows

theorem chainFrom_stops (before : Open phrase seen) (rounds : Nat) (left : Expr) (passed : List Token)
    (spelled : Spells phrase passed left) (cursor : Cursor) :
    Stops (seen ++ passed) (fun back => Spells phrase (passed ++ back)) cursor
      (Walk.chainFrom wanted operand rounds left cursor) := by
  induction rounds generalizing left passed cursor with
  | zero => exact stops_here (by simpa using spelled)
  | succ rounds ih =>
    refine .passing unfinished (stops_here (by simpa using spelled)) fun operator after agreed => ?_
    refine .bind (sound _ after (opens before spelled agreed)) fun back right final second => ?_
    have more := ih _ _ (grows spelled agreed second) final
    simpa using more

theorem chain_sound {below : Phrase} {first : Walk Expr} (start : Sound below first)
    (enters : ∀ {seen}, Open phrase seen → Open below seen)
    (lifts : ∀ {tokens expr}, Spells below tokens expr → Spells phrase tokens expr) (rounds : Nat) :
    Sound phrase (Walk.chain rounds wanted first operand) := by
  intro seen cursor before
  refine .bind (start seen cursor (enters before)) fun front left after spelled => ?_
  exact chainFrom_stops unfinished sound opens grows before rounds left front (lifts spelled) after

end Chains

section Groups

variable {expression : Walk Expr} (sound : Sound .expression expression)

theorem arguments_snoc {inside tokens : List Token} {given : List Expr} {comma : Token} {expr : Expr}
    (arguments : SpellsArguments inside given) (some : given ≠ []) (sign : comma.kind = .mark .comma)
    (last : Spells .expression tokens expr) : SpellsArguments (inside ++ comma :: tokens) (given ++ [expr]) := by
  rcases arguments with ⟨-, none⟩ | ⟨first, argument, back, _, rfl, rfl, head, others, rfl, rfl, commas, spelled⟩
  · exact absurd none some
  · refine .inr ⟨first, argument, furtherTokens others ++ comma :: tokens, others.map Further.expr ++ [expr], by simp,
      rfl, head, others ++ [⟨comma, expr, tokens⟩], ?_, by simp, ?_, ?_⟩
    · simp [furtherTokens]
    · simpa [or_imp, forall_and, sign] using commas
    · simpa [or_imp, forall_and, last] using spelled

section Arguments

variable {front : List Token} {opening : Token} {callee : Expr} (before : Open .call seen)
  (head : Spells .call front callee) (opens : opening.kind = .mark .opening)
include sound before head opens

theorem argumentsFrom_stops (rounds : Nat) (inside : List Token) (given : List Expr)
    (arguments : SpellsArguments inside given) (some : given ≠ []) (cursor : Cursor) :
    Stops (seen ++ front ++ opening :: inside) (fun back others => SpellsArguments (inside ++ back) (given ++ others))
      cursor (Walk.argumentsFrom expression rounds cursor) := by
  induction rounds generalizing inside given cursor with
  | zero => exact stops_here (by simpa using arguments)
  | succ rounds ih =>
    refine .passing rfl (stops_here (by simpa using arguments)) fun comma after agreed => ?_
    have sign : comma.kind = .mark .comma := by simpa using agreed
    have context := Open.further before head opens arguments some sign
    rw [List.append_assoc, List.cons_append]
    refine .bind (sound _ after context) fun tokens argument middle spelled => ?_
    have place : seen ++ front ++ opening :: (inside ++ [comma]) ++ tokens =
        seen ++ front ++ opening :: (inside ++ comma :: tokens) := by simp
    rw [place]
    refine .bind (ih _ _ (arguments_snoc arguments some sign spelled) (by simp) middle) ?_
    intro back others final rest
    exact stops_here (by simpa using rest)

theorem arguments_stops (rounds : Nat) (cursor : Cursor) :
    Stops (seen ++ front ++ [opening]) SpellsArguments cursor (Walk.arguments rounds expression cursor) := by
  rw [Walk.arguments, next_bind]
  split
  · exact stops_here (.inl ⟨rfl, rfl⟩)
  · refine .bind (sound _ cursor (.argument before head opens)) fun inside argument after spelled => ?_
    have single : SpellsArguments inside [argument] :=
      .inr ⟨inside, argument, [], [], by simp, rfl, spelled, [], rfl, rfl, by simp, by simp⟩
    have more := argumentsFrom_stops sound before head opens rounds inside [argument] single (by simp) after
    rw [List.append_assoc _ [opening] inside]
    refine .bind more fun back others final rest => stops_here ?_
    simpa using rest

end Arguments

theorem primary_sound (sound : Sound .expression expression) : Sound .primary (Walk.primary expression) := by
  intro seen cursor before
  refine .passing rfl ?_ fun number after agreed => stops_here (.literal (by simpa using agreed))
  refine .passing rfl ?_ fun name after agreed => stops_here (.symbol (by simpa using agreed))
  refine .passing rfl (refuse_stops .expression) fun opening after agreed => ?_
  have opens : opening.kind = .mark .opening := by simpa using agreed
  refine .bind (sound _ after (.grouping before opens)) fun inside inner middle spelled => ?_
  refine .bind (expect_stops _ _ (by simp)) ?_
  rintro _ closing final ⟨rfl, closes⟩
  exact stops_here (by simpa using Spells.grouping opens closes spelled)

/-- Only a number refuses a group, and only one that does not hold one expression. -/
theorem applied_refuses {callee : Expr} {opening closing : Token} {given : List Expr} {stop : Stop}
    (refused : applied callee opening given closing = .error stop) :
    ∃ number failure, callee = .literal number ∧ stop = .failed failure ∧ given.length ≠ 1 ∧
      failure.cause = .groupCount given.length ∧ failure.site = some opening.span := by
  cases callee with
  | symbol | grouping | binary | unary | call => cases refused
  | literal number =>
    match given with
    | [factor] => cases refused
    | [] | _ :: _ :: _ =>
      cases refused
      exact ⟨number, _, rfl, rfl, by simp, rfl, rfl⟩

theorem groupsFrom_stops {inside : Walk (List Expr)} (before : Open .call seen)
    (lists : ∀ {front : List Token} {opening : Token} {callee : Expr} (cursor : Cursor), Spells .call front callee →
      opening.kind = .mark .opening → Stops (seen ++ front ++ [opening]) SpellsArguments cursor (inside cursor))
    (rounds : Nat) (callee : Expr) (passed : List Token) (spelled : Spells .call passed callee) (cursor : Cursor) :
    Stops (seen ++ passed) (fun back => Spells .call (passed ++ back)) cursor
      (Walk.groupsFrom inside rounds callee cursor) := by
  induction rounds generalizing callee passed cursor with
  | zero => exact stops_here (by simpa using spelled)
  | succ rounds ih =>
    refine .passing rfl (stops_here (by simpa using spelled)) fun opening after agreed => ?_
    have opens : opening.kind = .mark .opening := by simpa using agreed
    refine .bind (lists after spelled opens) fun front given middle arguments => ?_
    refine .bind (expect_stops _ _ (by simp)) ?_
    rintro _ closing final ⟨rfl, closes⟩
    rw [walk_bind, Walk.settled]
    cases made : applied callee opening given closing with
    | error stop =>
      obtain ⟨number, failure, rfl, rfl, several, cause, site⟩ := applied_refuses made
      obtain ⟨rfl, kind⟩ := spelled.literal_tokens
      refine ⟨[], rfl, by simp, ?_⟩
      exact .miscounted before kind opens closes arguments several (by simp) cause site
    | ok expr =>
      have larger := applied_spells spelled opens closes arguments
      simp only [made, Except.ok.injEq, exists_eq_left', reduceCtorEq, false_and, exists_false, or_false] at larger
      simpa using ih expr _ larger final

theorem call_sound (sound : Sound .expression expression) (rounds : Nat) : Sound .call (Walk.call rounds expression) := by
  intro seen cursor before
  refine .bind (primary_sound sound seen cursor (.primary before)) fun front callee after spelled => ?_
  refine groupsFrom_stops before ?_ rounds callee front (.call spelled) after
  intro front opening callee cursor head opens
  exact arguments_stops sound before head opens rounds cursor

end Groups

section Terms

variable {unary expression : Walk Expr} (sound : Sound .expression expression) (signed : Sound .unary unary) (rounds : Nat)
include sound signed

theorem power_sound : Sound .power (Walk.power rounds unary expression) :=
  chain_sound rfl (primary_sound sound) (fun before first sign => .exponent before first (by simpa using sign))
    (fun first sign second => .exponent first (by simpa using sign) second) signed .unary .power rounds

theorem factor_sound : Sound .factor (Walk.factor rounds unary expression) :=
  have power := power_sound sound signed rounds
  chain_sound rfl power .product .product power .power .factor rounds

theorem term_sound : Sound .expression (Walk.term rounds unary expression) :=
  have factor := factor_sound sound signed rounds
  chain_sound rfl factor .sum .sum factor .factor .expression rounds

end Terms

theorem ladder_sound (rounds depth : Nat) :
    Sound .expression (Walk.expression rounds depth) ∧ Sound .unary (Walk.unary rounds depth) := by
  induction depth with
  | zero => exact ⟨fun _ _ _ => ⟨[], rfl, by simp, trivial⟩, fun _ _ _ => ⟨[], rfl, by simp, trivial⟩⟩
  | succ depth ih =>
    refine ⟨term_sound ih.1 ih.2 rounds, fun seen cursor before => ?_⟩
    rw [Walk.unary]
    refine .passing rfl ?_ fun operator after agreed => ?_
    · exact (call_sound ih.1 rounds seen cursor (.call before)).mono fun _ _ spelled => .unary spelled
    · have sign : operator.kind = .mark .minus := by simpa using agreed
      refine .bind (ih.2 _ after (.negation before sign)) fun back operand final spelled => ?_
      exact stops_here (by simpa using Spells.negation sign spelled)

theorem program_snoc {done front : List Token} {statements : List Statement} {last : Statement}
    (before : SpellsProgram done statements) (spelled : SpellsStatement front last) :
    SpellsProgram (done ++ front) (statements ++ [last]) := by
  induction before with
  | finish => simpa using SpellsProgram.statement spelled .finish
  | statement head tail ih => simpa using SpellsProgram.statement head ih

section Statements

variable {expression : Walk Expr} (sound : Sound .expression expression) {done : List Token}
  {statements : List Statement} (before : SpellsProgram done statements)
include sound before

theorem plainStatement_stops (cursor : Cursor) :
    Stops done SpellsStatement cursor (Walk.plainStatement expression cursor) := by
  refine .passing rfl ?_ fun keyword after agreed => ?_
  · refine .bind (sound done cursor (.plain before)) fun front expr final spelled => ?_
    exact stops_here (by simpa using SpellsStatement.expression spelled)
  · have kind : keyword.kind = .print := by simpa using agreed
    refine .bind (sound _ after (.print before kind)) fun front expr final spelled => ?_
    exact stops_here (by simpa using SpellsStatement.print kind spelled)

theorem statement_stops (cursor : Cursor) :
    Stops done SpellsStatement cursor (Walk.statement expression cursor) := by
  refine .bind (plainStatement_stops sound before cursor) fun front head after left => ?_
  refine .passing rfl (stops_here (by simpa using left)) fun equals behind agreed => ?_
  have sign : equals.kind = .mark .equals := by simpa using agreed
  refine .bind (sound _ behind (.initializer before left sign)) fun back body final right => ?_
  rw [Walk.declared, Walk.settled]
  cases declares : declared? head body with
  | some declaration => exact stops_here (by simpa using declared_spells left sign right declares)
  | none =>
    refine ⟨[], rfl, by simp, ?_⟩
    exact .undeclarable before left sign right declares (by simp) rfl rfl

/-- With every round there is one more complete statement behind the cursor. -/
theorem statementsFrom_stops (rounds : Nat) (cursor : Cursor) :
    Stops done (fun _ _ => True) cursor (Walk.statementsFrom expression rounds cursor) := by
  induction rounds generalizing done statements cursor with
  | zero => exact ⟨[], rfl, by simp, trivial⟩
  | succ rounds ih =>
    rw [Walk.statementsFrom, next_bind]
    cases cursor.ahead.head? with
    | none => exact ⟨[], rfl, by simp, trivial⟩
    | some token =>
    dsimp only
    split
    · exact stops_here trivial
    · refine .bind (statement_stops sound before cursor) fun front first after spelled => ?_
      exact .bind (ih (program_snoc before spelled) after) fun back others final _ => stops_here trivial

end Statements

/-- Reading stops at the first thing that is wrong, and whether it does depends on no more
than the tokens consumed by then and the next one. -/
theorem program_fails_fast {depth : Nat} {tokens : List Token} {failure : Failure}
    (ended : ∃ token ∈ tokens, token.kind = .finish) (failed : program depth tokens = .error (.failed failure)) :
    ∃ consumed next rest previous, tokens = consumed ++ next :: rest ∧
      Walk.program depth tokens = (.error (.failed failure), ⟨previous, next :: rest⟩) ∧
      Halts consumed ⟨previous, next :: rest⟩ failure ∧
      ∀ others, consumed ++ [next] <+: others → program depth others = .error (.failed failure) := by
  rw [program_follows] at failed
  have stops : Stops [] (fun _ _ => True) (.ofTokens tokens) (Walk.program depth tokens) :=
    statementsFrom_stops (ladder_sound tokens.length depth).1 .finish tokens.length (.ofTokens tokens)
  rcases walked : Walk.program depth tokens with ⟨result, previous, ahead⟩
  rw [walked] at failed stops
  obtain rfl : result = .error (.failed failure) := failed
  obtain ⟨consumed, place, unfinished, halts⟩ := stops
  obtain ⟨front, split, agrees⟩ := program_looks walked
  obtain rfl := List.append_cancel_right (place.symm.trans split)
  -- What was consumed holds no end, so there is a token left to look at.
  cases ahead with
  | nil =>
    obtain ⟨token, member, finish⟩ := ended
    exact absurd finish (unfinished token (by simpa [split] using member))
  | cons next rest =>
    refine ⟨consumed, next, rest, previous, split, rfl, halts, ?_⟩
    rintro others ⟨more, rfl⟩
    rw [program_follows, List.append_assoc, agrees ([next] ++ more) rfl]

/-- The group behind `4` is closed before the declaration in which it stands can turn out
to be none, and before the last parenthesis can be missed. -/
theorem program_fails_fast_inside_declaration :
    ∃ tokens failure consumed next rest previous,
      Token.scan "f(x) = 2x\n1 = 3 + 4(5, 6) * (".toList = .ok tokens ∧
      failure.cause = .groupCount 2 ∧ failure.site = some ⟨19, 20⟩ ∧
      tokens = consumed ++ next :: rest ∧ consumed.length = 18 ∧
      Halts consumed ⟨previous, next :: rest⟩ failure ∧ program 20 tokens = .error (.failed failure) ∧
      program 20 (consumed ++ [next, .implied .finish 2 28]) = .error (.failed failure) := by
  obtain ⟨tokens, failure, scanned, failed, cause, site, ended, left⟩ :
      ∃ tokens failure, Token.scan "f(x) = 2x\n1 = 3 + 4(5, 6) * (".toList = .ok tokens ∧
        program 20 tokens = .error (.failed failure) ∧ failure.cause = .groupCount 2 ∧
        failure.site = some ⟨19, 20⟩ ∧ tokens.getLast?.map Token.kind = some .finish ∧
        tokens.length = 18 + (Walk.program 20 tokens).2.ahead.length :=
    ⟨_, _, rfl, rfl, rfl, rfl, rfl, by decide +kernel⟩
  obtain ⟨finish, last, kind⟩ := Option.map_eq_some_iff.mp ended
  obtain ⟨consumed, next, rest, previous, split, walked, halts, same⟩ :=
    program_fails_fast ⟨finish, List.mem_of_getLast? last, kind⟩ failed
  have length : consumed.length = 18 := by
    rw [walked, split, List.length_append] at left
    exact Nat.add_right_cancel left
  exact ⟨tokens, failure, consumed, next, rest, previous, scanned, cause, site, split, length, halts, failed,
    same _ ⟨[.implied .finish 2 28], by simp⟩⟩

end Reckoner.Proofs.FirstFailure
