import Reckoner.Proofs.GrammarPhrases

/-! What every reader of the grammar may come to. A reader that succeeds has passed
exactly the tokens that spell its result. One that fails blames a token of its input.
Running out of depth takes more tokens than a limit, and a missing end is the only
thing that breaks a reader. -/

namespace Reckoner.Proofs.GrammarReading
open Grammar GrammarPhrases

/-- A reader's result at a cursor's place, with the tokens passed related to the value.
Tokens seen before may still be blamed. -/
def Delivers {α : Type} (limit : Nat) (seen : List Token) (means : List Token → α → Prop) (cursor : Cursor) :
    Except Stop (α × Cursor) → Prop
  | .ok (value, after) =>
    ∃ front, cursor.ahead = front ++ after.ahead ∧ (∀ token ∈ front, token.kind ≠ .finish) ∧ means front value
  | .error (.failed failure) =>
    failure.kind = .parse ∧ ∃ token ∈ seen ++ cursor.ahead, failure.site = some token.span
  | .error .tooDeep => limit ≤ cursor.ahead.length
  | .error (.broken _) => ∀ token ∈ cursor.ahead, token.kind ≠ .finish

variable {α β : Type} {limit : Nat} {seen : List Token} {cursor after : Cursor}

@[simp] theorem ok_bind (value : α) (next : α → Except Stop β) : (Except.ok value >>= next) = next value := rfl

@[simp] theorem error_bind (stop : Stop) (next : α → Except Stop β) :
    ((Except.error stop : Except Stop α) >>= next) = .error stop := rfl

/-- Behind tokens already passed, the rest may come to less depth. -/
theorem Delivers.behind (passed : List Token) {means : List Token → α → Prop}
    {result : Except Stop (α × Cursor)} (place : cursor.ahead = passed ++ after.ahead)
    (unfinished : ∀ token ∈ passed, token.kind ≠ .finish)
    (rest : Delivers (limit - passed.length) (seen ++ passed) (fun back => means (passed ++ back)) after result) :
    Delivers limit seen means cursor result := by
  match result with
  | .ok (value, final) =>
    obtain ⟨front, same, clean, holds⟩ := rest
    refine ⟨passed ++ front, by rw [place, same, List.append_assoc], ?_, holds⟩
    intro token member
    rcases List.mem_append.mp member with first | second
    · exact unfinished token first
    · exact clean token second
  | .error (.failed failure) =>
    obtain ⟨kind, token, member, site⟩ := rest
    exact ⟨kind, token, by simpa [place] using member, site⟩
  | .error .tooDeep =>
    simp only [Delivers, place, List.length_append] at rest ⊢
    omega
  | .error (.broken fault) =>
    intro token member
    rcases List.mem_append.mp (place ▸ member) with first | second
    · exact unfinished token first
    · exact rest token second

theorem Delivers.passing {token : Token} {means : List Token → α → Prop}
    {result : Except Stop (α × Cursor)} (place : cursor.ahead = token :: after.ahead)
    (unfinished : token.kind ≠ .finish)
    (rest : Delivers (limit - 1) (seen ++ [token]) (fun back => means (token :: back)) after result) :
    Delivers limit seen means cursor result :=
  Delivers.behind [token] place (by simpa using unfinished) rest

theorem Delivers.bind {first : List Token → α → Prop} {means : List Token → β → Prop}
    {result : Except Stop (α × Cursor)} {next : α × Cursor → Except Stop (β × Cursor)}
    (delivered : Delivers limit seen first cursor result)
    (rest : ∀ front value after, first front value →
      Delivers (limit - front.length) (seen ++ front) (fun back => means (front ++ back)) after (next (value, after))) :
    Delivers limit seen means cursor (result >>= next) := by
  match result with
  | .ok (value, middle) =>
    obtain ⟨front, place, unfinished, holds⟩ := delivered
    exact Delivers.behind front place unfinished (rest front value middle holds)
  | .error (.failed failure) => exact delivered
  | .error .tooDeep => exact delivered
  | .error (.broken fault) => exact delivered

theorem Delivers.mono {tighter : Nat} {first second : List Token → α → Prop}
    {result : Except Stop (α × Cursor)} (delivered : Delivers limit seen first cursor result)
    (tight : tighter ≤ limit) (implies : ∀ front value, first front value → second front value) :
    Delivers tighter seen second cursor result := by
  match result with
  | .ok (value, final) =>
    obtain ⟨front, place, unfinished, holds⟩ := delivered
    exact ⟨front, place, unfinished, implies front value holds⟩
  | .error (.failed failure) => exact delivered
  | .error .tooDeep =>
    exact Nat.le_trans tight delivered
  | .error (.broken fault) => exact delivered

theorem delivers_here {means : List Token → α → Prop} {value : α} (holds : means [] value) :
    Delivers limit seen means cursor (.ok (value, cursor)) :=
  ⟨[], rfl, by simp, holds⟩

theorem accept_some {wanted : Kind → Bool} {token : Token}
    (accepted : cursor.accept? wanted = some (token, after)) :
    cursor.ahead = token :: after.ahead ∧ wanted token.kind = true := by
  unfold Cursor.accept? at accepted
  split at accepted
  · cases accepted
  next head rest place =>
    split at accepted
    next agreed =>
      cases accepted
      exact ⟨place, agreed⟩
    next => cases accepted

theorem refuse_delivers {means : List Token → α → Prop} (wanted : Failure.Expectation) :
    Delivers limit seen means cursor (.error (cursor.refuse wanted)) := by
  unfold Cursor.refuse
  split
  next none => simp [Delivers, none]
  next token rest place =>
    refine ⟨?_, token, by simp [place], rfl⟩
    unfold Failure.kind
    dsimp only
    split <;> rfl

theorem expect_delivers (kind : Kind) (wanted : Failure.Expectation) (unfinished : kind ≠ .finish) :
    Delivers limit seen (fun front token => front = [token] ∧ token.kind = kind) cursor
      (cursor.expect kind wanted) := by
  unfold Cursor.expect
  split
  next passed accepted =>
    obtain ⟨token, after⟩ := passed
    obtain ⟨place, agreed⟩ := accept_some accepted
    have same : token.kind = kind := by simpa using agreed
    exact Delivers.passing place (same ▸ unfinished) (delivers_here ⟨rfl, same⟩)
  next => exact refuse_delivers wanted

/-- A reader of expressions that spells out what it reads. -/
def Faithful (limit : Nat) (phrase : Phrase) (reader : Reader Expr) : Prop :=
  ∀ seen cursor, Delivers limit seen (Spells phrase) cursor (reader cursor)

theorem Faithful.mono {tighter : Nat} {phrase : Phrase} {reader : Reader Expr}
    (faithful : Faithful limit phrase reader) (tight : tighter ≤ limit) : Faithful tighter phrase reader :=
  fun seen cursor => (faithful seen cursor).mono tight fun _ _ holds => holds

section Chains

variable {wanted : Kind → Bool} {phrase below : Phrase} {operand : Reader Expr}

/-- The left operand grows by one operator and one operand with every round. -/
theorem chainFrom_delivers (unfinished : wanted .finish = false) (faithful : Faithful limit below operand)
    (grows : ∀ {front back : List Token} {operator : Token} {left right : Expr}, Spells phrase front left →
      wanted operator.kind = true → Spells below back right →
      Spells phrase (front ++ operator :: back) (.binary left operator right))
    (rounds : Nat) (left : Expr) (passed : List Token) (spelled : Spells phrase passed left) (cursor : Cursor)
    {tighter : Nat} (tight : tighter ≤ limit) :
    Delivers tighter seen (fun back => Spells phrase (passed ++ back)) cursor
      (chainFrom wanted operand rounds left cursor) := by
  induction rounds generalizing left passed seen cursor tighter with
  | zero => exact delivers_here (by simpa using spelled)
  | succ rounds ih =>
    rw [chainFrom]
    split
    next => exact delivers_here (by simpa using spelled)
    next operator after accepted =>
      obtain ⟨place, agreed⟩ := accept_some accepted
      have separate : operator.kind ≠ .finish := fun same => by simp [same, unfinished] at agreed
      refine Delivers.passing place separate ?_
      refine Delivers.bind ((faithful _ after).mono (by omega) fun _ _ holds => holds) ?_
      intro back right final second
      have larger := grows spelled agreed second
      refine (ih _ _ larger final (by omega)).mono (Nat.le_refl _) ?_
      intro more expr holds
      simpa using holds

theorem chain_faithful {first : Reader Expr} (unfinished : wanted .finish = false)
    (start : Faithful limit below first) (lifts : ∀ {tokens expr}, Spells below tokens expr → Spells phrase tokens expr)
    {next : Phrase} (faithful : Faithful limit next operand)
    (grows : ∀ {front back : List Token} {operator : Token} {left right : Expr}, Spells phrase front left →
      wanted operator.kind = true → Spells next back right →
      Spells phrase (front ++ operator :: back) (.binary left operator right))
    (rounds : Nat) : Faithful limit phrase (chain rounds wanted first operand) := by
  intro seen cursor
  refine Delivers.bind (start seen cursor) ?_
  intro front left after spelled
  exact chainFrom_delivers unfinished faithful grows rounds left front (lifts spelled) after (by omega)

end Chains

def SpellsFurther (tokens : List Token) (exprs : List Expr) : Prop :=
  ∃ others, tokens = furtherTokens others ∧ exprs = others.map Further.expr ∧
    (∀ other ∈ others, other.comma.kind = .mark .comma) ∧
    ∀ other ∈ others, Spells .expression other.tokens other.expr

/-- What may stand between the parentheses of a call. -/
def SpellsArguments (tokens : List Token) (exprs : List Expr) : Prop :=
  tokens = [] ∧ exprs = [] ∨
    ∃ inside argument back others, tokens = inside ++ back ∧ exprs = argument :: others ∧
      Spells .expression inside argument ∧ SpellsFurther back others

theorem SpellsFurther.cons {comma : Token} {inside back : List Token} {argument : Expr} {others : List Expr}
    (sign : comma.kind = .mark .comma) (first : Spells .expression inside argument)
    (rest : SpellsFurther back others) :
    SpellsFurther (comma :: (inside ++ back)) (argument :: others) := by
  obtain ⟨further, rfl, rfl, commas, spelled⟩ := rest
  refine ⟨⟨comma, argument, inside⟩ :: further, rfl, rfl, ?_, ?_⟩
  · simpa [sign] using commas
  · simpa [first] using spelled

theorem call_tokens {phrase : Phrase} {tokens : List Token} {callee : Expr} {given : List Expr} {closing : Token}
    (spelled : Spells phrase tokens (.call callee given closing)) :
    ∃ front opening inside, tokens = front ++ opening :: (inside ++ [closing]) ∧ Spells .call front callee ∧
      opening.kind = .mark .opening ∧ closing.kind = .mark .closing ∧ SpellsArguments inside given := by
  generalize same : Expr.call callee given closing = expr at spelled
  induction spelled with
  | sum | product | exponent | negation | scaled | literal | symbol | grouping => cases same
  | expression _ ih | factor _ ih | power _ ih | unary _ ih | call _ ih => exact ih same
  | invoked head _ opens closes =>
    cases same
    exact ⟨_, _, [], rfl, head, opens, closes, .inl ⟨rfl, rfl⟩⟩
  | applied head _ opens closes first commas rest =>
    cases same
    exact ⟨_, _, _, rfl, head, opens, closes, .inr ⟨_, _, _, _, rfl, rfl, first, _, rfl, rfl, commas, rest⟩⟩

section Groups

variable {expression : Reader Expr}

theorem argumentsFrom_delivers (faithful : Faithful limit .expression expression) (rounds : Nat)
    (cursor : Cursor) {tighter : Nat} (tight : tighter ≤ limit) :
    Delivers tighter seen SpellsFurther cursor (argumentsFrom expression rounds cursor) := by
  induction rounds generalizing seen cursor tighter with
  | zero => exact delivers_here ⟨[], rfl, rfl, by simp, by simp⟩
  | succ rounds ih =>
    rw [argumentsFrom]
    split
    next => exact delivers_here ⟨[], rfl, rfl, by simp, by simp⟩
    next comma after accepted =>
      obtain ⟨place, agreed⟩ := accept_some accepted
      have sign : comma.kind = .mark .comma := by simpa using agreed
      refine Delivers.passing place (by simp [sign]) ?_
      refine Delivers.bind ((faithful _ after).mono (by omega) fun _ _ holds => holds) ?_
      intro inside argument middle first
      refine Delivers.bind (ih middle (by omega)) ?_
      intro back others final rest
      exact delivers_here (by simpa using SpellsFurther.cons sign first rest)

theorem arguments_delivers (faithful : Faithful limit .expression expression) (rounds : Nat) (cursor : Cursor) :
    Delivers limit seen SpellsArguments cursor (arguments rounds expression cursor) := by
  unfold arguments
  split
  next => exact delivers_here (.inl ⟨rfl, rfl⟩)
  next =>
    refine Delivers.bind (faithful seen cursor) ?_
    intro inside argument after first
    refine Delivers.bind (argumentsFrom_delivers faithful rounds after (by omega)) ?_
    intro back others final rest
    exact delivers_here (.inr ⟨inside, argument, back, others, by simp, rfl, first, rest⟩)

theorem primary_faithful (faithful : Faithful (limit - 1) .expression expression) :
    Faithful limit .primary (primary expression) := by
  intro seen cursor
  unfold primary
  split
  next token after accepted =>
    obtain ⟨place, agreed⟩ := accept_some accepted
    have kind : token.kind = .number := by simpa using agreed
    exact Delivers.passing place (by simp [kind]) (delivers_here (.literal kind))
  next =>
  split
  next token after accepted =>
    obtain ⟨place, agreed⟩ := accept_some accepted
    have kind : token.kind = .name := by simpa using agreed
    exact Delivers.passing place (by simp [kind]) (delivers_here (.symbol kind))
  next =>
  split
  next opening after accepted =>
    obtain ⟨place, agreed⟩ := accept_some accepted
    have opens : opening.kind = .mark .opening := by simpa using agreed
    refine Delivers.passing place (by simp [opens]) ?_
    refine Delivers.bind (faithful _ after) ?_
    intro inside inner middle rest
    refine Delivers.bind (expect_delivers _ _ (by simp)) ?_
    rintro _ closing final ⟨rfl, closes⟩
    exact delivers_here (by simpa using Spells.grouping opens closes rest)
  next => exact refuse_delivers .expression

theorem SpellsArguments.applied {callee : Expr} {front inside : List Token} {opening closing : Token}
    {given : List Expr} (arguments : SpellsArguments inside given) (spelled : Spells .call front callee)
    (unnumbered : ∀ token, callee ≠ .literal token) (opens : opening.kind = .mark .opening)
    (closes : closing.kind = .mark .closing) :
    Spells .call (front ++ opening :: (inside ++ [closing])) (.call callee given closing) := by
  rcases arguments with ⟨rfl, rfl⟩ | ⟨first, argument, back, others, rfl, rfl, head, further⟩
  · exact .invoked spelled unnumbered opens closes
  · obtain ⟨pieces, rfl, rfl, commas, rest⟩ := further
    exact .applied spelled unnumbered opens closes head commas rest

theorem SpellsArguments.single {inside : List Token} {argument : Expr}
    (arguments : SpellsArguments inside [argument]) : Spells .expression inside argument := by
  rcases arguments with ⟨_, none⟩ | ⟨first, head, back, others, rfl, same, spelled, further⟩
  · cases none
  · obtain ⟨pieces, rfl, rest, _, _⟩ := further
    cases same
    have empty : pieces = [] := by simpa using rest
    simpa [empty] using spelled

/-- A group of arguments behind a callee spells a longer call. A number refuses all
groups but those of one argument. -/
theorem applied_spells {callee : Expr} {front inside : List Token} {opening closing : Token}
    {given : List Expr} (spelled : Spells .call front callee) (opens : opening.kind = .mark .opening)
    (closes : closing.kind = .mark .closing) (arguments : SpellsArguments inside given) :
    (∃ expr, applied callee opening given closing = .ok expr ∧
      Spells .call (front ++ opening :: (inside ++ [closing])) expr) ∨
    ∃ failure, applied callee opening given closing = .error (.failed failure) ∧
      failure.kind = .parse ∧ failure.site = some opening.span := by
  by_cases numbered : ∃ token, callee = .literal token
  · obtain ⟨token, rfl⟩ := numbered
    obtain ⟨rfl, kind⟩ := spelled.literal_tokens
    match given with
    | [argument] => exact .inl ⟨_, rfl, by simpa using Spells.scaled kind opens closes arguments.single⟩
    | [] | _ :: _ :: _ => exact .inr ⟨_, rfl, rfl, rfl⟩
  · have unnumbered : ∀ token, callee ≠ .literal token := fun token same => numbered ⟨token, same⟩
    refine .inl ⟨.call callee given closing, ?_, arguments.applied spelled unnumbered opens closes⟩
    cases callee with
    | literal token => exact absurd rfl (unnumbered token)
    | symbol | grouping | binary | unary | call => rfl

theorem groupsFrom_delivers {inside : Reader (List Expr)}
    (delivers : ∀ seen cursor, Delivers limit seen SpellsArguments cursor (inside cursor)) (rounds : Nat) (callee : Expr)
    (passed : List Token) (spelled : Spells .call passed callee) (cursor : Cursor) {tighter : Nat}
    (tight : tighter ≤ limit + 1) :
    Delivers tighter seen (fun back => Spells .call (passed ++ back)) cursor
      (groupsFrom inside rounds callee cursor) := by
  induction rounds generalizing callee passed seen cursor tighter with
  | zero => exact delivers_here (by simpa using spelled)
  | succ rounds ih =>
    rw [groupsFrom]
    split
    next => exact delivers_here (by simpa using spelled)
    next opening after accepted =>
      obtain ⟨place, agreed⟩ := accept_some accepted
      have opens : opening.kind = .mark .opening := by simpa using agreed
      refine Delivers.passing place (by simp [opens]) ?_
      refine Delivers.bind ((delivers _ after).mono (by omega) fun _ _ holds => holds) ?_
      intro front given middle arguments
      refine Delivers.bind (expect_delivers _ _ (by simp)) ?_
      rintro _ closing final ⟨rfl, closes⟩
      rcases applied_spells spelled opens closes arguments with ⟨expr, made, larger⟩ | ⟨failure, refused, kind, site⟩
      · simp only [made]
        refine (ih expr _ larger final (by omega)).mono (Nat.le_refl _) ?_
        intro back whole holds
        simpa using holds
      · simp only [refused]
        exact ⟨kind, opening, by simp, site⟩

theorem call_faithful (faithful : Faithful (limit - 1) .expression expression) (rounds : Nat) :
    Faithful limit .call (call rounds expression) := by
  intro seen cursor
  refine Delivers.bind (primary_faithful faithful seen cursor) ?_
  intro front callee after spelled
  exact groupsFrom_delivers (fun _ => arguments_delivers faithful rounds) rounds callee front (.call spelled)
    after (by omega)

end Groups

section Ladder

variable {unary expression : Reader Expr} (signed : Faithful limit .unary unary)
  (faithful : Faithful (limit - 1) .expression expression) (rounds : Nat)
include signed faithful

theorem power_faithful : Faithful limit .power (power rounds unary expression) :=
  chain_faithful rfl signed .power (primary_faithful faithful)
    (fun first sign second => .exponent first (by simpa using sign) second) rounds

theorem factor_faithful : Faithful limit .factor (factor rounds unary expression) :=
  chain_faithful rfl (power_faithful signed faithful rounds) .factor (power_faithful signed faithful rounds)
    .product rounds

theorem term_faithful : Faithful limit .expression (term rounds unary expression) :=
  chain_faithful rfl (factor_faithful signed faithful rounds) .expression (factor_faithful signed faithful rounds)
    .sum rounds

end Ladder

/-- An expression goes one step inward to its first operand, and that one more to what
it holds in parentheses. So two steps of depth for each token are enough. -/
theorem ladder_faithful (rounds depth : Nat) :
    (∀ limit, 2 * limit ≤ depth → Faithful limit .expression (expression rounds depth)) ∧
    ∀ limit, 2 * limit ≤ depth + 1 → Faithful limit .unary (unary rounds depth) := by
  induction depth with
  | zero =>
    refine ⟨fun limit enough _ _ => ?_, fun limit enough _ _ => ?_⟩
    all_goals
      have none : limit = 0 := by omega
      simp [expression, unary, Delivers, none]
  | succ depth ih =>
    refine ⟨fun limit enough seen cursor => ?_, fun limit enough seen cursor => ?_⟩
    · rw [expression]
      exact term_faithful (ih.2 limit (by omega)) (ih.1 (limit - 1) (by omega)) rounds seen cursor
    · rw [unary]
      split
      next operator after accepted =>
        obtain ⟨place, agreed⟩ := accept_some accepted
        have sign : operator.kind = .mark .minus := by simpa using agreed
        refine Delivers.passing place (by simp [sign]) ?_
        refine Delivers.bind (ih.2 (limit - 1) (by omega) _ after) ?_
        intro front operand final rest
        exact delivers_here (by simpa using Spells.negation sign rest)
      next =>
        refine (call_faithful (ih.1 (limit - 1) (by omega)) rounds seen cursor).mono (Nat.le_refl _) ?_
        exact fun _ _ spelled => .unary spelled

section Declarations

theorem parameters_cons {expr : Expr} {rest : List Expr} {parameters : List Token}
    (named : parameters? (expr :: rest) = some parameters) :
    ∃ name others, expr = .symbol name ∧ parameters? rest = some others ∧ parameters = name :: others := by
  cases expr with
  | symbol name =>
    obtain ⟨others, found, rfl⟩ := Option.map_eq_some_iff.mp named
    exact ⟨name, others, rfl, found, rfl⟩
  | literal | grouping | binary | unary | call => cases named

theorem further_parameters {others : List Further} {parameters : List Token}
    (commas : ∀ other ∈ others, other.comma.kind = .mark .comma)
    (spelled : ∀ other ∈ others, Spells .expression other.tokens other.expr)
    (named : parameters? (others.map Further.expr) = some parameters) :
    ∃ pairs : List (Token × Token), furtherTokens others = joined (pairs.map fun pair => (pair.1, [pair.2])) ∧
      parameters = pairs.map Prod.snd ∧ (∀ pair ∈ pairs, pair.1.kind = .mark .comma) ∧
      ∀ pair ∈ pairs, pair.2.kind = .name := by
  induction others generalizing parameters with
  | nil =>
    cases named
    exact ⟨[], rfl, rfl, by simp, by simp⟩
  | cons other others ih =>
    obtain ⟨name, rest, same, remaining, rfl⟩ := parameters_cons named
    obtain ⟨tokens, kind⟩ := (same ▸ spelled other (by simp)).symbol_tokens
    obtain ⟨pairs, further, rfl, signs, names⟩ :=
      ih (fun item member => commas item (by simp [member])) (fun item member => spelled item (by simp [member])) remaining
    refine ⟨(other.comma, name) :: pairs, by simp [tokens, further], rfl, ?_, ?_⟩
    · simpa [commas other (by simp)] using fun first second => signs (first, second)
    · simpa [kind] using fun first second => names (first, second)

theorem SpellsArguments.lists {inside : List Token} {given : List Expr} {parameters : List Token}
    (arguments : SpellsArguments inside given) (named : parameters? given = some parameters) :
    Lists inside parameters := by
  rcases arguments with ⟨rfl, rfl⟩ | ⟨first, argument, back, others, rfl, rfl, head, further⟩
  · cases named
    exact .none
  · obtain ⟨name, rest, rfl, remaining, rfl⟩ := parameters_cons named
    obtain ⟨rfl, kind⟩ := head.symbol_tokens
    obtain ⟨pieces, rfl, rfl, commas, spelled⟩ := further
    obtain ⟨pairs, same, rfl, signs, names⟩ := further_parameters commas spelled remaining
    rw [same]
    exact .some kind signs names

/-- What stands left of an equals sign spells the head of what it declares. -/
theorem declared_spells {front back : List Token} {head declaration : Statement} {equals : Token} {body : Expr}
    (spelled : SpellsStatement front head) (sign : equals.kind = .mark .equals)
    (rest : Spells .expression back body) (declared : declared? head body = some declaration) :
    SpellsStatement (front ++ equals :: back) declaration := by
  unfold declared? at declared
  split at declared
  next name =>
    cases declared
    cases spelled with
    | expression target =>
      obtain ⟨rfl, kind⟩ := target.symbol_tokens
      exact .assign kind sign rest
  next name given closing =>
    obtain ⟨parameters, named, rfl⟩ := Option.map_eq_some_iff.mp declared
    cases spelled with
    | expression target =>
      obtain ⟨callee, opening, inside, rfl, symbol, opens, closes, arguments⟩ := call_tokens target
      obtain ⟨rfl, kind⟩ := symbol.symbol_tokens
      simpa using SpellsStatement.declare kind opens (arguments.lists named) closes sign rest
  next => cases declared

end Declarations

section Statements

variable {expression : Reader Expr} (faithful : Faithful limit .expression expression)
include faithful

theorem plainStatement_delivers (cursor : Cursor) :
    Delivers limit seen SpellsStatement cursor (plainStatement expression cursor) := by
  unfold plainStatement
  split
  next keyword after accepted =>
    obtain ⟨place, agreed⟩ := accept_some accepted
    have kind : keyword.kind = .print := by simpa using agreed
    refine Delivers.passing place (by simp [kind]) ?_
    refine Delivers.bind ((faithful _ after).mono (by omega) fun _ _ holds => holds) ?_
    intro front expr final rest
    exact delivers_here (by simpa using SpellsStatement.print kind rest)
  next =>
    refine Delivers.bind (faithful seen cursor) ?_
    intro front expr final rest
    exact delivers_here (by simpa using SpellsStatement.expression rest)

theorem statement_delivers (cursor : Cursor) :
    Delivers limit seen SpellsStatement cursor (statement expression cursor) := by
  unfold statement
  refine Delivers.bind (plainStatement_delivers faithful cursor) ?_
  intro front head after spelled
  dsimp only
  split
  next => exact delivers_here (by simpa using spelled)
  next equals behind accepted =>
    obtain ⟨place, agreed⟩ := accept_some accepted
    have sign : equals.kind = .mark .equals := by simpa using agreed
    refine Delivers.passing place (by simp [sign]) ?_
    refine Delivers.bind ((faithful _ behind).mono (by omega) fun _ _ holds => holds) ?_
    intro back body final rest
    dsimp only
    split
    next declaration declared => exact delivers_here (by simpa using declared_spells spelled sign rest declared)
    next => exact ⟨rfl, equals, by simp, rfl⟩

end Statements

/-- What reading statements up to the end may come to. -/
def Settles (limit : Nat) (seen : List Token) (cursor : Cursor) : Except Stop (List Statement) → Prop
  | .ok statements =>
    ∃ body finish rest, cursor.ahead = body ++ finish :: rest ∧ (∀ token ∈ body, token.kind ≠ .finish) ∧
      finish.kind = .finish ∧ SpellsProgram body statements
  | .error stop => Delivers limit seen (fun _ (_ : Unit) => True) cursor (.error stop)

theorem Delivers.stopped {means : List Token → α → Prop} {other : List Token → β → Prop} {stop : Stop}
    (delivered : Delivers limit seen means cursor (.error stop)) : Delivers limit seen other cursor (.error stop) :=
  match stop with
  | .failed _ => delivered
  | .tooDeep => delivered
  | .broken _ => delivered

theorem Settles.cons {first : Statement} {front : List Token} {result : Except Stop (List Statement)}
    (place : cursor.ahead = front ++ after.ahead) (clean : ∀ token ∈ front, token.kind ≠ .finish)
    (spelled : SpellsStatement front first) (rest : Settles (limit - front.length) (seen ++ front) after result) :
    Settles limit seen cursor (result >>= fun others => pure (first :: others)) := by
  match result with
  | .error stop => exact Delivers.behind front place clean (Delivers.stopped rest)
  | .ok others =>
    obtain ⟨body, finish, tail, ahead, unfinished, finished, spells⟩ := rest
    refine ⟨front ++ body, finish, tail, by rw [place, ahead, List.append_assoc], ?_, finished,
      .statement spelled spells⟩
    intro token member
    rcases List.mem_append.mp member with early | late
    · exact clean token early
    · exact unfinished token late

/-- Every statement passes a token, so there are never more rounds than tokens. -/
theorem statementsFrom_settles {expression : Reader Expr} (faithful : Faithful limit .expression expression)
    (rounds : Nat) (cursor : Cursor) (enough : cursor.ahead.length ≤ rounds) {tighter : Nat}
    (tight : tighter ≤ limit) : Settles tighter seen cursor (statementsFrom expression rounds cursor) := by
  induction rounds generalizing seen cursor tighter with
  | zero =>
    have none : cursor.ahead = [] := List.length_eq_zero_iff.mp (by omega)
    simp [statementsFrom, Settles, Delivers, none]
  | succ rounds ih =>
    rw [statementsFrom]
    split
    next none => simp [Settles, Delivers, none]
    next token rest place =>
      split
      next finished => exact ⟨[], token, rest, place, by simp, finished, .finish⟩
      next =>
        have delivered : Delivers tighter seen _ _ _ :=
          (statement_delivers faithful cursor).mono tight fun _ _ holds => holds
        cases read : statement expression cursor with
        | error stop => exact (read ▸ delivered).stopped
        | ok passed =>
          obtain ⟨first, after⟩ := passed
          rw [read] at delivered
          obtain ⟨front, same, clean, spelled⟩ := delivered
          have filled := List.length_pos_iff.mpr spelled.nonempty
          have shorter := congrArg List.length same
          rw [List.length_append] at shorter
          exact Settles.cons same clean spelled (ih after (by omega) (by omega))

theorem program_settles (depth : Nat) (tokens : List Token) (limit : Nat) (deep : 2 * limit ≤ depth) :
    Settles limit [] (.ofTokens tokens) (program depth tokens) :=
  statementsFrom_settles ((ladder_faithful tokens.length depth).1 limit deep) tokens.length (.ofTokens tokens)
    (Nat.le_refl _) (Nat.le_refl _)

end Reckoner.Proofs.GrammarReading
