import Reckoner.Proofs.GrammarAcceptance

/-! The reader returns the very tree that its tokens spell, whatever stands behind them,
as long as that does not go on with the phrase. A repetition is followed round by round:
the reader of a phrase, run on its tokens, has come to the point where it would look for
one more round, with the phrase's tree in hand. -/

namespace Reckoner

/-- The kind of the token that a tree is written with first. -/
def Expr.opener : Expr → Kind
  | .literal token => token.kind
  | .symbol name => name.kind
  | .grouping _ => .mark .opening
  | .binary left _ _ => left.opener
  | .unary operator _ => operator.kind
  | .call callee _ _ => callee.opener

def Statement.opener : Statement → Kind
  | .expression expr => expr.opener
  | .print keyword _ => keyword.kind
  | .assign name _ => name.kind
  | .declare declaration => declaration.name.kind

namespace Proofs.GrammarRecovery
open Grammar GrammarPhrases GrammarReading GrammarAcceptance

/-- Nothing of a wanted kind comes next. -/
def Ends (wanted : Kind → Bool) (rest : List Token) : Prop := ∀ token ∈ rest.head?, wanted token.kind = false

/-- A reader gets past the tokens and goes on from there with the tree, in at least as
many rounds as tokens are left. -/
def Passes (further : Nat → Expr → Reader Expr) (reader : Reader Expr) (rounds : Nat) (tokens rest : List Token)
    (expr : Expr) : Prop :=
  ∀ cursor : Cursor, cursor.ahead = tokens ++ rest → cursor.ahead.length ≤ rounds →
    ∃ turns after, after.ahead = rest ∧ rest.length ≤ turns ∧ reader cursor = further turns expr after

def done : Nat → Expr → Reader Expr := fun _ expr cursor => .ok (expr, cursor)

section Tokens

variable {cursor : Cursor} {wanted : Kind → Bool} {token : Token} {rest : List Token}

theorem Ends.cons (unwanted : wanted token.kind = false) : Ends wanted (token :: rest) := by
  simpa [Ends] using unwanted

theorem Ends.mono {other : Kind → Bool} (ends : Ends wanted rest)
    (fewer : ∀ kind, wanted kind = false → other kind = false) : Ends other rest :=
  fun token first => fewer token.kind (ends token first)

theorem Ends.sum (sign : isSum token.kind) (plus : wanted (.mark .plus) = false)
    (minus : wanted (.mark .minus) = false) : Ends wanted (token :: rest) := by
  simp only [isSum, Bool.or_eq_true, beq_iff_eq] at sign
  rcases sign with kind | kind
  · exact Ends.cons (kind ▸ plus)
  · exact Ends.cons (kind ▸ minus)

theorem Ends.product (sign : isProduct token.kind) (star : wanted (.mark .star) = false)
    (slash : wanted (.mark .slash) = false) : Ends wanted (token :: rest) := by
  simp only [isProduct, Bool.or_eq_true, beq_iff_eq] at sign
  rcases sign with kind | kind
  · exact Ends.cons (kind ▸ star)
  · exact Ends.cons (kind ▸ slash)

theorem accept_next (place : cursor.ahead = token :: rest) (agreed : wanted token.kind = true) :
    cursor.accept? wanted = some (token, ⟨some token.kind, rest⟩) := by
  simp [Cursor.accept?, place, agreed]

theorem accept_ended (place : cursor.ahead = rest) (ends : Ends wanted rest) : cursor.accept? wanted = none := by
  unfold Cursor.accept?
  split
  · rfl
  next first behind ahead =>
    have unwanted := ends first (by simp [← place, ahead])
    simp [unwanted]

theorem expect_next {kind : Kind} (expectation : Failure.Expectation) (place : cursor.ahead = token :: rest)
    (agreed : token.kind = kind) : cursor.expect kind expectation = .ok (token, ⟨some token.kind, rest⟩) := by
  rw [Cursor.expect, accept_next place (by simp [agreed])]

end Tokens

section Chains

variable {wanted : Kind → Bool} {operand reader : Reader Expr} {rounds : Nat} {front back rest : List Token}
  {operator : Token} {left right : Expr}

theorem chainFrom_over (turns : Nat) {cursor : Cursor} (ends : Ends wanted cursor.ahead) :
    chainFrom wanted operand turns left cursor = .ok (left, cursor) := by
  cases turns with
  | zero => rfl
  | succ turns => rw [chainFrom, accept_ended rfl ends]

theorem Passes.over (passes : Passes (chainFrom wanted operand) reader rounds front rest left)
    (ends : Ends wanted rest) : Passes done reader rounds front rest left := by
  intro cursor place short
  obtain ⟨turns, after, left, enough, read⟩ := passes cursor place short
  exact ⟨turns, after, left, enough, read.trans (chainFrom_over turns (left ▸ ends))⟩

theorem chain_first (passes : Passes done reader rounds front rest left) :
    Passes (chainFrom wanted operand) (chain rounds wanted reader operand) rounds front rest left := by
  intro cursor place short
  obtain ⟨_, after, remains, _, read⟩ := passes cursor place short
  rw [place, List.length_append] at short
  refine ⟨rounds, after, remains, by omega, ?_⟩
  rw [chain, read]
  rfl

/-- One round: an operator and an operand behind it. -/
theorem chain_next (first : Passes (chainFrom wanted operand) reader rounds front (operator :: (back ++ rest)) left)
    (sign : wanted operator.kind = true) (second : Passes done operand rounds back rest right) :
    Passes (chainFrom wanted operand) reader rounds (front ++ operator :: back) rest (.binary left operator right) := by
  intro cursor place short
  obtain ⟨turns, middle, behind, enough, read⟩ := first cursor (by simpa using place) short
  simp only [List.length_cons, List.length_append] at enough
  obtain ⟨turns, rfl⟩ : ∃ fewer, turns = fewer + 1 := ⟨turns - 1, by omega⟩
  simp only [place, List.length_append, List.length_cons] at short
  have fits : (back ++ rest).length ≤ rounds := by
    rw [List.length_append]
    omega
  obtain ⟨_, after, remains, _, operandRead⟩ := second ⟨some operator.kind, back ++ rest⟩ rfl fits
  refine ⟨turns, after, remains, by omega, ?_⟩
  rw [read, chainFrom, accept_next behind sign]
  simp only [operandRead, done, ok_bind]

end Chains

/-- The kinds that go on with a whole expression. -/
def goesOn (kind : Kind) : Bool := kind == .mark .opening || kind == .mark .caret || isProduct kind || isSum kind

/-- A reader of whole expressions gets past the tokens with their tree. -/
def Recalls (reader : Reader Expr) (rounds : Nat) (tokens : List Token) (expr : Expr) : Prop :=
  ∀ rest, Ends goesOn rest → Passes done reader rounds tokens rest expr

section Groups

variable {expression reader : Reader Expr} {rounds : Nat} {front inside rest : List Token} {opening closing : Token}
  {callee expr : Expr}

theorem closing_ends (closes : closing.kind = .mark .closing) : Ends goesOn (closing :: rest) :=
  Ends.cons (by rw [closes]; rfl)

theorem further_ends (closes : closing.kind = .mark .closing) {others : List Further}
    (commas : ∀ other ∈ others, other.comma.kind = .mark .comma) : Ends goesOn (furtherTokens others ++ closing :: rest) := by
  cases others with
  | nil => exact closing_ends closes
  | cons next others => exact Ends.cons (by rw [commas next (by simp)]; rfl)

theorem further_shorter {other : Further} {others : List Further} (member : other ∈ others) :
    other.tokens.length ≤ (furtherTokens others).length := by
  induction others with
  | nil => cases member
  | cons next others ih =>
    rw [furtherTokens_cons, List.length_cons, List.length_append]
    rcases List.mem_cons.mp member with rfl | later
    · omega
    · have shorter := ih later
      omega

theorem argumentsFrom_recalls (closes : closing.kind = .mark .closing) (others : List Further)
    (commas : ∀ other ∈ others, other.comma.kind = .mark .comma)
    (recalls : ∀ other ∈ others, Recalls expression rounds other.tokens other.expr) (turns : Nat) (cursor : Cursor)
    (place : cursor.ahead = furtherTokens others ++ closing :: rest) (short : cursor.ahead.length ≤ rounds)
    (enough : cursor.ahead.length ≤ turns) :
    ∃ after, after.ahead = closing :: rest ∧
      argumentsFrom expression turns cursor = .ok (others.map Further.expr, after) := by
  obtain ⟨turns, rfl⟩ : ∃ fewer, turns = fewer + 1 := ⟨turns - 1, by simp [place] at enough; omega⟩
  induction others generalizing turns cursor with
  | nil =>
    refine ⟨cursor, place, ?_⟩
    rw [argumentsFrom, accept_ended place (Ends.cons (by rw [closes]; rfl))]
    rfl
  | cons other others ih =>
    simp only [furtherTokens_cons, List.cons_append, List.append_assoc] at place
    have sign : other.comma.kind = .mark .comma := commas other (by simp)
    simp only [place, List.length_cons, List.length_append] at short enough
    have laterCommas : ∀ item ∈ others, item.comma.kind = .mark .comma := fun item member => commas item (by simp [member])
    have fits : (other.tokens ++ (furtherTokens others ++ closing :: rest)).length ≤ rounds := by
      simp only [List.length_append, List.length_cons]
      omega
    obtain ⟨_, middle, behind, _, read⟩ :=
      recalls other (by simp) _ (further_ends closes laterCommas) ⟨some other.comma.kind, _⟩ rfl fits
    have lengths : middle.ahead.length = (furtherTokens others).length + (rest.length + 1) := by simp [behind]
    obtain ⟨turns, rfl⟩ : ∃ fewer, turns = fewer + 1 := ⟨turns - 1, by omega⟩
    obtain ⟨after, remains, listed⟩ :=
      ih laterCommas (fun item member => recalls item (by simp [member])) middle behind (by omega) turns (by omega)
    refine ⟨after, remains, ?_⟩
    rw [argumentsFrom, accept_next place (by simp [sign])]
    simp only [read, done, ok_bind, listed]
    rfl

/-- A reader of what stands between parentheses stops at the closing one. -/
def Fills (reader : Reader (List Expr)) (rounds : Nat) (inside : List Token) (given : List Expr) : Prop :=
  ∀ (cursor : Cursor) closing rest, closing.kind = .mark .closing → cursor.ahead = inside ++ closing :: rest →
    cursor.ahead.length ≤ rounds → ∃ after, after.ahead = closing :: rest ∧ reader cursor = .ok (given, after)

theorem arguments_none : Fills (arguments rounds expression) rounds [] [] := by
  intro cursor closing rest closes place _
  refine ⟨cursor, place, ?_⟩
  rw [arguments, accept_next (by simpa using place) (by simp [closes])]

theorem arguments_some {argument : Expr} (others : List Further) (spelled : Spells .expression inside argument)
    (first : Recalls expression rounds inside argument)
    (commas : ∀ other ∈ others, other.comma.kind = .mark .comma)
    (recalls : ∀ other ∈ others, Recalls expression rounds other.tokens other.expr) :
    Fills (arguments rounds expression) rounds (inside ++ furtherTokens others)
      (argument :: others.map Further.expr) := by
  intro cursor closing rest closes place short
  rw [List.append_assoc] at place
  have unclosed : Ends (· == .mark .closing) (inside ++ (furtherTokens others ++ closing :: rest)) := by
    obtain ⟨kind, kinds, same, starts⟩ := starts_expression spelled.derives (by simp)
    obtain ⟨token, tokens, rfl, rfl, _⟩ := List.map_eq_cons_iff.mp same
    refine Ends.cons ?_
    rcases starts with kind | kind | kind | kind <;> rw [kind] <;> rfl
  obtain ⟨_, middle, behind, _, read⟩ := first _ (further_ends closes commas) cursor place short
  simp only [place, List.length_append] at short
  have fits : middle.ahead.length ≤ rounds := by
    rw [behind, List.length_append]
    omega
  obtain ⟨after, remains, listed⟩ := argumentsFrom_recalls closes others commas recalls rounds middle behind fits fits
  refine ⟨after, remains, ?_⟩
  rw [arguments, accept_ended place unclosed]
  simp only [read, done, ok_bind, listed]
  rfl

theorem groupsFrom_over (turns : Nat) {inner : Reader (List Expr)} {cursor : Cursor}
    (ends : Ends (· == .mark .opening) cursor.ahead) : groupsFrom inner turns callee cursor = .ok (callee, cursor) := by
  cases turns with
  | zero => rfl
  | succ turns => rw [groupsFrom, accept_ended rfl ends]

theorem call_first (passes : Passes done (primary expression) rounds front rest expr) :
    Passes (groupsFrom (arguments rounds expression)) (call rounds expression) rounds front rest expr := by
  intro cursor place short
  obtain ⟨_, after, remains, _, read⟩ := passes cursor place short
  rw [place, List.length_append] at short
  refine ⟨rounds, after, remains, by omega, ?_⟩
  rw [call, read]
  rfl

/-- One round: a group of arguments behind a callee. -/
theorem call_next {inner : Reader (List Expr)} {given : List Expr}
    (head : Passes (groupsFrom inner) reader rounds front (opening :: (inside ++ closing :: rest)) callee)
    (opens : opening.kind = .mark .opening) (closes : closing.kind = .mark .closing)
    (fills : Fills inner rounds inside given) (applies : applied callee opening given closing = .ok expr) :
    Passes (groupsFrom inner) reader rounds (front ++ opening :: (inside ++ [closing])) rest expr := by
  intro cursor place short
  obtain ⟨turns, middle, behind, enough, read⟩ := head cursor (by simpa using place) short
  simp only [List.length_cons, List.length_append] at enough
  obtain ⟨turns, rfl⟩ : ∃ fewer, turns = fewer + 1 := ⟨turns - 1, by omega⟩
  simp only [place, List.length_append, List.length_cons, List.length_nil] at short
  have fits : (inside ++ closing :: rest).length ≤ rounds := by
    simp only [List.length_append, List.length_cons]
    omega
  obtain ⟨last, remains, insideRead⟩ := fills ⟨some opening.kind, _⟩ closing rest closes rfl fits
  refine ⟨turns, ⟨some closing.kind, rest⟩, rfl, by omega, ?_⟩
  rw [read, groupsFrom, accept_next behind (by simp [opens])]
  simp only [insideRead, ok_bind, expect_next .closingAfterArguments remains closes, applies]

end Groups

/-- Where the reader of a phrase stands after the phrase's own tokens, if nothing behind
them goes on with one of its smaller parts. Two steps of depth for each token are enough. -/
def Recovers (rounds : Nat) (tokens : List Token) (expr : Expr) : Phrase → Prop
  | .expression => ∀ depth rest, 2 * tokens.length ≤ depth + 1 →
    Ends (· == .mark .opening) rest → Ends (· == .mark .caret) rest → Ends isProduct rest →
    Passes (chainFrom isSum (factor rounds (unary rounds depth) (expression rounds depth)))
      (term rounds (unary rounds depth) (expression rounds depth)) rounds tokens rest expr
  | .factor => ∀ depth rest, 2 * tokens.length ≤ depth + 1 →
    Ends (· == .mark .opening) rest → Ends (· == .mark .caret) rest →
    Passes (chainFrom isProduct (power rounds (unary rounds depth) (expression rounds depth)))
      (factor rounds (unary rounds depth) (expression rounds depth)) rounds tokens rest expr
  | .power => ∀ depth rest, 2 * tokens.length ≤ depth + 1 → Ends (· == .mark .opening) rest →
    Passes (chainFrom (· == .mark .caret) (primary (expression rounds depth)))
      (power rounds (unary rounds depth) (expression rounds depth)) rounds tokens rest expr
  | .unary => ∀ depth rest, 2 * tokens.length ≤ depth + 1 → Ends (· == .mark .opening) rest →
    Passes done (unary rounds depth) rounds tokens rest expr
  | .call => ∀ depth rest, 2 * tokens.length ≤ depth + 2 →
    Passes (groupsFrom (arguments rounds (expression rounds depth))) (call rounds (expression rounds depth))
      rounds tokens rest expr
  | .primary => ∀ depth rest, 2 * tokens.length ≤ depth + 2 →
    Passes done (primary (expression rounds depth)) rounds tokens rest expr
  | .group => True

section Ladder

variable {rounds depth : Nat} {tokens rest : List Token} {expr : Expr}

theorem Recovers.recalls (recovers : Recovers rounds tokens expr .expression) (filled : tokens ≠ [])
    (deep : 2 * tokens.length ≤ depth) : Recalls (expression rounds depth) rounds tokens expr := by
  intro rest ends cursor place short
  have some := List.length_pos_iff.mpr filled
  obtain ⟨depth, rfl⟩ : ∃ less, depth = less + 1 := ⟨depth - 1, by omega⟩
  have opening : Ends (· == .mark .opening) rest := ends.mono (by simp +contextual [goesOn])
  have caret : Ends (· == .mark .caret) rest := ends.mono (by simp +contextual [goesOn])
  have product : Ends isProduct rest := ends.mono (by simp +contextual [goesOn])
  have sum : Ends isSum rest := ends.mono (by simp +contextual [goesOn])
  rw [expression]
  exact (recovers depth rest deep opening caret product).over sum cursor place short

theorem grouping_recovers {opening closing : Token} {inner : Expr} (opens : opening.kind = .mark .opening)
    (closes : closing.kind = .mark .closing) {expression : Reader Expr}
    (recalls : Recalls expression rounds tokens inner) :
    Passes done (primary expression) rounds (opening :: (tokens ++ [closing])) rest (.grouping inner) := by
  intro cursor place short
  simp only [List.cons_append, List.append_assoc, List.nil_append] at place
  simp only [place, List.length_cons, List.length_append] at short
  have fits : (tokens ++ closing :: rest).length ≤ rounds := by
    simp only [List.length_append, List.length_cons]
    omega
  obtain ⟨_, middle, behind, _, read⟩ := recalls _ (closing_ends closes) ⟨some opening.kind, _⟩ rfl fits
  refine ⟨rounds, ⟨some closing.kind, rest⟩, rfl, by omega, ?_⟩
  rw [primary, accept_ended place (Ends.cons (by rw [opens]; rfl)), accept_ended place (Ends.cons (by rw [opens]; rfl)),
    accept_next place (by simp [opens])]
  simp only [read, done, ok_bind, expect_next .closingAfterExpression behind closes]
  rfl

theorem literal_recovers {token : Token} (kind : token.kind = .number) {expression : Reader Expr} :
    Passes done (primary expression) rounds [token] rest (.literal token) := by
  intro cursor place short
  rw [place, List.length_append] at short
  refine ⟨rounds, ⟨some token.kind, rest⟩, rfl, by omega, ?_⟩
  rw [primary, accept_next place (by simp [kind])]
  rfl

theorem symbol_recovers {token : Token} (kind : token.kind = .name) {expression : Reader Expr} :
    Passes done (primary expression) rounds [token] rest (.symbol token) := by
  intro cursor place short
  have unnumbered : Ends (· == .number) (token :: rest) := Ends.cons (by rw [kind]; rfl)
  rw [place, List.length_append] at short
  refine ⟨rounds, ⟨some token.kind, rest⟩, rfl, by omega, ?_⟩
  rw [primary, accept_ended place unnumbered, accept_next place (by simp [kind])]
  rfl

theorem negation_recovers {operator : Token} {operand : Expr} (sign : operator.kind = .mark .minus)
    (passes : Passes done (unary rounds depth) rounds tokens rest operand) :
    Passes done (unary rounds (depth + 1)) rounds (operator :: tokens) rest (.unary operator operand) := by
  intro cursor place short
  rw [place, List.cons_append, List.length_cons] at short
  obtain ⟨turns, after, remains, enough, read⟩ := passes ⟨some operator.kind, tokens ++ rest⟩ rfl (by simp only; omega)
  refine ⟨turns, after, remains, enough, ?_⟩
  rw [List.cons_append] at place
  rw [unary, accept_next place (by simp [sign])]
  simp only [read, done, ok_bind]
  rfl

theorem unary_recovers (spelled : Spells .call tokens expr) (ends : Ends (· == .mark .opening) rest)
    (passes : Passes (groupsFrom (arguments rounds (expression rounds depth))) (call rounds (expression rounds depth))
      rounds tokens rest expr) :
    Passes done (unary rounds (depth + 1)) rounds tokens rest expr := by
  intro cursor place short
  have unsigned : Ends (· == .mark .minus) (tokens ++ rest) := by
    obtain ⟨kind, kinds, same, other⟩ := call_unsigned spelled.derives
    obtain ⟨token, tokens, rfl, rfl, _⟩ := List.map_eq_cons_iff.mp same
    exact Ends.cons (by simpa using other)
  obtain ⟨turns, after, remains, enough, read⟩ := passes cursor place short
  refine ⟨turns, after, remains, enough, ?_⟩
  rw [unary, accept_ended place unsigned]
  exact read.trans (groupsFrom_over turns (remains ▸ ends))

/-- By induction on how the tokens spell the tree; each rule is one step of a reader. -/
theorem spells_recovered {phrase : Phrase} (rounds : Nat) (spelled : Spells phrase tokens expr) :
    Recovers rounds tokens expr phrase := by
  induction spelled with
  | @sum front back operator _ _ _ sign _ first second =>
    intro depth rest deep opening caret product
    simp only [List.length_append, List.length_cons] at deep
    have left := first depth (operator :: (back ++ rest)) (by omega) (.sum sign rfl rfl) (.sum sign rfl rfl)
      (.sum sign rfl rfl)
    exact chain_next left sign ((second depth rest (by omega) opening caret).over product)
  | expression _ ih =>
    intro depth rest deep opening caret product
    exact chain_first ((ih depth rest deep opening caret).over product)
  | @product front back operator _ _ _ sign _ first second =>
    intro depth rest deep opening caret
    simp only [List.length_append, List.length_cons] at deep
    have left := first depth (operator :: (back ++ rest)) (by omega) (.product sign rfl rfl) (.product sign rfl rfl)
    exact chain_next left sign ((second depth rest (by omega) opening).over caret)
  | factor _ ih =>
    intro depth rest deep opening caret
    exact chain_first ((ih depth rest deep opening).over caret)
  | @exponent front back operator _ _ _ sign _ first second =>
    intro depth rest deep opening
    simp only [List.length_append, List.length_cons] at deep
    have left := first depth (operator :: (back ++ rest)) (by omega) (Ends.cons (by rw [sign]; rfl))
    exact chain_next left (by simp [sign]) (second depth rest (by omega))
  | power _ ih =>
    intro depth rest deep opening
    exact chain_first (ih depth rest deep opening)
  | negation sign _ ih =>
    intro depth rest deep opening
    rw [List.length_cons] at deep
    obtain ⟨depth, rfl⟩ : ∃ less, depth = less + 1 := ⟨depth - 1, by omega⟩
    exact negation_recovers sign (ih depth rest (by omega) opening)
  | unary spelled ih =>
    intro depth rest deep opening
    have filled := List.length_pos_iff.mpr spelled.nonempty
    obtain ⟨depth, rfl⟩ : ∃ less, depth = less + 1 := ⟨depth - 1, by omega⟩
    exact unary_recovers spelled opening (ih depth rest (by omega))
  | scaled kind opens closes only ih =>
    intro depth rest deep
    simp only [List.length_append, List.length_cons] at deep
    have recalls : Recalls (expression rounds depth) rounds _ _ := ih.recalls only.nonempty (by omega)
    have fills := arguments_some [] only recalls (by simp) (by simp)
    exact call_next (call_first (literal_recovers kind)) opens closes (by simpa using fills) rfl
  | invoked head unnumbered opens closes ih =>
    intro depth rest deep
    simp only [List.length_append, List.length_cons] at deep
    exact call_next (ih depth _ (by omega)) opens closes arguments_none (applied_unnumbered unnumbered _ _ _)
  | applied head unnumbered opens closes first commas spelled calleeIh firstIh restIh =>
    intro depth rest deep
    simp only [List.length_append, List.length_cons] at deep
    refine call_next (calleeIh depth _ (by omega)) opens closes ?_ (applied_unnumbered unnumbered _ _ _)
    refine arguments_some _ first (firstIh.recalls first.nonempty (by omega)) commas ?_
    intro other member
    have shorter := further_shorter member
    exact (restIh other member).recalls (spelled other member).nonempty (by omega)
  | call _ ih =>
    intro depth rest deep
    exact call_first (ih depth rest deep)
  | literal kind => exact fun depth rest _ => literal_recovers kind
  | symbol kind => exact fun depth rest _ => symbol_recovers kind
  | grouping opens closes spelled ih =>
    intro depth rest deep
    simp only [List.length_append, List.length_cons] at deep
    exact grouping_recovers opens closes (ih.recalls spelled.nonempty (by omega))

end Ladder

section Openers

variable {tokens : List Token}

theorem spells_opener {phrase : Phrase} {expr : Expr} (spelled : Spells phrase tokens expr) :
    ∃ token rest, tokens = token :: rest ∧ token.kind = expr.opener := by
  induction spelled with
  | sum _ _ _ first | product _ _ _ first | exponent _ _ _ first | invoked _ _ _ _ first | applied _ _ _ _ _ _ _ first =>
    obtain ⟨token, rest, rfl, kind⟩ := first
    exact ⟨token, _, rfl, kind⟩
  | expression _ ih | factor _ ih | power _ ih | unary _ ih | call _ ih => exact ih
  | negation | scaled | literal | symbol => exact ⟨_, _, rfl, rfl⟩
  | grouping opens => exact ⟨_, _, rfl, opens⟩

theorem statement_opener {statement : Statement} (spelled : SpellsStatement tokens statement) :
    ∃ token rest, tokens = token :: rest ∧ token.kind = statement.opener ∧ token.kind ≠ .finish := by
  cases spelled with
  | expression rest =>
    obtain ⟨token, behind, rfl, kind⟩ := spells_opener rest
    obtain ⟨start, others, same, starts⟩ := starts_expression rest.derives (by simp)
    obtain ⟨rfl, _⟩ := List.cons.inj same
    refine ⟨token, behind, rfl, kind, ?_⟩
    rcases starts with same | same | same | same <;> simp [same]
  | print kind | assign kind | declare kind => exact ⟨_, _, rfl, rfl, by simp [kind]⟩

end Openers

section Statements

variable {rounds depth : Nat} {tokens rest : List Token}

/-- A statement that neither goes on with the one before it nor is taken for a part of it. -/
def Apart (kind : Kind) : Prop := kind = .name ∨ kind = .number ∨ kind = .print

/-- What may stand behind a statement: one that keeps apart, or the end. -/
def Behind (rest : List Token) : Prop := ∀ token ∈ rest.head?, Apart token.kind ∨ token.kind = .finish

theorem Behind.ends (behind : Behind rest) {wanted : Kind → Bool} (name : wanted .name = false)
    (number : wanted .number = false) (print : wanted .print = false) (finish : wanted .finish = false) :
    Ends wanted rest := by
  intro token first
  rcases behind token first with (kind | kind | kind) | kind <;> rw [kind] <;> assumption

theorem spells_whole {expr : Expr} (called : Spells .call tokens expr) : Spells .expression tokens expr :=
  .expression (.factor (.power (.unary called)))

theorem expression_recalled {expr : Expr} (spelled : Spells .expression tokens expr)
    (deep : 2 * tokens.length ≤ depth) : Recalls (expression rounds depth) rounds tokens expr :=
  (spells_recovered rounds spelled).recalls spelled.nonempty deep

/-- A reader of statements gets past the tokens with their statement. -/
def Restores (reader : Reader Statement) (rounds : Nat) (tokens rest : List Token) (statement : Statement) : Prop :=
  ∀ cursor : Cursor, cursor.ahead = tokens ++ rest → cursor.ahead.length ≤ rounds →
    ∃ after, after.ahead = rest ∧ reader cursor = .ok (statement, after)

theorem unprinted {expr : Expr} (spelled : Spells .expression tokens expr) : Ends (· == .print) (tokens ++ rest) := by
  obtain ⟨kind, kinds, same, starts⟩ := starts_expression spelled.derives (by simp)
  obtain ⟨token, tokens, rfl, rfl, _⟩ := List.map_eq_cons_iff.mp same
  refine Ends.cons ?_
  rcases starts with kind | kind | kind | kind <;> rw [kind] <;> rfl

theorem plain_restored {expr : Expr} (spelled : Spells .expression tokens expr) (deep : 2 * tokens.length ≤ depth)
    (ends : Ends goesOn rest) :
    Restores (plainStatement (expression rounds depth)) rounds tokens rest (.expression expr) := by
  intro cursor place short
  obtain ⟨_, after, remains, _, read⟩ := expression_recalled spelled deep rest ends cursor place short
  refine ⟨after, remains, ?_⟩
  rw [plainStatement, accept_ended place (unprinted spelled)]
  simp only [read, done, ok_bind]
  rfl

theorem print_restored {keyword : Token} {expr : Expr} (kind : keyword.kind = .print)
    (spelled : Spells .expression tokens expr) (deep : 2 * tokens.length ≤ depth) (ends : Ends goesOn rest) :
    Restores (plainStatement (expression rounds depth)) rounds (keyword :: tokens) rest (.print keyword expr) := by
  intro cursor place short
  rw [List.cons_append] at place
  rw [place, List.length_cons] at short
  obtain ⟨_, after, remains, _, read⟩ :=
    expression_recalled spelled deep rest ends ⟨some keyword.kind, tokens ++ rest⟩ rfl (Nat.le_of_succ_le short)
  refine ⟨after, remains, ?_⟩
  rw [plainStatement, accept_next place (by simp [kind])]
  simp only [read, done, ok_bind]
  rfl

theorem undeclared_restored {statement : Statement} {expression : Reader Expr}
    (plain : Restores (plainStatement expression) rounds tokens rest statement) (behind : Behind rest) :
    Restores (Grammar.statement expression) rounds tokens rest statement := by
  intro cursor place short
  obtain ⟨after, remains, read⟩ := plain cursor place short
  have unequal : after.accept? (· == .mark .equals) = none :=
    accept_ended remains (behind.ends rfl rfl rfl rfl)
  refine ⟨after, remains, ?_⟩
  simp only [Grammar.statement, read, ok_bind, unequal]
  rfl

theorem declared_restored {target body : Expr} {declaration : Statement} {equals : Token} {front : List Token}
    (head : Spells .expression front target) (sign : equals.kind = .mark .equals)
    (spelled : Spells .expression tokens body) (declared : declared? (.expression target) body = some declaration)
    (deep : 2 * (front ++ equals :: tokens).length ≤ depth) (ends : Ends goesOn rest) :
    Restores (Grammar.statement (expression rounds depth)) rounds (front ++ equals :: tokens) rest declaration := by
  intro cursor place short
  simp only [List.length_append, List.length_cons] at deep
  rw [List.append_assoc, List.cons_append] at place
  have headDeep : 2 * front.length ≤ depth := by omega
  have bodyDeep : 2 * tokens.length ≤ depth := by omega
  have separate : Ends goesOn (equals :: (tokens ++ rest)) := Ends.cons (by rw [sign]; rfl)
  obtain ⟨middle, behind, headRead⟩ := plain_restored head headDeep separate cursor place short
  have accepted : middle.accept? (· == .mark .equals) = some (equals, ⟨some equals.kind, tokens ++ rest⟩) :=
    accept_next behind (by simp [sign])
  simp only [place, List.length_append, List.length_cons] at short
  have fits : (tokens ++ rest).length ≤ rounds := by
    rw [List.length_append]
    omega
  obtain ⟨_, after, remains, _, read⟩ :=
    expression_recalled spelled bodyDeep rest ends ⟨some equals.kind, tokens ++ rest⟩ rfl fits
  refine ⟨after, remains, ?_⟩
  simp only [Grammar.statement, headRead, ok_bind, accepted, read, done, declared]
  rfl

theorem parameters_symbols (names : List Token) : parameters? (names.map .symbol) = some names := by
  induction names with
  | nil => rfl
  | cons name names ih => simp [parameters?, ih]

theorem lists_arguments {listed parameters : List Token} (listing : Lists listed parameters) :
    SpellsArguments listed (parameters.map .symbol) := by
  cases listing with
  | none => exact .inl ⟨rfl, rfl⟩
  | @some first others name commas names =>
    refine .inr ⟨[first], .symbol first, _, _, rfl, rfl, spells_whole (.call (.symbol name)), ?_⟩
    refine ⟨others.map fun other => ⟨other.1, .symbol other.2, [other.2]⟩, ?_, ?_, ?_, ?_⟩
    · rw [furtherTokens, List.map_map]
      rfl
    · simp [Function.comp_def]
    · intro further member
      obtain ⟨other, inside, rfl⟩ := List.mem_map.mp member
      exact commas other inside
    · intro further member
      obtain ⟨other, inside, rfl⟩ := List.mem_map.mp member
      exact spells_whole (.call (.symbol (names other inside)))

theorem statement_restored {statement : Statement} (spelled : SpellsStatement tokens statement)
    (deep : 2 * tokens.length ≤ depth) (behind : Behind rest) :
    Restores (Grammar.statement (expression rounds depth)) rounds tokens rest statement := by
  have ends : Ends goesOn rest := behind.ends rfl rfl rfl rfl
  cases spelled with
  | expression spelled => exact undeclared_restored (plain_restored spelled deep ends) behind
  | print kind spelled =>
    rw [List.length_cons] at deep
    exact undeclared_restored (print_restored kind spelled (by omega) ends) behind
  | assign kind sign spelled =>
    exact declared_restored (spells_whole (.call (.symbol kind))) sign spelled rfl deep ends
  | @declare name opening closing equals listed parameters tokens body kind opens listing closes sign spelled =>
    have head := (lists_arguments listing).applied (.call (.symbol kind)) (by simp) opens closes
    have declared : declared? (.expression (.call (.symbol name) (parameters.map .symbol) closing)) body =
        some (.declare ⟨name, parameters, body⟩) := by
      simp [declared?, parameters_symbols]
    have same : name :: opening :: (listed ++ closing :: equals :: tokens) =
        [name] ++ opening :: (listed ++ [closing]) ++ equals :: tokens := by simp
    rw [same] at deep ⊢
    exact declared_restored (spells_whole head) sign spelled declared deep ends

end Statements

theorem behind_front {body rest : List Token} {statements : List Statement} {finish : Token}
    (spelled : SpellsProgram body statements) (apart : ∀ statement ∈ statements, Apart statement.opener)
    (finished : finish.kind = .finish) : Behind (body ++ finish :: rest) := by
  cases spelled with
  | finish =>
    intro token first
    obtain rfl : finish = token := by simpa using first
    exact .inr finished
  | statement head =>
    obtain ⟨token, tokens, rfl, kind, _⟩ := statement_opener head
    intro other first
    obtain rfl : token = other := by simpa using first
    exact .inl (kind ▸ apart _ (by simp))

/-- Statements that keep apart from those before them are read one by one. -/
theorem statementsFrom_restored {rounds depth : Nat} {body rest : List Token} {statements : List Statement}
    {finish : Token} (spelled : SpellsProgram body statements)
    (apart : ∀ statement ∈ statements.tail, Apart statement.opener) (finished : finish.kind = .finish)
    (deep : 2 * body.length ≤ depth) (turns : Nat) (cursor : Cursor) (place : cursor.ahead = body ++ finish :: rest)
    (short : cursor.ahead.length ≤ rounds) (enough : cursor.ahead.length ≤ turns) :
    statementsFrom (expression rounds depth) turns cursor = .ok statements := by
  induction spelled generalizing turns cursor with
  | finish =>
    obtain ⟨turns, rfl⟩ : ∃ fewer, turns = fewer + 1 := ⟨turns - 1, by simp [place] at enough; omega⟩
    simp [statementsFrom, place, finished]
  | @statement front back first others head tail ih =>
    rw [List.tail_cons] at apart
    rw [List.append_assoc] at place
    simp only [place, List.length_append, List.length_cons] at deep short enough
    have headDeep : 2 * front.length ≤ depth := by omega
    obtain ⟨after, remains, read⟩ := statement_restored head headDeep (behind_front tail apart finished) cursor place
      (by simpa [place] using short)
    obtain ⟨token, tokens, rfl, _, unfinished⟩ := statement_opener head
    rw [List.length_cons] at short enough
    have lengths : after.ahead.length = back.length + (rest.length + 1) := by simp [remains]
    obtain ⟨turns, rfl⟩ : ∃ fewer, turns = fewer + 1 := ⟨turns - 1, by omega⟩
    have later := ih (fun statement member => apart statement (List.mem_of_mem_tail member)) (by omega) turns after
      remains (by omega) (by omega)
    rw [List.cons_append] at place
    simp only [statementsFrom, place, unfinished, if_false, read, ok_bind, later]
    rfl

theorem program_restored {depth : Nat} {body rest : List Token} {statements : List Statement} {finish : Token}
    (spelled : SpellsProgram body statements) (apart : ∀ statement ∈ statements.tail, Apart statement.opener)
    (finished : finish.kind = .finish) (deep : 2 * body.length ≤ depth) :
    program depth (body ++ finish :: rest) = .ok statements :=
  statementsFrom_restored spelled apart finished deep _ _ rfl (Nat.le_refl _) (Nat.le_refl _)

end Proofs.GrammarRecovery

end Reckoner
