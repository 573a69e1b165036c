import Reckoner.Proofs.GrammarReading

/-! Which token a failed reading blames. Only running into the end blames the end. A
product that stands right behind a number is never to blame, since the number is always
read as a factor and the product goes on with it. That matters because such a product
need not be written anywhere. -/

namespace Reckoner.Proofs.GrammarBlame
open Grammar GrammarReading

/-- Whether the next token is something other than a product. -/
def Unmultiplied (cursor : Cursor) : Prop := ∀ token rest, cursor.ahead = token :: rest → token.kind ≠ .mark .star

/-- The cursor stands somewhere in the sequence, and not before a product behind a number. -/
structure Poised (tokens : List Token) (cursor : Cursor) : Prop where
  within : cursor.ahead <:+ tokens
  apart : ∀ number, number :: cursor.ahead <:+ tokens → number.kind = .number → Unmultiplied cursor

/-- A failure is put down to a token of the sequence. -/
structure Blamed (tokens : List Token) (failure : Failure) (token : Token) (rest : List Token) : Prop where
  within : token :: rest <:+ tokens
  site : failure.site = some token.span
  parse : failure.kind = .parse
  finish : (∃ wanted, failure.cause = .unexpectedEnd wanted) ↔ token.kind = .finish
  apart : ∀ number, number :: token :: rest <:+ tokens → number.kind = .number → token.kind ≠ .mark .star

def Blames (tokens : List Token) (failure : Failure) : Prop := ∃ token rest, Blamed tokens failure token rest

/-- A reader's result at a cursor's place: it ends where the condition says, or blames a token. -/
def Careful {α : Type} (tokens : List Token) (ends : Cursor → Prop) (cursor : Cursor) : Except Stop (α × Cursor) → Prop
  | .ok (_, after) => after.ahead <:+ cursor.ahead ∧ ends after
  | .error (.failed failure) => Blames tokens failure
  | .error _ => True

/-- A reader that is careful wherever the cursor is poised. -/
def Wary {α : Type} (tokens : List Token) (ends : Cursor → Prop) (reader : Reader α) : Prop :=
  ∀ cursor, Poised tokens cursor → Careful tokens ends cursor (reader cursor)

def Anywhere (_ : Cursor) : Prop := True

variable {α β : Type} {tokens : List Token} {ends : Cursor → Prop} {cursor after : Cursor}

theorem poised_of_unmultiplied (within : cursor.ahead <:+ tokens) (other : Unmultiplied cursor) : Poised tokens cursor :=
  ⟨within, fun _ _ _ => other⟩

/-- Behind anything but a number the cursor is poised. -/
theorem poised_behind {token : Token} (within : cursor.ahead <:+ tokens) (place : cursor.ahead = token :: after.ahead)
    (unnumbered : token.kind ≠ .number) : Poised tokens after := by
  rw [place] at within
  refine ⟨(List.suffix_cons _ _).trans within, fun number also kind => ?_⟩
  have same := List.suffix_of_suffix_length_le also within (Nat.le_refl _)
  obtain rfl : number = token := by simpa using same.eq_of_length rfl
  exact absurd kind unnumbered

theorem accept_poised {wanted : Kind} {token : Token} (accepted : cursor.accept? (· == wanted) = some (token, after))
    (within : cursor.ahead <:+ tokens) (unnumbered : wanted ≠ .number) :
    cursor.ahead = token :: after.ahead ∧ token.kind = wanted ∧ Poised tokens after := by
  obtain ⟨place, agreed⟩ := accept_some accepted
  have kind : token.kind = wanted := by simpa using agreed
  exact ⟨place, kind, poised_behind within place (kind ▸ unnumbered)⟩

theorem Careful.bind {first : Cursor → Prop} {result : Except Stop (α × Cursor)}
    {next : α × Cursor → Except Stop (β × Cursor)} (careful : Careful tokens first cursor result)
    (rest : ∀ value after, after.ahead <:+ cursor.ahead → first after → Careful tokens ends after (next (value, after))) :
    Careful tokens ends cursor (result >>= next) := by
  match result with
  | .ok (value, middle) =>
    obtain ⟨shorter, ended⟩ := careful
    have further := rest value middle shorter ended
    rw [ok_bind]
    generalize next (value, middle) = final at further
    match final with
    | .ok (_, _) => exact ⟨further.1.trans shorter, further.2⟩
    | .error (.failed _) => exact further
    | .error .tooDeep | .error (.broken _) => trivial
  | .error (.failed failure) => exact careful
  | .error .tooDeep | .error (.broken _) => trivial

theorem Careful.passing {token : Token} {result : Except Stop (α × Cursor)} (place : cursor.ahead = token :: after.ahead)
    (rest : Careful tokens ends after result) : Careful tokens ends cursor result := by
  match result with
  | .ok (_, _) => exact ⟨rest.1.trans (place ▸ List.suffix_cons _ _), rest.2⟩
  | .error (.failed _) => exact rest
  | .error .tooDeep | .error (.broken _) => trivial

theorem careful_here {value : α} (ended : ends cursor) : Careful tokens ends cursor (.ok (value, cursor)) :=
  ⟨List.suffix_refl _, ended⟩

theorem refuse_careful (poised : Poised tokens cursor) (wanted : Failure.Expectation) :
    Careful tokens ends cursor (.error (cursor.refuse wanted) : Except Stop (α × Cursor)) := by
  unfold Cursor.refuse
  split
  next => trivial
  next token rest place =>
    refine ⟨token, rest, place ▸ poised.within, rfl, ?_, ?_, fun number also kind => ?_⟩
    · unfold Failure.kind
      dsimp only
      split <;> rfl
    · dsimp only
      split <;> simp [*]
    · exact poised.apart number (place ▸ also) kind token rest place

theorem expect_careful (poised : Poised tokens cursor) (kind : Kind) (wanted : Failure.Expectation) :
    Careful tokens Anywhere cursor (cursor.expect kind wanted) := by
  unfold Cursor.expect
  split
  next passed accepted => exact .passing (accept_some accepted).1 (careful_here trivial)
  next => exact refuse_careful poised wanted

theorem accept_none {wanted : Kind → Bool} (refused : cursor.accept? wanted = none) {token : Token} {rest : List Token}
    (place : cursor.ahead = token :: rest) : wanted token.kind = false := by
  simpa [Cursor.accept?, place] using refused

section Chains

variable {wanted : Kind → Bool} {first operand : Reader Expr} {reached : Cursor → Prop}

/-- Every round passes a token, so the rounds suffice, and the chain ends before a token that is not wanted. -/
theorem chainFrom_careful (unnumbered : wanted .number = false) (wary : Wary tokens reached operand)
    (stops : ∀ cursor, reached cursor → cursor.accept? wanted = none → ends cursor) (rounds : Nat) (left : Expr)
    (cursor : Cursor) (within : cursor.ahead <:+ tokens) (enough : cursor.ahead.length ≤ rounds) (here : reached cursor) :
    Careful tokens ends cursor (chainFrom wanted operand rounds left cursor) := by
  induction rounds generalizing left cursor with
  | zero =>
    have none : cursor.ahead = [] := List.length_eq_zero_iff.mp (by omega)
    exact careful_here (stops cursor here (by simp [Cursor.accept?, none]))
  | succ rounds ih =>
    rw [chainFrom]
    split
    next refused => exact careful_here (stops cursor here refused)
    next operator after accepted =>
      obtain ⟨place, agreed⟩ := accept_some accepted
      have separate : operator.kind ≠ .number := fun same => by simp [same, unnumbered] at agreed
      have poised := poised_behind within place separate
      refine .passing place (.bind (wary after poised) fun right final shorter there => ?_)
      have fewer := shorter.length_le
      rw [place, List.length_cons] at enough
      exact ih _ final (shorter.trans poised.within) (by omega) there

theorem chain_wary (unnumbered : wanted .number = false) (start : Wary tokens reached first)
    (wary : Wary tokens reached operand)
    (stops : ∀ cursor, reached cursor → cursor.accept? wanted = none → ends cursor) :
    Wary tokens ends (chain tokens.length wanted first operand) := by
  intro cursor poised
  refine .bind (start cursor poised) fun left after shorter here => ?_
  have within := shorter.trans poised.within
  exact chainFrom_careful unnumbered wary stops tokens.length left after within within.length_le here

end Chains

section Groups

/-- A group that a number refuses is blamed on its parenthesis. -/
theorem applied_blames {callee : Expr} {opening closing : Token} {given : List Expr} {rest : List Token} {stop : Stop}
    (within : opening :: rest <:+ tokens) (opens : opening.kind = .mark .opening)
    (refused : applied callee opening given closing = .error stop) :
    ∃ failure, stop = .failed failure ∧ Blames tokens failure := by
  unfold applied at refused
  split at refused
  · split at refused
    · cases refused
    · cases refused
      exact ⟨_, rfl, opening, rest, within, rfl, rfl, by simp [opens], by simp [opens]⟩
  · cases refused

theorem groupsFrom_careful {inside : Reader (List Expr)} (given : Wary tokens Unmultiplied inside) (rounds : Nat)
    (callee : Expr) (cursor : Cursor) (within : cursor.ahead <:+ tokens) :
    Careful tokens Anywhere cursor (groupsFrom inside rounds callee cursor) := by
  induction rounds generalizing callee cursor with
  | zero => exact careful_here trivial
  | succ rounds ih =>
    rw [groupsFrom]
    split
    next => exact careful_here trivial
    next opening after accepted =>
      obtain ⟨place, opens, poised⟩ := accept_poised accepted within (by simp)
      refine .passing place (.bind (given after poised) fun arguments middle shorter there => ?_)
      have before := poised_of_unmultiplied (shorter.trans poised.within) there
      refine .bind (expect_careful before _ _) fun closing final fewer _ => ?_
      dsimp only
      cases made : applied callee opening arguments closing with
      | ok expr => exact ih expr final (fewer.trans before.within)
      | error stop =>
        obtain ⟨failure, rfl, blames⟩ := applied_blames (place ▸ within) opens made
        exact blames

variable {expression : Reader Expr} (wary : Wary tokens Unmultiplied expression)
include wary

theorem argumentsFrom_careful (rounds : Nat) (cursor : Cursor) (within : cursor.ahead <:+ tokens)
    (here : Unmultiplied cursor) : Careful tokens Unmultiplied cursor (argumentsFrom expression rounds cursor) := by
  induction rounds generalizing cursor with
  | zero => exact careful_here here
  | succ rounds ih =>
    rw [argumentsFrom]
    split
    next => exact careful_here here
    next comma after accepted =>
      obtain ⟨place, -, poised⟩ := accept_poised accepted within (by simp)
      refine .passing place (.bind (wary after poised) fun argument middle shorter there => ?_)
      exact .bind (ih middle (shorter.trans poised.within) there) fun _ _ _ final => careful_here final

theorem arguments_wary (rounds : Nat) : Wary tokens Unmultiplied (arguments rounds expression) := by
  intro cursor poised
  unfold arguments
  split
  next accepted =>
    obtain ⟨place, closes, -⟩ := accept_poised accepted poised.within (by simp)
    refine careful_here fun token rest same => ?_
    obtain ⟨rfl, -⟩ := List.cons.inj (place.symm.trans same)
    simp [closes]
  next =>
    refine .bind (wary cursor poised) fun argument after shorter there => ?_
    exact .bind (argumentsFrom_careful wary rounds after (shorter.trans poised.within) there)
      fun _ _ _ final => careful_here final

theorem primary_wary : Wary tokens Anywhere (primary expression) := by
  intro cursor poised
  unfold primary
  split
  next token after accepted => exact .passing (accept_some accepted).1 (careful_here trivial)
  next =>
  split
  next token after accepted => exact .passing (accept_some accepted).1 (careful_here trivial)
  next =>
  split
  next opening after accepted =>
    obtain ⟨place, -, inside⟩ := accept_poised accepted poised.within (by simp)
    refine .passing place (.bind (wary after inside) fun inner middle shorter there => ?_)
    have before := poised_of_unmultiplied (shorter.trans inside.within) there
    exact .bind (expect_careful before _ _) fun _ _ _ _ => careful_here trivial
  next => exact refuse_careful poised .expression

theorem call_wary (rounds : Nat) : Wary tokens Anywhere (call rounds expression) := by
  intro cursor poised
  refine .bind (primary_wary wary cursor poised) fun callee after shorter _ => ?_
  exact groupsFrom_careful (arguments_wary wary rounds) rounds callee after (shorter.trans poised.within)

end Groups

section Ladder

variable {unary expression : Reader Expr} (signed : Wary tokens Anywhere unary)
  (wary : Wary tokens Unmultiplied expression)
include signed wary

theorem power_wary : Wary tokens Anywhere (power tokens.length unary expression) :=
  chain_wary rfl signed (primary_wary wary) fun _ _ _ => trivial

/-- All products are read as such, so none is left behind a factor. -/
theorem factor_wary : Wary tokens Unmultiplied (factor tokens.length unary expression) := by
  refine chain_wary rfl (power_wary signed wary) (power_wary signed wary) ?_
  intro cursor _ refused token rest place star
  have unwanted := accept_none refused place
  rw [star] at unwanted
  cases unwanted

theorem term_wary : Wary tokens Unmultiplied (term tokens.length unary expression) :=
  chain_wary rfl (factor_wary signed wary) (factor_wary signed wary) fun _ here _ => here

end Ladder

theorem ladder_wary (tokens : List Token) (depth : Nat) :
    Wary tokens Unmultiplied (expression tokens.length depth) ∧ Wary tokens Anywhere (unary tokens.length depth) := by
  induction depth with
  | zero => exact ⟨fun _ _ => trivial, fun _ _ => trivial⟩
  | succ depth ih =>
    refine ⟨term_wary ih.2 ih.1, fun cursor poised => ?_⟩
    rw [unary]
    split
    next operator after accepted =>
      obtain ⟨place, -, behind⟩ := accept_poised accepted poised.within (by simp)
      exact .passing place (.bind (ih.2 after behind) fun _ _ _ _ => careful_here trivial)
    next => exact call_wary ih.1 tokens.length cursor poised

section Statements

variable {expression : Reader Expr} (wary : Wary tokens Unmultiplied expression)
include wary

theorem plainStatement_wary : Wary tokens Unmultiplied (plainStatement expression) := by
  intro cursor poised
  unfold plainStatement
  split
  next keyword after accepted =>
    obtain ⟨place, -, behind⟩ := accept_poised accepted poised.within (by simp)
    exact .passing place (.bind (wary after behind) fun _ _ _ there => careful_here there)
  next => exact .bind (wary cursor poised) fun _ _ _ there => careful_here there

theorem statement_wary : Wary tokens Unmultiplied (statement expression) := by
  intro cursor poised
  unfold statement
  refine .bind (plainStatement_wary wary cursor poised) fun head after shorter there => ?_
  have within := shorter.trans poised.within
  dsimp only
  split
  next => exact careful_here there
  next equals behind accepted =>
    obtain ⟨place, sign, beyond⟩ := accept_poised accepted within (by simp)
    refine .passing place (.bind (wary behind beyond) fun body final _ ended => ?_)
    dsimp only
    split
    next => exact careful_here ended
    next => exact ⟨equals, behind.ahead, place ▸ within, rfl, rfl, by simp [sign], by simp [sign]⟩

theorem statementsFrom_blames (rounds : Nat) (cursor : Cursor) (poised : Poised tokens cursor) {failure : Failure}
    (failed : statementsFrom expression rounds cursor = .error (.failed failure)) : Blames tokens failure := by
  induction rounds generalizing cursor with
  | zero => cases failed
  | succ rounds ih =>
    have careful := statement_wary wary cursor poised
    rw [statementsFrom] at failed
    split at failed
    · cases failed
    split at failed
    · cases failed
    cases read : statement expression cursor with
    | error stop =>
      rw [read] at failed careful
      cases failed
      exact careful
    | ok passed =>
      obtain ⟨first, after⟩ := passed
      rw [read] at failed careful
      obtain ⟨shorter, there⟩ := careful
      rw [ok_bind] at failed
      have behind := poised_of_unmultiplied (shorter.trans poised.within) there
      cases others : statementsFrom expression rounds after with
      | error stop =>
        simp only [others, error_bind, Except.error.injEq] at failed
        exact ih after behind (failed ▸ others)
      | ok statements => simp [others, pure, Except.pure] at failed

end Statements

/-- A program that cannot be read is put down to one of its tokens. -/
theorem program_blames {depth : Nat} {tokens : List Token} {failure : Failure}
    (failed : program depth tokens = .error (.failed failure)) : Blames tokens failure := by
  refine statementsFrom_blames (ladder_wary tokens depth).1 tokens.length (.ofTokens tokens) ?_ failed
  refine ⟨List.suffix_refl _, fun number longer _ => ?_⟩
  have length := longer.length_le
  simp only [Cursor.ofTokens, List.length_cons] at length
  omega

end Reckoner.Proofs.GrammarBlame
