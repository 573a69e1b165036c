import Reckoner.Proofs.GrammarReading

/-! More depth never changes what is read. A reader with less depth either runs out of
it or comes to the very result of the reader with more, so depth bounds which token
sequences are read at all and has no say in what they mean. -/

namespace Reckoner.Proofs.GrammarDepth
open Grammar GrammarReading

variable {α β : Type}

/-- The first result is the second one, unless depth ran out before. -/
def Curtails (shallow deep : Except Stop α) : Prop := shallow = .error .tooDeep ∨ shallow = deep

theorem Curtails.refl (result : Except Stop α) : Curtails result result := .inr rfl

theorem Curtails.bind {shallow deep : Except Stop α} {first second : α → Except Stop β}
    (head : Curtails shallow deep) (rest : ∀ value, Curtails (first value) (second value)) :
    Curtails (shallow >>= first) (deep >>= second) := by
  rcases head with cut | rfl
  · exact .inl (by rw [cut, error_bind])
  · match shallow with
    | .error stop => exact .refl _
    | .ok value => exact rest value

def CurtailsReader (shallow deep : Reader α) : Prop := ∀ cursor, Curtails (shallow cursor) (deep cursor)

section Readers

variable {shallow deep : Reader Expr} (curtails : CurtailsReader shallow deep)
include curtails

theorem chainFrom_curtails (wanted : Kind → Bool) (rounds : Nat) (left : Expr) :
    CurtailsReader (chainFrom wanted shallow rounds left) (chainFrom wanted deep rounds left) := by
  intro cursor
  induction rounds generalizing left cursor with
  | zero => exact .refl _
  | succ rounds ih =>
    rw [chainFrom, chainFrom]
    split
    next => exact .refl _
    next operator after _ => exact (curtails after).bind fun passed => ih _ passed.2

theorem chain_curtails (wanted : Kind → Bool) (rounds : Nat) {first second : Reader Expr}
    (starts : CurtailsReader first second) :
    CurtailsReader (chain rounds wanted first shallow) (chain rounds wanted second deep) :=
  fun cursor => (starts cursor).bind fun passed => chainFrom_curtails curtails wanted rounds passed.1 passed.2

theorem argumentsFrom_curtails (rounds : Nat) :
    CurtailsReader (argumentsFrom shallow rounds) (argumentsFrom deep rounds) := by
  intro cursor
  induction rounds generalizing cursor with
  | zero => exact .refl _
  | succ rounds ih =>
    rw [argumentsFrom, argumentsFrom]
    split
    next => exact .refl _
    next comma after _ => exact (curtails after).bind fun passed => (ih passed.2).bind fun _ => .refl _

theorem arguments_curtails (rounds : Nat) : CurtailsReader (arguments rounds shallow) (arguments rounds deep) := by
  intro cursor
  rw [arguments, arguments]
  split
  next => exact .refl _
  next =>
    exact (curtails cursor).bind fun passed => (argumentsFrom_curtails curtails rounds passed.2).bind fun _ => .refl _

theorem primary_curtails : CurtailsReader (primary shallow) (primary deep) := by
  intro cursor
  rw [primary, primary]
  split
  next => exact .refl _
  next =>
    split
    next => exact .refl _
    next =>
      split
      next opening after _ => exact (curtails after).bind fun _ => .refl _
      next => exact .refl _

theorem groupsFrom_curtails (turns rounds : Nat) (callee : Expr) :
    CurtailsReader (groupsFrom (arguments turns shallow) rounds callee) (groupsFrom (arguments turns deep) rounds callee) := by
  intro cursor
  induction rounds generalizing callee cursor with
  | zero => exact .refl _
  | succ rounds ih =>
    rw [groupsFrom, groupsFrom]
    split
    next => exact .refl _
    next opening after _ =>
      refine (arguments_curtails curtails turns after).bind fun given => ?_
      refine (Curtails.refl _).bind fun closing => ?_
      exact (Curtails.refl _).bind fun expr => ih expr closing.2

theorem call_curtails (rounds : Nat) : CurtailsReader (call rounds shallow) (call rounds deep) :=
  fun cursor => (primary_curtails curtails cursor).bind fun callee =>
    groupsFrom_curtails curtails rounds rounds callee.1 callee.2

theorem plainStatement_curtails : CurtailsReader (plainStatement shallow) (plainStatement deep) := by
  intro cursor
  rw [plainStatement, plainStatement]
  split
  next keyword after _ => exact (curtails after).bind fun _ => .refl _
  next => exact (curtails cursor).bind fun _ => .refl _

theorem statement_curtails : CurtailsReader (statement shallow) (statement deep) := by
  intro cursor
  refine (plainStatement_curtails curtails cursor).bind fun head => ?_
  dsimp only
  split
  next => exact .refl _
  next equals after _ => exact (curtails after).bind fun _ => .refl _

theorem statementsFrom_curtails (rounds : Nat) (cursor : Cursor) :
    Curtails (statementsFrom shallow rounds cursor) (statementsFrom deep rounds cursor) := by
  induction rounds generalizing cursor with
  | zero => exact .refl _
  | succ rounds ih =>
    rw [statementsFrom, statementsFrom]
    split
    next => exact .refl _
    next token rest =>
      split
      next => exact .refl _
      next => exact (statement_curtails curtails cursor).bind fun first => (ih first.2).bind fun _ => .refl _

theorem term_curtails {first second : Reader Expr} (signed : CurtailsReader first second) (rounds : Nat) :
    CurtailsReader (term rounds first shallow) (term rounds second deep) := by
  have powers : CurtailsReader (power rounds first shallow) (power rounds second deep) :=
    chain_curtails (primary_curtails curtails) _ rounds signed
  have factors : CurtailsReader (factor rounds first shallow) (factor rounds second deep) :=
    chain_curtails powers _ rounds powers
  exact chain_curtails factors _ rounds factors

end Readers

/-- The two readers of the knot, together, by induction on the lesser depth. -/
theorem ladder_curtails (rounds : Nat) {depth more : Nat} (deeper : depth ≤ more) :
    CurtailsReader (expression rounds depth) (expression rounds more) ∧
      CurtailsReader (unary rounds depth) (unary rounds more) := by
  induction depth generalizing more with
  | zero => exact ⟨fun cursor => .inl (by rw [expression]), fun cursor => .inl (by rw [unary])⟩
  | succ depth ih =>
    obtain ⟨more, rfl⟩ : ∃ less, more = less + 1 := ⟨more - 1, by omega⟩
    obtain ⟨expressions, unaries⟩ := ih (Nat.le_of_succ_le_succ deeper)
    refine ⟨fun cursor => ?_, fun cursor => ?_⟩
    · rw [expression, expression]
      exact term_curtails expressions unaries rounds cursor
    · rw [unary, unary]
      split
      next operator after _ => exact (unaries after).bind fun _ => .refl _
      next => exact call_curtails expressions rounds cursor

theorem program_curtails {depth more : Nat} (deeper : depth ≤ more) (tokens : List Token) :
    Curtails (program depth tokens) (program more tokens) :=
  statementsFrom_curtails (ladder_curtails tokens.length deeper).1 tokens.length (.ofTokens tokens)

end Reckoner.Proofs.GrammarDepth
