import Reckoner.Proofs.GrammarWalk

/-! How far the grammar looks ahead. Whatever a walk over the tokens comes to, it comes to
on account of the tokens that it passed and the one behind them. Other tokens further on,
fewer or more of them, change nothing. -/

namespace Reckoner.Proofs.GrammarLookahead
open Grammar GrammarPhrases GrammarReading GrammarWalk

variable {α β : Type} {here there : Nat}

/-- A walk over at most so many tokens, and another one that agrees with it on all tokens
that agree as far as the first one has seen them. -/
def Looks (here there : Nat) (walk other : Walk α) : Prop :=
  ∀ cursor, cursor.ahead.length ≤ here →
    ∃ front, cursor.ahead = front ++ (walk cursor).2.ahead ∧
      ∀ tail, tail.head? = (walk cursor).2.ahead.head? → (front ++ tail).length ≤ there →
        other ⟨cursor.previous, front ++ tail⟩ = ((walk cursor).1, ⟨(walk cursor).2.previous, tail⟩)

theorem head_append {front tail rest : List Token} (same : tail.head? = rest.head?) :
    (front ++ tail).head? = (front ++ rest).head? := by
  cases front with
  | nil => exact same
  | cons token front => rfl

theorem accept_head {wanted : Kind → Bool} {cursor : Cursor} {tail : List Token} (same : tail.head? = cursor.ahead.head?)
    (refused : cursor.accept? wanted = none) : Cursor.accept? wanted ⟨cursor.previous, tail⟩ = none := by
  rcases cursor with ⟨previous, _ | ⟨token, rest⟩⟩
  · rw [List.head?_eq_none_iff.mp same]
    rfl
  · obtain ⟨others, rfl⟩ := List.head?_eq_some_iff.mp same
    simpa [Cursor.accept?] using refused

theorem refuse_head {wanted : Failure.Expectation} {cursor : Cursor} {tail : List Token}
    (same : tail.head? = cursor.ahead.head?) : Cursor.refuse wanted ⟨cursor.previous, tail⟩ = cursor.refuse wanted := by
  rcases cursor with ⟨previous, _ | ⟨token, rest⟩⟩
  · rw [List.head?_eq_none_iff.mp same]
  · obtain ⟨others, rfl⟩ := List.head?_eq_some_iff.mp same
    rfl

theorem looks_settled (result : Except Stop α) : Looks here there (Walk.settled result) (Walk.settled result) :=
  fun _ _ => ⟨[], rfl, fun _ _ _ => rfl⟩

theorem looks_pure (value : α) : Looks here there (pure value : Walk α) (pure value) := looks_settled (.ok value)

theorem looks_next : Looks here there Walk.next? Walk.next? :=
  fun _ _ => ⟨[], rfl, fun _ same _ => Prod.ext (congrArg Except.ok same) rfl⟩

theorem looks_refuse (wanted : Failure.Expectation) :
    Looks here there (Walk.refuse wanted : Walk α) (Walk.refuse wanted) := by
  refine fun cursor _ => ⟨[], rfl, fun tail same _ => ?_⟩
  exact Prod.ext (congrArg Except.error (refuse_head same)) rfl

theorem Looks.mono {fewer less : Nat} {walk other : Walk α} (looks : Looks here there walk other) (first : fewer ≤ here)
    (second : less ≤ there) : Looks fewer less walk other := by
  intro cursor fits
  obtain ⟨front, place, agrees⟩ := looks cursor (Nat.le_trans fits first)
  exact ⟨front, place, fun tail same room => agrees tail same (Nat.le_trans room second)⟩

/-- What follows a walk that passes some tokens at least has as many fewer to go. -/
theorem Looks.behind {walk other : Walk α} {next further : α → Walk β} (least : Nat) (first : Looks here there walk other)
    (passes : ∀ cursor value after front, walk cursor = (.ok value, after) → cursor.ahead = front ++ after.ahead →
      least ≤ front.length)
    (rest : ∀ value, Looks (here - least) (there - least) (next value) (further value)) :
    Looks here there (walk >>= next) (other >>= further) := by
  intro cursor fits
  obtain ⟨front, place, agrees⟩ := first cursor fits
  rw [walk_bind]
  rcases ended : walk cursor with ⟨stop | value, middle⟩
  all_goals simp only [ended] at place agrees ⊢
  · refine ⟨front, place, fun tail same room => ?_⟩
    rw [walk_bind, agrees tail same room]
  · have passed := passes cursor value middle front ended place
    have shorter := congrArg List.length place
    rw [List.length_append] at shorter
    obtain ⟨back, behind, follows⟩ := rest value middle (by omega)
    refine ⟨front ++ back, by rw [place, behind, List.append_assoc], fun tail same room => ?_⟩
    rw [List.append_assoc] at room ⊢
    have ahead : (back ++ tail).head? = middle.ahead.head? := by
      rw [behind]
      exact head_append same
    have left : (back ++ tail).length ≤ there - least := by
      rw [List.length_append] at room
      omega
    rw [walk_bind, agrees (back ++ tail) ahead room]
    exact follows tail same left

theorem Looks.bind {walk other : Walk α} {next further : α → Walk β} (first : Looks here there walk other)
    (rest : ∀ value, Looks here there (next value) (further value)) :
    Looks here there (walk >>= next) (other >>= further) :=
  first.behind 0 (fun _ _ _ _ _ _ => Nat.zero_le _) rest

/-- A token passed is one less on both sides. -/
theorem Looks.passing {wanted : Kind → Bool} {next further : Option Token → Walk α}
    (missed : Looks here there (next none) (further none))
    (passed : ∀ token, Looks (here - 1) (there - 1) (next (some token)) (further (some token))) :
    Looks here there (Walk.pass? wanted >>= next) (Walk.pass? wanted >>= further) := by
  intro cursor fits
  rw [pass_bind]
  cases accepted : cursor.accept? wanted with
  | none =>
    obtain ⟨front, place, agrees⟩ := missed cursor fits
    refine ⟨front, place, fun tail same room => ?_⟩
    have ahead : (front ++ tail).head? = cursor.ahead.head? := by
      rw [place]
      exact head_append same
    rw [pass_bind, accept_head ahead accepted]
    exact agrees tail same room
  | some found =>
    obtain ⟨token, after⟩ := found
    obtain ⟨place, agreed⟩ := accept_some accepted
    have last : after.previous = some token.kind := by
      simp only [Cursor.accept?, place, agreed, if_true, Option.some.injEq, Prod.mk.injEq] at accepted
      rw [← accepted.2]
    have shorter := congrArg List.length place
    rw [List.length_cons] at shorter
    obtain ⟨front, behind, agrees⟩ := passed token after (by omega)
    refine ⟨token :: front, by rw [place, behind]; rfl, fun tail same room => ?_⟩
    rw [List.cons_append, List.length_cons] at room
    have again := agrees tail same (by omega)
    rw [last] at again
    rw [pass_bind]
    simpa [Cursor.accept?, agreed] using again

theorem looks_expect (kind : Kind) (wanted : Failure.Expectation) :
    Looks here there (Walk.expect kind wanted) (Walk.expect kind wanted) :=
  .passing (looks_refuse wanted) fun token => looks_pure token

/-- A repetition with a round for each token never runs out of rounds while tokens are
left, and without tokens it makes no difference how many rounds there are. -/
theorem Looks.repeated {σ : Type} (loop again : Nat → σ → Walk α) (result : σ → Except Stop α) (room : 0 < there)
    (first : ∀ rounds state previous, loop rounds state ⟨previous, []⟩ = (result state, ⟨previous, []⟩))
    (second : ∀ rounds state previous, again rounds state ⟨previous, []⟩ = (result state, ⟨previous, []⟩))
    (step : ∀ rounds others, rounds < here → others < there →
      (∀ state, Looks rounds others (loop rounds state) (again others state)) →
        ∀ state, Looks (rounds + 1) (others + 1) (loop (rounds + 1) state) (again (others + 1) state))
    (rounds others : Nat) (fits : rounds ≤ here) (follows : others ≤ there) (state : σ) :
    Looks rounds others (loop rounds state) (again others state) := by
  have none {tail : List Token} (same : tail.head? = ([] : List Token).head?) : tail = [] := List.head?_eq_none_iff.mp same
  induction rounds generalizing others state with
  | zero =>
    rintro ⟨previous, ahead⟩ short
    obtain rfl := List.length_eq_zero_iff.mp (Nat.le_zero.mp short)
    rw [first]
    refine ⟨[], rfl, fun tail same _ => ?_⟩
    rw [none same]
    exact second others state previous
  | succ rounds ih =>
    cases others with
    | succ others =>
      exact step rounds others fits follows (fun state => ih others (by omega) (by omega) state) state
    | zero =>
      -- One more round on the other side is a case of the step, and tells as much without any token.
      have more := step rounds 0 fits room fun state => ih 0 (by omega) (by omega) state
      intro cursor short
      obtain ⟨front, place, agrees⟩ := more state cursor short
      refine ⟨front, place, fun tail same empty => ?_⟩
      have agreed := agrees tail same (by omega)
      have nothing : front ++ tail = [] := List.length_eq_zero_iff.mp (Nat.le_zero.mp empty)
      rw [nothing, second] at agreed ⊢
      exact agreed

section Expressions

variable {wanted : Kind → Bool} {operand further : Walk Expr} (room : 0 < there)
  (looks : Looks here there operand further)
include room looks

theorem chainFrom_looks (rounds others : Nat) (fits : rounds ≤ here) (follows : others ≤ there) (left : Expr) :
    Looks rounds others (Walk.chainFrom wanted operand rounds left) (Walk.chainFrom wanted further others left) := by
  refine Looks.repeated (Walk.chainFrom wanted operand) (Walk.chainFrom wanted further) .ok room ?_ ?_ ?_
    rounds others fits follows left
  · exact fun rounds _ _ => by cases rounds <;> rfl
  · exact fun rounds _ _ => by cases rounds <;> rfl
  · intro rounds others few less ih left
    refine .passing (looks_pure left) fun operator => ?_
    exact (looks.mono (by omega) (by omega)).bind fun right => ih _

theorem chain_looks {first second : Walk Expr} (start : Looks here there first second) :
    Looks here there (Walk.chain here wanted first operand) (Walk.chain there wanted second further) :=
  start.bind fun left => chainFrom_looks room looks here there (Nat.le_refl _) (Nat.le_refl _) left

theorem argumentsFrom_looks (rounds others : Nat) (fits : rounds ≤ here) (follows : others ≤ there) :
    Looks rounds others (Walk.argumentsFrom operand rounds) (Walk.argumentsFrom further others) := by
  refine Looks.repeated (fun rounds (_ : Unit) => Walk.argumentsFrom operand rounds)
    (fun rounds _ => Walk.argumentsFrom further rounds) (fun _ => .ok []) room ?_ ?_ ?_ rounds others fits follows ()
  · exact fun rounds _ _ => by cases rounds <;> rfl
  · exact fun rounds _ _ => by cases rounds <;> rfl
  · intro rounds others few less ih _
    refine .passing (looks_pure []) fun comma => ?_
    exact (looks.mono (by omega) (by omega)).bind fun argument => (ih ()).bind fun others => looks_pure _

theorem arguments_looks : Looks here there (Walk.arguments here operand) (Walk.arguments there further) := by
  refine looks_next.bind fun next => ?_
  split
  · exact looks_pure []
  · exact looks.bind fun argument =>
      (argumentsFrom_looks room looks here there (Nat.le_refl _) (Nat.le_refl _)).bind fun others => looks_pure _

omit room in
theorem primary_looks : Looks here there (Walk.primary operand) (Walk.primary further) := by
  refine .passing ?_ fun number => looks_pure _
  refine .passing ?_ fun name => looks_pure _
  refine .passing (looks_refuse .expression) fun opening => ?_
  exact (looks.mono (Nat.sub_le _ _) (Nat.sub_le _ _)).bind fun inner =>
    (looks_expect _ _).bind fun closing => looks_pure _

omit looks in
theorem groupsFrom_looks {inside given : Walk (List Expr)} (looks : Looks here there inside given)
    (rounds others : Nat) (fits : rounds ≤ here) (follows : others ≤ there) (callee : Expr) :
    Looks rounds others (Walk.groupsFrom inside rounds callee) (Walk.groupsFrom given others callee) := by
  refine Looks.repeated (Walk.groupsFrom inside) (Walk.groupsFrom given) .ok room ?_ ?_ ?_
    rounds others fits follows callee
  · exact fun rounds _ _ => by cases rounds <;> rfl
  · exact fun rounds _ _ => by cases rounds <;> rfl
  · intro rounds others few less ih callee
    refine .passing (looks_pure callee) fun opening => ?_
    exact (looks.mono (by omega) (by omega)).bind fun arguments => (looks_expect _ _).bind fun closing =>
      (looks_settled _).bind fun expr => ih expr

theorem call_looks : Looks here there (Walk.call here operand) (Walk.call there further) :=
  (primary_looks looks).bind fun callee =>
    groupsFrom_looks room (arguments_looks room looks) here there (Nat.le_refl _) (Nat.le_refl _) callee

theorem term_looks {first second : Walk Expr} (signed : Looks here there first second) :
    Looks here there (Walk.term here first operand) (Walk.term there second further) :=
  have power := chain_looks room (primary_looks looks) signed
  have factor := chain_looks room power power
  chain_looks room factor factor

end Expressions

theorem ladder_looks (room : 0 < there) (depth : Nat) :
    Looks here there (Walk.expression here depth) (Walk.expression there depth) ∧
      Looks here there (Walk.unary here depth) (Walk.unary there depth) := by
  induction depth with
  | zero => exact ⟨looks_settled _, looks_settled _⟩
  | succ depth ih =>
    refine ⟨term_looks room ih.1 ih.2, ?_⟩
    exact .passing (call_looks room ih.1) fun operator =>
      (ih.2.mono (Nat.sub_le _ _) (Nat.sub_le _ _)).bind fun operand => looks_pure _

section Statements

variable {expression further : Walk Expr} (looks : Looks here there expression further)
include looks

theorem plainStatement_looks : Looks here there (Walk.plainStatement expression) (Walk.plainStatement further) := by
  refine .passing (looks.bind fun expr => looks_pure _) fun keyword => ?_
  exact (looks.mono (Nat.sub_le _ _) (Nat.sub_le _ _)).bind fun expr => looks_pure _

theorem statement_looks : Looks here there (Walk.statement expression) (Walk.statement further) := by
  refine (plainStatement_looks looks).bind fun head => .passing (looks_pure head) fun equals => ?_
  exact (looks.mono (Nat.sub_le _ _) (Nat.sub_le _ _)).bind fun body => looks_settled _

/-- Every statement takes a token, so a round for each of them is enough. -/
theorem statementsFrom_looks {reader : Reader Expr} {limit : Nat} (room : 0 < there)
    (follows : Follows reader expression) (faithful : Faithful limit .expression reader) (rounds others : Nat)
    (fits : rounds ≤ here) (leaves : others ≤ there) :
    Looks rounds others (Walk.statementsFrom expression rounds) (Walk.statementsFrom further others) := by
  refine Looks.repeated (fun rounds (_ : Unit) => Walk.statementsFrom expression rounds)
    (fun rounds _ => Walk.statementsFrom further rounds) (fun _ => .error (.broken .unfinished)) room ?_ ?_ ?_
    rounds others fits leaves ()
  · exact fun rounds _ _ => by cases rounds <;> rfl
  · exact fun rounds _ _ => by cases rounds <;> rfl
  · intro rounds others few less ih _
    refine looks_next.bind fun next => ?_
    cases next with
    | none => exact looks_settled _
    | some token =>
    dsimp only
    split
    · exact looks_pure []
    · refine ((statement_looks looks).mono few less).behind 1 ?_ fun first =>
        (ih ()).bind fun others => looks_pure (first :: others)
      intro cursor first after front ended place
      have delivered : Delivers limit [] SpellsStatement cursor (statement reader cursor) :=
        statement_delivers faithful cursor
      rw [statement_follows follows cursor, ended] at delivered
      obtain ⟨passed, split, -, spelled⟩ := delivered
      rw [List.append_cancel_right (place.symm.trans split)]
      exact List.length_pos_iff.mpr spelled.nonempty

end Statements

/-- A walk over a program comes to the same over all programs with the same tokens up to
the first one that it did not pass. -/
theorem program_looks {depth : Nat} {tokens : List Token} {result : Except Stop (List Statement)} {cursor : Cursor}
    (walked : Walk.program depth tokens = (result, cursor)) :
    ∃ front, tokens = front ++ cursor.ahead ∧ ∀ tail, tail.head? = cursor.ahead.head? →
      Walk.program depth (front ++ tail) = (result, ⟨cursor.previous, tail⟩) := by
  have looks (others : List Token) (room : 0 < others.length) :
      Looks tokens.length others.length (Walk.statementsFrom (Walk.expression tokens.length depth) tokens.length)
        (Walk.statementsFrom (Walk.expression others.length depth) others.length) :=
    statementsFrom_looks (ladder_looks room depth).1 room (ladder_follows tokens.length depth).1
      ((ladder_faithful tokens.length depth).1 0 (Nat.zero_le _)) _ _ (Nat.le_refl _) (Nat.le_refl _)
  change Walk.statementsFrom _ _ (.ofTokens tokens) = _ at walked
  cases tokens with
  | nil =>
    cases walked
    refine ⟨[], rfl, fun tail same => ?_⟩
    rw [List.head?_eq_none_iff.mp same]
    rfl
  | cons token rest =>
    obtain ⟨front, place, -⟩ := looks (token :: rest) (by simp) (.ofTokens (token :: rest)) (Nat.le_refl _)
    rw [walked] at place
    refine ⟨front, place, fun tail same => ?_⟩
    have head : (front ++ tail).head? = some token := (head_append same).trans (congrArg List.head? place.symm)
    have room : 0 < (front ++ tail).length := List.length_pos_of_mem (List.mem_of_head? head)
    obtain ⟨again, split, agrees⟩ := looks (front ++ tail) room (.ofTokens (token :: rest)) (Nat.le_refl _)
    rw [walked] at split agrees
    obtain rfl := List.append_cancel_right (place.symm.trans split)
    exact agrees tail same (Nat.le_refl _)

end Reckoner.Proofs.GrammarLookahead
