import Reckoner.Proofs.GrammarDepth
import Reckoner.Proofs.ParallelRuns
import Reckoner.Proofs.SessionSafety

/-! Depth only cuts off. Where a run stays within its depth, more of it changes nothing;
where it does not, it has shown the beginning of what it shows with more. Running out of
depth comes from one place of the evaluation, and nothing on the way out takes it for a
failure. -/

namespace Reckoner

/-- The batch was stopped because it went too deep. -/
def Result.OutOfDepth (result : Result) : Prop :=
  ∃ failure, result.outcome = .error (.failure failure) ∧ failure.kind = .depth

/-- The expression that a statement evaluates itself. A function's body waits for a call. -/
def Statement.evaluated? : Statement → Option Expr
  | .expression expr | .print _ expr | .assign _ expr => some expr
  | .declare _ => none

open Run

/-- The derivations of how an evaluation comes to a place for which no depth is left. Everything
that is evaluated before it comes to a value. -/
inductive RunsOut (renderer : Option Renderer) : Nat → Work → Machine → Prop
  | here {work : Work} {machine : Machine} : RunsOut renderer 0 work machine
  | grouping {depth : Nat} {machine : Machine} {inner : Expr} (inside : RunsOut renderer depth (.expression inner) machine) :
    RunsOut renderer (depth + 1) (.expression (.grouping inner)) machine
  | operand {depth : Nat} {machine : Machine} {operator : Token} {operand : Expr}
      (inside : RunsOut renderer depth (.expression operand) machine) :
    RunsOut renderer (depth + 1) (.expression (.unary operator operand)) machine
  | left {depth : Nat} {machine : Machine} {operator : Token} {left right : Expr}
      (inside : RunsOut renderer depth (.expression left) machine) :
    RunsOut renderer (depth + 1) (.expression (.binary left operator right)) machine
  | right {depth : Nat} {machine middle : Machine} {operator : Token} {left right : Expr} {a : Value}
      (first : left.evaluate renderer depth machine = (.ok a, middle))
      (inside : RunsOut renderer depth (.expression right) middle) :
    RunsOut renderer (depth + 1) (.expression (.binary left operator right)) machine
  | callee {depth : Nat} {machine : Machine} {callee : Expr} {arguments : List Expr} {closing : Token}
      (inside : RunsOut renderer depth (.expression callee) machine) :
    RunsOut renderer (depth + 1) (.expression (.call callee arguments closing)) machine
  | argument {depth : Nat} {machine middle later : Machine} {callee argument : Expr} {before behind : List Expr}
      {closing : Token} {target : Value} {values : List Value}
      (head : callee.evaluate renderer depth machine = (.ok target, middle))
      (others : before.mapM (Expr.evaluate renderer depth) middle = (.ok values, later))
      (inside : RunsOut renderer depth (.expression argument) later) :
    RunsOut renderer (depth + 1) (.expression (.call callee (before ++ argument :: behind) closing)) machine
  | application {depth : Nat} {machine middle after : Machine} {callee : Expr} {arguments : List Expr} {closing : Token}
      {function : Function} {values : List Value}
      (head : callee.evaluate renderer depth machine = (.ok (.function function), middle))
      (all : arguments.mapM (Expr.evaluate renderer depth) middle = (.ok values, after))
      (count : values.length = function.arity)
      (inside : RunsOut renderer depth (.application (.call callee arguments closing) function values) after) :
    RunsOut renderer (depth + 1) (.expression (.call callee arguments closing)) machine
  | body {depth : Nat} {machine : Machine} {call : Expr} {declaration : Declaration} {home : Origin}
      {arguments : List Value}
      (inside : RunsOut renderer depth (.expression declaration.body) (bodyMachine machine declaration home arguments)) :
    RunsOut renderer (depth + 1) (.application call (.declared declaration home) arguments) machine
  | sample {depth : Nat} {machine later : Machine} {call : Expr} {function : Function} {before behind : List Float}
      {x : Float} {points : List (Point Float)} (unary : function.arity = 1)
      (domain : plotDomain = before ++ x :: behind)
      (others : before.mapM (sample (Function.apply renderer depth) function) machine = (.ok points, later))
      (inside : RunsOut renderer depth (.application call function [.number x]) later) :
    RunsOut renderer (depth + 1) (.application call (.builtin .plot) [.function function]) machine

/-- What is left of a piece of work that runs out of depth. -/
def Work.TooDeep (renderer : Option Renderer) (depth : Nat) (machine : Machine) : Work → Prop
  | .expression expr => ∃ after, expr.evaluate renderer depth machine = (.error .tooDeep, after)
  | .application _ function arguments => ∃ after, function.apply renderer depth arguments machine = (.error .tooDeep, after)

namespace Proofs.DepthCutoff
open Likeness Grammar EvaluationFrame BatchExecution FailureTrace GrammarDepth ParallelRuns

variable {renderer : Option Renderer} {depth : Nat}

section Derivations

theorem adjusting_tooDeep {run : Run Value} {machine after : Machine} {change : Machine → Failure → Failure} :
    adjusting change run machine = (.error .tooDeep, after) ↔ run machine = (.error .tooDeep, after) := by
  unfold adjusting
  split
  next here =>
    rw [here]
    constructor <;> intro impossible <;> cases impossible
  next => exact Iff.rfl

theorem entered_tooDeep {machine : Machine} {declaration : Declaration} {home : Origin} {arguments : List Value}
    {body : Run Value} :
    (∃ after, entered declaration home arguments body machine = (.error .tooDeep, after)) ↔
      ∃ after, body (bodyMachine machine declaration home arguments) = (.error .tooDeep, after) := by
  unfold entered
  simp only [adjusting_tooDeep]
  unfold within bodyMachine
  rcases body _ with ⟨result, middle⟩
  constructor
  · rintro ⟨after, ended⟩
    cases ended
    exact ⟨middle, rfl⟩
  · rintro ⟨after, ended⟩
    cases ended
    exact ⟨_, rfl⟩

theorem RunsOut.tooDeep {work : Work} {machine : Machine} (out : RunsOut renderer depth work machine) :
    work.TooDeep renderer depth machine := by
  induction out with
  | @here work machine =>
    cases work with
    | expression expr => exact ⟨machine, rfl⟩
    | application call function arguments => exact ⟨machine, rfl⟩
  | grouping inside ih => exact ih
  | operand inside ih | left inside ih | callee inside ih =>
    obtain ⟨after, stopped⟩ := ih
    exact ⟨after, bind_stops stopped _⟩
  | right first inside ih =>
    obtain ⟨after, stopped⟩ := ih
    exact ⟨after, by rw [evaluate_binary, bind_continues first, bind_stops stopped]⟩
  | argument head others inside ih =>
    obtain ⟨after, stopped⟩ := ih
    exact ⟨after, by rw [evaluate_call, bind_continues head, bind_stops (mapM_stops others stopped)]⟩
  | application head all count inside ih =>
    obtain ⟨after, stopped⟩ := ih
    refine ⟨after, ?_⟩
    rw [evaluate_call, bind_continues head, bind_continues all]
    simp only [called, if_pos count]
    exact adjusting_tooDeep.mpr stopped
  | body inside ih => exact entered_tooDeep.mpr ih
  | @sample depth machine later call function before behind x points unary domain others inside ih =>
    obtain ⟨after, stopped⟩ := ih
    refine ⟨after, ?_⟩
    have sampled : Run.sample (Function.apply renderer depth) function x later = _ := bind_stops stopped _
    simp only [Function.apply, plotted, if_pos unary]
    rw [domain]
    exact bind_stops (mapM_stops others sampled) _

/-- Whatever runs out of depth at this depth has a derivation. -/
structure Traceable (renderer : Option Renderer) (depth : Nat) : Prop where
  expression : ∀ {expr machine after}, Expr.evaluate renderer depth expr machine = (.error .tooDeep, after) →
    RunsOut renderer depth (.expression expr) machine
  application : ∀ call {function arguments machine after},
    Function.apply renderer depth function arguments machine = (.error .tooDeep, after) →
    RunsOut renderer depth (.application call function arguments) machine

theorem settled_within {result : Except Stop Value} (within : result ≠ .error .tooDeep) {machine after : Machine} :
    settled result machine ≠ (.error .tooDeep, after) :=
  fun ended => within (Prod.mk.inj ended).1

theorem fail_within (cause : Failure.Cause) (site : Option Span) : fail cause site ≠ .error .tooDeep := nofun

theorem literalValue_within (token : Token) : literalValue token ≠ .error .tooDeep := by
  unfold literalValue
  split <;> exact nofun

theorem negated_within (expr : Expr) (operator : Token) (value : Value) :
    negated expr operator value ≠ .error .tooDeep := by
  unfold negated
  split
  · split <;> exact nofun
  · exact fail_within _ _

theorem computed_within {α : Type} (value : α → Value) (answer : Except Fault α) :
    computed value answer ≠ .error .tooDeep := by
  cases answer <;> exact nofun

theorem combined_within (left right : Expr) (operator : Token) (a b : Value) :
    combined left right operator a b ≠ .error .tooDeep := by
  unfold combined
  split
  · split
    · exact computed_within _ _
    · exact nofun
  · exact fail_within _ _
  · exact fail_within _ _

theorem sine_within (argument : Value) : sine argument ≠ .error .tooDeep := by
  cases argument with
  | list | function | unbound => exact fail_within _ _
  | number x =>
    dsimp only [sine]
    split
    · exact nofun
    · exact computed_within _ _

theorem factors_within (argument : Value) : factors argument ≠ .error .tooDeep := by
  cases argument with
  | list | function | unbound => exact fail_within _ _
  | number x =>
    dsimp only [factors]
    split
    · exact fail_within _ _
    · split
      · exact fail_within _ _
      · split
        · exact nofun
        · exact computed_within _ _

theorem call_traceable (traceable : Traceable renderer depth) {callee : Expr} {arguments : List Expr} {closing : Token}
    {machine after : Machine}
    (stopped : Expr.evaluate renderer (depth + 1) (.call callee arguments closing) machine = (.error .tooDeep, after)) :
    RunsOut renderer (depth + 1) (.expression (.call callee arguments closing)) machine := by
  rw [evaluate_call] at stopped
  rcases bind_error stopped with early | ⟨target, middle, head, tail⟩
  · exact .callee (traceable.expression early)
  rcases bind_error tail with early | ⟨values, later, all, out⟩
  · obtain ⟨before, argument, behind, values, later, rfl, others, inside⟩ := mapM_stopped early
    exact .argument head others (traceable.expression inside)
  cases target with
  | number | list | unbound => exact absurd out (settled_within (fail_within _ _))
  | function function =>
    by_cases count : values.length = function.arity
    · simp only [called, if_pos count] at out
      exact .application head all count (traceable.application _ (adjusting_tooDeep.mp out))
    · simp only [called, if_neg count] at out
      exact absurd out (settled_within (fail_within _ _))

theorem expression_traceable (traceable : Traceable renderer depth) {expr : Expr} {machine after : Machine}
    (stopped : Expr.evaluate renderer (depth + 1) expr machine = (.error .tooDeep, after)) :
    RunsOut renderer (depth + 1) (.expression expr) machine := by
  cases expr with
  | literal token => exact absurd stopped (settled_within (literalValue_within token))
  | symbol name =>
    rw [show Expr.evaluate renderer (depth + 1) (.symbol name) = lookup name.lexeme from rfl, lookup_eq] at stopped
    split at stopped <;> cases stopped
  | grouping inner => exact .grouping (traceable.expression stopped)
  | unary operator operand =>
    rw [evaluate_unary] at stopped
    rcases bind_error stopped with early | ⟨value, middle, _, out⟩
    · exact .operand (traceable.expression early)
    · exact absurd out (settled_within (negated_within _ _ _))
  | binary left operator right =>
    rw [evaluate_binary] at stopped
    rcases bind_error stopped with early | ⟨a, middle, first, tail⟩
    · exact .left (traceable.expression early)
    rcases bind_error tail with early | ⟨b, later, _, out⟩
    · exact .right first (traceable.expression early)
    · exact absurd out (settled_within (combined_within _ _ _ _ _))
  | call callee arguments closing => exact call_traceable traceable stopped

theorem plot_traceable (traceable : Traceable renderer depth) {call : Expr} {subject : Value} {machine after : Machine}
    (stopped : plotted renderer subject (Function.apply renderer depth) machine = (.error .tooDeep, after)) :
    RunsOut renderer (depth + 1) (.application call (.builtin .plot) [subject]) machine := by
  cases subject with
  | number | list | unbound => exact absurd stopped (settled_within (fail_within _ _))
  | function function =>
    by_cases unary : function.arity = 1
    · simp only [plotted, if_pos unary] at stopped
      rcases bind_error stopped with early | ⟨points, later, _, drawn⟩
      · obtain ⟨before, x, behind, points, later, domain, others, inside⟩ := mapM_stopped early
        rcases bind_error inside with sampled | ⟨_, _, _, finished⟩
        · exact .sample unary domain others (traceable.application call sampled)
        · cases finished
      · -- The samples are all there; drawing them costs no depth.
        cases renderer with
        | none => cases drawn
        | some draw =>
          rcases bind_error drawn with emitted | ⟨_, shown, _, ended⟩
          · cases emitted
          · revert ended
            cases draw points <;> (intro ended; cases ended)
    · simp only [plotted, if_neg unary] at stopped
      exact absurd stopped (settled_within (fail_within _ _))

theorem application_traceable (traceable : Traceable renderer depth) (call : Expr) {function : Function}
    {arguments : List Value} {machine after : Machine}
    (stopped : Function.apply renderer (depth + 1) function arguments machine = (.error .tooDeep, after)) :
    RunsOut renderer (depth + 1) (.application call function arguments) machine := by
  unfold Function.apply at stopped
  split at stopped
  next declaration home =>
    obtain ⟨middle, inside⟩ := entered_tooDeep.mp ⟨after, stopped⟩
    exact .body (traceable.expression inside)
  next => cases stopped
  next argument => exact absurd stopped (settled_within (sine_within argument))
  next argument => exact absurd stopped (settled_within (factors_within argument))
  next subject => exact plot_traceable traceable stopped
  next => cases stopped

theorem traceable (renderer : Option Renderer) (depth : Nat) : Traceable renderer depth := by
  induction depth with
  | zero => exact ⟨fun _ => .here, fun _ _ _ _ _ _ => .here⟩
  | succ depth ih => exact ⟨expression_traceable ih, application_traceable ih⟩

theorem runsOut_iff {expr : Expr} {machine : Machine} :
    RunsOut renderer depth (.expression expr) machine ↔
      ∃ after, expr.evaluate renderer depth machine = (.error .tooDeep, after) :=
  ⟨RunsOut.tooDeep, fun ⟨_, stopped⟩ => (traceable renderer depth).expression stopped⟩

end Derivations

section Batches

/-- A batch runs out of depth where one of its statements does. -/
def OverrunBy (renderer : Option Renderer) (depth : Nat) (machine : Machine) (statements : List Statement) : Prop :=
  ∃ done statement later expr value middle, statements = done ++ statement :: later ∧
    statement.evaluated? = some expr ∧ interpret renderer depth done machine = (.ok value, middle) ∧
    RunsOut renderer depth (.expression expr) middle

theorem execute_stops {statement : Statement} {expr : Expr} {machine after : Machine} {stop : Stop}
    (evaluated : statement.evaluated? = some expr) (stopped : expr.evaluate renderer depth machine = (.error stop, after)) :
    statement.execute renderer depth machine = (.error stop, after) := by
  cases statement with
  | expression =>
    cases evaluated
    exact stopped
  | print | assign =>
    cases evaluated
    exact bind_stops stopped _
  | declare declaration => cases evaluated

theorem execute_evaluated {statement : Statement} {machine after : Machine} {stop : Stop}
    (stopped : statement.execute renderer depth machine = (.error stop, after)) :
    statement.evaluated? = some statement.expr := by
  cases statement with
  | expression | print | assign => rfl
  | declare declaration => cases stopped

theorem interpret_stops {done later : List Statement} {statement : Statement} {machine middle after : Machine}
    {value : Value} {stop : Stop} (run : interpret renderer depth done machine = (.ok value, middle))
    (stopped : statement.execute renderer depth middle = (.error stop, after)) :
    interpret renderer depth (done ++ statement :: later) machine = (.error stop, after) := by
  unfold interpret at run ⊢
  rw [List.foldlM_append, bind_continues run, List.foldlM_cons]
  exact bind_stops stopped _

theorem overrun_iff {statements : List Statement} {machine after : Machine} {result : Except Stop Value}
    (run : interpret renderer depth statements machine = (result, after)) :
    result = .error .tooDeep ↔ OverrunBy renderer depth machine statements := by
  constructor
  · rintro rfl
    have whole := interpret_ended renderer depth statements machine
    rw [run] at whole
    cases whole with
    | @stopped done later statement value middle _ _ split early ended =>
      exact ⟨done, statement, later, statement.expr, value, middle, split, execute_evaluated ended, early,
        runsOut_iff.mpr ⟨_, (execute_error ended).2⟩⟩
  · rintro ⟨done, statement, later, expr, value, middle, rfl, evaluated, early, out⟩
    obtain ⟨final, stopped⟩ := runsOut_iff.mp out
    rw [interpret_stops early (execute_stops evaluated stopped)] at run
    exact (Prod.mk.inj run).1.symm

end Batches

section Texts

theorem ofText_curtails {more : Nat} (deeper : depth ≤ more) (text : List Char) :
    Curtails (ofText depth text) (ofText more text) := by
  unfold ofText
  split
  · exact .refl _
  next tokens _ => exact program_curtails deeper tokens

theorem ofText_kind {text : List Char} {failure : Failure} (unread : ofText depth text = .error (.failed failure)) :
    failure.kind ≠ .depth := by
  rcases FailureSites.ofText_failed unread with ⟨_, _, _, _, cause, _⟩ | ⟨kind, -⟩
  · rw [Failure.kind, cause]
    intro same
    cases same
  · rw [kind]
    decide

theorem interpret_kinds {statements : List Statement} {machine after : Machine} {result : Except Stop Value}
    (run : interpret renderer depth statements machine = (result, after)) :
    ∀ failure, result = .error (.failed failure) → failure.kind ≠ .depth := by
  rintro failure rfl
  rcases SessionSafety.interpret_kind run with kind | kind <;> rw [kind] <;> decide

theorem outOfDepth_iff {result : Except Stop Value} {events : List Event}
    (kinds : ∀ failure, result = .error (.failed failure) → failure.kind ≠ .depth) :
    (Result.mk (result.mapError Stop.trouble) events).OutOfDepth ↔ result = .error .tooDeep := by
  constructor
  · rintro ⟨failure, told, kind⟩
    cases result with
    | ok value => cases told
    | error stop =>
      cases stop with
      | tooDeep => rfl
      | broken fault => cases told
      | failed earlier =>
        cases told
        exact absurd kind (kinds failure rfl)
  · rintro rfl
    exact ⟨_, rfl, rfl⟩

/-- The same trees, of which the second run may go deeper into. -/
def deepened : Likeness := .verbatim True False True [] False.elim

theorem interpret_deepened {more : Nat} (deeper : depth ≤ more) {statements : List Statement} {machine after final : Machine}
    {result ended : Except Stop Value} (run : interpret renderer depth statements machine = (result, after))
    (again : interpret renderer more statements machine = (ended, final)) :
    result = .error .tooDeep ∧ after.events.toList <+: final.events.toList ∨ ended = result ∧ final = after := by
  have machines : deepened.Machines machine.origin machine machine :=
    ⟨verbatim_chain_refl id machine.scopes, rfl, fun _ => rfl, rfl⟩
  have depths : deepened.Depths depth more := ⟨deeper, .inr trivial⟩
  have ends := interpret_matches renderer depths (verbatim_statements_refl id statements) machine machine machines
  rw [run, again] at ends
  cases ends with
  | cut _ shown => exact .inl ⟨rfl, shown⟩
  | both results states =>
    right
    constructor
    · cases results with
      | ok like => rw [verbatim_value id trivial like]
      | error stops =>
        cases stops with
        | tooDeep | broken => rfl
        | failed failures => rw [verbatim_failure trivial failures]
    · obtain ⟨scopes, origin, events⟩ := after
      obtain ⟨opposite, place, shown⟩ := final
      obtain rfl : scopes = opposite := verbatim_chain id trivial states.scopes
      obtain rfl : origin = place := states.home.trans (states.batch trivial).symm
      obtain rfl : events = shown := Array.toList_inj.mp states.events
      rfl

/-- Where the depth is too small for a text: while it is read, or while its statements run. -/
def Overrun (renderer : Option Renderer) (depth : Nat) (session : Session) (text : String) : Prop :=
  ofText depth text.toList = .error .tooDeep ∨ ∃ statements, ofText depth text.toList = .ok statements ∧
    OverrunBy renderer depth session.machine statements

theorem evaluate_told (renderer : Option Renderer) (depth : Nat) (session : Session) (text : String) :
    ∃ (result : Except Stop Value) (events : List Event) (after : Session),
      session.evaluate ⟨renderer, depth⟩ text = (⟨result.mapError Stop.trouble, events⟩, after) ∧
      (∀ failure, result = .error (.failed failure) → failure.kind ≠ .depth) ∧
      (result = .error .tooDeep ↔ Overrun renderer depth session text) := by
  unfold Overrun
  cases read : ofText depth text.toList with
  | error stop =>
    refine ⟨.error stop, [], session, evaluate_unread read session, ?_, by simp⟩
    rintro failure ⟨⟩
    exact ofText_kind read
  | ok statements =>
    rcases run : interpret renderer depth statements session.machine with ⟨result, after⟩
    refine ⟨result, _, _, evaluate_read read run, interpret_kinds run, ?_⟩
    simpa using overrun_iff run

theorem runBatch_outOfDepth {session : Session} {statements : List Statement} {result : Except Stop Value} {after : Machine}
    (run : interpret renderer depth statements session.machine = (result, after)) :
    (session.runBatch ⟨renderer, depth⟩ statements).1.OutOfDepth ↔ result = .error .tooDeep := by
  rw [Session.runBatch_eq run]
  exact outOfDepth_iff (interpret_kinds run)

theorem runBatch_deepened (renderer : Option Renderer) {more : Nat} (deeper : depth ≤ more) (session : Session)
    (statements : List Statement) :
    let shallow := session.runBatch ⟨renderer, depth⟩ statements
    let deep := session.runBatch ⟨renderer, more⟩ statements
    shallow.1.OutOfDepth ∧ shallow.1.events <+: deep.1.events ∨ deep = shallow := by
  rcases run : interpret renderer depth statements session.machine with ⟨result, after⟩
  rcases again : interpret renderer more statements session.machine with ⟨ended, final⟩
  rw [Session.runBatch_eq run, Session.runBatch_eq again]
  rcases interpret_deepened deeper run again with ⟨rfl, shown⟩ | ⟨rfl, rfl⟩
  · exact .inl ⟨⟨_, rfl, rfl⟩, shown⟩
  · exact .inr rfl

theorem evaluate_deepened (renderer : Option Renderer) {more : Nat} (deeper : depth ≤ more) (session : Session)
    (text : String) :
    let shallow := session.evaluate ⟨renderer, depth⟩ text
    let deep := session.evaluate ⟨renderer, more⟩ text
    shallow.1.OutOfDepth ∧ shallow.1.events <+: deep.1.events ∨ deep = shallow := by
  rcases ofText_curtails deeper text.toList with cut | same
  · left
    rw [evaluate_unread cut]
    exact ⟨⟨_, rfl, rfl⟩, List.nil_prefix⟩
  cases read : ofText depth text.toList with
  | error stop =>
    have again : ofText more text.toList = .error stop := same.symm.trans read
    right
    exact (evaluate_unread again session).trans (evaluate_unread read session).symm
  | ok statements =>
    have again : ofText more text.toList = .ok statements := same.symm.trans read
    intro shallow deep
    have first : shallow = _ := Session.evaluate_eq_runBatch read session
    have second : deep = _ := Session.evaluate_eq_runBatch again session
    rw [first, second]
    exact runBatch_deepened renderer deeper session statements

/-- Depth is a cut-off and nothing else. A text that stays within its depth comes to the very same
with more of it. One that does not ends without a site and without a hint, having printed and
plotted the beginning of what it prints and plots with more depth; and it ends so exactly if
reading it, or the evaluation of one of its statements, comes to a place that is too deep. -/
theorem depth_only_cuts_off (renderer : Option Renderer) {depth more : Nat} (deeper : depth ≤ more) (session : Session)
    (text : String) :
    let shallow := session.evaluate ⟨renderer, depth⟩ text
    let deep := session.evaluate ⟨renderer, more⟩ text
    (¬shallow.1.OutOfDepth → deep = shallow) ∧
    (shallow.1.OutOfDepth →
      shallow.1.outcome = .error (.failure { cause := .tooDeep, site := none, hint := none }) ∧
      shallow.1.printed <+: deep.1.printed ∧ shallow.1.plots <+: deep.1.plots ∧ shallow.1.events <+: deep.1.events) ∧
    (shallow.1.OutOfDepth ↔ Overrun renderer depth session text) := by
  intro shallow deep
  obtain ⟨result, events, after, told, kinds, overrun⟩ := evaluate_told renderer depth session text
  have stopped : shallow.1.OutOfDepth ↔ result = .error .tooDeep := by
    rw [show shallow = _ from told]
    exact outOfDepth_iff kinds
  have cut : shallow.1.OutOfDepth ∧ shallow.1.events <+: deep.1.events ∨ deep = shallow :=
    evaluate_deepened renderer deeper session text
  have shown : shallow.1.events <+: deep.1.events := by
    rcases cut with ⟨-, shown⟩ | same
    · exact shown
    · simp only [same, List.prefix_refl]
  refine ⟨?_, ?_, stopped.trans overrun⟩
  · intro within
    exact cut.resolve_left fun out => within out.1
  · intro out
    refine ⟨?_, shown.filterMap _, shown.filterMap _, shown⟩
    rw [show shallow = _ from told, stopped.mp out]
    rfl

/-- A session that has the function of the text `f(x) = (((x)))`. -/
def nested : Session :=
  let function : Declaration :=
    ⟨⟨.name, "f", none, 1, ⟨0, 1⟩⟩, [⟨.name, "x", none, 1, ⟨2, 3⟩⟩],
      .grouping (.grouping (.grouping (.symbol ⟨.name, "x", none, 1, ⟨10, 11⟩⟩)))⟩
  ⟨.single (Machine.preamble.define "f" (.function (.declared function (some 0)))), some 0, 1⟩

/-- The statements of the text `print a print f(a)`. -/
def nestedCall : List Statement :=
  [.print ⟨.print, "print", none, 1, ⟨0, 5⟩⟩ (.symbol ⟨.name, "a", none, 1, ⟨6, 7⟩⟩),
    .print ⟨.print, "print", none, 1, ⟨8, 13⟩⟩
      (.call (.symbol ⟨.name, "f", none, 1, ⟨14, 15⟩⟩) [.symbol ⟨.name, "a", none, 1, ⟨16, 17⟩⟩]
        ⟨.mark .closing, ")", none, 1, ⟨17, 18⟩⟩)]

-- The first statement is within either depth. The body of the function is within the larger one only.
theorem depth_only_cuts_off_nested :
    let shallow := nested.evaluate ⟨none, 4⟩ "print a print f(a)"
    let deep := nested.evaluate ⟨none, 7⟩ "print a print f(a)"
    4 ≤ 7 ∧ shallow.1.OutOfDepth ∧ shallow.1.printed = ["a"] ∧ deep.1.printed = ["a", "a"] ∧
      shallow.1.printed <+: deep.1.printed := by
  intro shallow deep
  have less : 4 ≤ 7 := by decide
  let scopes : Chain Value := nested.scopes.define "a" (.unbound "a")
  have read : ofText 4 "print a print f(a)".toList = .ok nestedCall := rfl
  have again : ofText 7 "print a print f(a)".toList = .ok nestedCall := rfl
  have run : interpret none 4 nestedCall nested.machine =
    (.error .tooDeep, ⟨scopes, some 1, #[.printed "a"]⟩) := rfl
  have rerun : interpret none 7 nestedCall nested.machine =
    (.ok .nothing, ⟨scopes, some 1, #[.printed "a", .printed "a"]⟩) := rfl
  have first : shallow = _ := evaluate_read read run
  have second : deep = _ := evaluate_read again rerun
  have out : shallow.1.OutOfDepth := by
    rw [first]
    exact ⟨_, rfl, rfl⟩
  refine ⟨less, out, by rw [first]; rfl, by rw [second]; rfl, ?_⟩
  exact ((depth_only_cuts_off none less nested "print a print f(a)").2.1 out).2.1

end Texts

end Proofs.DepthCutoff

end Reckoner
