import Reckoner.Proofs.PureEvaluation

/-! Which declared functions can be around. Evaluation makes none: those it comes across
are those the environment has. Only declarations add to them, each with the batch it
stands in. -/

namespace Reckoner.Proofs.FunctionOrigins
open Run EvaluationFrame BatchExecution PureEvaluation

/-- If the value is a declared function, it is one of those that are known. -/
def Known (known : Declaration → Origin → Prop) : Value → Prop
  | .function (.declared declaration home) => known declaration home
  | _ => True

def KnownIn (known : Declaration → Origin → Prop) (environment : Environment) : Prop :=
  ∀ name, Known known (environment name)

variable {known : Declaration → Origin → Prop}

theorem KnownIn.mono {more : Declaration → Origin → Prop} {environment : Environment} (all : KnownIn known environment)
    (implies : ∀ declaration home, known declaration home → more declaration home) : KnownIn more environment := by
  intro name
  have here := all name
  unfold Known at here ⊢
  split
  next declaration home same =>
    rw [same] at here
    exact implies declaration home here
  next => trivial

theorem KnownIn.update {environment : Environment} (all : KnownIn known environment) {value : Value}
    (one : Known known value) (name : String) : KnownIn known (environment.update name value) := by
  intro other
  unfold Environment.update
  split
  · exact one
  · exact all other

theorem KnownIn.updateAll {environment : Environment} (all : KnownIn known environment)
    {bindings : List (String × Value)} (each : ∀ binding ∈ bindings, Known known binding.2) :
    KnownIn known (environment.updateAll bindings) := by
  induction bindings generalizing environment with
  | nil => exact all
  | cons binding rest ih =>
    have first := all.update (each binding List.mem_cons_self) binding.1
    exact ih first fun other member => each other (List.mem_cons_of_mem _ member)

section Yields

variable {α β : Type}

def Yields (property : α → Prop) (yield : Yield α) : Prop := ∀ value, yield.result = .ok value → property value

theorem yields_settled {property : α → Prop} {result : Except Stop α} (holds : ∀ value, result = .ok value → property value) :
    Yields property (.settled result) := holds

theorem yields_pure {property : α → Prop} {value : α} (holds : property value) : Yields property (pure value) := by
  intro value ended
  cases ended
  exact holds

theorem Yields.bind {first : α → Prop} {second : β → Prop} {yield : Yield α} {next : α → Yield β}
    (start : Yields first yield) (rest : ∀ value, first value → Yields second (next value)) :
    Yields second (yield >>= next) := by
  obtain ⟨result | value, plots⟩ := yield
  · intro value ended
    cases ended
  · exact rest value (start value rfl)

theorem yields_last {property : β → Prop} {yield : Yield α} {next : α → Yield β}
    (last : ∀ value, Yields property (next value)) : Yields property (yield >>= next) :=
  Yields.bind (fun _ _ => trivial) fun value (_ : True) => last value

theorem Yields.mapM {property : β → Prop} {yield : α → Yield β} (each : ∀ item, Yields property (yield item))
    (items : List α) : Yields (fun values => ∀ value ∈ values, property value) (items.mapM yield) := by
  induction items with
  | nil => exact yields_pure (by simp)
  | cons item rest ih =>
    rw [List.mapM_cons]
    exact (each item).bind fun value holds => ih.bind fun values all => yields_pure (List.forall_mem_cons.mpr ⟨holds, all⟩)

theorem Yields.adjusting {property : α → Prop} {yield : Yield α} (start : Yields property yield)
    (change : Failure → Failure) : Yields property (yield.adjusting change) := by
  unfold Yield.adjusting
  split
  · intro value ended
    cases ended
  · exact start

end Yields

section Leaves

theorem literalValue_known (token : Token) : Yields (Known known) (.settled (literalValue token)) := by
  apply yields_settled
  intro value ended
  unfold literalValue at ended
  split at ended <;> cases ended
  trivial

theorem negated_known (expr : Expr) (operator : Token) (operand : Value) :
    Yields (Known known) (.settled (negated expr operator operand)) := by
  apply yields_settled
  intro value ended
  cases operand with
  | number x =>
    dsimp only [negated] at ended
    split at ended <;> cases ended
    trivial
  | list | function | unbound => cases ended

theorem computed_known {α : Type} (value : α → Value) (plain : ∀ a, Known known (value a)) {answer : Except Fault α}
    {result : Value} (ended : computed value answer = .ok result) : Known known result := by
  rcases computed_cases value answer with ⟨a, -, same⟩ | ⟨fault, -, same⟩
  · rw [same] at ended
    cases ended
    exact plain a
  · rw [same] at ended
    cases ended

theorem combined_known (left right : Expr) (operator : Token) (a b : Value) :
    Yields (Known known) (.settled (combined left right operator a b)) := by
  apply yields_settled
  intro value ended
  unfold combined at ended
  split at ended
  · split at ended
    · exact computed_known .number (fun _ => trivial) ended
    · cases ended
  · cases ended
  · cases ended

theorem sine_known (argument : Value) : Yields (Known known) (.settled (sine argument)) := by
  apply yields_settled
  intro value ended
  cases argument with
  | list | function | unbound => cases ended
  | number x =>
    dsimp only [sine] at ended
    split at ended
    · cases ended
      trivial
    · exact computed_known .number (fun _ => trivial) ended

theorem factors_known (argument : Value) : Yields (Known known) (.settled (factors argument)) := by
  apply yields_settled
  intro value ended
  cases argument with
  | list | function | unbound => cases ended
  | number x =>
    dsimp only [factors] at ended
    split at ended
    · cases ended
    · split at ended
      · cases ended
      · split at ended
        · cases ended
          trivial
        · exact computed_known .list (fun _ => trivial) ended

theorem fail_known (cause : Failure.Cause) (site : Option Span) : Yields (Known known) (.settled (fail cause site)) := by
  intro value ended
  cases ended

end Leaves

theorem plot_known (renderer : Option Renderer) (subject : Value) (apply : Function → List Value → Yield Value) :
    Yields (Known known) (yieldOfPlot renderer subject apply) := by
  cases subject with
  | number | list | unbound => exact fail_known _ _
  | function function =>
    unfold yieldOfPlot
    dsimp only
    split
    · apply yields_last
      intro points
      cases renderer with
      | none => exact yields_pure trivial
      | some draw =>
        apply yields_last
        intro _
        cases draw points with
        | ok _ => exact yields_pure trivial
        | error fault =>
          intro value ended
          cases ended
    · exact fail_known _ _

/-- Evaluation at this depth comes to known values only, if it starts from them. -/
structure Closed (known : Declaration → Origin → Prop) (renderer : Option Renderer) (depth : Nat) : Prop where
  expression : ∀ environment origin expr, KnownIn known environment →
    Yields (Known known) (Expr.yield renderer depth environment origin expr)
  application : ∀ environment origin function arguments, KnownIn known environment →
    (∀ argument ∈ arguments, Known known argument) →
    Yields (Known known) (Function.yield renderer depth environment origin function arguments)

theorem closed_succ {renderer : Option Renderer} {depth : Nat} (closed : Closed known renderer depth) :
    Closed known renderer (depth + 1) := by
  constructor
  · intro environment origin expr all
    have inner := fun expr => closed.expression environment origin expr all
    cases expr with
    | literal token => exact literalValue_known token
    | symbol name => exact yields_pure (all name.lexeme)
    | grouping expr => exact inner expr
    | unary operator operand => exact (inner operand).bind fun value _ => negated_known _ operator value
    | binary left operator right =>
      exact (inner left).bind fun a _ => (inner right).bind fun b _ => combined_known left right operator a b
    | call callee arguments closing =>
      refine (inner callee).bind fun target _ => (Yields.mapM inner arguments).bind fun values each => ?_
      cases target with
      | number | list | unbound => exact fail_known _ _
      | function function =>
        unfold yieldOfCall
        dsimp only
        split
        · exact (closed.application environment origin function values all each).adjusting _
        · exact fail_known _ _
  · intro environment origin function arguments all each
    unfold Function.yield
    split
    next declaration home =>
      apply Yields.adjusting
      apply closed.expression
      apply all.updateAll
      intro binding member
      exact each binding.2 (List.of_mem_zip member).2
    next => exact yields_pure trivial
    next argument => exact sine_known argument
    next argument => exact factors_known argument
    next subject => exact plot_known renderer subject _
    next => rintro _ ⟨⟩

theorem closed (known : Declaration → Origin → Prop) (renderer : Option Renderer) (depth : Nat) :
    Closed known renderer depth := by
  induction depth with
  | zero =>
    constructor
    · rintro environment origin expr all _ ⟨⟩
    · rintro environment origin function arguments all each _ ⟨⟩
  | succ depth ih => exact closed_succ ih

variable {renderer : Option Renderer} {depth : Nat}

theorem evaluate_known {expr : Expr} {machine after : Machine} {value : Value}
    (ended : expr.evaluate renderer depth machine = (.ok value, after))
    (all : KnownIn known (.ofChain machine.scopes)) : Known known value := by
  have followed := (both_simulate renderer depth).1 _ _ expr machine rfl rfl
  rw [ended] at followed
  exact (closed known renderer depth).expression _ _ expr all value followed.result.symm

theorem arguments_known {arguments : List Expr} {machine after : Machine} {values : List Value}
    (ended : arguments.mapM (Expr.evaluate renderer depth) machine = (.ok values, after))
    (all : KnownIn known (.ofChain machine.scopes)) : ∀ value ∈ values, Known known value := by
  have followed := Simulates.mapM ((both_simulate renderer depth).1 _ _) arguments machine rfl rfl
  rw [ended] at followed
  exact Yields.mapM (fun expr => (closed known renderer depth).expression _ _ expr all) arguments values
    followed.result.symm

theorem execute_known {statement : Statement} {machine after : Machine} {result : Except Stop Value}
    (ended : statement.execute renderer depth machine = (result, after))
    (declares : ∀ declaration, statement = .declare declaration → known declaration machine.origin)
    (start : KnownIn known (.ofChain machine.scopes)) : KnownIn known (.ofChain after.scopes) := by
  cases result with
  | error stop =>
    rw [Grown.ofChain (execute_stopped ended).1]
    exact start
  | ok value =>
    obtain ⟨middle, grown, -, ⟨-, scopes⟩ | ⟨name, given, -, gives, scopes⟩⟩ := (execute_executed ended).scopes
    · rw [scopes, Grown.ofChain grown]
      exact start
    · rw [scopes, ofChain_define, Grown.ofChain grown]
      apply start.update
      cases statement with
      | expression | print => exact gives.elim
      | assign target expr =>
        obtain ⟨-, final, evaluated⟩ := gives
        exact evaluate_known evaluated start
      | declare declaration =>
        obtain ⟨-, rfl⟩ := gives
        exact declares declaration rfl

/-- A batch knows no function but those it started with and those it declares. -/
theorem interpret_known {statements : List Statement} {machine after : Machine} {result : Except Stop Value}
    (run : interpret renderer depth statements machine = (result, after))
    (declares : ∀ declaration, .declare declaration ∈ statements → known declaration machine.origin)
    (start : KnownIn known (.ofChain machine.scopes)) : KnownIn known (.ofChain after.scopes) := by
  induction statements using List.reverseRecOn generalizing result after with
  | nil =>
    cases run
    exact start
  | append_singleton done statement ih =>
    have early : ∀ declaration, .declare declaration ∈ done → known declaration machine.origin :=
      fun declaration member => declares declaration (List.mem_append_left _ member)
    have last {middle final : Machine} {value : Value} {ended : Except Stop Value}
        (before : interpret renderer depth done machine = (.ok value, middle))
        (executed : statement.execute renderer depth middle = (ended, final)) : KnownIn known (.ofChain final.scopes) := by
      apply execute_known executed
      · rintro declaration rfl
        rw [(interpret_still before).2]
        exact declares declaration (by simp)
      · exact ih before early
    rw [interpret_snoc] at run
    cases result with
    | ok value =>
      obtain ⟨_, middle, before, executed⟩ := bind_ok run
      exact last before executed
    | error stop =>
      rcases bind_error run with stopped | ⟨_, middle, before, executed⟩
      · exact ih stopped early
      · exact last before executed

/-- A function of the session: the batch that declared it has run, and was read from a text. -/
def Declared (session : Session) (declaration : Declaration) (home : Origin) : Prop :=
  (∃ batch < session.batches, home = some batch) ∧
    ∃ depth text statements, Grammar.ofText depth text = .ok statements ∧ .declare declaration ∈ statements

theorem reachable_declared {session : Session} (reached : session.Reachable) :
    KnownIn (Declared session) (.ofChain session.scopes) := by
  induction reached with
  | start =>
    have builtins := ofChain_defineAll .empty []
      (Builtin.all.map fun builtin => (builtin.name, .function (.builtin builtin)))
    rw [show Session.start.scopes = ⟨Machine.preamble, []⟩ from rfl, Machine.preamble, builtins]
    apply KnownIn.updateAll
    · intro name
      trivial
    · intro binding member
      obtain ⟨builtin, -, rfl⟩ := List.mem_map.mp member
      trivial
  | @evaluate session reached host text ih =>
    cases read : Grammar.ofText host.depth text.toList with
    | error stop =>
      rw [evaluate_unread read]
      exact ih
    | ok statements =>
      rcases run : interpret host.renderer host.depth statements session.machine with ⟨result, after⟩
      rw [evaluate_read read run]
      apply interpret_known run
      · intro declaration member
        exact ⟨⟨session.batches, Nat.lt_succ_self _, rfl⟩, host.depth, text.toList, statements, read, member⟩
      · apply ih.mono
        rintro declaration home ⟨⟨batch, earlier, rfl⟩, source⟩
        exact ⟨⟨batch, Nat.lt_succ_of_lt earlier, rfl⟩, source⟩

/-- The functions of a session were declared by batches that it has run. -/
theorem reachable_known {session : Session} (reached : session.Reachable) :
    KnownIn (fun _ home => ∃ batch < session.batches, home = some batch) (.ofChain session.scopes) :=
  (reachable_declared reached).mono fun _ _ declared => declared.1

end Reckoner.Proofs.FunctionOrigins
