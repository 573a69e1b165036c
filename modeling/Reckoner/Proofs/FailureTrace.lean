import Reckoner.Proofs.EvaluationFrame

/-! How failures of running programs come about. A derivation follows the evaluation to
the place where it is refused, and says on the way which declared functions are running;
nothing in it speaks of sites. Evaluation fails exactly where there is such a derivation,
and the site it reports can be read off it. -/

namespace Reckoner

/-- A declared function that is running: the call that entered it, which is the call of
`plot` for a sample, and the batch that declared it. -/
structure Activation where
  call : Expr
  home : Origin

/-- A refusal to go on: why, which part of the program is guilty of it, and the functions
that are running, the outermost first. -/
structure Raise where
  cause : Failure.Cause
  guilty : Expr
  active : List Activation

namespace Raise

/-- The part that code of the given batch hears about: the outermost call into another
batch's function, and the guilty part itself if no other batch's function is running. -/
def blamed (raise : Raise) (batch : Origin) : Expr :=
  match raise.active.find? fun activation => activation.home ≠ batch with
  | some activation => activation.call
  | none => raise.guilty

def inside (raise : Raise) (activation : Activation) : Raise :=
  { raise with active := activation :: raise.active }

theorem blamed_inside_same (raise : Raise) (call : Expr) (batch : Origin) :
    (raise.inside ⟨call, batch⟩).blamed batch = raise.blamed batch := by
  simp [blamed, inside]

theorem blamed_inside_other (raise : Raise) (call : Expr) {home batch : Origin} (other : home ≠ batch) :
    (raise.inside ⟨call, home⟩).blamed batch = call := by
  simp [blamed, inside, other]

end Raise

/-- What is being evaluated: an expression, or a function that a call applies. -/
inductive Work where
  | expression (expr : Expr)
  | application (call : Expr) (function : Function) (arguments : List Value)

namespace Run

def sample (apply : Function → List Value → Run Value) (function : Function) (x : Float) : Run (Point Float) := do
  let y ← apply function [.number x]
  return ⟨x, y.ordinate⟩

def bodyMachine (machine : Machine) (declaration : Declaration) (home : Origin) (arguments : List Value) : Machine :=
  { machine with
    scopes := machine.scopes.enter (Frame.empty.defineAll (declaration.parameterNames.zip arguments))
    origin := home }

end Run

open Run

/-- The derivations of a refusal. Everything that is evaluated before it comes to a value. -/
inductive Raises (renderer : Option Renderer) : Nat → Work → Machine → Raise → Prop
  | grouping {depth : Nat} {machine : Machine} {raise : Raise} {inner : Expr}
      (inside : Raises renderer depth (.expression inner) machine raise) :
    Raises renderer (depth + 1) (.expression (.grouping inner)) machine raise
  | operand {depth : Nat} {machine : Machine} {raise : Raise} {operator : Token} {operand : Expr}
      (inside : Raises renderer depth (.expression operand) machine raise) :
    Raises renderer (depth + 1) (.expression (.unary operator operand)) machine raise
  | notNegatable {depth : Nat} {machine after : Machine} {operator : Token} {operand : Expr} {value : Value}
      (evaluated : operand.evaluate renderer depth machine = (.ok value, after)) (wrong : ∀ x, value ≠ .number x) :
    Raises renderer (depth + 1) (.expression (.unary operator operand)) machine
      ⟨.notNegatable operator.kind.label value.render, .unary operator operand, []⟩
  | left {depth : Nat} {machine : Machine} {raise : Raise} {operator : Token} {left right : Expr}
      (inside : Raises renderer depth (.expression left) machine raise) :
    Raises renderer (depth + 1) (.expression (.binary left operator right)) machine raise
  | right {depth : Nat} {machine middle : Machine} {raise : Raise} {operator : Token} {left right : Expr} {a : Value}
      (first : left.evaluate renderer depth machine = (.ok a, middle))
      (inside : Raises renderer depth (.expression right) middle raise) :
    Raises renderer (depth + 1) (.expression (.binary left operator right)) machine raise
  | notNumericLeft {depth : Nat} {machine middle after : Machine} {operator : Token} {left right : Expr} {a b : Value}
      (first : left.evaluate renderer depth machine = (.ok a, middle))
      (second : right.evaluate renderer depth middle = (.ok b, after)) (wrong : ∀ x, a ≠ .number x) :
    Raises renderer (depth + 1) (.expression (.binary left operator right)) machine ⟨.notNumeric a.render, left, []⟩
  | notNumericRight {depth : Nat} {machine middle after : Machine} {operator : Token} {left right : Expr} {x : Float}
      {b : Value} (first : left.evaluate renderer depth machine = (.ok (.number x), middle))
      (second : right.evaluate renderer depth middle = (.ok b, after)) (wrong : ∀ y, b ≠ .number y) :
    Raises renderer (depth + 1) (.expression (.binary left operator right)) machine ⟨.notNumeric b.render, right, []⟩
  | callee {depth : Nat} {machine : Machine} {raise : Raise} {callee : Expr} {arguments : List Expr} {closing : Token}
      (inside : Raises renderer depth (.expression callee) machine raise) :
    Raises renderer (depth + 1) (.expression (.call callee arguments closing)) machine raise
  | argument {depth : Nat} {machine middle later : Machine} {raise : Raise} {callee argument : Expr}
      {before behind : List Expr} {closing : Token} {target : Value} {values : List Value}
      (head : callee.evaluate renderer depth machine = (.ok target, middle))
      (others : before.mapM (Expr.evaluate renderer depth) middle = (.ok values, later))
      (inside : Raises renderer depth (.expression argument) later raise) :
    Raises renderer (depth + 1) (.expression (.call callee (before ++ argument :: behind) closing)) machine raise
  | notCallable {depth : Nat} {machine middle after : Machine} {callee : Expr} {arguments : List Expr} {closing : Token}
      {target : Value} {values : List Value} (head : callee.evaluate renderer depth machine = (.ok target, middle))
      (all : arguments.mapM (Expr.evaluate renderer depth) middle = (.ok values, after))
      (wrong : ∀ function, target ≠ .function function) :
    Raises renderer (depth + 1) (.expression (.call callee arguments closing)) machine
      ⟨.notCallable target.render, callee, []⟩
  | wrongCount {depth : Nat} {machine middle after : Machine} {callee : Expr} {arguments : List Expr} {closing : Token}
      {function : Function} {values : List Value}
      (head : callee.evaluate renderer depth machine = (.ok (.function function), middle))
      (all : arguments.mapM (Expr.evaluate renderer depth) middle = (.ok values, after))
      (wrong : values.length ≠ function.arity) :
    Raises renderer (depth + 1) (.expression (.call callee arguments closing)) machine
      ⟨.arity function.arity values.length, .call callee arguments closing, []⟩
  | application {depth : Nat} {machine middle after : Machine} {raise : Raise} {callee : Expr} {arguments : List Expr}
      {closing : Token} {function : Function} {values : List Value}
      (head : callee.evaluate renderer depth machine = (.ok (.function function), middle))
      (all : arguments.mapM (Expr.evaluate renderer depth) middle = (.ok values, after))
      (count : values.length = function.arity)
      (inside : Raises renderer depth (.application (.call callee arguments closing) function values) after raise) :
    Raises renderer (depth + 1) (.expression (.call callee arguments closing)) machine raise
  | body {depth : Nat} {machine : Machine} {raise : Raise} {call : Expr} {declaration : Declaration} {home : Origin}
      {arguments : List Value}
      (inside : Raises renderer depth (.expression declaration.body)
        (bodyMachine machine declaration home arguments) raise) :
    Raises renderer (depth + 1) (.application call (.declared declaration home) arguments) machine
      (raise.inside ⟨call, home⟩)
  | sine {depth : Nat} {machine : Machine} {call : Expr} {argument : Value} {cause : Failure.Cause}
      (refused : sine argument = fail cause none) :
    Raises renderer (depth + 1) (.application call (.builtin .sin) [argument]) machine ⟨cause, call, []⟩
  | factors {depth : Nat} {machine : Machine} {call : Expr} {argument : Value} {cause : Failure.Cause}
      (refused : factors argument = fail cause none) :
    Raises renderer (depth + 1) (.application call (.builtin .factors) [argument]) machine ⟨cause, call, []⟩
  | notPlottable {depth : Nat} {machine : Machine} {call : Expr} {subject : Value}
      (wrong : ∀ function, subject ≠ .function function) :
    Raises renderer (depth + 1) (.application call (.builtin .plot) [subject]) machine
      ⟨.needsFunction (Function.builtin .plot).render subject.render, call, []⟩
  | notUnary {depth : Nat} {machine : Machine} {call : Expr} {function : Function} (wrong : function.arity ≠ 1) :
    Raises renderer (depth + 1) (.application call (.builtin .plot) [.function function]) machine
      ⟨.arity function.arity 1, call, []⟩
  | sample {depth : Nat} {machine later : Machine} {raise : Raise} {call : Expr} {function : Function}
      {before behind : List Float} {x : Float} {points : List (Point Float)} (unary : function.arity = 1)
      (domain : plotDomain = before ++ x :: behind)
      (others : before.mapM (sample (Function.apply renderer depth) function) machine = (.ok points, later))
      (inside : Raises renderer depth (.application call function [.number x]) later raise) :
    Raises renderer (depth + 1) (.application call (.builtin .plot) [.function function]) machine raise

/-- What a piece of work comes to after a refusal. An application may still leave it to
its call to take the blame. -/
def Work.Fails (renderer : Option Renderer) (depth : Nat) (machine : Machine) (raise : Raise) : Work → Prop
  | .expression expr => ∃ after, expr.evaluate renderer depth machine =
      (.error (.failed { cause := raise.cause, site := some (raise.blamed machine.origin).span }), after)
  | .application call function arguments => ∃ site after, function.apply renderer depth arguments machine =
      (.error (.failed { cause := raise.cause, site }), after) ∧
        site.getD call.span = (raise.blamed machine.origin).span

namespace Proofs.FailureTrace
open EvaluationFrame

section Runs

variable {α β : Type}

theorem mapM_stops {run : α → Run β} {before behind : List α} {item : α} {machine later final : Machine}
    {values : List β} {stop : Stop} (others : before.mapM run machine = (.ok values, later))
    (stopped : run item later = (.error stop, final)) :
    (before ++ item :: behind).mapM run machine = (.error stop, final) := by
  induction before generalizing machine values with
  | nil =>
    cases others
    rw [List.nil_append, List.mapM_cons]
    exact bind_stops stopped _
  | cons first rest ih =>
    rw [List.mapM_cons] at others
    obtain ⟨value, middle, head, tail⟩ := bind_ok others
    obtain ⟨more, after, early, finished⟩ := bind_ok tail
    cases finished
    rw [List.cons_append, List.mapM_cons, bind_continues head]
    exact bind_stops (ih early) _

theorem mapM_stopped {run : α → Run β} {items : List α} {machine final : Machine} {stop : Stop}
    (stopped : items.mapM run machine = (.error stop, final)) :
    ∃ before item behind values later, items = before ++ item :: behind ∧
      before.mapM run machine = (.ok values, later) ∧ run item later = (.error stop, final) := by
  induction items generalizing machine with
  | nil => cases stopped
  | cons first rest ih =>
    rw [List.mapM_cons] at stopped
    rcases bind_error stopped with here | ⟨value, middle, head, tail⟩
    · exact ⟨[], first, rest, [], machine, rfl, rfl, here⟩
    · rcases bind_error tail with early | ⟨values, after, _, finished⟩
      · obtain ⟨before, item, behind, values, later, split, others, stopped⟩ := ih early
        refine ⟨first :: before, item, behind, value :: values, later, by rw [split]; rfl, ?_, stopped⟩
        rw [List.mapM_cons, bind_continues head, bind_continues others]
        rfl
      · cases finished

theorem adjusting_failed {run : Run Value} {machine after : Machine} {failure : Failure}
    (ended : run machine = (.error (.failed failure), after)) (change : Machine → Failure → Failure) :
    adjusting change run machine = (.error (.failed (change after failure)), after) := by
  simp only [adjusting, ended]

theorem adjusting_inv {run : Run Value} {machine after : Machine} {failure : Failure}
    {change : Machine → Failure → Failure} (ended : adjusting change run machine = (.error (.failed failure), after)) :
    ∃ earlier, run machine = (.error (.failed earlier), after) := by
  unfold adjusting at ended
  split at ended
  next earlier _ here =>
    cases ended
    exact ⟨earlier, here⟩
  next => exact ⟨failure, ended⟩

end Runs

variable {renderer : Option Renderer} {depth : Nat}

/-- The site of a failure that leaves a function: a foreign one is forgotten. -/
theorem entered_failed {machine after : Machine} {declaration : Declaration} {home : Origin} {arguments : List Value}
    {failure : Failure} {body : Run Value}
    (ended : body (bodyMachine machine declaration home arguments) = (.error (.failed failure), after)) :
    ∃ final, entered declaration home arguments body machine =
      (.error (.failed (if home = machine.origin then failure else failure.unsited)), final) := by
  have inner : within (Frame.empty.defineAll (declaration.parameterNames.zip arguments)) home body machine =
      (.error (.failed failure), { after with scopes := after.scopes.leave, origin := machine.origin }) := by
    unfold bodyMachine at ended
    simp only [within, ended]
  exact ⟨_, adjusting_failed inner _⟩

theorem evaluate_origin {expr : Expr} {machine after : Machine} {result : Except Stop Value}
    (ended : expr.evaluate renderer depth machine = (result, after)) : after.origin = machine.origin := by
  have framed := evaluate_framed renderer depth expr machine
  rw [ended] at framed
  exact framed.origin

theorem arguments_origin {arguments : List Expr} {machine after : Machine} {result : Except Stop (List Value)}
    (ended : arguments.mapM (Expr.evaluate renderer depth) machine = (result, after)) :
    after.origin = machine.origin := by
  have framed := Framed.mapM (evaluate_framed renderer depth) arguments machine
  rw [ended] at framed
  exact framed.origin

theorem samples_still {function : Function} {domain : List Float} {machine after : Machine}
    {result : Except Stop (List (Point Float))}
    (ended : domain.mapM (Run.sample (Function.apply renderer depth) function) machine = (result, after)) :
    Still machine after := by
  have quiet (x : Float) : Quiet (Run.sample (Function.apply renderer depth) function x) :=
    (apply_quiet renderer depth function [.number x]).bind fun _ => quiet_pure _
  have still := Quiet.mapM quiet domain machine
  rwa [ended] at still

section Refusals

/-- Operations on numbers answer or break down, but do not fail. -/
theorem computed_unfailing {α : Type} (value : α → Value) (answer : Except Fault α) (failure : Failure) :
    computed value answer ≠ .error (.failed failure) := by
  cases answer <;> exact nofun

theorem negated_refused {expr : Expr} {operator : Token} {value : Value} (wrong : ∀ x, value ≠ .number x) :
    negated expr operator value = fail (.notNegatable operator.kind.label value.render) (some expr.span) := by
  cases value with
  | number x => exact absurd rfl (wrong x)
  | list | function | unbound => rfl

theorem combined_refused_left {left right : Expr} {operator : Token} {a b : Value} (wrong : ∀ x, a ≠ .number x) :
    combined left right operator a b = fail (.notNumeric a.render) (some left.span) := by
  cases a with
  | number x => exact absurd rfl (wrong x)
  | list | function | unbound => cases b <;> rfl

theorem combined_refused_right {left right : Expr} {operator : Token} {x : Float} {b : Value}
    (wrong : ∀ y, b ≠ .number y) :
    combined left right operator (.number x) b = fail (.notNumeric b.render) (some right.span) := by
  cases b with
  | number y => exact absurd rfl (wrong y)
  | list | function | unbound => rfl

variable {apply : Function → List Value → Run Value}

theorem called_refused {expr callee : Expr} {target : Value} {values : List Value}
    (wrong : ∀ function, target ≠ .function function) :
    called expr callee target values apply = settled (fail (.notCallable target.render) (some callee.span)) := by
  cases target with
  | function function => exact absurd rfl (wrong function)
  | number | list | unbound => rfl

theorem plotted_refused {subject : Value} (wrong : ∀ function, subject ≠ .function function) :
    plotted renderer subject apply =
      settled (fail (.needsFunction (Function.builtin .plot).render subject.render) none) := by
  cases subject with
  | function function => exact absurd rfl (wrong function)
  | number | list | unbound => rfl

end Refusals

theorem evaluate_unary (operator : Token) (operand : Expr) :
    Expr.evaluate renderer (depth + 1) (.unary operator operand) =
      (operand.evaluate renderer depth >>= fun value => settled (negated (.unary operator operand) operator value)) := rfl

theorem evaluate_binary (left : Expr) (operator : Token) (right : Expr) :
    Expr.evaluate renderer (depth + 1) (.binary left operator right) =
      (left.evaluate renderer depth >>= fun a => right.evaluate renderer depth >>= fun b =>
        settled (combined left right operator a b)) := rfl

theorem evaluate_call (callee : Expr) (arguments : List Expr) (closing : Token) :
    Expr.evaluate renderer (depth + 1) (.call callee arguments closing) =
      (callee.evaluate renderer depth >>= fun target => arguments.mapM (Expr.evaluate renderer depth) >>= fun values =>
        called (.call callee arguments closing) callee target values (Function.apply renderer depth)) := rfl

theorem application_refused {call : Expr} {function : Function} {arguments : List Value} {cause : Failure.Cause}
    {machine : Machine} (refused : function.apply renderer depth arguments = settled (fail cause none)) :
    (Work.application call function arguments).Fails renderer depth machine ⟨cause, call, []⟩ :=
  ⟨none, machine, by rw [refused]; rfl, rfl⟩

theorem Raises.fails {work : Work} {machine : Machine} {raise : Raise}
    (raises : Raises renderer depth work machine raise) : work.Fails renderer depth machine raise := by
  induction raises with
  | grouping inside ih => exact ih
  | operand inside ih | left inside ih | callee inside ih =>
    obtain ⟨after, failed⟩ := ih
    exact ⟨after, bind_stops failed _⟩
  | @notNegatable depth machine after operator operand value evaluated wrong =>
    refine ⟨after, ?_⟩
    rw [evaluate_unary, bind_continues evaluated, negated_refused wrong]
    rfl
  | right first inside ih =>
    obtain ⟨after, failed⟩ := ih
    rw [evaluate_origin first] at failed
    exact ⟨after, by rw [evaluate_binary, bind_continues first, bind_stops failed]⟩
  | @notNumericLeft depth machine middle after operator left right a b first second wrong =>
    refine ⟨after, ?_⟩
    rw [evaluate_binary, bind_continues first, bind_continues second, combined_refused_left wrong]
    rfl
  | @notNumericRight depth machine middle after operator left right x b first second wrong =>
    refine ⟨after, ?_⟩
    rw [evaluate_binary, bind_continues first, bind_continues second, combined_refused_right wrong]
    rfl
  | argument head others inside ih =>
    obtain ⟨after, failed⟩ := ih
    rw [arguments_origin others, evaluate_origin head] at failed
    exact ⟨after, by rw [evaluate_call, bind_continues head, bind_stops (mapM_stops others failed)]⟩
  | @notCallable depth machine middle after callee arguments closing target values head all wrong =>
    refine ⟨after, ?_⟩
    rw [evaluate_call, bind_continues head, bind_continues all, called_refused wrong]
    rfl
  | @wrongCount depth machine middle after callee arguments closing function values head all wrong =>
    refine ⟨after, ?_⟩
    rw [evaluate_call, bind_continues head, bind_continues all]
    simp only [called, if_neg wrong]
    rfl
  | application head all count inside ih =>
    obtain ⟨site, after, failed, blamed⟩ := ih
    rw [arguments_origin all, evaluate_origin head] at blamed
    refine ⟨after, ?_⟩
    rw [evaluate_call, bind_continues head, bind_continues all]
    simp only [called, if_pos count]
    rw [adjusting_failed failed, ← blamed]
    cases site <;> rfl
  | @body depth machine raise call declaration home arguments inside ih =>
    obtain ⟨after, failed⟩ := ih
    obtain ⟨final, ended⟩ := entered_failed failed
    by_cases same : home = machine.origin
    · rw [if_pos same] at ended
      refine ⟨_, final, ended, ?_⟩
      rw [same, Raise.blamed_inside_same]
      rfl
    · rw [if_neg same] at ended
      refine ⟨none, final, ended, ?_⟩
      rw [Raise.blamed_inside_other _ _ same]
      rfl
  | sine refused | factors refused =>
    apply application_refused
    simp only [Function.apply, refused]
  | notPlottable wrong =>
    apply application_refused
    simp only [Function.apply, plotted_refused wrong]
  | notUnary wrong =>
    apply application_refused
    simp only [Function.apply, plotted, if_neg wrong]
  | @sample depth machine later raise call function before behind x points unary domain others inside ih =>
    obtain ⟨site, after, failed, blamed⟩ := ih
    rw [(samples_still others).origin] at blamed
    refine ⟨site, after, ?_, blamed⟩
    have stopped : Run.sample (Function.apply renderer depth) function x later = _ := bind_stops failed _
    simp only [Function.apply, plotted, if_pos unary]
    rw [domain]
    exact bind_stops (mapM_stops others stopped) _

theorem Raises.kind {work : Work} {machine : Machine} {raise : Raise}
    (raises : Raises renderer depth work machine raise) : raise.cause.kind = .type ∨ raise.cause.kind = .arity := by
  induction raises with
  | grouping _ ih | operand _ ih | left _ ih | right _ _ ih | callee _ ih | argument _ _ _ ih
  | application _ _ _ _ ih | body _ ih | sample _ _ _ _ ih => exact ih
  | notNegatable | notNumericLeft | notNumericRight | notCallable | notPlottable => exact .inl rfl
  | wrongCount | notUnary => exact .inr rfl
  | @sine _ _ _ argument _ refused =>
    cases argument with
    | list | function | unbound =>
      cases refused
      exact .inl rfl
    | number x =>
      dsimp only [Reckoner.sine] at refused
      split at refused
      · cases refused
      · exact absurd refused (computed_unfailing _ _ _)
  | @factors _ _ _ argument _ refused =>
    cases argument with
    | list | function | unbound =>
      cases refused
      exact .inl rfl
    | number x =>
      dsimp only [Reckoner.factors] at refused
      split at refused
      · cases refused
        exact .inl rfl
      · split at refused
        · cases refused
          exact .inl rfl
        · split at refused
          · cases refused
          · exact absurd refused (computed_unfailing _ _ _)

section Completeness

structure Derivable (renderer : Option Renderer) (depth : Nat) : Prop where
  expression : ∀ expr machine failure after, Expr.evaluate renderer depth expr machine = (.error (.failed failure), after) →
    ∃ raise, Raises renderer depth (.expression expr) machine raise
  application : ∀ call function arguments machine failure after,
    Function.apply renderer depth function arguments machine = (.error (.failed failure), after) →
    ∃ raise, Raises renderer depth (.application call function arguments) machine raise

theorem call_derivable (derivable : Derivable renderer depth) {callee : Expr} {arguments : List Expr} {closing : Token}
    {machine after : Machine} {failure : Failure}
    (failed : Expr.evaluate renderer (depth + 1) (.call callee arguments closing) machine =
      (.error (.failed failure), after)) :
    ∃ raise, Raises renderer (depth + 1) (.expression (.call callee arguments closing)) machine raise := by
  rw [evaluate_call] at failed
  rcases bind_error failed with early | ⟨target, middle, head, tail⟩
  · obtain ⟨raise, inside⟩ := derivable.expression _ _ _ _ early
    exact ⟨raise, .callee inside⟩
  rcases bind_error tail with early | ⟨values, later, all, refused⟩
  · obtain ⟨before, argument, behind, values, later, rfl, others, stopped⟩ := mapM_stopped early
    obtain ⟨raise, inside⟩ := derivable.expression _ _ _ _ stopped
    exact ⟨raise, .argument head others inside⟩
  cases target with
  | number | list | unbound => exact ⟨_, .notCallable head all (by simp)⟩
  | function function =>
    by_cases count : values.length = function.arity
    · simp only [called, if_pos count] at refused
      obtain ⟨earlier, applied⟩ := adjusting_inv refused
      obtain ⟨raise, inside⟩ := derivable.application (.call callee arguments closing) _ _ _ _ _ applied
      exact ⟨raise, .application head all count inside⟩
    · exact ⟨_, .wrongCount head all count⟩

theorem expression_derivable (derivable : Derivable renderer depth) (expr : Expr) (machine : Machine) (failure : Failure)
    (after : Machine) (failed : Expr.evaluate renderer (depth + 1) expr machine = (.error (.failed failure), after)) :
    ∃ raise, Raises renderer (depth + 1) (.expression expr) machine raise := by
  cases expr with
  | literal token =>
    obtain ⟨refused, -⟩ := Prod.mk.inj failed
    unfold literalValue at refused
    split at refused <;> cases refused
  | symbol name =>
    rw [show Expr.evaluate renderer (depth + 1) (.symbol name) = lookup name.lexeme from rfl, lookup_eq] at failed
    split at failed <;> cases failed
  | grouping inner =>
    obtain ⟨raise, inside⟩ := derivable.expression _ _ _ _ failed
    exact ⟨raise, .grouping inside⟩
  | unary operator operand =>
    rw [evaluate_unary] at failed
    rcases bind_error failed with early | ⟨value, middle, evaluated, refused⟩
    · obtain ⟨raise, inside⟩ := derivable.expression _ _ _ _ early
      exact ⟨raise, .operand inside⟩
    · cases value with
      | number x =>
        obtain ⟨impossible, -⟩ := Prod.mk.inj refused
        dsimp only [negated] at impossible
        split at impossible <;> cases impossible
      | list | function | unbound => exact ⟨_, .notNegatable evaluated (by simp)⟩
  | binary left operator right =>
    rw [evaluate_binary] at failed
    rcases bind_error failed with early | ⟨a, middle, first, tail⟩
    · obtain ⟨raise, inside⟩ := derivable.expression _ _ _ _ early
      exact ⟨raise, .left inside⟩
    rcases bind_error tail with early | ⟨b, later, second, refused⟩
    · obtain ⟨raise, inside⟩ := derivable.expression _ _ _ _ early
      exact ⟨raise, .right first inside⟩
    cases a with
    | list | function | unbound => exact ⟨_, .notNumericLeft first second (by simp)⟩
    | number x =>
      cases b with
      | list | function | unbound => exact ⟨_, .notNumericRight first second (by simp)⟩
      | number y =>
        obtain ⟨impossible, -⟩ := Prod.mk.inj refused
        dsimp only [combined] at impossible
        split at impossible
        · exact absurd impossible (computed_unfailing _ _ _)
        · cases impossible
  | call callee arguments closing => exact call_derivable derivable failed

theorem entered_inv {machine after : Machine} {declaration : Declaration} {home : Origin} {arguments : List Value}
    {failure : Failure} {body : Run Value}
    (failed : entered declaration home arguments body machine = (.error (.failed failure), after)) :
    ∃ earlier middle, body (bodyMachine machine declaration home arguments) = (.error (.failed earlier), middle) := by
  obtain ⟨earlier, inner⟩ := adjusting_inv failed
  unfold bodyMachine
  rcases ended : body { machine with
    scopes := machine.scopes.enter (Frame.empty.defineAll (declaration.parameterNames.zip arguments)), origin := home }
    with ⟨result, middle⟩
  simp only [within, ended] at inner
  obtain ⟨rfl, -⟩ := Prod.mk.inj inner
  exact ⟨earlier, middle, rfl⟩

theorem plot_derivable (derivable : Derivable renderer depth) {call : Expr} {subject : Value} {machine after : Machine}
    {failure : Failure}
    (failed : plotted renderer subject (Function.apply renderer depth) machine = (.error (.failed failure), after)) :
    ∃ raise, Raises renderer (depth + 1) (.application call (.builtin .plot) [subject]) machine raise := by
  cases subject with
  | number | list | unbound => exact ⟨_, .notPlottable (by simp)⟩
  | function function =>
    by_cases unary : function.arity = 1
    · simp only [plotted, if_pos unary] at failed
      rcases bind_error failed with early | ⟨points, later, _, drawn⟩
      · obtain ⟨before, x, behind, points, later, domain, others, stopped⟩ := mapM_stopped early
        rcases bind_error stopped with sampled | ⟨_, _, _, finished⟩
        · obtain ⟨raise, inside⟩ := derivable.application call _ _ _ _ _ sampled
          exact ⟨raise, .sample unary domain others inside⟩
        · cases finished
      · -- The points are all there, and a renderer may break down on them but does not fail.
        cases renderer with
        | none => cases drawn
        | some draw =>
          rcases bind_error drawn with emitted | ⟨_, shown, _, ended⟩
          · cases emitted
          · revert ended
            cases draw points <;> (intro ended; cases ended)
    · exact ⟨_, .notUnary unary⟩

theorem sine_inv {argument : Value} {failure : Failure} (failed : sine argument = .error (.failed failure)) :
    ∃ cause, sine argument = fail cause none := by
  cases argument with
  | list | function | unbound => exact ⟨_, rfl⟩
  | number x =>
    dsimp only [sine] at failed
    split at failed
    · cases failed
    · exact absurd failed (computed_unfailing _ _ _)

theorem factors_inv {argument : Value} {failure : Failure} (failed : factors argument = .error (.failed failure)) :
    ∃ cause, factors argument = fail cause none := by
  cases argument with
  | list | function | unbound => exact ⟨_, rfl⟩
  | number x =>
    dsimp only [factors] at failed ⊢
    split at failed
    next infinite => exact ⟨_, if_pos infinite⟩
    next finite =>
      split at failed
      next above => exact ⟨_, (if_neg finite).trans (if_pos above)⟩
      next =>
        split at failed
        · cases failed
        · exact absurd failed (computed_unfailing _ _ _)

theorem application_derivable (derivable : Derivable renderer depth) (call : Expr) (function : Function)
    (arguments : List Value) (machine : Machine) (failure : Failure) (after : Machine)
    (failed : Function.apply renderer (depth + 1) function arguments machine = (.error (.failed failure), after)) :
    ∃ raise, Raises renderer (depth + 1) (.application call function arguments) machine raise := by
  unfold Function.apply at failed
  split at failed
  next declaration home =>
    obtain ⟨earlier, middle, ended⟩ := entered_inv failed
    obtain ⟨raise, inside⟩ := derivable.expression _ _ _ _ ended
    exact ⟨_, .body inside⟩
  next => cases failed
  next argument =>
    obtain ⟨cause, refused⟩ := sine_inv (Prod.mk.inj failed).1
    exact ⟨_, .sine refused⟩
  next argument =>
    obtain ⟨cause, refused⟩ := factors_inv (Prod.mk.inj failed).1
    exact ⟨_, .factors refused⟩
  next subject => exact plot_derivable derivable failed
  next => cases failed

theorem derivable (renderer : Option Renderer) (depth : Nat) : Derivable renderer depth := by
  induction depth with
  | zero =>
    constructor
    · intro expr machine failure after failed
      cases failed
    · intro call function arguments machine failure after failed
      cases failed
  | succ depth ih => exact ⟨expression_derivable ih, application_derivable ih⟩

end Completeness

end Proofs.FailureTrace

end Reckoner
