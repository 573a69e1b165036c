import Reckoner.Proofs.PureEvaluation
import Reckoner.Proofs.RunLikeness

/-! Like trees run on like machines come to like results. One run may also be allowed to
go deeper than the other, which then either keeps up with it or runs out of depth, having
shown nothing else until there. -/

namespace Reckoner

namespace Likeness

variable (likeness : Likeness) {α β : Type}

structure Machines (origin : Origin) (machine other : Machine) : Prop where
  scopes : likeness.Chains machine.scopes other.scopes
  home : machine.origin = origin
  batch : likeness.sited → other.origin = origin
  events : machine.events.toList = likeness.before ++ other.events.toList

/-- How two runs end. Either the first is out of depth, and what it has shown is where the second
began; or both come to the same. Failures may come from a batch other than the one that runs on. -/
inductive Ends (place origin : Origin) (related : α → β → Prop) :
    Except Stop α × Machine → Except Stop β × Machine → Prop
  | cut {machine other : Machine} {result : Except Stop β} (deeper : likeness.deeper)
      (shown : machine.events.toList <+: likeness.before ++ other.events.toList) :
    Ends place origin related (.error .tooDeep, machine) (result, other)
  | both {machine other : Machine} {result : Except Stop α} {opposite : Except Stop β}
      (results : likeness.Results place related result opposite) (machines : likeness.Machines origin machine other) :
    Ends place origin related (result, machine) (opposite, other)

def Matches (origin : Origin) (related : α → β → Prop) (run : Run α) (other : Run β) : Prop :=
  ∀ machine opposite, likeness.Machines origin machine opposite →
    likeness.Ends origin origin related (run machine) (other opposite)

end Likeness

namespace Run
open Proofs.EvaluationFrame

variable {α β : Type}

/-- A run only adds to what was shown before. -/
def Appends (run : Run α) : Prop := ∀ machine, machine.events.toList <+: (run machine).2.events.toList

theorem appends_pure (value : α) : Appends (pure value : Run α) := fun _ => List.prefix_refl _

theorem appends_emit (event : Event) : Appends (emit event) := by
  intro machine
  change machine.events.toList <+: (machine.events.push event).toList
  rw [Array.toList_push]
  exact List.prefix_append _ _

theorem appends_define (name : String) (value : Value) : Appends (define name value) :=
  fun _ => List.prefix_refl _

theorem Appends.bind {run : Run α} {next : α → Run β} (first : Appends run) (rest : ∀ value, Appends (next value)) :
    Appends (run >>= next) := by
  intro machine
  have early := first machine
  apply bind_elim (fun ended => machine.events.toList <+: ended.2.events.toList)
  · intro stop after ended
    rwa [ended] at early
  · intro value after ended
    rw [ended] at early
    exact early.trans (rest value after)

theorem Appends.mapM {run : α → Run β} (each : ∀ item, Appends (run item)) (items : List α) :
    Appends (items.mapM run) := by
  induction items with
  | nil => exact appends_pure []
  | cons item rest ih =>
    rw [List.mapM_cons]
    exact (each item).bind fun value => ih.bind fun values => appends_pure _

end Run

namespace Likeness
open Run Proofs.EvaluationFrame

variable {likeness : Likeness} {α β γ δ : Type} {origin : Origin}

section Matching

variable {related : α → β → Prop} {target : γ → δ → Prop}

theorem matches_pure {value : α} {other : β} (like : related value other) :
    likeness.Matches origin related (pure value) (pure other) :=
  fun _ _ machines => .both (.ok like) machines

theorem matches_settled {result other : Except Stop Value} (like : likeness.Results origin likeness.Values result other) :
    likeness.Matches origin likeness.Values (settled result) (settled other) :=
  fun _ _ machines => .both like machines

theorem matches_throw {stop other : Stop} (like : likeness.Stops origin stop other) :
    likeness.Matches origin related (throw stop) (throw other) :=
  fun _ _ machines => .both (.error like) machines

theorem matches_emit (event : Event) :
    likeness.Matches origin Eq (emit event) (emit event) := by
  intro machine opposite machines
  refine .both (.ok rfl) ⟨machines.scopes, machines.home, machines.batch, ?_⟩
  change (machine.events.push event).toList = likeness.before ++ (opposite.events.push event).toList
  rw [Array.toList_push, Array.toList_push, machines.events, List.append_assoc]

theorem matches_define (name : String) {value other : Value} (like : likeness.Values value other) :
    likeness.Matches origin Eq (define name value) (define name other) :=
  fun _ _ machines => .both (.ok rfl)
    ⟨machines.scopes.define name like, machines.home, machines.batch, machines.events⟩

theorem Matches.bind {run : Run α} {next : α → Run γ} {other : Run β} {rest : β → Run δ}
    (first : likeness.Matches origin related run other)
    (second : ∀ value opposite, related value opposite → likeness.Matches origin target (next value) (rest opposite))
    (appends : ∀ opposite, Appends (rest opposite)) :
    likeness.Matches origin target (run >>= next) (other >>= rest) := by
  intro machine opposite machines
  have early := first machine opposite machines
  rw [run_bind, run_bind]
  generalize run machine = here, other opposite = there at early
  cases early with
  | @cut after final ended deeper shown =>
    cases ended with
    | error stop => exact .cut deeper shown
    | ok value => exact .cut deeper (shown.trans ((List.prefix_append_right_inj _).mpr (appends value final)))
  | both results states =>
    cases results with
    | ok like => exact second _ _ like _ _ states
    | error stops => exact .both (.error stops) states

theorem Matches.mapM {run : α → Run γ} {other : β → Run δ}
    (each : ∀ item opposite, related item opposite → likeness.Matches origin target (run item) (other opposite))
    (appends : ∀ opposite, Appends (other opposite)) {items : List α} {others : List β}
    (all : List.Forall₂ related items others) :
    likeness.Matches origin (List.Forall₂ target) (items.mapM run) (others.mapM other) := by
  induction all with
  | nil => exact matches_pure .nil
  | cons head tail ih =>
    rw [List.mapM_cons, List.mapM_cons]
    refine (each _ _ head).bind (fun value opposite like => ?_) fun opposite => ?_
    · exact ih.bind (fun values opposites likes => matches_pure (.cons like likes)) fun _ => appends_pure _
    · exact (Appends.mapM appends _).bind fun _ => appends_pure _

/-- What becomes of two failures on their way out, where the runs that failed were alike. -/
theorem Ends.adjusting {place : Origin} {run other : Run Value} {machine opposite : Machine}
    {change adjust : Machine → Failure → Failure}
    (ends : likeness.Ends place origin likeness.Values (run machine) (other opposite))
    (agree : ∀ after final failure told, likeness.Machines origin after final → likeness.Failures place failure told →
      likeness.Failures origin (change after failure) (adjust final told)) :
    likeness.Ends origin origin likeness.Values (adjusting change run machine) (adjusting adjust other opposite) := by
  unfold Run.adjusting
  generalize run machine = here, other opposite = there at ends
  cases ends with
  | cut deeper shown =>
    dsimp only
    split
    next same =>
      cases same
      exact .cut deeper shown
    next => exact .cut deeper shown
  | both results states =>
    cases results with
    | ok like => exact .both (.ok like) states
    | error stops =>
      cases stops with
      | failed like => exact .both (.error (.failed (agree _ _ _ _ states like))) states
      | tooDeep => exact .both (.error .tooDeep) states
      | broken fault => exact .both (.error (.broken fault)) states

theorem Ends.agree {place : Origin} {result : Except Stop α} {opposite : Except Stop β} {machine other : Machine}
    (ends : likeness.Ends place origin related (result, machine) (opposite, other)) (level : ¬likeness.deeper) :
    likeness.Results place related result opposite ∧ likeness.Machines origin machine other := by
  cases ends with
  | cut deeper => exact absurd deeper level
  | both results machines => exact ⟨results, machines⟩

theorem Failures.blame {failure told : Failure} (like : likeness.Failures origin failure told) {span other : Span}
    (spans : likeness.Spans origin span other) :
    likeness.Failures origin (failure.blame (some span)) (told.blame (some other)) := by
  refine ⟨?_, ?_, fun sited => ?_⟩
  · unfold Failure.blame
    split <;> split <;> exact like.cause
  · unfold Failure.blame
    split <;> split <;> exact like.hint
  · obtain ⟨cause, site, hint⟩ := failure
    obtain ⟨again, place, advice⟩ := told
    have sites : Option.Rel (likeness.Spans origin) site place := like.site sited
    cases sites with
    | none => exact .some spans
    | some spans => exact .some spans

/-- Both sites are forgotten, or neither. -/
theorem Failures.leaving {home away : Origin} {failure told : Failure} {machine opposite : Machine}
    (like : likeness.Failures home failure told) (batch : likeness.sited → home = away)
    (machines : likeness.Machines origin machine opposite) :
    likeness.Failures origin (if home = machine.origin then failure else failure.unsited)
      (if away = opposite.origin then told else told.unsited) := by
  refine ⟨?_, ?_, fun sited => ?_⟩
  · split <;> split <;> exact like.cause
  · split <;> split <;> exact like.hint
  · rw [machines.home, machines.batch sited, ← batch sited]
    split
    next same => exact same ▸ like.site sited
    next => exact .none

theorem within_ends {frame other : Frame Value} {home away : Origin} {body opposite : Run Value}
    (frames : likeness.Frames frame other) (batch : likeness.sited → home = away)
    (inside : likeness.Matches home likeness.Values body opposite) {machine final : Machine}
    (machines : likeness.Machines origin machine final) :
    likeness.Ends home origin likeness.Values (within frame home body machine) (within other away opposite final) := by
  have entered : likeness.Machines home { machine with scopes := machine.scopes.enter frame, origin := home }
      { final with scopes := final.scopes.enter other, origin := away } :=
    ⟨⟨frames, machines.scopes.frames⟩, rfl, fun sited => (batch sited).symm, machines.events⟩
  have ends := inside _ _ entered
  unfold within
  generalize body _ = here, opposite _ = there at ends
  cases ends with
  | cut deeper shown => exact .cut deeper shown
  | both results states =>
    exact .both results ⟨states.scopes.leave, machines.home, machines.batch, states.events⟩

theorem entered_matches {declaration other : Declaration} {home away : Origin} {arguments others : List Value}
    {body opposite : Run Value} (batch : likeness.sited → home = away)
    (like : likeness.Declarations home declaration other) (each : List.Forall₂ likeness.Values arguments others)
    (inside : likeness.Matches home likeness.Values body opposite) :
    likeness.Matches origin likeness.Values (entered declaration home arguments body)
      (entered other away others opposite) := by
  intro machine final machines
  have bindings : List.Forall₂ likeness.Bindings (declaration.parameterNames.zip arguments)
      (other.parameterNames.zip others) := by
    rw [like.parameterNames]
    exact zip_bindings _ each
  have frames : likeness.Frames (Frame.empty.defineAll (declaration.parameterNames.zip arguments))
      (Frame.empty.defineAll (other.parameterNames.zip others)) := Frames.defineAll bindings .nil
  exact (within_ends frames batch inside machines).adjusting fun _ _ _ _ states failures =>
    failures.leaving batch states

theorem lookup_matches (name : String) : likeness.Matches origin likeness.Values (lookup name) (lookup name) := by
  intro machine opposite machines
  rw [lookup_eq, lookup_eq]
  have found := machines.scopes.get? name
  generalize machine.scopes.get? name = here, opposite.scopes.get? name = there at found
  cases found with
  | some values => exact .both (.ok values) machines
  | none =>
    exact .both (.ok (.unbound name))
      ⟨machines.scopes.define name (.unbound name), machines.home, machines.batch, machines.events⟩

end Matching

section Leaves

theorem fail_like {cause : Failure.Cause} {site place : Option Span}
    (sites : likeness.sited → Option.Rel (likeness.Spans origin) site place) :
    likeness.Results origin likeness.Values (fail cause site) (fail cause place) :=
  .error (.failed ⟨rfl, rfl, sites⟩)

theorem literalValue_like {token other : Token} (like : likeness.token token other) :
    likeness.Results origin likeness.Values (literalValue token) (literalValue other) := by
  unfold literalValue
  rw [(likeness.same like).literal]
  split
  next x _ => exact .ok (.number x)
  next => exact .error (.broken _)

theorem negated_like {expr other : Expr} {operator sign : Token} {value operand : Value}
    (spans : likeness.Spans origin expr.span other.span) (like : likeness.token operator sign)
    (values : likeness.Values value operand) :
    likeness.Results origin likeness.Values (negated expr operator value) (negated other sign operand) := by
  have kind : operator.kind = sign.kind := (likeness.same like).kind
  have shown : value.render = operand.render := values.render
  cases values with
  | number x =>
    dsimp only [negated]
    rw [kind]
    split
    · exact .ok (.number _)
    · exact .error (.broken _)
  | list | function | unbound =>
    dsimp only [negated]
    rw [kind, shown]
    exact fail_like fun _ => .some spans

theorem computed_like {α : Type} {value : α → Value} (like : ∀ a, likeness.Values (value a) (value a))
    (answer : Except Fault α) :
    likeness.Results origin likeness.Values (computed value answer) (computed value answer) := by
  rcases computed_cases value answer with ⟨a, -, same⟩ | ⟨fault, -, same⟩
  · rw [same]
    exact .ok (like a)
  · rw [same]
    exact .error (.broken fault)

theorem combined_like {left right first second : Expr} {operator sign : Token} {a b x y : Value}
    (before : likeness.Spans origin left.span first.span) (behind : likeness.Spans origin right.span second.span)
    (like : likeness.token operator sign) (lefts : likeness.Values a x) (rights : likeness.Values b y) :
    likeness.Results origin likeness.Values (combined left right operator a b) (combined first second sign x y) := by
  have kind : operator.kind = sign.kind := (likeness.same like).kind
  have shown : a.render = x.render := lefts.render
  have other : b.render = y.render := rights.render
  cases lefts with
  | number x =>
    cases rights with
    | number y =>
      dsimp only [combined]
      rw [kind]
      split
      · exact computed_like .number _
      · exact .error (.broken _)
    | list | function | unbound =>
      dsimp only [combined]
      rw [other]
      exact fail_like fun _ => .some behind
  | list | function | unbound =>
    dsimp only [combined]
    rw [shown]
    exact fail_like fun _ => .some before

theorem sine_like {argument other : Value} (values : likeness.Values argument other) :
    likeness.Results origin likeness.Values (sine argument) (sine other) := by
  have shown : argument.render = other.render := values.render
  cases values with
  | number x =>
    dsimp only [sine]
    split
    · exact .ok (.number _)
    · exact computed_like .number _
  | list | function | unbound =>
    dsimp only [sine]
    rw [shown]
    exact fail_like fun _ => .none

theorem factors_like {argument other : Value} (values : likeness.Values argument other) :
    likeness.Results origin likeness.Values (factors argument) (factors other) := by
  have shown : argument.render = other.render := values.render
  cases values with
  | number x =>
    dsimp only [factors]
    split
    · exact fail_like fun _ => .none
    · split
      · exact fail_like fun _ => .none
      · split
        · exact .ok (.list _)
        · exact computed_like .list _
  | list | function | unbound =>
    dsimp only [factors]
    rw [shown]
    exact fail_like fun _ => .none

end Leaves

end Likeness

namespace Proofs.ParallelRuns
open Run Likeness EvaluationFrame PureEvaluation

variable {likeness : Likeness} {α β : Type} {origin : Origin}

section Growth

theorem Simulates.appends {run : Run α} {yield : Environment → Origin → Yield α}
    (simulates : ∀ environment origin, Simulates environment origin run (yield environment origin)) : Appends run := by
  intro machine
  have followed := simulates _ _ machine rfl rfl
  rw [followed.events]
  exact List.prefix_append _ _

variable (renderer : Option Renderer) (depth : Nat)

theorem evaluate_appends (expr : Expr) : Appends (expr.evaluate renderer depth) :=
  Simulates.appends fun environment origin => (both_simulate renderer depth).1 environment origin expr

theorem apply_appends (function : Function) (arguments : List Value) :
    Appends (function.apply renderer depth arguments) :=
  Simulates.appends fun environment origin => (both_simulate renderer depth).2 environment origin function arguments

theorem called_appends (expr callee : Expr) (target : Value) (arguments : List Value) :
    Appends (called expr callee target arguments (Function.apply renderer depth)) :=
  Simulates.appends fun environment origin => called_simulates ((both_simulate renderer depth).2 environment origin)

end Growth

section Evaluation

variable {renderer : Option Renderer} {depth more : Nat}

theorem called_matches {expr callee other opposite : Expr} {target subject : Value} {arguments others : List Value}
    {apply perform : Function → List Value → Run Value} (spans : likeness.Spans origin expr.span other.span)
    (heads : likeness.Spans origin callee.span opposite.span) (values : likeness.Values target subject)
    (each : List.Forall₂ likeness.Values arguments others)
    (applies : ∀ function again, likeness.Functions function again →
      likeness.Matches origin likeness.Values (apply function arguments) (perform again others)) :
    likeness.Matches origin likeness.Values (called expr callee target arguments apply)
      (called other opposite subject others perform) := by
  have shown : target.render = subject.render := values.render
  cases values with
  | @function function again functions =>
    unfold called
    dsimp only
    rw [each.length_eq, functions.arity]
    split
    · intro machine final machines
      exact (applies function again functions machine final machines).adjusting fun _ _ _ _ _ failures =>
        failures.blame spans
    · exact matches_settled (fail_like fun _ => .some spans)
  | number | list | unbound =>
    unfold called
    dsimp only
    rw [shown]
    exact matches_settled (fail_like fun _ => .some heads)

theorem plotted_matches {subject other : Value} {apply perform : Function → List Value → Run Value}
    (values : likeness.Values subject other)
    (applies : ∀ function again x, likeness.Functions function again →
      likeness.Matches origin likeness.Values (apply function [.number x]) (perform again [.number x]))
    (appends : ∀ function arguments, Appends (perform function arguments)) :
    likeness.Matches origin likeness.Values (plotted renderer subject apply) (plotted renderer other perform) := by
  have shown : subject.render = other.render := values.render
  cases values with
  | @function function again functions =>
    unfold plotted
    dsimp only
    rw [functions.arity]
    split
    · have sampled : ∀ x y : Float, x = y → likeness.Matches origin Eq
          (do let value ← apply function [.number x]; return (⟨x, value.ordinate⟩ : Point Float))
          (do let value ← perform again [.number y]; return (⟨y, value.ordinate⟩ : Point Float)) := by
        rintro x _ rfl
        refine (applies function again x functions).bind (fun value opposite like => ?_) fun _ => appends_pure _
        exact matches_pure (by rw [like.ordinate])
      have domain : List.Forall₂ (· = ·) plotDomain plotDomain := by rw [List.forall₂_eq_eq_eq]
      have points := Matches.mapM sampled (fun y => (appends again [.number y]).bind fun _ => appends_pure _) domain
      rw [List.forall₂_eq_eq_eq] at points
      refine points.bind ?_ ?_
      · rintro points _ rfl
        cases renderer with
        | none => exact matches_pure (.number 0)
        | some draw =>
          refine (matches_emit _).bind ?_ ?_
          · rintro _ _ rfl
            cases draw points with
            | ok _ => exact matches_pure (.number 0)
            | error fault => exact matches_throw (.broken fault)
          · intro _
            cases draw points <;> exact fun _ => List.prefix_refl _
      · intro points
        cases renderer with
        | none => exact appends_pure _
        | some draw =>
          refine (appends_emit _).bind fun _ => ?_
          cases draw points <;> exact fun _ => List.prefix_refl _
    · exact matches_settled (fail_like fun _ => .none)
  | number | list | unbound =>
    unfold plotted
    dsimp only
    rw [shown]
    exact matches_settled (fail_like fun _ => .none)

/-- Like expressions and like functions come to the same at two depths. -/
structure Parallel (likeness : Likeness) (renderer : Option Renderer) (depth more : Nat) : Prop where
  expression : ∀ {origin : Origin} {expr other : Expr}, likeness.Exprs origin expr other →
    likeness.Matches origin likeness.Values (expr.evaluate renderer depth) (other.evaluate renderer more)
  application : ∀ {origin : Origin} {function other : Function} {arguments others : List Value},
    likeness.Functions function other → List.Forall₂ likeness.Values arguments others →
    likeness.Matches origin likeness.Values (function.apply renderer depth arguments) (other.apply renderer more others)

theorem arguments_matches (parallel : Parallel likeness renderer depth more) {arguments others : List Expr}
    (count : arguments.length = others.length)
    (each : ∀ pair ∈ arguments.zip others, likeness.Exprs origin pair.1 pair.2) :
    likeness.Matches origin (List.Forall₂ likeness.Values) (arguments.mapM (Expr.evaluate renderer depth))
      (others.mapM (Expr.evaluate renderer more)) :=
  Matches.mapM (fun _ _ like => parallel.expression like) (evaluate_appends renderer more)
    (List.forall₂_iff_zip.mpr ⟨count, fun member => each _ member⟩)

theorem application_parallel (parallel : Parallel likeness renderer depth more) {function other : Function}
    {arguments others : List Value} (functions : likeness.Functions function other)
    (each : List.Forall₂ likeness.Values arguments others) :
    likeness.Matches origin likeness.Values (function.apply renderer (depth + 1) arguments)
      (other.apply renderer (more + 1) others) := by
  cases functions with
  | declared batch like => exact entered_matches batch like each (parallel.expression like.body)
  | builtin which =>
    cases each with
    | nil =>
      cases which with
      | pi => exact matches_pure (.number _)
      | sin | factors | plot => exact matches_throw (.broken _)
    | cons argument rest =>
      cases rest with
      | cons => cases which <;> exact matches_throw (.broken _)
      | nil =>
        cases which with
        | pi => exact matches_throw (.broken _)
        | sin => exact matches_settled (sine_like argument)
        | factors => exact matches_settled (factors_like argument)
        | plot =>
          refine plotted_matches argument (fun function again x like => ?_) (apply_appends renderer more)
          exact parallel.application like (.cons (.number x) .nil)

theorem expression_parallel (parallel : Parallel likeness renderer depth more)
    (unwraps : likeness.unwrapped → Parallel likeness renderer depth (more + 1)) {expr other : Expr}
    (like : likeness.Exprs origin expr other) :
    likeness.Matches origin likeness.Values (expr.evaluate renderer (depth + 1)) (other.evaluate renderer (more + 1)) := by
  cases like with
  | literal edge => exact matches_settled (literalValue_like (likeness.token_of_edge edge))
  | @symbol name other edge =>
    have same : name.lexeme = other.lexeme := (likeness.same (likeness.token_of_edge edge)).lexeme
    unfold Expr.evaluate
    dsimp only
    rw [same]
    exact lookup_matches other.lexeme
  | grouping kept inside => exact parallel.expression inside
  | unwrapped lost inside => exact (unwraps lost).expression inside
  | unary edge inside =>
    have spans := (Exprs.unary edge inside).span
    refine (parallel.expression inside).bind (fun value operand values => ?_) fun _ _ => List.prefix_refl _
    exact matches_settled (negated_like spans (likeness.token_of_edge edge) values)
  | binary before between behind =>
    refine (parallel.expression before).bind (fun a x lefts => ?_) fun x => ?_
    · refine (parallel.expression behind).bind (fun b y rights => ?_) fun _ _ => List.prefix_refl _
      exact matches_settled (combined_like (before.span) (behind.span) between lefts rights)
    · exact (evaluate_appends renderer more _).bind fun _ _ => List.prefix_refl _
  | call head count each edge =>
    have spans := (Exprs.call head count each edge).span
    refine (parallel.expression head).bind (fun target subject values => ?_) fun subject => ?_
    · refine (arguments_matches parallel count each).bind (fun arguments others like => ?_) fun _ => ?_
      · exact called_matches spans (head.span) values like fun _ _ functions => parallel.application functions like
      · exact called_appends renderer more _ _ _ _
    · exact (Appends.mapM (evaluate_appends renderer more) _).bind fun _ => called_appends renderer more _ _ _ _

theorem matches_cut {run : Run α} {related : β → α → Prop} (deeper : likeness.deeper) (appends : Appends run) :
    likeness.Matches origin related (throw .tooDeep) run := by
  intro machine opposite machines
  refine .cut deeper ?_
  rw [machines.events]
  exact (List.prefix_append_right_inj _).mpr (appends opposite)

/-- By induction on the lesser depth. Where the second tree lacks a pair of parentheses, its
depth stays as it is while the other one falls, so it has to be arbitrary. -/
theorem parallel (renderer : Option Renderer) (depths : likeness.Depths depth more) :
    Parallel likeness renderer depth more := by
  induction depth generalizing more with
  | zero =>
    obtain ⟨-, rfl | deeper⟩ := depths
    · exact ⟨fun _ => matches_throw .tooDeep, fun _ _ => matches_throw .tooDeep⟩
    · constructor
      · intro origin expr other _
        exact matches_cut deeper (evaluate_appends renderer more other)
      · intro origin function other arguments others _ _
        exact matches_cut deeper (apply_appends renderer more other others)
  | succ depth ih =>
    obtain ⟨less, equal⟩ := depths
    obtain ⟨more, rfl⟩ : ∃ rest, more = rest + 1 := ⟨more - 1, by omega⟩
    have inside : likeness.Depths depth more := ⟨by omega, equal.imp_left Nat.succ.inj⟩
    have unwraps (lost : likeness.unwrapped) : likeness.Depths depth (more + 1) :=
      ⟨by omega, .inr (likeness.deeper_of_unwrapped lost)⟩
    exact ⟨expression_parallel (ih inside) fun lost => ih (unwraps lost), application_parallel (ih inside)⟩

end Evaluation

section Batches

variable {renderer : Option Renderer} {depth more : Nat}

theorem execute_matches (depths : likeness.Depths depth more) {statement other : Statement}
    (like : likeness.Statements origin statement other) :
    likeness.Matches origin likeness.Values (statement.execute renderer depth) (other.execute renderer more) := by
  cases like with
  | expression inside => exact (parallel renderer depths).expression inside
  | print word inside =>
    refine ((parallel renderer depths).expression inside).bind (fun value other values => ?_) fun other => ?_
    · rw [values.render]
      exact (matches_emit _).bind (fun _ _ _ => matches_pure (.number 0)) fun _ => appends_pure _
    · exact (appends_emit _).bind fun _ => appends_pure _
  | @assign name again _ _ word inside =>
    have same : name.lexeme = again.lexeme := (likeness.same word).lexeme
    refine ((parallel renderer depths).expression inside).bind (fun value other values => ?_) fun other => ?_
    · rw [same]
      exact (matches_define _ values).bind (fun _ _ _ => matches_pure (.number 0)) fun _ => appends_pure _
    · exact (appends_define _ _).bind fun _ => appends_pure _
  | @declare declaration other inside =>
    intro machine opposite machines
    have same : declaration.name.lexeme = other.name.lexeme := (likeness.same inside.name).lexeme
    have values : likeness.Values (.function (.declared declaration machine.origin))
        (.function (.declared other opposite.origin)) := by
      refine .function (.declared (fun sited => ?_) ?_)
      · rw [machines.home, machines.batch sited]
      · rwa [machines.home]
    have scopes : likeness.Chains
        (machine.scopes.define declaration.name.lexeme (.function (.declared declaration machine.origin)))
        (opposite.scopes.define other.name.lexeme (.function (.declared other opposite.origin))) := by
      rw [same]
      exact machines.scopes.define _ values
    exact .both (.ok (.number 0)) ⟨scopes, machines.home, machines.batch, machines.events⟩

theorem execute_appends (statement : Statement) : Appends (statement.execute renderer depth) := by
  cases statement with
  | expression expr => exact evaluate_appends renderer depth expr
  | print keyword expr =>
    exact (evaluate_appends renderer depth expr).bind fun _ => (appends_emit _).bind fun _ => appends_pure _
  | assign name expr =>
    exact (evaluate_appends renderer depth expr).bind fun _ => (appends_define _ _).bind fun _ => appends_pure _
  | declare declaration => exact fun _ => List.prefix_refl _

theorem fold_appends (statements : List Statement) (value : Value) :
    Appends (statements.foldlM (fun _ statement => statement.execute renderer depth) value) := by
  induction statements generalizing value with
  | nil => exact appends_pure value
  | cons statement rest ih =>
    rw [List.foldlM_cons]
    exact (execute_appends statement).bind ih

theorem interpret_matches (renderer : Option Renderer) (depths : likeness.Depths depth more) {statements others : List Statement}
    (like : List.Forall₂ (likeness.Statements origin) statements others) :
    likeness.Matches origin likeness.Values (interpret renderer depth statements) (interpret renderer more others) := by
  have rest : ∀ value other, likeness.Values value other → likeness.Matches origin likeness.Values
      (statements.foldlM (fun _ statement => statement.execute renderer depth) value)
      (others.foldlM (fun _ statement => statement.execute renderer more) other) := by
    induction like with
    | nil => exact fun _ _ => matches_pure
    | @cons statement other statements others head tail ih =>
      intro value opposite _
      rw [List.foldlM_cons, List.foldlM_cons]
      exact (execute_matches depths head).bind ih (fold_appends others)
  exact rest _ _ (.number 0)

end Batches

end Proofs.ParallelRuns

namespace Session

/-- Runs statements as the session's next batch. -/
def runBatch (host : Host) (session : Session) (statements : List Statement) : Result × Session :=
  { session with batches := session.batches + 1 }.perform (some session.batches)
    (interpret host.renderer host.depth statements)

theorem evaluate_eq_runBatch {host : Host} {text : String} {statements : List Statement}
    (read : Grammar.ofText host.depth text.toList = .ok statements) (session : Session) :
    session.evaluate host text = session.runBatch host statements := by
  simp only [evaluate, read, runBatch]

theorem runBatch_eq {host : Host} {session : Session} {statements : List Statement} {result : Except Stop Value}
    {after : Machine} (run : interpret host.renderer host.depth statements session.machine = (result, after)) :
    session.runBatch host statements = (⟨result.mapError Stop.trouble, after.events.toList⟩,
      ⟨after.scopes, after.origin, session.batches + 1⟩) := by
  unfold machine at run
  simp only [runBatch, perform, run]

end Session

end Reckoner
