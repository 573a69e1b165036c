import Reckoner.Proofs.BatchExecution

/-! A second evaluator, which reads an environment and writes nothing. Every name has a
meaning in it, so there is nothing to define on the way. Evaluation on a machine gives
what this one gives: the free symbols it leaves behind mean what they meant before. -/

namespace Reckoner

abbrev Environment := String → Value

namespace Environment

/-- What the names mean in a chain of scopes. One without a binding means itself. -/
def ofChain (chain : Chain Value) : Environment := fun name => (chain.get? name).getD (.unbound name)

def update (environment : Environment) (name : String) (value : Value) : Environment :=
  fun other => if other = name then value else environment other

/-- Gives names their values one after the other; of a repeated name the last value stays. -/
def updateAll (environment : Environment) (bindings : List (String × Value)) : Environment :=
  bindings.foldl (fun environment binding => environment.update binding.1 binding.2) environment

end Environment

/-- How an evaluation ends, and what the renderer got to see by then. -/
structure Yield (α : Type) where
  result : Except Stop α
  plots : List (List (Point Float))

namespace Yield

variable {α β : Type}

def settled (result : Except Stop α) : Yield α := ⟨result, []⟩

def plot (points : List (Point Float)) : Yield Unit := ⟨.ok (), [points]⟩

def andThen (first : Yield α) (next : α → Yield β) : Yield β :=
  match first.result with
  | .ok value => ⟨(next value).result, first.plots ++ (next value).plots⟩
  | .error stop => ⟨.error stop, first.plots⟩

def adjusting (change : Failure → Failure) (yield : Yield α) : Yield α :=
  match yield.result with
  | .error (.failed failure) => ⟨.error (.failed (change failure)), yield.plots⟩
  | _ => yield

instance : Monad Yield where
  pure value := settled (.ok value)
  bind := andThen

instance : LawfulMonad Yield := by
  refine .mk' Yield ?_ ?_ ?_
  · rintro α ⟨_ | value, plots⟩ <;> simp [Functor.map, andThen, settled]
  · intros
    simp [bind, pure, andThen, settled]
  · rintro α β γ ⟨_ | value, plots⟩ first second
    · rfl
    · simp only [bind, andThen]
      cases (first value).result <;> simp

end Yield

def yieldOfCall (expr callee : Expr) (target : Value) (arguments : List Value)
    (apply : Function → List Value → Yield Value) : Yield Value :=
  match target with
  | .function function =>
    if arguments.length = function.arity then
      (apply function arguments).adjusting fun failure => failure.blame (some expr.span)
    else .settled (fail (.arity function.arity arguments.length) (some expr.span))
  | other => .settled (fail (.notCallable other.render) (some callee.span))

def yieldOfPlot (renderer : Option Renderer) (subject : Value) (apply : Function → List Value → Yield Value) :
    Yield Value :=
  match subject with
  | .function function =>
    if function.arity = 1 then do
      let points ← plotDomain.mapM fun x => do
        let y ← apply function [.number x]
        return (⟨x, y.ordinate⟩ : Point Float)
      match renderer with
      | none => return .nothing
      | some draw =>
        Yield.plot points
        match draw points with
        | .ok _ => return .nothing
        | .error fault => .settled (.error (.broken fault))
    else .settled (fail (.arity function.arity 1) none)
  | other => .settled (fail (.needsFunction (Function.builtin .plot).render other.render) none)

mutual

/-- What an expression comes to in an environment, as code of the given batch. -/
def Expr.yield (renderer : Option Renderer) : Nat → Environment → Origin → Expr → Yield Value
  | 0, _, _, _ => .settled (.error .tooDeep)
  | depth + 1, environment, origin, expr =>
    match expr with
    | .literal token => .settled (literalValue token)
    | .symbol name => return environment name.lexeme
    | .grouping inner => Expr.yield renderer depth environment origin inner
    | .unary operator operand => do
      let value ← Expr.yield renderer depth environment origin operand
      .settled (negated expr operator value)
    | .binary left operator right => do
      let a ← Expr.yield renderer depth environment origin left
      let b ← Expr.yield renderer depth environment origin right
      .settled (combined left right operator a b)
    | .call callee arguments _ => do
      let target ← Expr.yield renderer depth environment origin callee
      let values ← arguments.mapM (Expr.yield renderer depth environment origin)
      yieldOfCall expr callee target values (Function.yield renderer depth environment origin)

/-- What a function comes to when code of the given batch calls it. A declared one sees the
environment of the call, with its parameters set. -/
def Function.yield (renderer : Option Renderer) : Nat → Environment → Origin → Function → List Value → Yield Value
  | 0, _, _, _, _ => .settled (.error .tooDeep)
  | depth + 1, environment, origin, function, arguments =>
    match function, arguments with
    | .declared declaration home, _ =>
      (Expr.yield renderer depth (environment.updateAll (declaration.parameterNames.zip arguments)) home
        declaration.body).adjusting fun failure => if home = origin then failure else failure.unsited
    | .builtin .pi, [] => return .number circleRatio
    | .builtin .sin, [argument] => .settled (sine argument)
    | .builtin .factors, [argument] => .settled (factors argument)
    | .builtin .plot, [subject] => yieldOfPlot renderer subject (Function.yield renderer depth environment origin)
    | .builtin _, _ => .settled (.error (.broken .malformed))

end

/-- Sessions that differ in the free symbols they have listed at most: every name means the
same in both of them. -/
structure Session.Alike (session other : Session) : Prop where
  meanings : Environment.ofChain session.scopes = Environment.ofChain other.scopes
  origin : session.origin = other.origin
  batches : session.batches = other.batches

namespace Proofs.PureEvaluation
open Run EvaluationFrame BatchExecution

variable {α β : Type} {renderer : Option Renderer} {environment : Environment} {origin : Origin}

theorem ofChain_define (chain : Chain Value) (name : String) (value : Value) :
    Environment.ofChain (chain.define name value) = (Environment.ofChain chain).update name value := by
  funext other
  unfold Environment.ofChain Environment.update
  rw [get?_define]
  split <;> rfl

theorem ofChain_defineAll (frame : Frame Value) (outer : List (Frame Value)) (bindings : List (String × Value)) :
    Environment.ofChain ⟨frame.defineAll bindings, outer⟩ = (Environment.ofChain ⟨frame, outer⟩).updateAll bindings := by
  induction bindings generalizing frame with
  | nil => rfl
  | cons binding rest ih =>
    have first := ofChain_define ⟨frame, outer⟩ binding.1 binding.2
    exact (ih (frame.define binding.1 binding.2)).trans (congrArg (·.updateAll rest) first)

theorem ofChain_enter (chain : Chain Value) (bindings : List (String × Value)) :
    Environment.ofChain (chain.enter (Frame.empty.defineAll bindings)) = (Environment.ofChain chain).updateAll bindings :=
  ofChain_defineAll .empty chain.frames bindings

theorem Grown.ofChain {names : List String} {before after : Chain Value} (grown : Grown names before after) :
    Environment.ofChain after = Environment.ofChain before := by
  funext name
  unfold Environment.ofChain
  rcases grown.get? name with same | ⟨missing, -, added⟩
  · rw [same]
  · rw [missing, added]
    rfl

structure Follows (environment : Environment) (origin : Origin) (machine : Machine)
    (ended : Except Stop α × Machine) (yield : Yield α) : Prop where
  result : ended.1 = yield.result
  events : ended.2.events.toList = machine.events.toList ++ yield.plots.map .plotted
  meanings : Environment.ofChain ended.2.scopes = environment
  origin : ended.2.origin = origin

/-- On every machine on which the names mean what the environment says, the run follows the yield. -/
def Simulates (environment : Environment) (origin : Origin) (run : Run α) (yield : Yield α) : Prop :=
  ∀ machine, Environment.ofChain machine.scopes = environment → machine.origin = origin →
    Follows environment origin machine (run machine) yield

theorem simulates_settled (result : Except Stop Value) :
    Simulates environment origin (settled result) (.settled result) :=
  fun _ meanings same => ⟨rfl, by simp [settled, Yield.settled], meanings, same⟩

theorem simulates_pure (value : α) : Simulates environment origin (pure value) (pure value) :=
  fun _ meanings same => ⟨rfl, (List.append_nil _).symm, meanings, same⟩

theorem simulates_throw (stop : Stop) :
    Simulates environment origin (throw stop : Run Value) (.settled (.error stop)) :=
  simulates_settled (.error stop)

theorem Simulates.bind {run : Run α} {next : α → Run β} {first : Yield α} {second : α → Yield β}
    (start : Simulates environment origin run first)
    (rest : ∀ value, Simulates environment origin (next value) (second value)) :
    Simulates environment origin (run >>= next) (first >>= second) := by
  intro machine meanings same
  have early := start machine meanings same
  obtain ⟨ended, plots⟩ := first
  apply bind_elim (Follows environment origin machine · (⟨ended, plots⟩ >>= second))
  · intro stop after stopped
    rw [stopped] at early
    obtain rfl : ended = .error stop := early.result.symm
    exact ⟨rfl, early.events, early.meanings, early.origin⟩
  · intro value after finished
    rw [finished] at early
    obtain rfl : ended = .ok value := early.result.symm
    have late := rest value after early.meanings early.origin
    refine ⟨late.result, ?_, late.meanings, late.origin⟩
    rw [late.events, early.events, List.append_assoc]
    exact congrArg _ (List.map_append ..).symm

theorem Simulates.mapM {run : α → Run β} {yield : α → Yield β}
    (each : ∀ item, Simulates environment origin (run item) (yield item)) (items : List α) :
    Simulates environment origin (items.mapM run) (items.mapM yield) := by
  induction items with
  | nil => exact simulates_pure []
  | cons item rest ih =>
    rw [List.mapM_cons, List.mapM_cons]
    exact (each item).bind fun value => ih.bind fun values => simulates_pure _

theorem Simulates.adjusting {run : Run Value} {yield : Yield Value} {change : Machine → Failure → Failure}
    {known : Failure → Failure} (start : Simulates environment origin run yield)
    (agree : ∀ machine failure, machine.origin = origin → change machine failure = known failure) :
    Simulates environment origin (adjusting change run) (yield.adjusting known) := by
  intro machine meanings same
  have early := start machine meanings same
  obtain ⟨ended, plots⟩ := yield
  rcases here : run machine with ⟨result, after⟩
  rw [here] at early
  obtain rfl : result = ended := early.result
  unfold Run.adjusting Yield.adjusting
  rw [here]
  match result with
  | .ok value => exact early
  | .error .tooDeep => exact early
  | .error (.broken fault) => exact early
  | .error (.failed failure) =>
    refine ⟨?_, early.events, early.meanings, early.origin⟩
    simp only [agree after failure early.origin]

theorem lookup_simulates (name : String) :
    Simulates environment origin (lookup name) (pure (environment name)) := by
  intro machine meanings same
  have grown := (lookup_framed name machine).scopes
  subst meanings same
  refine ⟨?_, ?_, Grown.ofChain grown, (lookup_framed name machine).origin⟩
  · rw [lookup_eq]
    cases found : machine.scopes.get? name <;> simp [Environment.ofChain, found, pure, Yield.settled]
  · rw [lookup_eq]
    cases machine.scopes.get? name <;> simp [pure, Yield.settled]

/-- A body runs where its parameters are set, and the caller gets its own meanings back. -/
theorem entered_simulates {declaration : Declaration} {home : Origin} {arguments : List Value} {body : Run Value}
    {yield : Yield Value} {names : List String} (framed : ∀ machine, Framed names machine (body machine))
    (inside : Simulates (environment.updateAll (declaration.parameterNames.zip arguments)) home body yield) :
    Simulates environment origin (entered declaration home arguments body)
      (yield.adjusting fun failure => if home = origin then failure else failure.unsited) := by
  apply Simulates.adjusting
  · intro machine meanings same
    let frame : Frame Value := Frame.empty.defineAll (declaration.parameterNames.zip arguments)
    have back : Still machine (within frame home body machine).2 := within_quiet framed machine
    have parameters : Environment.ofChain (machine.scopes.enter frame) =
        environment.updateAll (declaration.parameterNames.zip arguments) := by
      rw [← meanings]
      exact ofChain_enter machine.scopes _
    have followed := inside { machine with scopes := machine.scopes.enter frame, origin := home } parameters rfl
    exact ⟨followed.result, followed.events, back.scopes ▸ meanings, same⟩
  · intro machine failure same
    rw [same]

theorem emit_simulates (points : List (Point Float)) :
    Simulates environment origin (emit (.plotted points)) (Yield.plot points) :=
  fun _ meanings same => ⟨rfl, Array.toList_push, meanings, same⟩

theorem plotted_simulates {subject : Value} {apply : Function → List Value → Run Value}
    {yield : Function → List Value → Yield Value}
    (each : ∀ function arguments, Simulates environment origin (apply function arguments) (yield function arguments)) :
    Simulates environment origin (plotted renderer subject apply) (yieldOfPlot renderer subject yield) := by
  cases subject with
  | function function =>
    unfold plotted yieldOfPlot
    dsimp only
    split
    · apply Simulates.bind
      · apply Simulates.mapM
        intro x
        exact (each function [.number x]).bind fun y => simulates_pure _
      · intro points
        cases renderer with
        | none => exact simulates_pure _
        | some draw =>
          apply (emit_simulates points).bind
          intro _
          cases draw points with
          | ok _ => exact simulates_pure _
          | error fault => exact simulates_throw _
    · exact simulates_settled _
  | number x => exact simulates_settled _
  | list items => exact simulates_settled _
  | unbound name => exact simulates_settled _

theorem called_simulates {expr callee : Expr} {target : Value} {arguments : List Value}
    {apply : Function → List Value → Run Value} {yield : Function → List Value → Yield Value}
    (each : ∀ function arguments, Simulates environment origin (apply function arguments) (yield function arguments)) :
    Simulates environment origin (called expr callee target arguments apply)
      (yieldOfCall expr callee target arguments yield) := by
  cases target with
  | function function =>
    unfold called yieldOfCall
    dsimp only
    split
    · exact (each function arguments).adjusting fun _ _ _ => rfl
    · exact simulates_settled _
  | number x => exact simulates_settled _
  | list items => exact simulates_settled _
  | unbound name => exact simulates_settled _

theorem apply_simulates_succ {depth : Nat}
    (evaluates : ∀ environment origin expr,
      Simulates environment origin (Expr.evaluate renderer depth expr) (expr.yield renderer depth environment origin))
    (applies : ∀ environment origin function arguments,
      Simulates environment origin (Function.apply renderer depth function arguments)
        (function.yield renderer depth environment origin arguments))
    (environment : Environment) (origin : Origin) (function : Function) (arguments : List Value) :
    Simulates environment origin (Function.apply renderer (depth + 1) function arguments)
      (function.yield renderer (depth + 1) environment origin arguments) := by
  cases function with
  | declared declaration home =>
    exact entered_simulates (evaluate_framed renderer depth declaration.body) (evaluates _ home declaration.body)
  | builtin which =>
    match which, arguments with
    | .pi, [] => exact simulates_pure _
    | .sin, [argument] => exact simulates_settled _
    | .factors, [argument] => exact simulates_settled _
    | .plot, [subject] => exact plotted_simulates (applies environment origin)
    | .pi, _ :: _ | .sin, [] | .factors, [] | .plot, [] => exact simulates_throw _
    | .sin, _ :: _ :: _ | .factors, _ :: _ :: _ | .plot, _ :: _ :: _ => exact simulates_throw _

theorem evaluate_simulates_succ {depth : Nat}
    (evaluates : ∀ environment origin expr,
      Simulates environment origin (Expr.evaluate renderer depth expr) (expr.yield renderer depth environment origin))
    (applies : ∀ environment origin function arguments,
      Simulates environment origin (Function.apply renderer depth function arguments)
        (function.yield renderer depth environment origin arguments))
    (environment : Environment) (origin : Origin) (expr : Expr) :
    Simulates environment origin (Expr.evaluate renderer (depth + 1) expr)
      (expr.yield renderer (depth + 1) environment origin) := by
  cases expr with
  | literal token => exact simulates_settled _
  | symbol name => exact lookup_simulates name.lexeme
  | grouping inner => exact evaluates environment origin inner
  | unary operator operand => exact (evaluates environment origin operand).bind fun value => simulates_settled _
  | binary left operator right =>
    exact (evaluates environment origin left).bind fun a =>
      (evaluates environment origin right).bind fun b => simulates_settled _
  | call callee arguments closing =>
    exact (evaluates environment origin callee).bind fun target =>
      (Simulates.mapM (evaluates environment origin) arguments).bind fun values =>
        called_simulates (applies environment origin)

theorem both_simulate (renderer : Option Renderer) (depth : Nat) :
    (∀ environment origin expr,
      Simulates environment origin (Expr.evaluate renderer depth expr) (expr.yield renderer depth environment origin)) ∧
    ∀ environment origin function arguments,
      Simulates environment origin (Function.apply renderer depth function arguments)
        (function.yield renderer depth environment origin arguments) := by
  induction depth with
  | zero => exact ⟨fun _ _ _ => simulates_throw _, fun _ _ _ _ => simulates_throw _⟩
  | succ depth ih => exact ⟨evaluate_simulates_succ ih.1 ih.2, apply_simulates_succ ih.1 ih.2⟩

/-- What one machine has over another is a listing of free symbols at most. -/
structure Agree (machine other : Machine) : Prop where
  meanings : Environment.ofChain machine.scopes = Environment.ofChain other.scopes
  origin : machine.origin = other.origin
  events : machine.events = other.events

def Respects (run : Run α) : Prop :=
  ∀ machine other, Agree machine other → (run machine).1 = (run other).1 ∧ Agree (run machine).2 (run other).2

theorem respects_pure (value : α) : Respects (pure value : Run α) := fun _ _ agree => ⟨rfl, agree⟩

theorem respects_emit (event : Event) : Respects (emit event) :=
  fun _ _ agree => ⟨rfl, agree.meanings, agree.origin, congrArg (·.push event) agree.events⟩

theorem respects_define (name : String) (value : Value) : Respects (define name value) := by
  intro machine other agree
  refine ⟨rfl, ?_, agree.origin, agree.events⟩
  change Environment.ofChain (machine.scopes.define name value) = Environment.ofChain (other.scopes.define name value)
  rw [ofChain_define, ofChain_define, agree.meanings]

theorem Respects.bind {run : Run α} {next : α → Run β} (first : Respects run) (rest : ∀ value, Respects (next value)) :
    Respects (run >>= next) := by
  intro machine other agree
  obtain ⟨result, states⟩ := first machine other agree
  rw [run_bind, run_bind]
  rcases here : run machine with ⟨ended, after⟩
  rcases there : run other with ⟨_, opposite⟩
  rw [here, there] at result states
  obtain rfl : ended = _ := result
  cases ended with
  | error stop => exact ⟨rfl, states⟩
  | ok value => exact rest value after opposite states

theorem evaluate_respects (renderer : Option Renderer) (depth : Nat) (expr : Expr) :
    Respects (expr.evaluate renderer depth) := by
  intro machine other agree
  have here := (both_simulate renderer depth).1 _ _ expr machine agree.meanings agree.origin
  have there := (both_simulate renderer depth).1 _ _ expr other rfl rfl
  refine ⟨here.result.trans there.result.symm, here.meanings.trans there.meanings.symm,
    here.origin.trans there.origin.symm, ?_⟩
  apply Array.toList_inj.mp
  rw [here.events, there.events, agree.events]

theorem execute_respects (renderer : Option Renderer) (depth : Nat) (statement : Statement) :
    Respects (statement.execute renderer depth) := by
  cases statement with
  | expression expr => exact evaluate_respects renderer depth expr
  | print keyword expr =>
    exact (evaluate_respects renderer depth expr).bind fun value => (respects_emit _).bind fun _ => respects_pure _
  | assign name expr =>
    exact (evaluate_respects renderer depth expr).bind fun value => (respects_define _ value).bind fun _ => respects_pure _
  | declare declaration =>
    intro machine other agree
    have defined := respects_define declaration.name.lexeme (.function (.declared declaration other.origin))
    have same := agree.origin
    obtain ⟨scopes, origin, events⟩ := machine
    cases same
    exact ⟨rfl, (defined _ other agree).2⟩

theorem interpret_respects (renderer : Option Renderer) (depth : Nat) (statements : List Statement) :
    Respects (interpret renderer depth statements) := by
  induction statements using List.reverseRecOn with
  | nil => exact respects_pure _
  | append_singleton done statement ih =>
    rw [interpret_snoc]
    exact ih.bind fun _ => execute_respects renderer depth statement

theorem evaluate_alike {session other : Session} (alike : session.Alike other) (host : Host) (text : String) :
    (session.evaluate host text).1 = (other.evaluate host text).1 ∧
      (session.evaluate host text).2.Alike (other.evaluate host text).2 := by
  cases read : Grammar.ofText host.depth text.toList with
  | error stop =>
    rw [evaluate_unread read, evaluate_unread read]
    exact ⟨rfl, alike⟩
  | ok statements =>
    have agree : Agree session.machine other.machine := ⟨alike.meanings, congrArg some alike.batches, rfl⟩
    obtain ⟨result, states⟩ := interpret_respects host.renderer host.depth statements _ _ agree
    rcases here : interpret host.renderer host.depth statements session.machine with ⟨ended, after⟩
    rcases there : interpret host.renderer host.depth statements other.machine with ⟨_, opposite⟩
    rw [here, there] at result states
    obtain rfl : ended = _ := result
    rw [evaluate_read read here, evaluate_read read there]
    exact ⟨by rw [states.events], states.meanings, states.origin, congrArg (· + 1) alike.batches⟩

theorem evaluateAll_alike (host : Host) (texts : List String) {session other : Session} (alike : session.Alike other) :
    (session.evaluateAll host texts).map Prod.fst = (other.evaluateAll host texts).map Prod.fst := by
  induction texts generalizing session other with
  | nil => rfl
  | cons text rest ih =>
    obtain ⟨same, after⟩ := evaluate_alike alike host text
    simp only [Session.evaluateAll, List.map_cons, same, ih after]

/-- Evaluation on a machine is evaluation in the environment that its scopes make. So free
symbols show nowhere but in the list of names: neither those that evaluation adds, nor those
that a statement leaves behind when it stops, nor those that one session has and another lacks. -/
theorem evaluate_refines_yield (host : Host) :
    (∀ depth expr (machine : Machine),
      let yield := Expr.yield host.renderer depth (.ofChain machine.scopes) machine.origin expr
      (expr.evaluate host.renderer depth machine).1 = yield.result ∧
      (expr.evaluate host.renderer depth machine).2.events.toList =
        machine.events.toList ++ yield.plots.map .plotted) ∧
    (∀ expr (session : Session), (session.evaluateExpr host expr).2.Alike session) ∧
    (∀ depth (statement : Statement) (machine after : Machine) stop,
      statement.execute host.renderer depth machine = (.error stop, after) →
        Environment.ofChain after.scopes = Environment.ofChain machine.scopes) ∧
    ∀ session other : Session, session.Alike other → ∀ texts,
      (session.evaluateAll host texts).map Prod.fst = (other.evaluateAll host texts).map Prod.fst := by
  refine ⟨?_, ?_, ?_, ?_⟩
  · intro depth expr machine
    have followed := (both_simulate host.renderer depth).1 _ _ expr machine rfl rfl
    exact ⟨followed.result, followed.events⟩
  · intro expr session
    have framed := evaluate_framed host.renderer host.depth expr ⟨session.scopes, session.origin, #[]⟩
    exact ⟨Grown.ofChain framed.scopes, framed.origin, rfl⟩
  · intro depth statement machine after stop ended
    exact Grown.ofChain (execute_stopped ended).1
  · intro session other alike texts
    exact evaluateAll_alike host texts alike

theorem evaluate_refines_yield_listed :
    let host : Host := { renderer := some .accepting }
    let listed : Session := { Session.start with scopes := Session.start.scopes.define "x" (.unbound "x") }
    Session.start.Alike listed ∧
      (Session.start.evaluateAll host ["f(y) = x + y", "plot(f)"]).map Prod.fst =
        (listed.evaluateAll host ["f(y) = x + y", "plot(f)"]).map Prod.fst := by
  intro host listed
  have missing : Session.start.scopes.get? "x" = none := by decide
  have alike : Session.start.Alike listed := by
    refine ⟨?_, rfl, rfl⟩
    funext name
    rw [ofChain_define, Environment.update]
    split
    next same => simp [same, Environment.ofChain, missing]
    next => rfl
  exact ⟨alike, (evaluate_refines_yield host).2.2.2 Session.start listed alike ["f(y) = x + y", "plot(f)"]⟩

end Proofs.PureEvaluation

end Reckoner
