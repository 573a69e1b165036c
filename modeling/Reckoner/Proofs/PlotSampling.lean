import Reckoner.Proofs.FailureTrace
import Reckoner.Proofs.PureEvaluation

/-! How `plot` samples its subject. The samples run one after the other on one machine, but a
call leaves no traces in the scopes, so each comes to what it would come to alone. If all of
them come to values, the renderer gets all points at once; if not, the first failure is the
failure of the plot, and the renderer gets nothing. -/

namespace Reckoner

/-- A call of `plot` with a function of one parameter, and the machine just before the plot:
everything in front of it and between its parentheses has been evaluated. -/
inductive Expr.Plots (renderer : Option Renderer) (depth : Nat) : Expr → Machine → Function → Machine → Prop
  | call {callee argument : Expr} {closing : Token} {start middle machine : Machine} {subject : Function}
      (head : callee.evaluate renderer depth start = (.ok (.function (.builtin .plot)), middle))
      (inner : argument.evaluate renderer depth middle = (.ok (.function subject), machine))
      (unary : subject.arity = 1) :
    Plots renderer depth (.call callee [argument] closing) start subject machine

/-- What a function comes to at an abscissa, when it is called on the given machine. -/
def Function.at (renderer : Option Renderer) (depth : Nat) (machine : Machine) (function : Function) (x : Float) :
    Except Stop Value × Machine :=
  function.apply renderer depth [.number x] machine

/-- What a call at an abscissa shows: the plots it makes itself. -/
def Function.shows (renderer : Option Renderer) (depth : Nat) (machine : Machine) (function : Function) (x : Float) :
    List Event :=
  (function.at renderer depth machine x).2.events.toList.drop machine.events.size

/-- The point of a sample. An ordinate that is no number counts as zero. -/
def Function.point (renderer : Option Renderer) (depth : Nat) (machine : Machine) (function : Function) (x : Float) :
    Point Float :=
  match (function.at renderer depth machine x).1 with
  | .ok (.number y) => ⟨x, y⟩
  | _ => ⟨x, 0⟩

/-- The stop without the site of its failure, if it is one. -/
def Stop.unsited : Stop → Stop
  | .failed failure => .failed failure.unsited
  | other => other

/-- Runs what a call comes down to, and blames the call for a failure that nobody else is blamed for. -/
def Expr.blaming (expr : Expr) (body : Run Value) : Run Value :=
  Run.adjusting (fun _ failure => failure.blame (some expr.span)) body

/-- What the renderer gets to see of the points. -/
def handed (renderer : Option Renderer) (points : List (Point Float)) : List Event :=
  match renderer with
  | none => []
  | some _ => [.plotted points]

/-- What a plot comes to: zero, unless the renderer breaks down on the points. -/
def answered (renderer : Option Renderer) (points : List (Point Float)) : Except Stop Value :=
  match renderer with
  | none => .ok (.number 0)
  | some draw =>
    match draw points with
    | .ok _ => .ok (.number 0)
    | .error fault => .error (.broken fault)

/-- A plot of samples that all come to values. What the samples show comes first, in their order;
then the renderer gets all the points. -/
structure DrawnAtOnce (renderer : Option Renderer) (depth : Nat) (machine : Machine) (subject : Function)
    (ended : Except Stop Value × Machine) : Prop where
  events : ended.2.events.toList =
    machine.events.toList ++ plotDomain.flatMap (subject.shows renderer depth machine) ++
      handed renderer (plotDomain.map (subject.point renderer depth machine))
  result : ended.1 = answered renderer (plotDomain.map (subject.point renderer depth machine))

/-- A plot whose sample at some abscissa is the first that stops. The plot stops for the same
reason, and shows what the samples up to there show. It does not matter what the subject
would do at later abscissas. -/
structure BrokenOff (renderer : Option Renderer) (depth : Nat) (machine : Machine) (subject : Function) (expr : Expr)
    (ended : Except Stop Value × Machine) (before : List Float) (x : Float) (behind : List Float) (stop : Stop) : Prop where
  domain : plotDomain = before ++ x :: behind
  earlier : ∀ y ∈ before, ∃ value, (subject.at renderer depth machine y).1 = .ok value
  stops : (subject.at renderer depth machine x).1 = .error stop
  result : ∃ told, ended.1 = .error told ∧ told.unsited = stop.unsited
  events : ended.2.events.toList =
    machine.events.toList ++ (before ++ [x]).flatMap (subject.shows renderer depth machine)
  unsampled : ∀ apply : Function → List Value → Run Value,
    (∀ y ∈ before ++ [x], apply subject [.number y] = subject.apply renderer depth [.number y]) →
    expr.blaming (plotted renderer (.function subject) apply) machine = ended

namespace Proofs.PlotSampling
open Run EvaluationFrame PureEvaluation FailureTrace

variable {renderer : Option Renderer} {depth : Nat} {function : Function} {machine : Machine}

/-- A call comes to the same and shows the same on every machine that differs in its events only. -/
theorem apply_independent {middle : Machine} (still : Still machine middle) (x : Float) :
    ∃ after, function.apply renderer depth [.number x] middle = ((function.at renderer depth machine x).1, after) ∧
      Still machine after ∧ after.events.toList = middle.events.toList ++ function.shows renderer depth machine x := by
  have here := (both_simulate renderer depth).2 _ _ function [.number x] machine rfl rfl
  have there := (both_simulate renderer depth).2 _ _ function [.number x] middle
    (congrArg Environment.ofChain still.scopes) still.origin
  refine ⟨(function.apply renderer depth [.number x] middle).2, Prod.ext (there.result.trans here.result.symm) rfl,
    still.trans (apply_quiet renderer depth function [.number x] middle), there.events.trans ?_⟩
  have size : machine.events.size = machine.events.toList.length := rfl
  rw [Function.shows, Function.at, here.events, size, List.drop_left]

theorem sample_point {x : Float} {value : Value} (sampled : (function.at renderer depth machine x).1 = .ok value) :
    (⟨x, value.ordinate⟩ : Point Float) = function.point renderer depth machine x := by
  rw [Function.point, sampled]
  cases value <;> rfl

/-- Samples that come to values make points one after the other, and show what each of them
shows alone. Nothing but the sampled calls matters. -/
theorem samples_run {xs : List Float} {middle : Machine} (still : Still machine middle)
    (values : ∀ x ∈ xs, ∃ value, (function.at renderer depth machine x).1 = .ok value) :
    ∃ after, Still machine after ∧
      after.events.toList = middle.events.toList ++ xs.flatMap (function.shows renderer depth machine) ∧
      ∀ apply : Function → List Value → Run Value,
        (∀ x ∈ xs, apply function [.number x] = function.apply renderer depth [.number x]) →
        xs.mapM (sample apply function) middle = (.ok (xs.map (function.point renderer depth machine)), after) := by
  induction xs generalizing middle with
  | nil => exact ⟨middle, still, by simp, fun _ _ => rfl⟩
  | cons x rest ih =>
    obtain ⟨value, sampled⟩ := values x List.mem_cons_self
    obtain ⟨later, called, calm, shown⟩ := @apply_independent renderer depth function _ _ still x
    obtain ⟨after, quiet, more, others⟩ := ih calm fun y member => values y (List.mem_cons_of_mem _ member)
    refine ⟨after, quiet, by rw [more, shown, List.flatMap_cons, List.append_assoc], ?_⟩
    intro apply same
    rw [sampled, ← same x List.mem_cons_self] at called
    have first : sample apply function x middle = (.ok (function.point renderer depth machine x), later) := by
      rw [sample, bind_continues called, ← sample_point sampled]
      rfl
    rw [List.mapM_cons, bind_continues first,
      bind_continues (others apply fun y member => same y (List.mem_cons_of_mem _ member))]
    rfl

theorem plotted_eq (unary : function.arity = 1) (apply : Function → List Value → Run Value) :
    plotted renderer (.function function) apply = (plotDomain.mapM (sample apply function) >>= fun points =>
      match renderer with
      | none => return .nothing
      | some draw => do
        emit (.plotted points)
        match draw points with
        | .ok _ => return .nothing
        | .error fault => throw (.broken fault)) := by
  rw [plotted, if_pos unary]
  rfl

theorem plotted_drawn (unary : function.arity = 1)
    (values : ∀ x ∈ plotDomain, ∃ value, (function.at renderer depth machine x).1 = .ok value) :
    DrawnAtOnce renderer depth machine function
      (plotted renderer (.function function) (Function.apply renderer depth) machine) := by
  obtain ⟨after, still, shown, run⟩ := samples_run (.refl machine) values
  rw [plotted_eq unary, bind_continues (run _ fun _ _ => rfl)]
  cases renderer with
  | none => exact ⟨shown.trans (List.append_nil _).symm, rfl⟩
  | some draw =>
    have emitted : (after.events.push (.plotted (plotDomain.map (function.point (some draw) depth machine)))).toList =
        machine.events.toList ++ plotDomain.flatMap (function.shows (some draw) depth machine) ++
          [.plotted (plotDomain.map (function.point (some draw) depth machine))] := by
      rw [Array.toList_push, shown]
    dsimp only
    cases drawn : draw (plotDomain.map (function.point (some draw) depth machine)) with
    | ok _ => exact ⟨emitted, by simp only [answered, drawn]; rfl⟩
    | error fault => exact ⟨emitted, by simp only [answered, drawn]; rfl⟩

/-- The samples up to the first that stops are all that a plot asks of its subject. -/
theorem plotted_stops {before behind : List Float} {x : Float} {stop : Stop} (unary : function.arity = 1)
    (domain : plotDomain = before ++ x :: behind)
    (earlier : ∀ y ∈ before, ∃ value, (function.at renderer depth machine y).1 = .ok value)
    (stops : (function.at renderer depth machine x).1 = .error stop) :
    ∃ after, after.events.toList =
        machine.events.toList ++ (before ++ [x]).flatMap (function.shows renderer depth machine) ∧
      ∀ apply : Function → List Value → Run Value,
        (∀ y ∈ before ++ [x], apply function [.number y] = function.apply renderer depth [.number y]) →
        plotted renderer (.function function) apply machine = (.error stop, after) := by
  obtain ⟨middle, still, shown, run⟩ := samples_run (.refl machine) earlier
  obtain ⟨after, called, -, more⟩ := @apply_independent renderer depth function _ _ still x
  refine ⟨after, by simp [more, shown], fun apply same => ?_⟩
  rw [stops, ← same x (by simp)] at called
  have samples := run apply fun y member => same y (List.mem_append_left _ member)
  rw [plotted_eq unary, domain]
  exact bind_stops (mapM_stops samples (bind_stops called _)) _

theorem first_stop (stopped : ∃ x ∈ plotDomain, ∃ stop, (function.at renderer depth machine x).1 = .error stop) :
    ∃ before x behind stop, plotDomain = before ++ x :: behind ∧
      (∀ y ∈ before, ∃ value, (function.at renderer depth machine y).1 = .ok value) ∧
      (function.at renderer depth machine x).1 = .error stop := by
  let fails (x : Float) : Bool := !(function.at renderer depth machine x).1.isOk
  have found : (plotDomain.find? fails).isSome := by
    obtain ⟨x, member, stop, stops⟩ := stopped
    refine List.find?_isSome.mpr ⟨x, member, ?_⟩
    simp only [fails, stops]
    rfl
  obtain ⟨x, first⟩ := Option.isSome_iff_exists.mp found
  obtain ⟨failed, before, behind, domain, earlier⟩ := List.find?_eq_some_iff_append.mp first
  cases stops : (function.at renderer depth machine x).1 with
  | ok value => simp [fails, stops, Except.isOk, Except.toBool] at failed
  | error stop =>
    refine ⟨before, x, behind, stop, domain, fun y member => ?_, stops⟩
    have fine := earlier y member
    cases sampled : (function.at renderer depth machine y).1 with
    | ok value => exact ⟨value, rfl⟩
    | error stop => simp [fails, sampled, Except.isOk, Except.toBool] at fine

/-- A call of `plot` is nothing but the plot, apart from the blame. -/
theorem plots_eq {expr : Expr} {start : Machine} (plots : expr.Plots renderer (depth + 1) start function machine) :
    expr.evaluate renderer (depth + 2) start =
      expr.blaming (plotted renderer (.function function) (Function.apply renderer depth)) machine := by
  cases plots with
  | @call callee argument closing _ middle _ _ head inner unary =>
    have arguments : [argument].mapM (Expr.evaluate renderer (depth + 1)) middle = (.ok [.function function], machine) := by
      rw [List.mapM_cons, bind_continues inner]
      rfl
    rw [evaluate_call, bind_continues head, bind_continues arguments]
    rfl

theorem blaming_stops {expr : Expr} {run : Run Value} {stop : Stop} {after : Machine}
    (stopped : run machine = (.error stop, after)) :
    ∃ told, expr.blaming run machine = (.error told, after) ∧ told.unsited = stop.unsited := by
  rw [Expr.blaming, adjusting, stopped]
  cases stop with
  | failed failure =>
    refine ⟨_, rfl, ?_⟩
    unfold Failure.blame
    split <;> rfl
  | tooDeep | broken => exact ⟨_, rfl, rfl⟩

theorem answered_unfailed (points : List (Point Float)) (failure : Failure) :
    answered renderer points ≠ .error (.failed failure) := by
  unfold answered
  split
  · exact nofun
  · split <;> exact nofun

theorem blaming_drawn {expr : Expr} {run : Run Value} (drawn : DrawnAtOnce renderer depth machine function (run machine)) :
    DrawnAtOnce renderer depth machine function (expr.blaming run machine) := by
  have same : expr.blaming run machine = run machine := by
    rw [Expr.blaming, adjusting]
    split
    next failure after ended => exact absurd (drawn.result.symm.trans (by rw [ended])) (answered_unfailed _ failure)
    · rfl
  rw [same]
  exact drawn

/-- A plot leaves the scopes as they are. If every sample comes to a value when it is taken alone,
the plot draws all of them at once and comes to zero; if not, the first that stops alone stops
the plot, and nothing is drawn. -/
theorem plot_samples_alone {expr : Expr} {start : Machine} {subject : Function}
    (plots : expr.Plots renderer (depth + 1) start subject machine) :
    plotDomain = [-10, -9, -8, -7, -6, -5, -4, -3, -2, -1, 0, 1, 2, 3, 4, 5, 6, 7, 8, 9] ∧
    Still machine (expr.evaluate renderer (depth + 2) start).2 ∧
    ((∀ x ∈ plotDomain, ∃ value, (subject.at renderer depth machine x).1 = .ok value) →
      DrawnAtOnce renderer depth machine subject (expr.evaluate renderer (depth + 2) start)) ∧
    ((∃ x ∈ plotDomain, ∃ stop, (subject.at renderer depth machine x).1 = .error stop) →
      ∃ before x behind stop, BrokenOff renderer depth machine subject expr
        (expr.evaluate renderer (depth + 2) start) before x behind stop) := by
  have unary : subject.arity = 1 := by
    cases plots with
    | call head inner unary => exact unary
  rw [plots_eq plots]
  refine ⟨rfl, ?_, fun values => blaming_drawn (plotted_drawn unary values), fun stopped => ?_⟩
  · exact (plotted_quiet (apply_quiet renderer depth)).adjusting _ machine
  · obtain ⟨before, x, behind, stop, domain, earlier, stops⟩ := first_stop stopped
    obtain ⟨after, shown, run⟩ := plotted_stops unary domain earlier stops
    have ended := run _ fun _ _ => rfl
    obtain ⟨told, blamed, same⟩ := @blaming_stops _ expr _ _ _ ended
    refine ⟨before, x, behind, stop, domain, earlier, stops, ⟨told, by rw [blamed], same⟩, by rw [blamed]; exact shown, ?_⟩
    intro apply agree
    simp only [Expr.blaming, adjusting, ended, run apply agree]

/-- The function of the text `f(x) = y`. -/
def symbolic : Function :=
  .declared ⟨⟨.name, "f", none, 1, ⟨0, 1⟩⟩, [⟨.name, "x", none, 1, ⟨2, 3⟩⟩], .symbol ⟨.name, "y", none, 1, ⟨7, 8⟩⟩⟩ (some 0)

/-- The expression of the text `plot(f)`. -/
def symbolPlotted : Expr :=
  .call (.symbol ⟨.name, "plot", none, 1, ⟨0, 4⟩⟩) [.symbol ⟨.name, "f", none, 1, ⟨5, 6⟩⟩]
    ⟨.mark .closing, ")", none, 1, ⟨6, 7⟩⟩

def symbolPlotter : Machine := ⟨.single (Machine.preamble.define "f" (.function symbolic)), some 1, #[]⟩

-- Every sample looks up a free symbol, which leaves no trace in any scope and counts as zero.
theorem plot_samples_alone_symbolic :
    symbolPlotted.Plots (some .accepting) 5 symbolPlotter symbolic symbolPlotter ∧
      (∀ x ∈ plotDomain, ∃ value, (symbolic.at (some .accepting) 4 symbolPlotter x).1 = .ok value) ∧
      (symbolPlotted.evaluate (some .accepting) 6 symbolPlotter).1 = .ok (.number 0) ∧
      (symbolPlotted.evaluate (some .accepting) 6 symbolPlotter).2.scopes = symbolPlotter.scopes ∧
      (symbolPlotted.evaluate (some .accepting) 6 symbolPlotter).2.events.toList =
        [.plotted (plotDomain.map fun x => ⟨x, 0⟩)] := by
  have plots : symbolPlotted.Plots (some .accepting) 5 symbolPlotter symbolic symbolPlotter := .call rfl rfl rfl
  have values : ∀ x ∈ plotDomain, ∃ value, (symbolic.at (some .accepting) 4 symbolPlotter x).1 = .ok value :=
    fun _ _ => ⟨.unbound "y", rfl⟩
  have alone := plot_samples_alone plots
  have drawn : DrawnAtOnce (some .accepting) 4 symbolPlotter symbolic
    (symbolPlotted.evaluate (some .accepting) 6 symbolPlotter) := alone.2.2.1 values
  have silent : symbolic.shows (some .accepting) 4 symbolPlotter = fun _ => [] := rfl
  have points : symbolic.point (some .accepting) 4 symbolPlotter = fun x => ⟨x, 0⟩ := rfl
  have still : Still symbolPlotter (symbolPlotted.evaluate (some .accepting) 6 symbolPlotter).2 := alone.2.1
  have events := drawn.events
  rw [silent, points] at events
  exact ⟨plots, values, drawn.result, still.scopes, events⟩

end Proofs.PlotSampling

end Reckoner
