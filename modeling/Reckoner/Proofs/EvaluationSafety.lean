import Reckoner.Proofs.FailureSites
import Reckoner.Proofs.PartialOperations
import Reckoner.Proofs.TokenLexemes

/-! Evaluation does not go wrong from within. Scanned numbers have values and the grammar
makes no operators but those with a meaning, and functions are only applied to as many
arguments as they take. What is left to break an evaluation is its renderer, and then the
last thing that the evaluation did was to draw. -/

namespace Reckoner

/-- Whether a node says what it is to be evaluated to: literals their value, operators
their operation. -/
def Expr.Sound : Expr → Prop
  | .literal token => ∃ x, token.literal = some x
  | .binary _ operator _ => ∃ operation, operator.kind.operator? = some operation
  | .unary operator _ => operator.kind = .mark .minus
  | .symbol _ | .grouping _ | .call .. => True

def Expr.Meaningful (expr : Expr) : Prop := ∀ node ∈ expr.nodes, node.Sound

mutual

/-- Evaluation with an answer of its own for functions applied to a wrong number of arguments. -/
def Expr.evaluateWith (mismatch : Function → List Value → Run Value) (renderer : Option Renderer) : Nat → Expr → Run Value
  | 0, _ => throw .tooDeep
  | depth + 1, expr =>
    match expr with
    | .literal token => Run.settled (literalValue token)
    | .symbol name => Run.lookup name.lexeme
    | .grouping inner => Expr.evaluateWith mismatch renderer depth inner
    | .unary operator operand => do
      let value ← Expr.evaluateWith mismatch renderer depth operand
      Run.settled (negated expr operator value)
    | .binary left operator right => do
      let a ← Expr.evaluateWith mismatch renderer depth left
      let b ← Expr.evaluateWith mismatch renderer depth right
      Run.settled (combined left right operator a b)
    | .call callee arguments _ => do
      let target ← Expr.evaluateWith mismatch renderer depth callee
      let values ← arguments.mapM (Expr.evaluateWith mismatch renderer depth)
      called expr callee target values (Function.applyWith mismatch renderer depth)

def Function.applyWith (mismatch : Function → List Value → Run Value) (renderer : Option Renderer) :
    Nat → Function → List Value → Run Value
  | 0, _, _ => throw .tooDeep
  | depth + 1, function, arguments =>
    if arguments.length = function.arity then
      match function, arguments with
      | .declared declaration origin, _ =>
        entered declaration origin arguments (Expr.evaluateWith mismatch renderer depth declaration.body)
      | .builtin .pi, [] => return .number circleRatio
      | .builtin .sin, [argument] => Run.settled (sine argument)
      | .builtin .factors, [argument] => Run.settled (factors argument)
      | .builtin .plot, [subject] => plotted renderer subject (Function.applyWith mismatch renderer depth)
      | .builtin _, _ => throw (.broken .malformed)
    else mismatch function arguments

end

namespace Proofs.EvaluationSafety
open Run Grammar GrammarPhrases EvaluationFrame BatchExecution PureEvaluation FunctionOrigins TokenSpans

section Reading

def Valued (token : Token) : Prop := token.kind = .number → ∃ x, token.literal = some x

theorem sum_operator {kind : Kind} (sign : isSum kind) : ∃ operation, kind.operator? = some operation := by
  simp only [isSum, Bool.or_eq_true, beq_iff_eq] at sign
  rcases sign with rfl | rfl
  · exact ⟨_, rfl⟩
  · exact ⟨_, rfl⟩

theorem product_operator {kind : Kind} (sign : isProduct kind) : ∃ operation, kind.operator? = some operation := by
  simp only [isProduct, Bool.or_eq_true, beq_iff_eq] at sign
  rcases sign with rfl | rfl
  · exact ⟨_, rfl⟩
  · exact ⟨_, rfl⟩

theorem meaningful_binary {left right : Expr} {operator : Token}
    (operation : ∃ operation, operator.kind.operator? = some operation) (first : left.Meaningful)
    (second : right.Meaningful) : (Expr.binary left operator right).Meaningful := by
  intro node member
  rw [Expr.nodes, List.mem_cons, List.mem_append] at member
  rcases member with rfl | inside | inside
  · exact operation
  · exact first node inside
  · exact second node inside

theorem meaningful_call {callee : Expr} {arguments : List Expr} {closing : Token} (head : callee.Meaningful)
    (rest : ∀ argument ∈ arguments, argument.Meaningful) : (Expr.call callee arguments closing).Meaningful := by
  intro node member
  rw [Expr.nodes, List.mem_cons, List.mem_append, Expr.nodesAll_eq, List.mem_flatMap] at member
  rcases member with rfl | inside | ⟨argument, given, inside⟩
  · trivial
  · exact head node inside
  · exact rest argument given node inside

theorem meaningful_literal {token : Token} (valued : Valued token) (kind : token.kind = .number) :
    (Expr.literal token).Meaningful := by
  intro node member
  obtain rfl := List.mem_singleton.mp member
  exact valued kind

theorem spells_meaningful {phrase : Phrase} {tokens : List Token} {expr : Expr} (spelled : Spells phrase tokens expr)
    (valued : ∀ token ∈ tokens, Valued token) : expr.Meaningful := by
  induction spelled with
  | sum _ sign _ first second =>
    exact meaningful_binary (sum_operator sign) (first fun token member => valued token (by simp [member]))
      (second fun token member => valued token (by simp [member]))
  | product _ sign _ first second =>
    exact meaningful_binary (product_operator sign) (first fun token member => valued token (by simp [member]))
      (second fun token member => valued token (by simp [member]))
  | exponent _ sign _ first second =>
    exact meaningful_binary ⟨_, by rw [sign]; rfl⟩ (first fun token member => valued token (by simp [member]))
      (second fun token member => valued token (by simp [member]))
  | expression _ ih | factor _ ih | power _ ih | unary _ ih | call _ ih => exact ih valued
  | negation sign _ ih =>
    intro node member
    rw [Expr.nodes, List.mem_cons] at member
    rcases member with rfl | inside
    · exact sign
    · exact ih (fun token given => valued token (by simp [given])) node inside
  | scaled kind _ _ _ ih =>
    exact meaningful_binary ⟨_, rfl⟩ (meaningful_literal (valued _ List.mem_cons_self) kind)
      (ih fun token member => valued token (by simp [member]))
  | invoked _ _ _ _ ih =>
    exact meaningful_call (ih fun token member => valued token (by simp [member])) (by simp)
  | @applied front inside opening closing callee argument others _ _ _ _ _ _ _ head first rest =>
    refine meaningful_call (head fun token member => valued token (by simp [member])) ?_
    intro item member
    rcases List.mem_cons.mp member with rfl | later
    · exact first fun token given => valued token (by simp [given])
    · obtain ⟨other, given, rfl⟩ := List.mem_map.mp later
      refine rest other given fun token present => valued token ?_
      have further : token ∈ furtherTokens others := (further_sublist given).subset present
      simp [further]
  | literal kind => exact meaningful_literal (valued _ List.mem_cons_self) kind
  | symbol =>
    intro node member
    obtain rfl := List.mem_singleton.mp member
    trivial
  | grouping _ _ _ ih =>
    intro node member
    rw [Expr.nodes, List.mem_cons] at member
    rcases member with rfl | inside
    · trivial
    · exact ih (fun token given => valued token (by simp [given])) node inside

theorem statement_meaningful {tokens : List Token} {statement : Statement} (spelled : SpellsStatement tokens statement)
    (valued : ∀ token ∈ tokens, Valued token) : statement.expr.Meaningful := by
  cases spelled with
  | expression rest => exact spells_meaningful rest valued
  | print _ rest | assign _ _ rest | declare _ _ _ _ _ rest =>
    exact spells_meaningful rest fun token member => valued token (by simp [member])

theorem program_meaningful {tokens : List Token} {statements : List Statement} (spelled : SpellsProgram tokens statements)
    (valued : ∀ token ∈ tokens, Valued token) : ∀ statement ∈ statements, statement.expr.Meaningful := by
  induction spelled with
  | finish => simp
  | statement head _ ih =>
    intro statement member
    rcases List.mem_cons.mp member with rfl | later
    · exact statement_meaningful head fun token given => valued token (by simp [given])
    · exact ih (fun token given => valued token (by simp [given])) statement later

/-- Every number that is scanned has a value. -/
theorem scan_valued {text : List Char} {tokens : List Token} (scanned : Token.scan text = .ok tokens) :
    ∀ token ∈ tokens, Valued token := by
  obtain ⟨body, strung, rfl⟩ := TokenLexemes.scan_strung scanned
  intro token member number
  rcases List.mem_append.mp member with early | last
  · rcases TokenLexemes.mem_implyProducts early with given | ⟨_, _, _, rfl⟩
    · exact ⟨_, (strung.written given).literal.trans (by rw [Token.literalOf, if_pos number])⟩
    · cases number
  · obtain rfl := List.mem_singleton.mp last
    cases number

theorem ofText_meaningful {depth : Nat} {text : List Char} {statements : List Statement}
    (read : ofText depth text = .ok statements) : ∀ statement ∈ statements, statement.expr.Meaningful := by
  unfold ofText at read
  cases scanned : Token.scan text with
  | error failure => simp [scanned] at read
  | ok tokens =>
    simp only [scanned] at read
    have settles := GrammarReading.program_settles depth tokens 0 (Nat.zero_le _)
    rw [read] at settles
    obtain ⟨body, finish, rest, same, -, -, spelled⟩ := settles
    refine program_meaningful spelled fun token member => scan_valued scanned token ?_
    rw [show tokens = body ++ finish :: rest from same]
    exact List.mem_append_left _ member

/-- The scanner always leaves the end that the reader looks for. -/
theorem ofText_unbroken (depth : Nat) (text : List Char) (fault : Fault) : ofText depth text ≠ .error (.broken fault) := by
  intro unread
  unfold ofText at unread
  cases scanned : Token.scan text with
  | error failure => simp [scanned] at unread
  | ok tokens =>
    simp only [scanned] at unread
    have settles := GrammarReading.program_settles depth tokens 0 (Nat.zero_le _)
    rw [unread] at settles
    obtain ⟨body, -, same⟩ := TokenLexemes.scan_strung scanned
    have finish : .implied .finish (1 + Token.lineFeeds text) text.length ∈ tokens := by simp [same]
    exact settles _ finish rfl

end Reading

section Drawing

variable {α β : Type} {renderer : Option Renderer} {depth : Nat}

/-- A plot: one point for each place of the domain. -/
def Sampled (points : List (Point Float)) : Prop := points.map Point.x = plotDomain

/-- What a renderer made of a plot. -/
def Shown (renderer : Option Renderer) (points : List (Point Float)) (result : Except Fault Unit) : Prop :=
  Sampled points ∧ ∃ draw, renderer = some draw ∧ draw points = result

/-- An evaluation has drawn all its plots; only a plot that cannot be drawn breaks it, and
that is its last one. -/
inductive Draws (renderer : Option Renderer) : Yield α → Prop
  | calm {result : Except Stop α} {plots : List (List (Point Float))}
      (unbroken : ∀ fault, result ≠ .error (.broken fault))
      (drawn : ∀ points ∈ plots, Shown renderer points (.ok ())) : Draws renderer ⟨result, plots⟩
  | broken {earlier : List (List (Point Float))} {points : List (Point Float)} {fault : Fault}
      (drawn : ∀ points ∈ earlier, Shown renderer points (.ok ()))
      (breaks : Shown renderer points (.error fault)) : Draws renderer ⟨.error (.broken fault), earlier ++ [points]⟩

theorem draws_settled {result : Except Stop α} (unbroken : ∀ fault, result ≠ .error (.broken fault)) :
    Draws renderer (.settled result) :=
  .calm unbroken (by simp)

theorem draws_pure (value : α) : Draws renderer (pure value : Yield α) := draws_settled nofun

theorem draws_fail (cause : Failure.Cause) (site : Option Span) : Draws renderer (.settled (fail cause site)) :=
  draws_settled nofun

theorem Draws.bind {property : α → Prop} {yield : Yield α} {next : α → Yield β} (first : Draws renderer yield)
    (yields : Yields property yield) (rest : ∀ value, property value → Draws renderer (next value)) :
    Draws renderer (yield >>= next) := by
  cases first with
  | broken drawn breaks => exact .broken drawn breaks
  | @calm result plots unbroken drawn =>
    match result with
    | .error (.broken fault) => exact absurd rfl (unbroken fault)
    | .error (.failed failure) => exact .calm nofun drawn
    | .error .tooDeep => exact .calm nofun drawn
    | .ok value =>
      have second := rest value (yields value rfl)
      change Draws renderer ⟨(next value).result, plots ++ (next value).plots⟩
      generalize next value = yield at second
      cases second with
      | calm unbroken shown =>
        refine .calm unbroken fun points member => ?_
        exact (List.mem_append.mp member).elim (drawn points) (shown points)
      | broken shown breaks =>
        rw [← List.append_assoc]
        refine .broken (fun points member => ?_) breaks
        exact (List.mem_append.mp member).elim (drawn points) (shown points)

theorem Draws.mapM {property : β → Prop} {yield : α → Yield β} {items : List α}
    (each : ∀ item ∈ items, Draws renderer (yield item)) (yields : ∀ item, Yields property (yield item)) :
    Draws renderer (items.mapM yield) := by
  induction items with
  | nil => exact draws_pure _
  | cons item rest ih =>
    rw [List.mapM_cons]
    refine (each item List.mem_cons_self).bind (yields item) fun value _ => ?_
    have later := ih fun other member => each other (List.mem_cons_of_mem _ member)
    exact later.bind (Yields.mapM yields rest) fun values _ => draws_pure _

theorem Draws.adjusting {yield : Yield α} (drawn : Draws renderer yield) (change : Failure → Failure) :
    Draws renderer (yield.adjusting change) := by
  cases drawn with
  | broken drawn breaks => exact .broken drawn breaks
  | @calm result plots unbroken drawn =>
    match result with
    | .error (.broken fault) => exact absurd rfl (unbroken fault)
    | .error (.failed failure) => exact .calm nofun drawn
    | .error .tooDeep | .ok _ => exact .calm nofun drawn

theorem samples_yield {apply : Float → Yield Value} (domain : List Float) :
    Yields (fun points => points.map Point.x = domain)
      (domain.mapM fun x => do let y ← apply x; return (⟨x, y.ordinate⟩ : Point Float)) := by
  induction domain with
  | nil => exact yields_pure rfl
  | cons x rest ih =>
    rw [List.mapM_cons]
    have first : Yields (fun point => point.x = x) (do let y ← apply x; return (⟨x, y.ordinate⟩ : Point Float)) :=
      yields_last fun y => yields_pure rfl
    refine first.bind fun point same => ih.bind fun points all => yields_pure ?_
    rw [List.map_cons, same, all]

theorem plot_draws {apply : Function → List Value → Yield Value} {function : Function}
    (unary : function.arity = 1) (samples : ∀ x, Draws renderer (apply function [.number x])) :
    Draws renderer (yieldOfPlot renderer (.function function) apply) := by
  unfold yieldOfPlot
  dsimp only
  rw [if_pos unary]
  have each : ∀ x ∈ plotDomain, Draws renderer
      (do let y ← apply function [.number x]; return (⟨x, y.ordinate⟩ : Point Float)) :=
    fun x _ => (samples x).bind (fun _ _ => trivial) fun y (_ : True) => draws_pure _
  refine (Draws.mapM each fun x => (fun _ _ => trivial : Yields (fun _ => True) _)).bind
    (samples_yield plotDomain) fun points sampled => ?_
  cases renderer with
  | none => exact draws_pure _
  | some draw =>
    dsimp only
    cases shown : draw points with
    | ok _ =>
      change Draws (some draw) ⟨.ok Value.nothing, [points]⟩
      exact .calm nofun (by simpa using ⟨sampled, draw, rfl, shown⟩)
    | error fault =>
      change Draws (some draw) ⟨.error (.broken fault), [] ++ [points]⟩
      exact .broken (by simp) ⟨sampled, draw, rfl, shown⟩

theorem literalValue_unbroken {token : Token} (sound : (Expr.literal token).Sound) (fault : Fault) :
    literalValue token ≠ .error (.broken fault) := by
  obtain ⟨x, valued⟩ := sound
  simp [literalValue, valued]

theorem negated_unbroken {expr operand : Expr} {operator : Token} (sound : (Expr.unary operator operand).Sound)
    (value : Value) (fault : Fault) : negated expr operator value ≠ .error (.broken fault) := by
  cases value with
  | number x =>
    have sign : operator.kind = .mark .minus := sound
    rw [negated, if_pos sign]
    exact nofun
  | list | function | unbound => exact nofun

theorem computed_unbroken {α : Type} {value : α → Value} {answer : Except Fault α} (answers : ∃ a, answer = .ok a)
    (fault : Fault) : computed value answer ≠ .error (.broken fault) := by
  obtain ⟨a, rfl⟩ := answers
  exact nofun

/-- Division and power handle whatever is refused. -/
theorem combined_unbroken {left right : Expr} {operator : Token} (sound : (Expr.binary left operator right).Sound)
    (a b : Value) (fault : Fault) : combined left right operator a b ≠ .error (.broken fault) := by
  obtain ⟨operation, found⟩ := sound
  unfold combined
  split
  · rw [found]
    exact computed_unbroken (operation.apply_answers _ _) fault
  · exact nofun
  · exact nofun

/-- The guard keeps the infinities away. -/
theorem sine_unbroken (argument : Value) (fault : Fault) : sine argument ≠ .error (.broken fault) := by
  unfold sine
  split
  · split
    · exact nofun
    next bounded => exact computed_unbroken ⟨_, if_neg bounded⟩ fault
  · exact nofun

/-- The guards keep away what has no whole part, or one too large. -/
theorem factors_unbroken (argument : Value) (fault : Fault) : factors argument ≠ .error (.broken fault) := by
  cases argument with
  | list | function | unbound => exact nofun
  | number x =>
    dsimp only [factors]
    split
    next => exact nofun
    next bounded =>
      split
      next => exact nofun
      next within =>
        split
        next => exact nofun
        next rest =>
          obtain ⟨known, least⟩ : ¬ x.isNaN ∧ ¬ x < 1 := by simpa using rest
          have finite := DoubleValues.finite_otherwise bounded known
          exact computed_unbroken (PartialOperations.factorsOf_answers finite within least) fault

/-- Functions whose body is meaningful. -/
def Bodied (declaration : Declaration) (_ : Origin) : Prop := declaration.body.Meaningful

/-- Evaluation at this depth is broken by nothing but its plots. Applications are so only
with the right number of arguments. -/
structure Safe (renderer : Option Renderer) (depth : Nat) : Prop where
  expression : ∀ environment origin expr, KnownIn Bodied environment → expr.Meaningful →
    Draws renderer (Expr.yield renderer depth environment origin expr)
  application : ∀ environment origin function arguments, KnownIn Bodied environment →
    Known Bodied (.function function) → (∀ argument ∈ arguments, Known Bodied argument) →
    arguments.length = function.arity →
    Draws renderer (Function.yield renderer depth environment origin function arguments)

theorem builtin_arguments {which : Builtin} {arguments : List Value} (count : arguments.length = which.arity) :
    which = .pi ∧ arguments = [] ∨
      ∃ argument, arguments = [argument] ∧ (which = .sin ∨ which = .factors ∨ which = .plot) := by
  cases which with
  | pi => exact .inl ⟨rfl, List.length_eq_zero_iff.mp count⟩
  | sin | factors | plot =>
    obtain ⟨argument, rfl⟩ := List.length_eq_one_iff.mp count
    exact .inr ⟨argument, rfl, by simp⟩

section Step

variable (safe : Safe renderer depth) {environment : Environment} {origin : Origin} (all : KnownIn Bodied environment)

include safe all

theorem expression_safe {expr : Expr} (meaningful : expr.Meaningful) :
    Draws renderer (Expr.yield renderer (depth + 1) environment origin expr) := by
  have sound := meaningful expr (self_mem_nodes expr)
  have yields := fun expr => (closed Bodied renderer depth).expression environment origin expr all
  have inner := fun expr => safe.expression environment origin expr all
  cases expr with
  | literal token => exact draws_settled (literalValue_unbroken sound)
  | symbol name => exact draws_pure _
  | grouping expr => exact inner expr fun node member => meaningful node (by simp [Expr.nodes, member])
  | unary operator operand =>
    have first := inner operand fun node member => meaningful node (by simp [Expr.nodes, member])
    exact first.bind (yields operand) fun value _ => draws_settled (negated_unbroken sound value)
  | binary left operator right =>
    have first := inner left fun node member => meaningful node (by simp [Expr.nodes, member])
    have second := inner right fun node member => meaningful node (by simp [Expr.nodes, member])
    exact first.bind (yields left) fun a _ => second.bind (yields right) fun b _ =>
      draws_settled (combined_unbroken sound a b)
  | call callee arguments closing =>
    have head := inner callee fun node member => meaningful node (by simp [Expr.nodes, member])
    have each : ∀ argument ∈ arguments, Draws renderer (Expr.yield renderer depth environment origin argument) := by
      intro argument given
      refine inner argument fun node member => meaningful node ?_
      rw [Expr.nodes, Expr.nodesAll_eq]
      exact List.mem_cons_of_mem _ (List.mem_append_right _ (List.mem_flatMap.mpr ⟨argument, given, member⟩))
    refine head.bind (yields callee) fun target known => ?_
    refine (Draws.mapM each yields).bind (Yields.mapM yields arguments) fun given each => ?_
    cases target with
    | number | list | unbound => exact draws_fail _ _
    | function function =>
      unfold yieldOfCall
      dsimp only
      split
      next count => exact (safe.application environment origin function given all known each count).adjusting _
      next => exact draws_fail _ _

theorem application_safe {function : Function} {arguments : List Value} (known : Known Bodied (.function function))
    (each : ∀ argument ∈ arguments, Known Bodied argument) (count : arguments.length = function.arity) :
    Draws renderer (Function.yield renderer (depth + 1) environment origin function arguments) := by
  cases function with
  | declared declaration home =>
    refine (safe.expression _ home declaration.body (all.updateAll ?_) known).adjusting _
    intro binding member
    exact each binding.2 (List.of_mem_zip member).2
  | builtin which =>
    rcases builtin_arguments count with ⟨rfl, rfl⟩ | ⟨argument, rfl, rfl | rfl | rfl⟩
    · exact draws_pure _
    · exact draws_settled (sine_unbroken argument)
    · exact draws_settled (factors_unbroken argument)
    · change Draws renderer (yieldOfPlot renderer argument (Function.yield renderer depth environment origin))
      cases argument with
      | number | list | unbound => exact draws_fail _ _
      | function function =>
        by_cases unary : function.arity = 1
        · have sampled := each (.function function) List.mem_cons_self
          exact plot_draws unary fun x => safe.application environment origin function [.number x] all sampled
            (by simp [Known]) (by simp [unary])
        · unfold yieldOfPlot
          dsimp only
          rw [if_neg unary]
          exact draws_fail _ _

end Step

theorem safe (renderer : Option Renderer) (depth : Nat) : Safe renderer depth := by
  induction depth with
  | zero => exact ⟨fun _ _ _ _ _ => draws_settled nofun, fun _ _ _ _ _ _ _ _ => draws_settled nofun⟩
  | succ depth ih =>
    exact ⟨fun _ _ _ all meaningful => expression_safe ih all meaningful,
      fun _ _ _ _ all known each count => application_safe ih all known each count⟩

end Drawing

section Arity

theorem called_congr {expr callee : Expr} {target : Value} {arguments : List Value}
    {apply other : Function → List Value → Run Value}
    (same : ∀ function, arguments.length = function.arity → apply function arguments = other function arguments) :
    called expr callee target arguments apply = called expr callee target arguments other := by
  cases target with
  | number | list | unbound => rfl
  | function function =>
    unfold called
    dsimp only
    split
    next count => rw [same function count]
    next => rfl

theorem plotted_congr {renderer : Option Renderer} {subject : Value} {apply other : Function → List Value → Run Value}
    (same : ∀ function x, function.arity = 1 → apply function [.number x] = other function [.number x]) :
    plotted renderer subject apply = plotted renderer subject other := by
  cases subject with
  | number | list | unbound => rfl
  | function function =>
    unfold plotted
    dsimp only
    split
    next unary => simp only [same function _ unary]
    next => rfl

/-- No application is ever reached with another number of arguments than the function
takes: it makes no difference what would come of it. -/
theorem mismatch_unreached (mismatch : Function → List Value → Run Value) (renderer : Option Renderer) (depth : Nat) :
    Expr.evaluateWith mismatch renderer depth = Expr.evaluate renderer depth ∧
    ∀ function arguments, arguments.length = function.arity →
      Function.applyWith mismatch renderer depth function arguments = Function.apply renderer depth function arguments := by
  induction depth with
  | zero => exact ⟨by funext expr; rfl, fun _ _ _ => rfl⟩
  | succ depth ih =>
    obtain ⟨evaluates, applies⟩ := ih
    constructor
    · funext expr
      cases expr with
      | literal | symbol => rfl
      | grouping | unary | binary => simp only [Expr.evaluateWith, Expr.evaluate, evaluates]
      | call callee arguments closing =>
        simp only [Expr.evaluateWith, Expr.evaluate, evaluates]
        refine bind_congr fun target => bind_congr fun values => ?_
        exact called_congr fun function count => applies function values count
    · intro function arguments count
      cases function with
      | declared declaration home => simp only [Function.applyWith, if_pos count, Function.apply, evaluates]
      | builtin which =>
        rcases builtin_arguments count with ⟨rfl, rfl⟩ | ⟨argument, rfl, rfl | rfl | rfl⟩
        · rfl
        · rfl
        · rfl
        · exact plotted_congr fun function x unary => applies function [.number x] (by simp [unary])

end Arity

end Proofs.EvaluationSafety

end Reckoner
