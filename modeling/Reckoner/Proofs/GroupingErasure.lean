import Reckoner.Proofs.DepthCutoff

/-! Parentheses steer the grammar and mean nothing afterwards. A run on trees without
them, in a session whose functions have lost them too, comes to what the run on the trees
as they were read comes to. It needs less depth, and its sites are the same, since a pair
of parentheses stands where its inside stands. -/

namespace Reckoner

namespace Expr

mutual

/-- The expression without its parentheses. -/
def ungrouped : Expr → Expr
  | .literal token => .literal token
  | .symbol name => .symbol name
  | .grouping inner => inner.ungrouped
  | .binary left operator right => .binary left.ungrouped operator right.ungrouped
  | .unary operator operand => .unary operator operand.ungrouped
  | .call callee arguments closing => .call callee.ungrouped (ungroupedAll arguments) closing

def ungroupedAll : List Expr → List Expr
  | [] => []
  | expr :: rest => expr.ungrouped :: ungroupedAll rest

end

theorem ungroupedAll_eq (exprs : List Expr) : ungroupedAll exprs = exprs.map ungrouped := by
  induction exprs with
  | nil => rfl
  | cons expr rest ih => rw [ungroupedAll, ih, List.map_cons]

end Expr

def Declaration.ungrouped (declaration : Declaration) : Declaration :=
  { declaration with body := declaration.body.ungrouped }

def Statement.ungrouped : Statement → Statement
  | .expression expr => .expression expr.ungrouped
  | .print keyword expr => .print keyword expr.ungrouped
  | .assign name value => .assign name value.ungrouped
  | .declare declaration => .declare declaration.ungrouped

def Function.ungrouped : Function → Function
  | .builtin which => .builtin which
  | .declared declaration home => .declared declaration.ungrouped home

def Value.ungrouped : Value → Value := Value.mapFunction Function.ungrouped

def Result.ungrouped (result : Result) : Result := { result with outcome := result.outcome.map Value.ungrouped }

/-- The session as it would be if no function had been declared with parentheses in its body. -/
def Session.ungrouped (session : Session) : Session :=
  { session with scopes := session.scopes.mapValues Value.ungrouped }

namespace Proofs.GroupingErasure
open Likeness EvaluationFrame BatchExecution ParallelRuns DepthCutoff

variable {renderer : Option Renderer} {depth : Nat} {origin : Origin}

/-- The second run's trees are those of the first without their parentheses. -/
def unwrapping : Likeness := .verbatim True True True [] id

theorem exprs_ungrouped (expr : Expr) : unwrapping.Exprs origin expr expr.ungrouped := by
  induction expr using Expr.by_parts with
  | literal token => exact .literal rfl
  | symbol name => exact .symbol rfl
  | grouping inner ih => exact .unwrapped trivial ih
  | binary left operator right first second => exact .binary first rfl second
  | unary operator operand ih => exact .unary rfl ih
  | call callee arguments closing head each =>
    have all : List.Forall₂ (unwrapping.Exprs origin) arguments (arguments.map Expr.ungrouped) :=
      List.forall₂_map_right_iff.mpr (List.forall₂_same.mpr each)
    rw [← Expr.ungroupedAll_eq] at all
    exact .call head all.length_eq (fun pair member => List.forall₂_zip all member) rfl

theorem ungrouped_eq {expr other : Expr} (like : unwrapping.Exprs origin expr other) : expr.ungrouped = other := by
  induction like with
  | literal edge => exact congrArg Expr.literal edge
  | symbol edge => exact congrArg Expr.symbol edge
  | grouping kept => exact absurd trivial kept
  | unwrapped _ _ ih => exact ih
  | binary _ between _ first second => rw [Expr.ungrouped, first, between, second]
  | unary edge _ ih => rw [Expr.ungrouped, edge, ih]
  | @call callee other arguments others closing final _ count _ edge head each =>
    have all : List.Forall₂ (fun expr other => expr.ungrouped = other) arguments others :=
      List.forall₂_iff_zip.mpr ⟨count, fun member => each _ member⟩
    rw [← List.forall₂_map_left_iff, List.forall₂_eq_eq_eq] at all
    rw [Expr.ungrouped, head, Expr.ungroupedAll_eq, all, edge]

theorem declarations_ungrouped (declaration : Declaration) :
    unwrapping.Declarations origin declaration declaration.ungrouped :=
  ⟨rfl, List.forall₂_same.mpr fun _ _ => rfl, exprs_ungrouped declaration.body⟩

theorem statements_ungrouped (statements : List Statement) :
    List.Forall₂ (unwrapping.Statements origin) statements (statements.map Statement.ungrouped) := by
  refine List.forall₂_map_right_iff.mpr (List.forall₂_same.mpr fun statement _ => ?_)
  cases statement with
  | expression expr => exact .expression (exprs_ungrouped expr)
  | print keyword expr => exact .print rfl (exprs_ungrouped expr)
  | assign name value => exact .assign rfl (exprs_ungrouped value)
  | declare declaration => exact .declare (declarations_ungrouped declaration)

theorem functions_ungrouped (function : Function) : unwrapping.Functions function function.ungrouped := by
  cases function with
  | builtin which => exact .builtin which
  | declared declaration home => exact .declared (fun _ => rfl) (declarations_ungrouped declaration)

theorem function_ungrouped_eq {function other : Function} (like : unwrapping.Functions function other) :
    function.ungrouped = id other := by
  cases like with
  | builtin which => rfl
  | @declared declaration other home away batch like =>
    obtain ⟨name, parameters, body⟩ := declaration
    obtain ⟨again, names, inside⟩ := other
    obtain ⟨rfl, words, trees⟩ := like
    obtain rfl : parameters = names := by rwa [← List.forall₂_eq_eq_eq]
    obtain rfl : home = away := batch trivial
    rw [Function.ungrouped, Declaration.ungrouped, ungrouped_eq trees]
    rfl

/-- What a run comes to, carried over to the run without parentheses. -/
theorem interpret_ungrouped {session : Session} {statements : List Statement} {result ended : Except Stop Value}
    {after final : Machine} (run : interpret renderer depth statements session.machine = (result, after))
    (again : interpret renderer depth (statements.map Statement.ungrouped) session.ungrouped.machine = (ended, final))
    (within : result ≠ .error .tooDeep) :
    ended = result.map Value.ungrouped ∧ final = { after with scopes := after.scopes.mapValues Value.ungrouped } := by
  have depths : unwrapping.Depths depth depth := ⟨Nat.le_refl _, .inl rfl⟩
  have machines : unwrapping.Machines (some session.batches) session.machine session.ungrouped.machine :=
    ⟨Chains.image functions_ungrouped session.scopes, rfl, fun _ => rfl, rfl⟩
  have ends := interpret_matches renderer depths (statements_ungrouped statements) _ _ machines
  rw [run, again] at ends
  cases ends with
  | cut => exact absurd rfl within
  | both results states =>
    constructor
    · cases results with
      | ok like =>
        have same := like.map_eq function_ungrouped_eq
        rw [Value.mapFunction_id] at same
        exact congrArg Except.ok same.symm
      | error stops =>
        cases stops with
        | tooDeep => exact absurd rfl within
        | broken fault => rfl
        | failed failures =>
          rw [verbatim_failure trivial failures]
          rfl
    · obtain ⟨opposite, place, shown⟩ := final
      have scopes := states.scopes.map_eq function_ungrouped_eq
      rw [Value.mapFunction_id, Chain.mapValues_id] at scopes
      obtain rfl : after.scopes.mapValues Value.ungrouped = opposite := scopes
      obtain rfl : after.origin = place := states.home.trans (states.batch trivial).symm
      obtain rfl : after.events = shown := Array.toList_inj.mp states.events
      rfl

theorem runBatch_ungrouped {session : Session} {statements : List Statement}
    (within : ¬(session.runBatch ⟨renderer, depth⟩ statements).1.OutOfDepth) :
    session.ungrouped.runBatch ⟨renderer, depth⟩ (statements.map Statement.ungrouped) =
      ((session.runBatch ⟨renderer, depth⟩ statements).1.ungrouped,
        (session.runBatch ⟨renderer, depth⟩ statements).2.ungrouped) := by
  rcases run : interpret renderer depth statements session.machine with ⟨result, after⟩
  rcases again : interpret renderer depth (statements.map Statement.ungrouped) session.ungrouped.machine with
    ⟨ended, final⟩
  rw [runBatch_outOfDepth run] at within
  obtain ⟨rfl, rfl⟩ := interpret_ungrouped run again within
  have first : session.runBatch ⟨renderer, depth⟩ statements = _ := Session.runBatch_eq run
  have second : session.ungrouped.runBatch ⟨renderer, depth⟩ (statements.map Statement.ungrouped) = _ :=
    Session.runBatch_eq again
  rw [first, second]
  cases result <;> rfl

theorem outOfDepth_ungrouped {result : Result} (out : result.ungrouped.OutOfDepth) : result.OutOfDepth := by
  obtain ⟨failure, told, kind⟩ := out
  obtain ⟨trouble | value, events⟩ := result
  · cases told
    exact ⟨failure, rfl, kind⟩
  · cases told

/-- Without its parentheses, in a session without parentheses, a batch that stays within its depth
comes to the same: the same value, failure and site, the same lines and plots, the same names with
the same meanings. That goes for whatever other depth is enough for it, too. -/
theorem parentheses_mean_nothing (renderer : Option Renderer) (depth : Nat) (session : Session)
    (statements : List Statement) (within : ¬(session.runBatch ⟨renderer, depth⟩ statements).1.OutOfDepth) :
    let run := session.runBatch ⟨renderer, depth⟩ statements
    let plain := fun depth => session.ungrouped.runBatch ⟨renderer, depth⟩ (statements.map Statement.ungrouped)
    plain depth = (run.1.ungrouped, run.2.ungrouped) ∧
    ∀ other, ¬(plain other).1.OutOfDepth → plain other = (run.1.ungrouped, run.2.ungrouped) := by
  intro run plain
  have same : plain depth = (run.1.ungrouped, run.2.ungrouped) := runBatch_ungrouped within
  have still : ¬(plain depth).1.OutOfDepth := by
    rw [same]
    exact fun out => within (outOfDepth_ungrouped out)
  refine ⟨same, fun other enough => ?_⟩
  rcases Nat.le_total depth other with more | less
  · have deeper := runBatch_deepened renderer more session.ungrouped (statements.map Statement.ungrouped)
    exact (deeper.resolve_left fun out => still out.1).trans same
  · have deeper := runBatch_deepened renderer less session.ungrouped (statements.map Statement.ungrouped)
    exact (deeper.resolve_left fun out => enough out.1).symm.trans same

-- Without the parentheses in the function's body, less depth is enough.
theorem parentheses_mean_nothing_nested :
    let run := nested.runBatch ⟨none, 7⟩ nestedCall
    let plain := nested.ungrouped.runBatch ⟨none, 4⟩ (nestedCall.map Statement.ungrouped)
    ¬run.1.OutOfDepth ∧ ¬plain.1.OutOfDepth ∧ plain = (run.1.ungrouped, run.2.ungrouped) := by
  intro run plain
  have within : ¬run.1.OutOfDepth := by
    rintro ⟨failure, told, -⟩
    cases told
  have enough : ¬plain.1.OutOfDepth := by
    rintro ⟨failure, told, -⟩
    cases told
  exact ⟨within, enough, (parentheses_mean_nothing none 7 nested nestedCall within).2 4 enough⟩

end Proofs.GroupingErasure

end Reckoner
