import Reckoner.Evaluation

/-! What evaluation does to scopes. An expression may leave free symbols behind in the
innermost scope, for names that occur in the expression itself and mean nothing yet.
A call leaves nothing behind. Both hold however the evaluation ends. -/

namespace Reckoner

namespace Expr

mutual

/-- The expression and everything inside it. -/
def nodes : Expr → List Expr
  | .literal token => [.literal token]
  | .symbol name => [.symbol name]
  | .grouping inner => .grouping inner :: inner.nodes
  | .binary left operator right => .binary left operator right :: (left.nodes ++ right.nodes)
  | .unary operator operand => .unary operator operand :: operand.nodes
  | .call callee arguments closing => .call callee arguments closing :: (callee.nodes ++ nodesAll arguments)

def nodesAll : List Expr → List Expr
  | [] => []
  | expr :: rest => expr.nodes ++ nodesAll rest

end

def symbol? : Expr → Option String
  | .symbol name => some name.lexeme
  | _ => none

def symbols (expr : Expr) : List String := expr.nodes.filterMap symbol?

theorem nodesAll_eq (exprs : List Expr) : nodesAll exprs = exprs.flatMap nodes := by
  induction exprs with
  | nil => rfl
  | cons expr rest ih => simp [nodesAll, ih]

@[simp] theorem symbols_literal (token : Token) : (literal token).symbols = [] := rfl

@[simp] theorem symbols_symbol (name : Token) : (symbol name).symbols = [name.lexeme] := rfl

@[simp] theorem symbols_grouping (inner : Expr) : (grouping inner).symbols = inner.symbols := rfl

@[simp] theorem symbols_unary (operator : Token) (operand : Expr) :
    (unary operator operand).symbols = operand.symbols := rfl

@[simp] theorem symbols_binary (left : Expr) (operator : Token) (right : Expr) :
    (binary left operator right).symbols = left.symbols ++ right.symbols := by
  rw [symbols, nodes, List.filterMap_cons_none rfl, List.filterMap_append]
  rfl

@[simp] theorem symbols_call (callee : Expr) (arguments : List Expr) (closing : Token) :
    (call callee arguments closing).symbols = callee.symbols ++ arguments.flatMap symbols := by
  rw [symbols, nodes, List.filterMap_cons_none rfl, List.filterMap_append, nodesAll_eq, List.filterMap_flatMap]
  rfl

end Expr

namespace Proofs.EvaluationFrame
open Run

variable {α β : Type}

theorem run_bind (run : Run α) (next : α → Run β) (machine : Machine) :
    (run >>= next) machine =
      match run machine with
      | (.ok value, after) => next value after
      | (.error stop, after) => (.error stop, after) := by
  change (ExceptT.bindCont next (run machine).1) (run machine).2 = _
  rcases run machine with ⟨_ | _, _⟩ <;> rfl

theorem bind_elim {run : Run α} {next : α → Run β} {machine : Machine}
    (motive : Except Stop β × Machine → Prop)
    (stopped : ∀ stop after, run machine = (.error stop, after) → motive (.error stop, after))
    (continued : ∀ value after, run machine = (.ok value, after) → motive (next value after)) :
    motive ((run >>= next) machine) := by
  rw [run_bind]
  rcases ended : run machine with ⟨stop | value, after⟩
  · exact stopped stop after ended
  · exact continued value after ended

theorem bind_continues {run : Run α} {machine after : Machine} {value : α} (ended : run machine = (.ok value, after))
    (next : α → Run β) : (run >>= next) machine = next value after := by
  rw [run_bind, ended]

theorem bind_stops {run : Run α} {machine after : Machine} {stop : Stop} (ended : run machine = (.error stop, after))
    (next : α → Run β) : (run >>= next) machine = (.error stop, after) := by
  rw [run_bind, ended]

theorem bind_ok {run : Run α} {next : α → Run β} {machine after : Machine} {value : β}
    (ended : (run >>= next) machine = (.ok value, after)) :
    ∃ first middle, run machine = (.ok first, middle) ∧ next first middle = (.ok value, after) := by
  rw [run_bind] at ended
  rcases here : run machine with ⟨stop | first, middle⟩
  · rw [here] at ended
    cases ended
  · rw [here] at ended
    exact ⟨first, middle, rfl, ended⟩

theorem bind_error {run : Run α} {next : α → Run β} {machine after : Machine} {stop : Stop}
    (ended : (run >>= next) machine = (.error stop, after)) :
    run machine = (.error stop, after) ∨
      ∃ first middle, run machine = (.ok first, middle) ∧ next first middle = (.error stop, after) := by
  rw [run_bind] at ended
  rcases here : run machine with ⟨earlier | first, middle⟩
  · rw [here] at ended
    cases ended
    exact .inl rfl
  · rw [here] at ended
    exact .inr ⟨first, middle, rfl, ended⟩

/-- Nothing but events may have changed. -/
structure Still (machine after : Machine) : Prop where
  scopes : after.scopes = machine.scopes
  origin : after.origin = machine.origin

def Quiet (run : Run α) : Prop := ∀ machine, Still machine (run machine).2

theorem Still.refl (machine : Machine) : Still machine machine := ⟨rfl, rfl⟩

theorem Still.trans {machine middle after : Machine} (first : Still machine middle) (second : Still middle after) :
    Still machine after :=
  ⟨second.scopes.trans first.scopes, second.origin.trans first.origin⟩

theorem quiet_pure (value : α) : Quiet (pure value : Run α) := fun machine => .refl machine

theorem quiet_throw (stop : Stop) : Quiet (throw stop : Run α) := fun machine => .refl machine

theorem quiet_settled (result : Except Stop Value) : Quiet (settled result) := fun machine => .refl machine

theorem quiet_emit (event : Event) : Quiet (emit event) := fun _ => ⟨rfl, rfl⟩

theorem Quiet.bind {run : Run α} {next : α → Run β} (first : Quiet run) (second : ∀ value, Quiet (next value)) :
    Quiet (run >>= next) := by
  intro machine
  apply bind_elim (fun ended => Still machine ended.2)
  · intro stop after ended
    simpa [ended] using first machine
  · intro value after ended
    have here : Still machine after := by simpa [ended] using first machine
    exact here.trans (second value after)

theorem Quiet.mapM {run : α → Run β} (quiet : ∀ item, Quiet (run item)) (items : List α) : Quiet (items.mapM run) := by
  induction items with
  | nil => exact quiet_pure []
  | cons item rest ih =>
    rw [List.mapM_cons]
    exact (quiet item).bind fun value => ih.bind fun values => quiet_pure _

theorem Quiet.adjusting {run : Run Value} (quiet : Quiet run) (change : Machine → Failure → Failure) :
    Quiet (adjusting change run) := by
  intro machine
  have here := quiet machine
  unfold Run.adjusting
  split
  next ended => simpa [ended] using here
  next => exact here

/-- Only free symbols were added, and only for the given names. -/
structure Grown (names : List String) (before after : Chain Value) : Prop where
  outer : after.outer = before.outer
  inner : ∀ name, after.inner.get? name = before.inner.get? name ∨
    before.get? name = none ∧ name ∈ names ∧ after.inner.get? name = some (.unbound name)

theorem get?_eq (chain : Chain α) (name : String) :
    chain.get? name = (chain.inner.get? name).or (Frame.search chain.outer name) := by
  simp only [Chain.get?, Chain.frames, Frame.search, List.findSome?_cons]
  cases chain.inner.get? name <;> rfl

theorem get?_define (chain : Chain α) (name other : String) (value : α) :
    (chain.define name value).get? other = if other = name then some value else chain.get? other := by
  rw [get?_eq, get?_eq]
  change ((chain.inner.define name value).get? other).or (Frame.search chain.outer other) = _
  rw [Frame.get?_define]
  split
  · exact Option.some_or
  · rfl

theorem Grown.refl (names : List String) (chain : Chain Value) : Grown names chain chain :=
  ⟨rfl, fun _ => .inl rfl⟩

theorem Grown.mono {names more : List String} {before after : Chain Value} (grown : Grown names before after)
    (included : names ⊆ more) : Grown more before after := by
  refine ⟨grown.outer, fun name => ?_⟩
  rcases grown.inner name with same | ⟨missing, member, added⟩
  · exact .inl same
  · exact .inr ⟨missing, included member, added⟩

/-- What the chain as a whole means by a name changes only where it meant nothing. -/
theorem Grown.get? {names : List String} {before after : Chain Value} (grown : Grown names before after) (name : String) :
    after.get? name = before.get? name ∨
      before.get? name = none ∧ name ∈ names ∧ after.get? name = some (.unbound name) := by
  rcases grown.inner name with same | ⟨missing, member, added⟩
  · left
    rw [get?_eq, get?_eq, same, grown.outer]
  · right
    exact ⟨missing, member, by rw [get?_eq, added, Option.some_or]⟩

theorem Grown.trans {names : List String} {before middle after : Chain Value} (first : Grown names before middle)
    (second : Grown names middle after) : Grown names before after := by
  refine ⟨second.outer.trans first.outer, fun name => ?_⟩
  rcases second.inner name with same | ⟨missing, member, added⟩
  · rw [same]
    exact first.inner name
  · rcases first.get? name with earlier | ⟨_, _, bound⟩
    · exact .inr ⟨earlier ▸ missing, member, added⟩
    · rw [missing] at bound
      cases bound

theorem Grown.bound {names : List String} {before after : Chain Value} (grown : Grown names before after)
    {name : String} {value : Value} (bound : before.get? name = some value) : after.get? name = some value := by
  rcases grown.get? name with same | ⟨missing, _, _⟩
  · exact same.trans bound
  · rw [missing] at bound
    cases bound

/-- However a run ends, it added free symbols for the given names at most, and if it
ends well, all of them mean something. -/
structure Framed (names : List String) (machine : Machine) (ended : Except Stop α × Machine) : Prop where
  scopes : Grown names machine.scopes ended.2.scopes
  origin : ended.2.origin = machine.origin
  bound : ∀ value, ended.1 = .ok value → ∀ name ∈ names, ∃ meaning, ended.2.scopes.get? name = some meaning

theorem Still.framed {machine : Machine} {ended : Except Stop α × Machine} (still : Still machine ended.2) :
    Framed [] machine ended :=
  ⟨still.scopes ▸ .refl _ _, still.origin, by simp⟩

theorem Framed.bind {run : Run α} {next : α → Run β} {machine : Machine} {first second : List String}
    (framed : Framed first machine (run machine))
    (rest : ∀ value after, run machine = (.ok value, after) → Framed second after (next value after)) :
    Framed (first ++ second) machine ((run >>= next) machine) := by
  apply bind_elim (Framed (first ++ second) machine)
  · intro stop after ended
    rw [ended] at framed
    exact ⟨framed.scopes.mono (List.subset_append_left ..), framed.origin, fun _ impossible => nomatch impossible⟩
  · intro value after ended
    rw [ended] at framed
    have later := rest value after ended
    have grown : Grown (first ++ second) after.scopes (next value after).2.scopes :=
      later.scopes.mono (List.subset_append_right ..)
    refine ⟨(framed.scopes.mono (List.subset_append_left ..)).trans grown, later.origin.trans framed.origin, ?_⟩
    intro result finished name member
    rcases List.mem_append.mp member with early | late
    · obtain ⟨meaning, known⟩ := framed.bound value rfl name early
      exact ⟨meaning, grown.bound known⟩
    · exact later.bound result finished name late

theorem Framed.bind_quiet {run : Run α} {next : α → Run β} {machine : Machine} {names : List String}
    (framed : Framed names machine (run machine)) (quiet : ∀ value, Quiet (next value)) :
    Framed names machine ((run >>= next) machine) := by
  have whole := framed.bind fun value after _ => (quiet value after).framed
  rwa [List.append_nil] at whole

theorem Framed.mapM {run : α → Run β} {names : α → List String}
    (framed : ∀ item machine, Framed (names item) machine (run item machine)) (items : List α) (machine : Machine) :
    Framed (items.flatMap names) machine (items.mapM run machine) := by
  induction items generalizing machine with
  | nil => exact (quiet_pure [] machine).framed
  | cons item rest ih =>
    rw [List.mapM_cons]
    exact (framed item machine).bind fun value after _ => (ih after).bind_quiet fun values => quiet_pure _

theorem lookup_eq (name : String) (machine : Machine) :
    lookup name machine = match machine.scopes.get? name with
      | some value => (.ok value, machine)
      | none => (.ok (.unbound name), { machine with scopes := machine.scopes.define name (.unbound name) }) := by
  unfold lookup
  rw [run_bind]
  change (match machine.scopes.get? name with
    | some value => (return value : Run Value)
    | none => do define name (.unbound name); return .unbound name) machine = _
  cases machine.scopes.get? name <;> rfl

theorem lookup_framed (name : String) (machine : Machine) : Framed [name] machine (lookup name machine) := by
  rw [lookup_eq]
  cases found : machine.scopes.get? name with
  | some value => exact ⟨.refl _ _, rfl, fun _ _ => by simp [found]⟩
  | none =>
    have inner : ∀ other, (machine.scopes.define name (.unbound name)).inner.get? other =
        if other = name then some (.unbound name) else machine.scopes.inner.get? other :=
      fun other => machine.scopes.inner.get?_define name other (.unbound name)
    refine ⟨⟨rfl, fun other => ?_⟩, rfl, fun _ _ other member => ?_⟩
    · by_cases same : other = name
      · subst other
        exact .inr ⟨found, by simp, by simp [inner]⟩
      · exact .inl (by simp [inner, same])
    · obtain rfl := List.mem_singleton.mp member
      exact ⟨.unbound other, by simp [get?_eq, inner]⟩

/-- Whatever a body does to its own scope is gone when the scope is left. -/
theorem within_quiet {names : List String} {frame : Frame Value} {origin : Origin} {body : Run Value}
    (framed : ∀ machine, Framed names machine (body machine)) : Quiet (within frame origin body) := by
  intro machine
  have inside := (framed { machine with scopes := machine.scopes.enter frame, origin }).scopes.outer
  refine ⟨?_, rfl⟩
  change (body _).2.scopes.leave = machine.scopes
  unfold Chain.leave
  rw [inside]
  rfl

theorem entered_quiet {names : List String} {declaration : Declaration} {origin : Origin} {arguments : List Value}
    {body : Run Value} (framed : ∀ machine, Framed names machine (body machine)) :
    Quiet (entered declaration origin arguments body) :=
  (within_quiet framed).adjusting _

theorem plotted_quiet {renderer : Option Renderer} {subject : Value} {apply : Function → List Value → Run Value}
    (quiet : ∀ function arguments, Quiet (apply function arguments)) : Quiet (plotted renderer subject apply) := by
  unfold plotted
  split
  next function =>
    split
    · apply Quiet.bind
      · exact Quiet.mapM (fun x => (quiet function [.number x]).bind fun y => quiet_pure _) plotDomain
      · intro points
        split
        · exact quiet_pure _
        next draw =>
          apply (quiet_emit _).bind
          intro _
          split
          · exact quiet_pure _
          · exact quiet_throw _
    · exact quiet_settled _
  next => exact quiet_settled _

theorem called_quiet {expr callee : Expr} {target : Value} {arguments : List Value}
    {apply : Function → List Value → Run Value} (quiet : ∀ function arguments, Quiet (apply function arguments)) :
    Quiet (called expr callee target arguments apply) := by
  unfold called
  split
  next function =>
    split
    · exact (quiet function arguments).adjusting _
    · exact quiet_settled _
  next => exact quiet_settled _

variable {renderer : Option Renderer}

-- One level deeper each: expressions need calls of their own depth, calls need bodies.
theorem apply_quiet_succ {depth : Nat}
    (framed : ∀ expr machine, Framed expr.symbols machine (Expr.evaluate renderer depth expr machine))
    (quiet : ∀ function arguments, Quiet (Function.apply renderer depth function arguments))
    (function : Function) (arguments : List Value) : Quiet (Function.apply renderer (depth + 1) function arguments) := by
  unfold Function.apply
  split
  next declaration origin => exact entered_quiet (framed declaration.body)
  next => exact quiet_pure _
  next => exact quiet_settled _
  next => exact quiet_settled _
  next => exact plotted_quiet quiet
  next => exact quiet_throw _

theorem evaluate_framed_succ {depth : Nat}
    (framed : ∀ expr machine, Framed expr.symbols machine (Expr.evaluate renderer depth expr machine))
    (quiet : ∀ function arguments, Quiet (Function.apply renderer depth function arguments))
    (expr : Expr) (machine : Machine) : Framed expr.symbols machine (Expr.evaluate renderer (depth + 1) expr machine) := by
  cases expr with
  | literal token => exact (quiet_settled _ machine).framed
  | symbol name => exact lookup_framed name.lexeme machine
  | grouping inner => exact framed inner machine
  | unary operator operand => exact (framed operand machine).bind_quiet fun value => quiet_settled _
  | binary left operator right =>
    rw [Expr.symbols_binary]
    exact (framed left machine).bind fun a after _ => (framed right after).bind_quiet fun b => quiet_settled _
  | call callee arguments closing =>
    rw [Expr.symbols_call]
    exact (framed callee machine).bind fun target after _ =>
      (Framed.mapM framed arguments after).bind_quiet fun values => called_quiet quiet

theorem framed_and_quiet (depth : Nat) :
    (∀ expr machine, Framed expr.symbols machine (Expr.evaluate renderer depth expr machine)) ∧
      ∀ function arguments, Quiet (Function.apply renderer depth function arguments) := by
  induction depth with
  | zero =>
    constructor
    · intro expr machine
      exact ⟨.refl _ _, rfl, fun _ impossible => nomatch impossible⟩
    · intro function arguments
      exact quiet_throw .tooDeep
  | succ depth ih => exact ⟨evaluate_framed_succ ih.1 ih.2, apply_quiet_succ ih.1 ih.2⟩

/-- Evaluating an expression binds free symbols for its own names, and changes nothing else. -/
theorem evaluate_framed (renderer : Option Renderer) (depth : Nat) (expr : Expr) (machine : Machine) :
    Framed expr.symbols machine (Expr.evaluate renderer depth expr machine) :=
  (framed_and_quiet depth).1 expr machine

theorem apply_quiet (renderer : Option Renderer) (depth : Nat) (function : Function) (arguments : List Value) :
    Quiet (Function.apply renderer depth function arguments) :=
  (framed_and_quiet depth).2 function arguments

end Proofs.EvaluationFrame

end Reckoner
