import Mathlib.Data.List.Induction
import Reckoner.Session
import Reckoner.Proofs.EvaluationFrame

/-! A batch runs its statements until one of them stops. What one statement does to the
scopes follows from what evaluation does to them; a session is what some history of
batches left behind. -/

namespace Reckoner

namespace Statement

def target? : Statement → Option String
  | .expression _ | .print _ _ => none
  | .assign name _ => some name.lexeme
  | .declare declaration => some declaration.name.lexeme

/-- The names a statement looks up itself. The names in a function's body wait for a call. -/
def looksUp : Statement → List String
  | .expression expr | .print _ expr | .assign _ expr => expr.symbols
  | .declare _ => []

/-- Whether the statement, run on a machine, is a declaration that gives the name this value. -/
def Gives (renderer : Option Renderer) (depth : Nat) (machine : Machine) (name : String) (value : Value) :
    Statement → Prop
  | .expression _ | .print _ _ => False
  | .assign target expr =>
    target.lexeme = name ∧ ∃ after, expr.evaluate renderer depth machine = (.ok value, after)
  | .declare declaration =>
    declaration.name.lexeme = name ∧ value = .function (.declared declaration machine.origin)

end Statement

namespace Session

/-- The sessions a history of texts can lead to, from the start on. -/
inductive Reachable : Session → Prop
  | start : Reachable .start
  | evaluate {session : Session} (reached : Reachable session) (host : Host) (text : String) :
    Reachable (session.evaluate host text).2

def machine (session : Session) : Machine := ⟨session.scopes, some session.batches, #[]⟩

end Session

namespace Proofs.BatchExecution
open Run EvaluationFrame

variable {renderer : Option Renderer} {depth : Nat}

theorem interpret_snoc (done : List Statement) (statement : Statement) :
    interpret renderer depth (done ++ [statement]) =
      (interpret renderer depth done >>= fun _ => statement.execute renderer depth) := by
  unfold interpret
  rw [List.foldlM_append]
  apply bind_congr
  intro value
  rw [List.foldlM_cons]
  exact bind_pure _

/-- How a batch ends: all statements were run, or one of them stopped after all before it were run. -/
inductive Ended (renderer : Option Renderer) (depth : Nat) (statements : List Statement) (machine : Machine) :
    Except Stop Value → Machine → Prop
  | finished {value : Value} {after : Machine} (run : interpret renderer depth statements machine = (.ok value, after)) :
    Ended renderer depth statements machine (.ok value) after
  | stopped {done later : List Statement} {statement : Statement} {value : Value} {middle after : Machine} {stop : Stop}
      (split : statements = done ++ statement :: later)
      (run : interpret renderer depth done machine = (.ok value, middle))
      (stopped : statement.execute renderer depth middle = (.error stop, after)) :
    Ended renderer depth statements machine (.error stop) after

theorem interpret_ended (renderer : Option Renderer) (depth : Nat) (statements : List Statement) (machine : Machine) :
    Ended renderer depth statements machine (interpret renderer depth statements machine).1
      (interpret renderer depth statements machine).2 := by
  induction statements using List.reverseRecOn with
  | nil => exact .finished rfl
  | append_singleton done statement ih =>
    rcases ended : interpret renderer depth (done ++ [statement]) machine with ⟨stop | value, after⟩
    · rw [interpret_snoc] at ended
      rcases bind_error ended with early | ⟨value, middle, run, stopped⟩
      · rw [early] at ih
        cases ih with
        | stopped split run stopped =>
          rw [split, List.append_assoc]
          exact .stopped rfl run stopped
      · exact .stopped rfl run stopped
    · exact .finished ended

/-- What a statement did to the scopes when it ran to its end: free symbols for the names it
looked up, then the binding it declares. -/
structure Executed (renderer : Option Renderer) (depth : Nat) (statement : Statement) (machine after : Machine) : Prop where
  origin : after.origin = machine.origin
  scopes : ∃ middle, Grown statement.looksUp machine.scopes middle ∧
    (∀ name ∈ statement.looksUp, ∃ value, middle.get? name = some value) ∧
    (statement.target? = none ∧ after.scopes = middle ∨
      ∃ name value, statement.target? = some name ∧ statement.Gives renderer depth machine name value ∧
        after.scopes = middle.define name value)

theorem execute_executed {statement : Statement} {machine after : Machine} {value : Value}
    (ended : statement.execute renderer depth machine = (.ok value, after)) :
    Executed renderer depth statement machine after := by
  cases statement with
  | expression expr =>
    have framed := evaluate_framed renderer depth expr machine
    rw [show expr.evaluate renderer depth machine = (.ok value, after) from ended] at framed
    exact ⟨framed.origin, after.scopes, framed.scopes, framed.bound value rfl, .inl ⟨rfl, rfl⟩⟩
  | print keyword expr =>
    obtain ⟨shown, middle, run, printed⟩ := bind_ok ended
    obtain ⟨-, rfl⟩ := Prod.mk.inj printed
    have framed := evaluate_framed renderer depth expr machine
    rw [run] at framed
    exact ⟨framed.origin, middle.scopes, framed.scopes, framed.bound shown rfl, .inl ⟨rfl, rfl⟩⟩
  | assign name expr =>
    obtain ⟨given, middle, run, defined⟩ := bind_ok ended
    obtain ⟨-, rfl⟩ := Prod.mk.inj defined
    have framed := evaluate_framed renderer depth expr machine
    rw [run] at framed
    exact ⟨framed.origin, middle.scopes, framed.scopes, framed.bound given rfl,
      .inr ⟨name.lexeme, given, rfl, ⟨rfl, middle, run⟩, rfl⟩⟩
  | declare declaration =>
    obtain ⟨-, rfl⟩ := Prod.mk.inj ended
    exact ⟨rfl, machine.scopes, .refl _ _, by simp [Statement.looksUp],
      .inr ⟨declaration.name.lexeme, _, rfl, ⟨rfl, rfl⟩, rfl⟩⟩

theorem Executed.outer {statement : Statement} {machine after : Machine}
    (executed : Executed renderer depth statement machine after) : after.scopes.outer = machine.scopes.outer := by
  obtain ⟨middle, grown, -, ⟨-, scopes⟩ | ⟨name, value, -, -, scopes⟩⟩ := executed.scopes
  · rw [scopes, grown.outer]
  · rw [scopes]
    exact grown.outer

theorem Executed.target {statement : Statement} {machine after : Machine} {name : String}
    (executed : Executed renderer depth statement machine after) (target : statement.target? = some name) :
    ∃ value, statement.Gives renderer depth machine name value ∧ after.scopes.get? name = some value := by
  obtain ⟨middle, -, -, ⟨none, -⟩ | ⟨bound, value, given, gives, scopes⟩⟩ := executed.scopes
  · rw [none] at target
    cases target
  · rw [given] at target
    cases target
    exact ⟨value, gives, by simp [scopes, get?_define]⟩

theorem Executed.other {statement : Statement} {machine after : Machine} {name : String}
    (executed : Executed renderer depth statement machine after) (other : statement.target? ≠ some name) :
    after.scopes.get? name = machine.scopes.get? name ∨
      machine.scopes.get? name = none ∧ name ∈ statement.looksUp ∧ after.scopes.get? name = some (.unbound name) := by
  obtain ⟨middle, grown, -, ⟨-, scopes⟩ | ⟨bound, value, given, -, scopes⟩⟩ := executed.scopes
  · rw [scopes]
    exact grown.get? name
  · have different : name ≠ bound := fun same => other (same ▸ given)
    rw [scopes, get?_define, if_neg different]
    exact grown.get? name

theorem Executed.bound {statement : Statement} {machine after : Machine} {name : String}
    (executed : Executed renderer depth statement machine after) (lookedUp : name ∈ statement.looksUp) :
    ∃ value, after.scopes.get? name = some value := by
  obtain ⟨middle, -, bound, ⟨-, scopes⟩ | ⟨target, value, -, -, scopes⟩⟩ := executed.scopes
  · rw [scopes]
    exact bound name lookedUp
  · by_cases same : name = target
    · exact ⟨value, by simp [scopes, get?_define, same]⟩
    · rw [scopes, get?_define, if_neg same]
      exact bound name lookedUp

/-- Only the evaluation of its expression can stop a statement. -/
theorem execute_error {statement : Statement} {machine after : Machine} {stop : Stop}
    (ended : statement.execute renderer depth machine = (.error stop, after)) :
    statement.looksUp = statement.expr.symbols ∧
      statement.expr.evaluate renderer depth machine = (.error stop, after) := by
  cases statement with
  | expression expr => exact ⟨rfl, ended⟩
  | print keyword expr =>
    rcases bind_error ended with stopped | ⟨shown, middle, run, printed⟩
    · exact ⟨rfl, stopped⟩
    · cases printed
  | assign name expr =>
    rcases bind_error ended with stopped | ⟨given, middle, run, defined⟩
    · exact ⟨rfl, stopped⟩
    · cases defined
  | declare declaration => cases ended

theorem execute_stopped {statement : Statement} {machine after : Machine} {stop : Stop}
    (ended : statement.execute renderer depth machine = (.error stop, after)) :
    Grown statement.looksUp machine.scopes after.scopes ∧ after.origin = machine.origin := by
  obtain ⟨names, stopped⟩ := execute_error ended
  have framed := evaluate_framed renderer depth statement.expr machine
  rw [stopped] at framed
  exact ⟨names ▸ framed.scopes, framed.origin⟩

/-- A batch ends in the scope and as the batch it began, at whichever statement it ends. -/
theorem interpret_still {statements : List Statement} {machine after : Machine} {result : Except Stop Value}
    (run : interpret renderer depth statements machine = (result, after)) :
    after.scopes.outer = machine.scopes.outer ∧ after.origin = machine.origin := by
  induction statements using List.reverseRecOn generalizing result after with
  | nil =>
    cases run
    exact ⟨rfl, rfl⟩
  | append_singleton done statement ih =>
    rw [interpret_snoc] at run
    cases result with
    | ok value =>
      obtain ⟨value, middle, early, late⟩ := bind_ok run
      have executed := execute_executed late
      exact ⟨executed.outer.trans (ih early).1, executed.origin.trans (ih early).2⟩
    | error stop =>
      rcases bind_error run with early | ⟨value, middle, early, late⟩
      · exact ih early
      · obtain ⟨grown, origin⟩ := execute_stopped late
        exact ⟨grown.outer.trans (ih early).1, origin.trans (ih early).2⟩

theorem evaluate_unread {host : Host} {text : String} {stop : Stop}
    (unread : Grammar.ofText host.depth text.toList = .error stop) (session : Session) :
    session.evaluate host text = (⟨.error stop.trouble, []⟩, session) := by
  simp [Session.evaluate, unread]

theorem evaluate_read {host : Host} {text : String} {statements : List Statement} {session : Session}
    {result : Except Stop Value} {after : Machine}
    (read : Grammar.ofText host.depth text.toList = .ok statements)
    (run : interpret host.renderer host.depth statements session.machine = (result, after)) :
    session.evaluate host text = (⟨result.mapError Stop.trouble, after.events.toList⟩,
      ⟨after.scopes, after.origin, session.batches + 1⟩) := by
  unfold Session.machine at run
  simp [Session.evaluate, read, Session.perform, run]

theorem reachable_global {session : Session} (reached : session.Reachable) : session.scopes.outer = [] := by
  induction reached with
  | start => rfl
  | @evaluate session reached host text ih =>
    cases read : Grammar.ofText host.depth text.toList with
    | error stop => rwa [evaluate_unread read]
    | ok statements =>
      rcases run : interpret host.renderer host.depth statements session.machine with ⟨result, after⟩
      rw [evaluate_read read run]
      exact (interpret_still run).1.trans ih

end Proofs.BatchExecution

end Reckoner
