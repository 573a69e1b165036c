import Reckoner.Proofs.BatchExecution

/-! The exact frame of a batch on the global scope: which names it binds, to what, and
which bindings it leaves as they are, at whichever statement it ends. -/

namespace Reckoner.Proofs.BatchFrame
open EvaluationFrame BatchExecution

theorem globals_get? {α : Type} {chain : Chain α} (global : chain.outer = []) (name : String) :
    chain.globals.get? name = chain.get? name := by
  simp [Chain.globals, get?_eq, global, Frame.search]

/-- What statements that were run to their end made of the global frame. The machine is
the one they started on. -/
structure Performed (renderer : Option Renderer) (depth : Nat) (done : List Statement) (machine : Machine)
    (after : Frame Value) : Prop where
  names : ∀ name, name ∈ after.names ↔
    name ∈ machine.scopes.globals.names ∨ (∃ statement ∈ done, statement.target? = some name) ∨
      ∃ statement ∈ done, name ∈ statement.looksUp
  kept : ∀ name value, machine.scopes.globals.get? name = some value →
    (∀ statement ∈ done, statement.target? ≠ some name) → after.get? name = some value
  symbols : ∀ name ∈ after.names, name ∉ machine.scopes.globals.names →
    (∀ statement ∈ done, statement.target? ≠ some name) → after.get? name = some (.unbound name)
  declared : ∀ name, (∃ statement ∈ done, statement.target? = some name) →
    ∃ earlier statement later result middle value,
      done = earlier ++ statement :: later ∧ (∀ other ∈ later, other.target? ≠ some name) ∧
      interpret renderer depth earlier machine = (.ok result, middle) ∧
      statement.Gives renderer depth middle name value ∧ after.get? name = some value

variable {renderer : Option Renderer} {depth : Nat}

theorem Performed.nil (machine : Machine) : Performed renderer depth [] machine machine.scopes.globals := by
  refine ⟨by simp, fun name value bound _ => bound, fun name member missing _ => absurd member missing, ?_⟩
  rintro name ⟨statement, member, -⟩
  cases member

/-- One statement more: its target is bound anew, and any other name keeps its meaning or
becomes a free symbol that the statement looked up. -/
structure Stepped (renderer : Option Renderer) (depth : Nat) (statement : Statement) (machine : Machine)
    (after : Frame Value) : Prop where
  target : ∀ name, statement.target? = some name →
    ∃ value, statement.Gives renderer depth machine name value ∧ after.get? name = some value
  other : ∀ name, statement.target? ≠ some name → after.get? name = machine.scopes.globals.get? name ∨
    machine.scopes.globals.get? name = none ∧ name ∈ statement.looksUp ∧ after.get? name = some (.unbound name)
  bound : ∀ name ∈ statement.looksUp, ∃ value, after.get? name = some value

theorem execute_stepped {statement : Statement} {machine after : Machine}
    (executed : Executed renderer depth statement machine after) (global : machine.scopes.outer = []) :
    Stepped renderer depth statement machine after.scopes.globals := by
  have stays : after.scopes.outer = [] := executed.outer.trans global
  refine ⟨fun name target => ?_, fun name other => ?_, fun name lookedUp => ?_⟩
  · rw [globals_get? stays]
    exact executed.target target
  · rw [globals_get? stays, globals_get? global]
    exact executed.other other
  · rw [globals_get? stays]
    exact executed.bound lookedUp

theorem Stepped.names {statement : Statement} {machine : Machine} {after : Frame Value}
    (stepped : Stepped renderer depth statement machine after) (name : String) :
    name ∈ after.names ↔
      name ∈ machine.scopes.globals.names ∨ statement.target? = some name ∨ name ∈ statement.looksUp := by
  rw [Frame.mem_names, Frame.mem_names]
  constructor
  · rintro ⟨value, found⟩
    by_cases target : statement.target? = some name
    · exact .inr (.inl target)
    · rcases stepped.other name target with same | ⟨-, lookedUp, -⟩
      · exact .inl ⟨value, same ▸ found⟩
      · exact .inr (.inr lookedUp)
  · rintro (⟨value, found⟩ | target | lookedUp)
    · by_cases target : statement.target? = some name
      · obtain ⟨given, -, bound⟩ := stepped.target name target
        exact ⟨given, bound⟩
      · rcases stepped.other name target with same | ⟨missing, -, -⟩
        · exact ⟨value, same.trans found⟩
        · rw [missing] at found
          cases found
    · obtain ⟨given, -, bound⟩ := stepped.target name target
      exact ⟨given, bound⟩
    · exact stepped.bound name lookedUp

theorem Performed.snoc {done : List Statement} {statement : Statement} {machine middle : Machine} {after : Frame Value}
    {result : Value} (performed : Performed renderer depth done machine middle.scopes.globals)
    (run : interpret renderer depth done machine = (.ok result, middle))
    (stepped : Stepped renderer depth statement middle after) :
    Performed renderer depth (done ++ [statement]) machine after := by
  have last : ∀ {name}, (∀ other ∈ done ++ [statement], other.target? ≠ some name) →
      (∀ other ∈ done, other.target? ≠ some name) ∧ statement.target? ≠ some name := by
    intro name untouched
    exact ⟨fun other member => untouched other (by simp [member]), untouched statement (by simp)⟩
  constructor
  case names =>
    intro name
    rw [stepped.names, performed.names]
    simp only [List.mem_append, List.mem_singleton, or_and_right, exists_or, exists_eq_left]
    rw [or_assoc, or_or_or_comm]
  case kept =>
    intro name value bound untouched
    obtain ⟨early, late⟩ := last untouched
    have before := performed.kept name value bound early
    rcases stepped.other name late with same | ⟨missing, -, -⟩
    · exact same.trans before
    · rw [missing] at before
      cases before
  case symbols =>
    intro name member missing untouched
    obtain ⟨early, late⟩ := last untouched
    rcases stepped.other name late with same | ⟨-, -, symbol⟩
    · have present : name ∈ middle.scopes.globals.names := by
        rw [Frame.mem_names, ← same]
        exact (Frame.mem_names after name).mp member
      exact same.trans (performed.symbols name present missing early)
    · exact symbol
  case declared =>
    rintro name ⟨declaration, member, target⟩
    by_cases here : statement.target? = some name
    · obtain ⟨value, gives, bound⟩ := stepped.target name here
      exact ⟨done, statement, [], result, middle, value, rfl, by simp, run, gives, bound⟩
    · have early : declaration ∈ done := by
        rcases List.mem_append.mp member with early | late
        · exact early
        · rw [List.mem_singleton.mp late] at target
          exact absurd target here
      obtain ⟨earlier, giver, later, given, start, value, split, untouched, before, gives, bound⟩ :=
        performed.declared name ⟨declaration, early, target⟩
      refine ⟨earlier, giver, later ++ [statement], given, start, value, by simp [split], ?_, before, gives, ?_⟩
      · intro other late
        rcases List.mem_append.mp late with within | final
        · exact untouched other within
        · rwa [List.mem_singleton.mp final]
      · rcases stepped.other name here with same | ⟨missing, -, -⟩
        · exact same.trans bound
        · rw [missing] at bound
          cases bound

theorem interpret_performed {done : List Statement} {machine after : Machine} {result : Value}
    (run : interpret renderer depth done machine = (.ok result, after)) (global : machine.scopes.outer = []) :
    Performed renderer depth done machine after.scopes.globals := by
  induction done using List.reverseRecOn generalizing result after with
  | nil =>
    cases run
    exact .nil machine
  | append_singleton done statement ih =>
    rw [interpret_snoc] at run
    obtain ⟨earlier, middle, early, late⟩ := bind_ok run
    have here : middle.scopes.outer = [] := (interpret_still early).1.trans global
    exact (ih early).snoc early (execute_stepped (execute_executed late) here)

/-- A statement that stops leaves free symbols behind at most, and only for the names it
looks up itself. -/
def Abandoned (statement : Statement) (before after : Frame Value) : Prop :=
  ∀ name, after.get? name = before.get? name ∨
    before.get? name = none ∧ name ∈ statement.looksUp ∧ after.get? name = some (.unbound name)

theorem Abandoned.keeps {statement : Statement} {before after : Frame Value} (abandoned : Abandoned statement before after)
    {name : String} {value : Value} (bound : before.get? name = some value) : after.get? name = some value := by
  rcases abandoned name with same | ⟨missing, -, -⟩
  · exact same.trans bound
  · rw [missing] at bound
    cases bound

theorem execute_abandoned {statement : Statement} {machine after : Machine} {stop : Stop}
    (ended : statement.execute renderer depth machine = (.error stop, after)) (global : machine.scopes.outer = []) :
    Abandoned statement machine.scopes.globals after.scopes.globals := by
  intro name
  have grown := (execute_stopped ended).1
  rw [globals_get? global, globals_get? (grown.outer.trans global)]
  exact grown.get? name

/-- How far a batch came, on which machine that left it, and what it made of the global frame. -/
structure Frames (renderer : Option Renderer) (depth : Nat) (machine : Machine) (done rest : List Statement)
    (middle : Machine) (ended : Except Stop Value) (after : Frame Value) : Prop where
  run : ∃ last, interpret renderer depth done machine = (.ok last, middle)
  performed : Performed renderer depth done machine middle.scopes.globals
  kept : ∀ name value, machine.scopes.globals.get? name = some value →
    (∀ statement ∈ done, statement.target? ≠ some name) → after.get? name = some value
  remaining : ∀ name ∈ machine.scopes.globals.names, name ∈ after.names
  succeeded : ∀ value, ended = .ok value → rest = [] ∧ after = middle.scopes.globals
  failed : ∀ stop, ended = .error stop → ∃ statement later, rest = statement :: later ∧
    (statement.execute renderer depth middle).1 = .error stop ∧ Abandoned statement middle.scopes.globals after

theorem interpret_frames {statements : List Statement} {machine final : Machine} {ended : Except Stop Value}
    (run : interpret renderer depth statements machine = (ended, final)) (global : machine.scopes.outer = []) :
    ∃ done rest middle, statements = done ++ rest ∧
      Frames renderer depth machine done rest middle ended final.scopes.globals := by
  have whole := interpret_ended renderer depth statements machine
  rw [run] at whole
  cases whole with
  | @finished value _ run =>
    have performed := interpret_performed run global
    refine ⟨statements, [], final, (List.append_nil statements).symm, ⟨value, run⟩, performed, performed.kept, ?_, ?_, ?_⟩
    · intro name member
      exact (performed.names name).mpr (.inl member)
    · intro value _
      exact ⟨rfl, rfl⟩
    · intro stop impossible
      cases impossible
  | @stopped done later statement value middle _ stop split early stopped =>
    have performed := interpret_performed early global
    have abandoned := execute_abandoned stopped ((interpret_still early).1.trans global)
    refine ⟨done, statement :: later, middle, split, ⟨value, early⟩, performed, ?_, ?_, ?_, ?_⟩
    · intro name value bound untouched
      exact abandoned.keeps (performed.kept name value bound untouched)
    · intro name member
      obtain ⟨value, bound⟩ := (Frame.mem_names _ name).mp ((performed.names name).mpr (.inl member))
      exact (Frame.mem_names _ name).mpr ⟨value, abandoned.keeps bound⟩
    · intro value impossible
      cases impossible
    · intro value ended
      cases ended
      exact ⟨statement, later, rfl, by rw [stopped], abandoned⟩

/-- What a text leaves behind in the global scope, at whichever statement it ends. -/
theorem evaluate_frames_globals {session : Session} (reached : session.Reachable) (host : Host) (text : String) :
    let result := (session.evaluate host text).1
    let after := (session.evaluate host text).2
    after.scopes.atGlobals ∧
    (∀ name ∈ session.globals.names, name ∈ after.globals.names) ∧
    (∀ stop, Grammar.ofText host.depth text.toList = .error stop → after = session) ∧
    ∀ statements, Grammar.ofText host.depth text.toList = .ok statements →
      ∃ done rest middle ended, statements = done ++ rest ∧ result.outcome = ended.mapError Stop.trouble ∧
        Frames host.renderer host.depth session.machine done rest middle ended after.globals := by
  have global : session.scopes.outer = [] := reachable_global reached
  cases read : Grammar.ofText host.depth text.toList with
  | error stop =>
    rw [evaluate_unread read]
    refine ⟨by simp [Chain.atGlobals, global], fun name member => member, fun _ _ => rfl, ?_⟩
    intro statements impossible
    cases impossible
  | ok statements =>
    rcases run : interpret host.renderer host.depth statements session.machine with ⟨ended, final⟩
    obtain ⟨done, rest, middle, split, frames⟩ := interpret_frames run global
    have stays : final.scopes.outer = [] := (interpret_still run).1.trans global
    rw [evaluate_read read run]
    refine ⟨by simp [Chain.atGlobals, stays], frames.remaining, ?_, ?_⟩
    · intro stop impossible
      cases impossible
    · intro value ended
      cases ended
      exact ⟨done, rest, middle, ended, split, rfl, frames⟩

theorem evaluate_frames_globals_twice :
    let host : Host := { renderer := some .accepting }
    let session := (Session.start.evaluate host "f(x) = y + x").2
    let after := (session.evaluate host "a = b print f(b) c").2
    session.Reachable ∧ after.scopes.atGlobals ∧ ∀ name ∈ session.globals.names, name ∈ after.globals.names := by
  intro host session after
  have reached : session.Reachable := .evaluate .start host "f(x) = y + x"
  have frames := evaluate_frames_globals reached host "a = b print f(b) c"
  exact ⟨reached, frames.1, frames.2.1⟩

end Reckoner.Proofs.BatchFrame
