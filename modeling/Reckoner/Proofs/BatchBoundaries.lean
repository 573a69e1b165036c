import Reckoner.Proofs.ParallelRuns

/-! Where one batch ends and the next begins shows in the sites of failures and nowhere
else. A function remembers the batch that declared it, and a failure that leaves it looks
at that memory to find its site; nothing else does. -/

namespace Reckoner

/-- The function without its memory of the batch that declared it. -/
def Function.batchless : Function → Function
  | .builtin which => .builtin which
  | .declared declaration _ => .declared declaration none

def Value.batchless : Value → Value := Value.mapFunction Function.batchless

def Trouble.unsited : Trouble → Trouble
  | .failure told => .failure told.unsited
  | .fault cause => .fault cause

/-- What a batch comes to, apart from sites and from the batches of functions. -/
def Result.batchless (result : Result) : Result :=
  ⟨(result.outcome.map Value.batchless).mapError Trouble.unsited, result.events⟩

namespace Session

/-- The global scope, apart from the batches of functions. -/
def batchless (session : Session) : Frame Value := session.globals.mapValues Value.batchless

/-- Runs one batch after the other, whatever becomes of them. -/
def runBatches (host : Host) : Session → List (List Statement) → List (Result × Session)
  | _, [] => []
  | session, batch :: rest => session.runBatch host batch :: runBatches host (session.runBatch host batch).2 rest

end Session

namespace Proofs.BatchBoundaries
open Run Likeness EvaluationFrame BatchExecution ParallelRuns

variable {renderer : Option Renderer} {depth : Nat}

/-- The same trees at the same depth, whichever batches they belong to. The first run may have shown
something before. -/
def regardless (before : List Event) : Likeness := .verbatim False False False before id

theorem functions_batchless {before : List Event} {function other : Function}
    (like : (regardless before).Functions function other) : function.batchless = other.batchless := by
  cases like with
  | builtin which => rfl
  | declared _ like => rw [Function.batchless, Function.batchless, verbatim_declaration like id]

theorem regardless_implies (before : List Event) : (regardless before).Implies (regardless []) :=
  ⟨Iff.rfl, id, id, id⟩

/-- Sessions that differ in the batches of their functions at most. -/
def Akin (session other : Session) : Prop := (regardless []).Chains session.scopes other.scopes

theorem Akin.batchless {session other : Session} (akin : Akin session other) : session.batchless = other.batchless :=
  akin.globals_eq functions_batchless

theorem results_batchless {before : List Event} {origin : Origin} {result other : Except Stop Value}
    (like : (regardless before).Results origin (regardless before).Values result other) (events : List Event) :
    (Result.mk (result.mapError Stop.trouble) events).batchless = (Result.mk (other.mapError Stop.trouble) events).batchless := by
  cases like with
  | ok like => exact congrArg (fun value => Result.mk (.ok value) events) (like.map_eq functions_batchless)
  | error stops =>
    cases stops with
    | tooDeep | broken => rfl
    | @failed failure told failures =>
      have same : failure.unsited = told.unsited := by
        rw [Failure.unsited, Failure.unsited, failures.cause, failures.hint]
      exact congrArg (fun failure => Result.mk (.error (.failure failure)) events) same

/-- The second batch runs alike on the machine that the first one left and on a new one. -/
theorem interpret_regardless {before : List Event} {origin : Origin} {machine opposite after final : Machine}
    {statements : List Statement} {result ended : Except Stop Value}
    (machines : (regardless before).Machines origin machine opposite)
    (run : interpret renderer depth statements machine = (result, after))
    (again : interpret renderer depth statements opposite = (ended, final)) :
    (regardless before).Results origin (regardless before).Values result ended ∧
      (regardless before).Machines origin after final := by
  have depths : (regardless before).Depths depth depth := ⟨Nat.le_refl _, .inl rfl⟩
  have ends := interpret_matches renderer depths (verbatim_statements_refl id statements) machine opposite machines
  rw [run, again] at ends
  exact ends.agree id

theorem Akin.runBatch {session other : Session} (akin : Akin session other) (host : Host) (statements : List Statement) :
    (session.runBatch host statements).1.batchless = (other.runBatch host statements).1.batchless ∧
      Akin (session.runBatch host statements).2 (other.runBatch host statements).2 := by
  rcases run : interpret host.renderer host.depth statements session.machine with ⟨result, after⟩
  rcases again : interpret host.renderer host.depth statements other.machine with ⟨ended, final⟩
  have machines : (regardless []).Machines (some session.batches) session.machine other.machine :=
    ⟨akin, rfl, False.elim, rfl⟩
  obtain ⟨results, states⟩ := interpret_regardless machines run again
  rw [Session.runBatch_eq run, Session.runBatch_eq again]
  refine ⟨?_, states.scopes⟩
  rw [show after.events.toList = final.events.toList from states.events]
  exact results_batchless results _

theorem Akin.runBatches (host : Host) (batches : List (List Statement)) {session other : Session}
    (akin : Akin session other) :
    (session.runBatches host batches).map (fun ended => (ended.1.batchless, ended.2.batchless)) =
      (other.runBatches host batches).map (fun ended => (ended.1.batchless, ended.2.batchless)) := by
  induction batches generalizing session other with
  | nil => rfl
  | cons batch rest ih =>
    obtain ⟨result, after⟩ := akin.runBatch host batch
    simp only [Session.runBatches, List.map_cons, result, after.batchless, ih after]

theorem Akin.evaluate {session other : Session} (akin : Akin session other) (host : Host) (text : String) :
    (session.evaluate host text).1.batchless = (other.evaluate host text).1.batchless ∧
      Akin (session.evaluate host text).2 (other.evaluate host text).2 := by
  cases read : Grammar.ofText host.depth text.toList with
  | error stop =>
    rw [evaluate_unread read, evaluate_unread read]
    exact ⟨rfl, akin⟩
  | ok statements =>
    rw [Session.evaluate_eq_runBatch read, Session.evaluate_eq_runBatch read]
    exact akin.runBatch host statements

theorem Akin.evaluateAll (host : Host) (texts : List String) {session other : Session} (akin : Akin session other) :
    (session.evaluateAll host texts).map (fun ended => (ended.1.batchless, ended.2.batchless)) =
      (other.evaluateAll host texts).map (fun ended => (ended.1.batchless, ended.2.batchless)) := by
  induction texts generalizing session other with
  | nil => rfl
  | cons text rest ih =>
    obtain ⟨result, after⟩ := akin.evaluate host text
    simp only [Session.evaluateAll, List.map_cons, result, after.batchless, ih after]

theorem interpret_append (first : List Statement) {second : List Statement} (more : second ≠ []) :
    interpret renderer depth (first ++ second) =
      (interpret renderer depth first >>= fun _ => interpret renderer depth second) := by
  unfold interpret
  rw [List.foldlM_append]
  apply bind_congr
  intro value
  cases second with
  | nil => exact absurd rfl more
  | cons statement rest => rw [List.foldlM_cons, List.foldlM_cons]

/-- Statements that run as one batch, and the same statements that run as two, come to the same
apart from sites and from the batches of functions, and so does whatever runs after them. What
stops among the first statements stops both, and then nothing of the others has run. -/
theorem boundary_shows_in_sites (host : Host) (session : Session) (first : List Statement) {second : List Statement}
    (more : second ≠ []) :
    let joint := session.runBatch host (first ++ second)
    let alone := session.runBatch host first
    (∀ trouble, alone.1.outcome = .error trouble → joint = alone) ∧
    ∀ value, alone.1.outcome = .ok value →
      let behind := alone.2.runBatch host second
      joint.1.batchless = ⟨behind.1.batchless.outcome, alone.1.events ++ behind.1.events⟩ ∧
      joint.2.batchless = behind.2.batchless ∧
      (∀ batches, (joint.2.runBatches host batches).map (fun ended => (ended.1.batchless, ended.2.batchless)) =
        (behind.2.runBatches host batches).map fun ended => (ended.1.batchless, ended.2.batchless)) ∧
      ∀ texts, (joint.2.evaluateAll host texts).map (fun ended => (ended.1.batchless, ended.2.batchless)) =
        (behind.2.evaluateAll host texts).map fun ended => (ended.1.batchless, ended.2.batchless) := by
  rcases start : interpret host.renderer host.depth first session.machine with ⟨stop | last, middle⟩
  · have whole : interpret host.renderer host.depth (first ++ second) session.machine = (.error stop, middle) := by
      rw [interpret_append first more]
      exact bind_stops start _
    rw [Session.runBatch_eq start, Session.runBatch_eq whole]
    refine ⟨fun _ _ => rfl, fun value impossible => ?_⟩
    cases impossible
  · rw [Session.runBatch_eq start]
    constructor
    · intro trouble impossible
      cases impossible
    intro value _
    let fresh : Session := ⟨middle.scopes, middle.origin, session.batches + 1⟩
    rcases run : interpret host.renderer host.depth second middle with ⟨result, after⟩
    rcases again : interpret host.renderer host.depth second fresh.machine with ⟨ended, final⟩
    have whole : interpret host.renderer host.depth (first ++ second) session.machine = (result, after) := by
      rw [interpret_append first more]
      exact (bind_continues start _).trans run
    have machines : (regardless middle.events.toList).Machines middle.origin middle fresh.machine :=
      ⟨verbatim_chain_refl id middle.scopes, rfl, False.elim, by simp [regardless, verbatim, fresh, Session.machine]⟩
    obtain ⟨results, states⟩ := interpret_regardless machines run again
    have akin : Akin ⟨after.scopes, after.origin, session.batches + 1⟩ ⟨final.scopes, final.origin, fresh.batches + 1⟩ :=
      states.scopes.weaken (regardless_implies _)
    rw [Session.runBatch_eq whole, Session.runBatch_eq again]
    refine ⟨?_, akin.batchless, akin.runBatches host, akin.evaluateAll host⟩
    rw [results_batchless results, show after.events.toList = middle.events.toList ++ final.events.toList from states.events]
    rfl

/-- Of the text `f(x) = x(x) f(sin)`, the function. -/
def declaring : Statement :=
  .declare ⟨⟨.name, "f", none, 1, ⟨0, 1⟩⟩, [⟨.name, "x", none, 1, ⟨2, 3⟩⟩],
    .call (.symbol ⟨.name, "x", none, 1, ⟨7, 8⟩⟩) [.symbol ⟨.name, "x", none, 1, ⟨9, 10⟩⟩]
      ⟨.mark .closing, ")", none, 1, ⟨10, 11⟩⟩⟩

/-- Of the same text, the call. -/
def calling : Statement :=
  .expression (.call (.symbol ⟨.name, "f", none, 1, ⟨12, 13⟩⟩) [.symbol ⟨.name, "sin", none, 1, ⟨14, 17⟩⟩]
    ⟨.mark .closing, ")", none, 1, ⟨17, 18⟩⟩)

-- As one batch, the sine is refused inside the body; as two, the call has to take the blame.
theorem boundary_shows_in_sites_moved :
    let host : Host := { renderer := none }
    let joint := Session.start.runBatch host ([declaring] ++ [calling])
    let alone := Session.start.runBatch host [declaring]
    let behind := alone.2.runBatch host [calling]
    (∃ failure, joint.1.outcome = .error (.failure failure) ∧ failure.site = some ⟨7, 11⟩) ∧
    (∃ failure, behind.1.outcome = .error (.failure failure) ∧ failure.site = some ⟨12, 18⟩) ∧
    joint.1.batchless = behind.1.batchless := by
  intro host joint alone behind
  have agreed := (boundary_shows_in_sites host Session.start [declaring] (List.cons_ne_nil calling [])).2 .nothing rfl
  exact ⟨⟨_, rfl, rfl⟩, ⟨_, rfl, rfl⟩, agreed.1⟩

end Proofs.BatchBoundaries

end Reckoner
