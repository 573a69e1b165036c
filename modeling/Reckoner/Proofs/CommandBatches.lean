import Reckoner.Command
import Reckoner.Proofs.SessionSafety

/-! What becomes of the batches of a command line. They take turns in one session until
the third one fails, and everything that the run writes can be told from those turns:
each has its own stretch of the output, and the failed ones are complained about together
in the end. -/

namespace Reckoner

namespace Command

/-- A batch that had its turn: what it came to, and the session it left behind. -/
structure Turn where
  label : String
  text : String
  result : Result
  session : Session

def Drawing.host (drawing : Drawing) : Host := { renderer := drawing.renderer }

/-- What is written where an event is shown. -/
def Drawing.written (drawing : Drawing) : Event → String
  | .printed line => line ++ "\n"
  | .plotted points =>
    match drawing with
    | .text => Chart.written .usual points
    | .hidden | .window => ""

/-- The plots among events, each of which is shown in a window of its own. -/
def Drawing.windowed (drawing : Drawing) (events : List Event) : List (List (Point Float)) :=
  match drawing with
  | .window => events.filterMap fun
    | .printed _ => none
    | .plotted points => some points
  | .hidden | .text => []

/-- One window after the other, with the signals that are left for later ones. -/
def windows : List (List (Point Float)) → Screen.Script → List Screen.Call × Screen.Script
  | [], script => ([], script)
  | points :: rest, script =>
    let trace := Screen.display .usual points script
    let (calls, left) := windows rest trace.script
    (trace.calls ++ calls, left)

namespace Turn

/-- The turn of a batch, given by its label and its text, that came to this. -/
def ofBatch (batch : String × String) (ended : Result × Session) : Turn := ⟨batch.1, batch.2, ended.1, ended.2⟩

/-- The turns of batches in one session, as if all of them had one. -/
def all (host : Host) (session : Session) (batches : List (String × String)) : List Turn :=
  List.zipWith ofBatch batches (session.evaluateAll host (batches.map Prod.snd))

def failure? (turn : Turn) : Option Failure :=
  match turn.result.outcome with
  | .error (.failure failure) => some failure
  | .error (.fault _) | .ok _ => none

def issue? (turn : Turn) : Option Issue := turn.failure?.map (.ofFailure .usual turn.label turn.text)

/-- What a turn printed and plotted, and its value if it has one. -/
def output (drawing : Drawing) (turn : Turn) : String :=
  String.join (turn.result.events.map drawing.written) ++
    match turn.result.outcome with
    | .ok value => value.render ++ "\n"
    | .error _ => ""

/-- What is written in a turn: a note on its beginning, what it shows, and its value. -/
def writes (drawing : Drawing) (verbose : Bool) (turn : Turn) : Writes :=
  (if verbose then [(.stderr, "Evaluating" ++ " " ++ turn.label ++ "\n")] else []) ++
    turn.result.events.flatMap (fun event => writing .stdout (drawing.written event)) ++
    match turn.result.outcome with
    | .ok value => [(.stdout, value.render ++ "\n")]
    | .error _ => []

/-- The issues of the turns that failed. -/
def issues (turns : List Turn) : List Issue := turns.filterMap issue?

end Turn

/-- The complaint about the turns that failed: all their issues, below an outburst. -/
def complaint (picks : List Int) (turns : List Turn) : String :=
  if Turn.issues turns = [] then "" else
    Report.banner ++ "\n" ++ Report.outburst picks ++ "\n" ++
      String.join ((Turn.issues turns).map fun issue => Report.ruler ++ "\n" ++ issue.text ++ "\n")

/-- The last word of a run that was broken off. -/
def resignation (turns : List Turn) : String :=
  if (Turn.issues turns).length = 3 then "Too many failures; the remaining batches were skipped.\n" else ""

/-- What a run writes and shows, told from its turns. It writes turn by turn, and the complaint behind them all. -/
structure Account (drawing : Drawing) (verbose : Bool) (picks : List Int) (script : Screen.Script) (turns : List Turn)
    (transcript : Transcript) : Prop where
  status : transcript.status = .exited (if Turn.issues turns = [] then 0 else 1)
  stdout : transcript.stdout = String.join (turns.map (Turn.output drawing))
  calls : transcript.calls = (windows (turns.flatMap fun turn => drawing.windowed turn.result.events) script).1
  stderr : transcript.stderr =
    (if verbose then String.join (turns.map fun turn => "Evaluating" ++ " " ++ turn.label ++ "\n") else "") ++
      complaint picks turns ++ resignation turns
  order : transcript.writes = turns.flatMap (Turn.writes drawing verbose) ++ writing .stderr (complaint picks turns) ++
    writing .stderr (resignation turns)

/-- So many of the turns are taken: all if fewer fail than it takes, or else those up to the failure that
is one too many. -/
inductive Cutoff (limit : Nat) (turns : List Turn) : Nat → Prop
  | never (few : (Turn.issues turns).length < limit) : Cutoff limit turns turns.length
  | early {done later : List Turn} {last : Turn} (split : turns = done ++ last :: later)
      (before : (Turn.issues done).length + 1 = limit) (fails : last.issue?.isSome) : Cutoff limit turns (done.length + 1)

/-- Whatever is plotted in a turn can be drawn. -/
def Turn.Drawn (drawing : Drawing) (turn : Turn) : Prop :=
  ∀ points, .plotted points ∈ turn.result.events → ∀ draw, drawing.renderer = some draw → draw points = .ok ()

/-- Whatever is plotted before too many turns have failed can be drawn. -/
def Drawable (drawing : Drawing) (limit : Nat) (turns : List Turn) : Prop :=
  ∀ done turn later, turns = done ++ turn :: later → (Turn.issues done).length < limit → turn.Drawn drawing

/-- The batch of a program file, if there is one that can be read and decoded. -/
inductive Opens : Option Source → List (String × String) → Prop
  | none : Opens none []
  | file {source : Source} {bytes : List UInt8} {chars : List Char} (named : '\x00' ∉ source.name.toList)
      (read : source.contents = .ok bytes) (decoded : Text.Utf8.decode bytes = .ok chars) :
    Opens (some source) [(source.label, String.ofList (Text.unifyBreaks chars))]

def Batch.of (batch : String × String) : Batch := ⟨batch.1, some batch.2⟩

/-- Expressions are numbered from one. -/
def labelled (expressions : List String) : List (String × String) :=
  expressions.mapIdx fun i text => ("expression " ++ toString (i + 1), text)

namespace Ongoing

/-- The state of a run before its first batch. -/
def opening (verbose : Bool) (script : Screen.Script) : Ongoing :=
  ⟨.start, .start verbose Report.usualLimit, [], [], script⟩

/-- The state of a run after a further turn. -/
def heed (drawing : Drawing) (run : Ongoing) (turn : Turn) : Ongoing :=
  let shown := turn.result.events.foldl (showEvent drawing) { run.announce turn.label with session := turn.session }
  match turn.result.outcome with
  | .ok value => shown.write .stdout (value.render ++ "\n")
  | .error (.failure failure) => { shown with report := shown.report.add .usual turn.label turn.text failure }
  | .error (.fault _) => shown

/-- How a run ends if nothing broke it. -/
def closing (run : Ongoing) (picks : List Int) : Transcript :=
  let resigned := if run.report.full then "Too many failures; the remaining batches were skipped.\n" else ""
  ((run.complain picks).write .stderr resigned).transcript (.exited (if run.report.sick then 1 else 0))

end Ongoing

end Command

namespace Proofs.CommandBatches
open Command BatchExecution SessionSafety

section Turns

variable {drawing : Drawing} {turn : Turn} {turns : List Turn}

theorem all_cons (host : Host) (session : Session) (batch : String × String) (rest : List (String × String)) :
    Turn.all host session (batch :: rest) = .ofBatch batch (session.evaluate host batch.2) ::
      Turn.all host (session.evaluate host batch.2).2 rest := rfl

@[simp] theorem issues_nil : Turn.issues [] = [] := rfl

@[simp] theorem issues_cons : Turn.issues (turn :: turns) = turn.issue?.toList ++ Turn.issues turns := by
  cases issue : turn.issue? <;> simp [Turn.issues, issue]

theorem windows_append (first second : List (List (Point Float))) (script : Screen.Script) :
    windows (first ++ second) script =
      ((windows first script).1 ++ (windows second (windows first script).2).1,
        (windows second (windows first script).2).2) := by
  induction first generalizing script with
  | nil => rfl
  | cons points rest ih =>
    simp only [List.cons_append, windows, ih, List.append_assoc]

theorem cutoff_first {limit : Nat} (last : turn.issue?.toList.length = limit) (positive : 0 < limit) :
    Cutoff limit (turn :: turns) 1 := by
  cases issue : turn.issue? with
  | none =>
    rw [issue, Option.toList_none, List.length_nil] at last
    omega
  | some told =>
    rw [issue] at last
    exact @Cutoff.early _ _ [] turns turn rfl last (by rw [issue]; rfl)

theorem cutoff_cons {limit count : Nat} (cutoff : Cutoff limit turns count) (turn : Turn) :
    Cutoff (limit + turn.issue?.toList.length) (turn :: turns) (count + 1) := by
  cases cutoff with
  | never few =>
    refine .never ?_
    rw [issues_cons, List.length_append]
    omega
  | @early done later last split before fails =>
    refine @Cutoff.early _ _ (turn :: done) later last (by rw [split]; rfl) ?_ fails
    rw [issues_cons, List.length_append]
    omega

theorem drawable_cons {limit : Nat} :
    Drawable drawing (limit + turn.issue?.toList.length) (turn :: turns) ↔
      (0 < limit + turn.issue?.toList.length → turn.Drawn drawing) ∧ Drawable drawing limit turns := by
  constructor
  · intro drawable
    refine ⟨fun positive => drawable [] turn turns rfl positive, fun done other later split few => ?_⟩
    refine drawable (turn :: done) other later (by rw [split]; rfl) ?_
    rw [issues_cons, List.length_append]
    omega
  · intro ⟨first, rest⟩ done other later split few
    cases done with
    | nil =>
      obtain ⟨rfl, -⟩ := List.cons.inj split
      exact first few
    | cons head done =>
      obtain ⟨rfl, same⟩ := List.cons.inj split
      rw [issues_cons, List.length_append] at few
      exact rest done other later same (by omega)

end Turns

section States

variable {drawing : Drawing} {picks : List Int}

@[simp] theorem writing_empty (stream : Stream) : writing stream "" = [] := rfl

theorem writing_line (stream : Stream) (text : String) : writing stream (text ++ "\n") = [(stream, text ++ "\n")] := by
  rw [writing, if_neg (by simp)]

theorem writing_note (report : Report) (label : String) : writing .stderr (report.note ["Evaluating", label]) =
    if report.verbose then [(.stderr, "Evaluating" ++ " " ++ label ++ "\n")] else [] := by
  rw [Report.note]
  split
  next => exact writing_line .stderr _
  next => rfl

theorem shown_eq (events : List Event) (run : Ongoing) :
    events.foldl (Ongoing.showEvent drawing) run =
      { run with
        writes := run.writes ++ events.flatMap fun event => writing .stdout (drawing.written event)
        calls := run.calls ++ (windows (drawing.windowed events) run.script).1
        script := (windows (drawing.windowed events) run.script).2 } := by
  induction events generalizing run with
  | nil => cases drawing <;> simp [Drawing.windowed, windows]
  | cons event rest ih =>
    rw [List.foldl_cons, ih]
    cases event <;> cases drawing <;>
      simp [Ongoing.showEvent, Ongoing.write, Drawing.windowed, Drawing.written, windows]

theorem heed_eq (run : Ongoing) (turn : Turn) :
    run.heed drawing turn =
      { session := turn.session
        report := { run.report with issues := run.report.issues ++ turn.issue?.toList }
        writes := run.writes ++ turn.writes drawing run.report.verbose
        calls := run.calls ++ (windows (drawing.windowed turn.result.events) run.script).1
        script := (windows (drawing.windowed turn.result.events) run.script).2 } := by
  unfold Ongoing.heed Turn.writes Turn.issue? Turn.failure?
  rw [shown_eq]
  split <;> simp [Ongoing.announce, Ongoing.write, Report.add, writing_note, writing_line, *]

@[simp] theorem heed_session (run : Ongoing) (turn : Turn) : (run.heed drawing turn).session = turn.session := by
  rw [heed_eq]

@[simp] theorem heed_limit (run : Ongoing) (turn : Turn) : (run.heed drawing turn).report.limit = run.report.limit := by
  rw [heed_eq]

@[simp] theorem heed_issues (run : Ongoing) (turn : Turn) :
    (run.heed drawing turn).report.issues = run.report.issues ++ turn.issue?.toList := by
  rw [heed_eq]

theorem heedAll_eq (turns : List Turn) (run : Ongoing) :
    turns.foldl (Ongoing.heed drawing) run =
      { session := turns.foldl (fun _ turn => turn.session) run.session
        report := { run.report with issues := run.report.issues ++ Turn.issues turns }
        writes := run.writes ++ turns.flatMap (Turn.writes drawing run.report.verbose)
        calls := run.calls ++ (windows (turns.flatMap fun turn => drawing.windowed turn.result.events) run.script).1
        script := (windows (turns.flatMap fun turn => drawing.windowed turn.result.events) run.script).2 } := by
  induction turns generalizing run with
  | nil => simp [windows]
  | cons turn rest ih =>
    rw [List.foldl_cons, ih, heed_eq]
    simp [windows_append]

theorem complaint_eq {report : Report} {turns : List Turn} (told : report.issues = Turn.issues turns) :
    report.complaint picks = complaint picks turns := by
  rw [Report.complaint, Report.sick, complaint, told]
  cases Turn.issues turns <;> rfl

theorem resignation_eq {report : Report} {turns : List Turn} (told : report.issues = Turn.issues turns)
    (usual : report.limit = 3) :
    (if report.full then "Too many failures; the remaining batches were skipped.\n" else "") = resignation turns := by
  simp only [Report.full, resignation, told, usual, beq_iff_eq]

section Streams

variable {stream : Stream} {text : String}

theorem to_append (first second : Writes) : Writes.to (first ++ second) stream = first.to stream ++ second.to stream := by
  simp [Writes.to]

theorem to_writing : (writing stream text).to stream = text := by
  rw [writing]
  split
  next empty => simp [Writes.to, empty]
  next => simp [Writes.to]

theorem to_writing_other {other : Stream} (apart : stream ≠ other) : (writing stream text).to other = "" := by
  rw [writing]
  split <;> simp [Writes.to, apart]

theorem to_flatMap {α : Type} (items : List α) (writes : α → Writes) :
    Writes.to (items.flatMap writes) stream = String.join (items.map fun item => (writes item).to stream) := by
  induction items with
  | nil => rfl
  | cons item rest ih => rw [List.flatMap_cons, to_append, ih, List.map_cons, String.join_cons]

theorem join_empty {α : Type} (items : List α) : String.join (items.map fun _ => "") = "" := by
  induction items with
  | nil => rfl
  | cons item rest ih => rw [List.map_cons, String.join_cons, ih, String.append_empty]

theorem turn_stdout (drawing : Drawing) (verbose : Bool) (turn : Turn) :
    (turn.writes drawing verbose).to .stdout = turn.output drawing := by
  have note : Writes.to (if verbose then [(.stderr, "Evaluating" ++ " " ++ turn.label ++ "\n")] else []) .stdout = "" := by
    cases verbose <;> rfl
  rw [Turn.writes, Turn.output, to_append, to_append, to_flatMap, note, String.empty_append]
  simp only [to_writing]
  congr 1
  split
  next => simp [Writes.to]
  next => rfl

theorem turn_stderr (drawing : Drawing) (verbose : Bool) (turn : Turn) :
    (turn.writes drawing verbose).to .stderr = if verbose then "Evaluating" ++ " " ++ turn.label ++ "\n" else "" := by
  have plain : Stream.stdout ≠ .stderr := nofun
  rw [Turn.writes, to_append, to_append, to_flatMap]
  simp only [to_writing_other plain, join_empty]
  cases turn.result.outcome <;> cases verbose <;> simp [Writes.to]

end Streams

/-- A run that ends after some turns says what is to be said about them. -/
theorem closing_accounts (verbose : Bool) (script : Screen.Script) (turns : List Turn) :
    Account drawing verbose picks script turns
      ((turns.foldl (Ongoing.heed drawing) (.opening verbose script)).closing picks) := by
  rw [heedAll_eq]
  generalize same : Ongoing.closing _ picks = transcript
  have status : transcript.status = .exited (if Turn.issues turns = [] then 0 else 1) := by
    rw [← same]
    refine congrArg Status.exited ?_
    cases Turn.issues turns <;> simp [Report.sick, Ongoing.opening, Report.start]
  have order : transcript.writes = turns.flatMap (Turn.writes drawing verbose) ++
      writing .stderr (complaint picks turns) ++ writing .stderr (resignation turns) := by
    rw [← same]
    have told : (Report.mk verbose 3 ([] ++ Turn.issues turns)).issues = Turn.issues turns := List.nil_append _
    rw [← complaint_eq told, ← resignation_eq told rfl]
    rfl
  have plain : Stream.stderr ≠ .stdout := nofun
  refine ⟨status, ?_, ?_, ?_, order⟩
  · rw [Transcript.stdout, order, to_append, to_append, to_flatMap, to_writing_other plain, to_writing_other plain]
    simp only [turn_stdout, String.append_empty]
  · rw [← same]
    rfl
  · rw [Transcript.stderr, order, to_append, to_append, to_flatMap, to_writing, to_writing]
    simp only [turn_stderr]
    cases verbose with
    | false =>
      simp only [Bool.false_eq_true, if_false, join_empty]
    | true => rfl

theorem full_eq_false {report : Report} (room : report.issues.length < report.limit) : report.full = false := by
  simp only [Report.full, beq_eq_false_iff_ne]
  omega

/-- Only a plot that cannot be drawn breaks a batch. -/
theorem evaluate_unbroken {session : Session} (reached : session.Reachable) {batch : String × String}
    (drawn : (Turn.ofBatch batch (session.evaluate drawing.host batch.2)).Drawn drawing) (fault : Fault) :
    (Turn.ofBatch batch (session.evaluate drawing.host batch.2)).result.outcome ≠ .error (.fault fault) := by
  have course := evaluate_course reached drawing.host batch.2
  generalize session.evaluate drawing.host batch.2 = ended at course drawn
  cases course with
  | stray | refused | steep => exact nofun
  | @run _ _ result after scanned read traced kinds =>
    unfold Turn.Drawn Turn.ofBatch at drawn
    dsimp only at drawn
    intro told
    have broken := (told_fault fault).mp told
    generalize after.events.toList = events at traced drawn
    cases traced with
    | calm unbroken => exact unbroken fault broken
    | @broken earlier points _ _ breaks =>
      obtain ⟨-, draw, same, refused⟩ := breaks
      cases refused.symm.trans (drawn points (by simp) draw same)

/-- One more turn, after which the run ends if it was one failure too many. -/
theorem carryOn_heed {run : Ongoing} {batch : String × String} {turn : Turn}
    (taken : Turn.ofBatch batch (run.session.evaluate drawing.host batch.2) = turn)
    (unbroken : ∀ fault, turn.result.outcome ≠ .error (.fault fault)) (room : run.report.issues.length < run.report.limit)
    (rest : List Batch) :
    run.carryOn drawing picks (.of batch :: rest) =
      if (run.heed drawing turn).report.full then (run.heed drawing turn).closing picks
      else (run.heed drawing turn).carryOn drawing picks rest := by
  obtain ⟨label, text⟩ := batch
  subst taken
  have same : run.session.evaluate { renderer := drawing.renderer } text = run.session.evaluate drawing.host text := rfl
  rw [Batch.of, Ongoing.carryOn, same]
  generalize run.session.evaluate drawing.host text = ended at unbroken ⊢
  obtain ⟨⟨outcome, events⟩, session⟩ := ended
  cases outcome with
  | ok value =>
    have quiet : (run.heed drawing (.ofBatch (label, text) (⟨.ok value, events⟩, session))).report.full = false :=
      full_eq_false (by simpa [Turn.ofBatch, Turn.issue?, Turn.failure?] using room)
    rw [if_neg (by simp [quiet])]
    rfl
  | error trouble =>
    cases trouble with
    | fault fault => exact absurd rfl (unbroken fault)
    | failure failure =>
      have sick : (run.heed drawing (.ofBatch (label, text) (⟨.error (.failure failure), events⟩, session))).report.sick := by
        simp [Report.sick, Turn.ofBatch, Turn.issue?, Turn.failure?]
      by_cases full : (run.heed drawing (.ofBatch (label, text) (⟨.error (.failure failure), events⟩, session))).report.full
      · rw [if_pos full, Ongoing.closing, if_pos sick, if_pos full]
        exact if_pos full
      · rw [if_neg full]
        exact if_neg full

/-- A run goes on until there are no batches left or too many have failed. In the latter case it makes no
difference what the other batches are. -/
theorem carryOn_closes (batches : List (String × String)) (run : Ongoing) (reached : run.session.Reachable)
    {limit : Nat} (room : run.report.issues.length + limit = run.report.limit) (positive : 0 < limit)
    (drawable : Drawable drawing limit (Turn.all drawing.host run.session batches)) :
    let turns := Turn.all drawing.host run.session batches
    ∃ count, Cutoff limit turns count ∧
      run.carryOn drawing picks (batches.map .of) = ((turns.take count).foldl (Ongoing.heed drawing) run).closing picks ∧
      ((Turn.issues (turns.take count)).length = limit → ∀ more,
        run.carryOn drawing picks ((batches.take count).map .of ++ more) =
          ((turns.take count).foldl (Ongoing.heed drawing) run).closing picks) := by
  induction batches generalizing run limit with
  | nil =>
    refine ⟨0, .never positive, ?_, fun full => ?_⟩
    · have quiet : run.report.full = false := full_eq_false (by omega)
      change run.finish picks = run.closing picks
      simp [Ongoing.finish, Ongoing.closing, Ongoing.write, quiet]
    · simp only [List.take_zero, issues_nil, List.length_nil] at full
      omega
  | cons batch rest ih =>
    have kept : (run.session.evaluate drawing.host batch.2).2.Reachable := .evaluate reached _ _
    have unbroken := evaluate_unbroken reached (drawable [] _ _ rfl positive)
    rw [all_cons] at drawable ⊢
    have next : (Turn.ofBatch batch (run.session.evaluate drawing.host batch.2)).session =
      (run.session.evaluate drawing.host batch.2).2 := rfl
    rw [← next] at kept drawable ⊢
    generalize taken : Turn.ofBatch batch (run.session.evaluate drawing.host batch.2) = turn at kept drawable ⊢
    have step := @carryOn_heed drawing picks run batch turn taken (taken ▸ unbroken) (by omega)
    -- A turn has one issue at most, so the limit is never overrun.
    have single : turn.issue?.toList.length ≤ 1 := by cases turn.issue? <;> simp
    by_cases last : turn.issue?.toList.length = limit
    · have full : (run.heed drawing turn).report.full = true := by
        simp only [Report.full, heed_issues, heed_limit, List.length_append, beq_iff_eq]
        omega
      refine ⟨1, cutoff_first last positive, ?_, fun _ more => ?_⟩
      · exact (step (rest.map .of)).trans (if_pos full)
      · exact (step more).trans (if_pos full)
    · have quiet : (run.heed drawing turn).report.full = false :=
        full_eq_false (by simp only [heed_issues, heed_limit, List.length_append]; omega)
      have further := @ih (run.heed drawing turn)
      rw [heed_session, heed_limit, heed_issues, List.length_append] at further
      obtain ⟨count, cutoff, closes, skips⟩ := @further kept (limit - turn.issue?.toList.length) (by omega) (by omega)
        (drawable_cons.mp (by rwa [Nat.sub_add_cancel (by omega)])).2
      refine ⟨count + 1, ?_, ?_, fun full more => ?_⟩
      · have taken := cutoff_cons cutoff turn
        rwa [Nat.sub_add_cancel (by omega)] at taken
      · exact ((step (rest.map .of)).trans (if_neg (by simp [quiet]))).trans closes
      · rw [List.take_succ_cons, issues_cons, List.length_append] at full
        exact ((step _).trans (if_neg (by simp [quiet]))).trans (skips (by omega) more)

end States

theorem expressionBatches_eq (expressions : List String) :
    expressionBatches (expressions.map some) = (labelled expressions).map .of := by
  apply List.ext_getElem?
  intro i
  simp [expressionBatches, labelled, Function.comp_def, Batch.of]

/-- A file that can be read and decoded is the first batch. -/
theorem perform_eq {request : Request} {source : Option Source} {opened : List (String × String)}
    {expressions : List String} (opens : Opens source opened) (given : request.expressions = expressions.map some)
    (picks : List Int) (script : Screen.Script) :
    request.perform source picks script =
      (Ongoing.opening (request.verbosity != 0) script).carryOn request.drawing picks
        ((opened ++ labelled expressions).map .of) := by
  rw [List.map_append, ← expressionBatches_eq, ← given]
  cases opens with
  | none => rfl
  | @file source bytes chars named read decoded =>
    have plain : ¬ (source.name.toList.contains '\x00') := by simpa using named
    simp only [Request.perform, if_neg plain, read, decoded]
    rfl

/-- Batches take turns in one session, in the order in which they are given, until three have failed. What
the run writes, shows and returns is told from these turns alone, and its bindings are what the last of them
left. Batches behind the third failure might as well be any others. -/
theorem run_accounted {request : Request} {source : Option Source} {opened : List (String × String)}
    {expressions : List String} (opens : Opens source opened) (given : request.expressions = expressions.map some)
    (drawable : Drawable request.drawing 3 (Turn.all request.drawing.host .start (opened ++ labelled expressions)))
    (picks : List Int) (script : Screen.Script) :
    let verbose := request.verbosity != 0
    let batches := opened ++ labelled expressions
    let turns := Turn.all request.drawing.host .start batches
    ∃ count final, Cutoff 3 turns count ∧
      Account request.drawing verbose picks script (turns.take count) (request.perform source picks script) ∧
      final = (turns.take count).foldl (Ongoing.heed request.drawing) (.opening verbose script) ∧
      request.perform source picks script = final.closing picks ∧
      final.session = (turns.take count).foldl (fun _ turn => turn.session) .start ∧
      ((Turn.issues (turns.take count)).length = 3 → ∀ more,
        (Ongoing.opening verbose script).carryOn request.drawing picks ((batches.take count).map .of ++ more) =
          final.closing picks) := by
  intro verbose batches turns
  obtain ⟨count, cutoff, closes, skips⟩ :=
    @carryOn_closes request.drawing picks batches (.opening verbose script) .start 3 rfl (by decide) drawable
  have performed := (perform_eq opens given picks script).trans closes
  refine ⟨count, _, cutoff, ?_, rfl, performed, by rw [heedAll_eq]; rfl, skips⟩
  rw [performed]
  exact closing_accounts verbose script _

section Example

/-- A file that holds nothing but a parenthesis. -/
def stray : Source := ⟨"sums", "/sums", .ok [41]⟩

/-- A request whose file and first two expressions cannot be read. -/
def careless : Request := ⟨some "sums", [some "f(", some "1 +", some "print y"], .text, 1⟩

theorem unread_drawable {drawing : Drawing} {session : Session} {limit : Nat} {label text : String} {failure : Failure}
    {rest : List (String × String)} (unread : Grammar.ofText depthLimit text.toList = .error (.failed failure))
    (others : Drawable drawing limit (Turn.all drawing.host session rest)) :
    Drawable drawing (limit + 1) (Turn.all drawing.host session ((label, text) :: rest)) := by
  have same : Grammar.ofText drawing.host.depth text.toList = .error (.failed failure) := unread
  have ended : session.evaluate drawing.host text = (⟨.error (.failure failure), []⟩, session) :=
    evaluate_unread same session
  rw [all_cons, ended]
  refine drawable_cons.mpr ⟨fun _ points member => ?_, others⟩
  cases member

def carelessTurns : List Turn :=
  Turn.all careless.drawing.host .start ([("/sums", ")")] ++ labelled ["f(", "1 +", "print y"])

theorem careless_drawable : Drawable careless.drawing 3 carelessTurns := by
  have closed : Grammar.ofText depthLimit ")".toList =
    .error (.failed ⟨.unexpectedToken ")" .expression, some ⟨0, 1⟩, some "This ')' seems to have no partner."⟩) := rfl
  have called : Grammar.ofText depthLimit "f(".toList =
    .error (.failed ⟨.unexpectedEnd .expression, some ⟨2, 2⟩, none⟩) := rfl
  have added : Grammar.ofText depthLimit "1 +".toList =
    .error (.failed ⟨.unexpectedEnd .expression, some ⟨3, 3⟩, some "Something seems to be missing after the final '+'."⟩) :=
    rfl
  have batches : [("/sums", ")")] ++ labelled ["f(", "1 +", "print y"] =
    [("/sums", ")"), ("expression 1", "f("), ("expression 2", "1 +"), ("expression 3", "print y")] := rfl
  rw [carelessTurns, batches]
  refine unread_drawable closed (unread_drawable called (unread_drawable added ?_))
  exact fun _ _ _ _ few => absurd few (Nat.not_lt_zero _)

-- The last batch has no turn, so nothing is asked of it.
theorem run_accounted_careless :
    Opens (some stray) [("/sums", ")")] ∧ careless.expressions = ["f(", "1 +", "print y"].map some ∧
    Drawable careless.drawing 3 carelessTurns ∧
    ∃ count, Cutoff 3 carelessTurns count ∧
      Account careless.drawing true [] [] (carelessTurns.take count) (careless.perform (some stray) [] []) := by
  have opens : Opens (some stray) [("/sums", ")")] := @Opens.file stray [41] [')'] (by decide) rfl rfl
  obtain ⟨count, final, cutoff, account, -⟩ := run_accounted opens rfl careless_drawable [] []
  exact ⟨opens, rfl, careless_drawable, count, cutoff, account⟩

end Example

end Proofs.CommandBatches

end Reckoner
