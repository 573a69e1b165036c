import Reckoner.Chart
import Reckoner.Command.Arguments
import Reckoner.Command.Files
import Reckoner.Report
import Reckoner.Screen
import Reckoner.Session

/-! The command line. The program file, if there is one, and the expressions are batches
of one session. A batch that fails is reported, and the next one still gets its turn,
until too many have failed. -/

namespace Reckoner.Command

def usage : String := "usage: matika [-h] [-e EXPRESSION] [-p \x7bnone,text,window\x7d] [-v] [program]\n"

def manual : String := usage ++ "
Interpreter for the Matika expression language.

positional arguments:
  program               a file of Matika statements

options:
  -h, --help            show this help message and exit
  -e EXPRESSION, --expression EXPRESSION
                        evaluate this text; may be given more than once
  -p \x7bnone,text,window\x7d, --plot \x7bnone,text,window\x7d
                        how to draw plots (default: text)
  -v, --verbose         say more about what is going on
"

/-- What is told to somebody who says nothing. -/
def introduction : String := "This is an interpreter for the Matika expression language.

" ++ usage ++ "

For example:

    matika program.mk

will evaluate every statement in program.mk and print the final value.

    matika -e \"f(x) = x^2 - 3\" -e \"plot(f)\"

will evaluate each expression in turn, in one session, printing each result.

    matika -h

will explain all the arguments.
"

inductive Status where
  /-- Without saying anything about success. -/
  | returned
  | exited (code : Nat)
  | broken (fault : Fault)
  deriving DecidableEq

/-- Where a run writes to. -/
inductive Stream where
  | stdout
  | stderr
  deriving DecidableEq

/-- What is written, in order, and where to. -/
abbrev Writes := List (Stream × String)

/-- Writing nothing is not told. -/
def writing (stream : Stream) (text : String) : Writes := if text = "" then [] else [(stream, text)]

/-- All that is written to one of the streams. -/
def Writes.to (writes : Writes) (stream : Stream) : String :=
  String.join ((writes.filter (·.1 = stream)).map (·.2))

structure Transcript where
  status : Status
  writes : Writes
  calls : List Screen.Call

namespace Transcript

def stdout (transcript : Transcript) : String := transcript.writes.to .stdout

def stderr (transcript : Transcript) : String := transcript.writes.to .stderr

end Transcript

def Refusal.transcript : Refusal → Transcript
  | .help => ⟨.exited 0, [(.stdout, manual)], []⟩
  | refusal => ⟨.exited 2, [(.stderr, usage ++ "matika: error: " ++ refusal.message ++ "\n")], []⟩

/-- A program file: its name on the command line, its full path, and what reading it gave. -/
structure Source where
  name : String
  label : String
  contents : Except Unreadable (List UInt8)

/-- A text to evaluate, with the label under which its failures are reported. A batch
without a text breaks the run when its turn comes. -/
structure Batch where
  label : String
  text : Option String

def expressionBatches (expressions : List (Option String)) : List Batch :=
  expressions.mapIdx fun i text => ⟨"expression " ++ toString (i + 1), text⟩

structure Ongoing where
  session : Session
  report : Report
  writes : Writes
  calls : List Screen.Call
  script : Screen.Script

def Drawing.renderer : Drawing → Option Renderer
  | .hidden => none
  | .text => some (Chart.renderer .usual)
  | .window => some (Screen.renderer .usual)

namespace Ongoing

def write (run : Ongoing) (stream : Stream) (text : String) : Ongoing :=
  { run with writes := run.writes ++ writing stream text }

/-- Shows an event: lines and charts are written, windows are opened. -/
def showEvent (drawing : Drawing) (run : Ongoing) : Event → Ongoing
  | .printed line => run.write .stdout (line ++ "\n")
  | .plotted points =>
    match drawing with
    | .hidden => run
    | .text => run.write .stdout (Chart.written .usual points)
    | .window =>
      let trace := Screen.display .usual points run.script
      { run with calls := run.calls ++ trace.calls, script := trace.script }

def transcript (run : Ongoing) (status : Status) : Transcript := ⟨status, run.writes, run.calls⟩

def complain (run : Ongoing) (picks : List Int) : Ongoing := run.write .stderr (run.report.complaint picks)

def finish (run : Ongoing) (picks : List Int) : Transcript :=
  (run.complain picks).transcript (.exited (if run.report.sick then 1 else 0))

/-- The end of a run with a failure too many. -/
def giveUp (run : Ongoing) (picks : List Int) : Transcript :=
  ((run.complain picks).write .stderr "Too many failures; the remaining batches were skipped.\n").transcript (.exited 1)

def announce (run : Ongoing) (label : String) : Ongoing :=
  run.write .stderr (run.report.note ["Evaluating", label])

def carryOn (drawing : Drawing) (picks : List Int) (run : Ongoing) : List Batch → Transcript
  | [] => run.finish picks
  | ⟨label, none⟩ :: _ => (run.announce label).transcript (.broken .textMissing)
  | ⟨label, some text⟩ :: rest =>
    let (result, session) := run.session.evaluate { renderer := drawing.renderer } text
    let shown := result.events.foldl (showEvent drawing) { run.announce label with session }
    match result.outcome with
    | .ok value => carryOn drawing picks (shown.write .stdout (value.render ++ "\n")) rest
    | .error (.fault fault) => shown.transcript (.broken fault)
    | .error (.failure failure) =>
      let reported := { shown with report := shown.report.add .usual label text failure }
      if reported.report.full then reported.giveUp picks else carryOn drawing picks reported rest

end Ongoing

/-- Carries out a request. A file that cannot be read ends the run before it begins. -/
def Request.perform (request : Request) (source : Option Source) (picks : List Int) (script : Screen.Script) :
    Transcript :=
  let run : Ongoing := ⟨.start, .start (request.verbosity != 0) Report.usualLimit, [], [], script⟩
  let expressions := expressionBatches request.expressions
  match source with
  | none => run.carryOn request.drawing picks expressions
  | some source =>
    if source.name.toList.contains '\x00' then run.transcript (.broken .nullInName)
    else
      match source.contents with
      | .error trouble =>
        (run.write .stderr ("Could not read " ++ source.name ++ ": " ++ trouble.message ++ "\n")).transcript (.exited 1)
      | .ok bytes =>
        match Text.Utf8.decode bytes with
        | .error error => run.transcript (.broken (.notText error))
        | .ok chars =>
          let text := String.ofList (Text.unifyBreaks chars)
          run.carryOn request.drawing picks (⟨source.label, some text⟩ :: expressions)

/-- What a command line comes to: a request, or an answer that needs none. -/
def plan (arguments : List String) : Except Transcript Request :=
  if arguments.isEmpty then .error ⟨.returned, [(.stdout, introduction)], []⟩
  else (Request.ofArguments arguments).mapError Refusal.transcript

def programPath (home : Path) (program : String) : Path := home.within (.parse program)

def run (files : Files) (picks : List Int) (script : Screen.Script) (arguments : List String) : Transcript :=
  match plan arguments with
  | .error transcript => transcript
  | .ok request =>
    let source := request.program.map fun name =>
      let path := programPath ⟨some "/", files.home⟩ name
      (⟨name, path.text, files.read path⟩ : Source)
    request.perform source picks script

end Reckoner.Command
