import Reckoner.Failure
import Reckoner.Report.Illustration

/-! A report collects the failures of a run and complains about them in the end. -/

namespace Reckoner

structure Issue where
  headline : String
  label : String
  illustration : Option String
  hint : Option String
  deriving DecidableEq

namespace Issue

/-- A failure in the text with the given label. A hint that says nothing is left out. -/
def ofFailure (tools : Report.Illustrator) (label text : String) (failure : Failure) : Issue :=
  let illustration := do
    let span ← failure.site
    if Report.isVisible text.toList span then
      return Report.annotate tools text.toList span failure.kind.title
    else none
  ⟨failure.text, label, illustration, failure.hint.filter (· ≠ "")⟩

/-- The label is only told together with an illustration. -/
def text (issue : Issue) : String :=
  "\n".intercalate ([issue.headline, ""] ++
    (match issue.illustration with
      | some illustration => [issue.label, illustration]
      | none => []) ++
    issue.hint.toList)

end Issue

structure Report where
  verbose : Bool
  /-- So many issues are too many. -/
  limit : Nat
  issues : List Issue

namespace Report

/-- Three issues are too many, usually. -/
def usualLimit : Nat := 3

def start (verbose : Bool) (limit : Nat) : Report := ⟨verbose, limit, []⟩

def sick (report : Report) : Bool := !report.issues.isEmpty

def full (report : Report) : Bool := report.issues.length == report.limit

def add (tools : Illustrator) (report : Report) (label text : String) (failure : Failure) : Report :=
  { report with issues := report.issues ++ [.ofFailure tools label text failure] }

/-- A note on what is going on, for those who want to know. -/
def note (report : Report) (words : List String) : String :=
  if report.verbose then " ".intercalate words ++ "\n" else ""

def openers : List String := ["Hmm. ", "Oops, ", "", ""]

def oaths : List String := ["Blast", "Botheration", "Crikey", "Dagnabbit", "Phooey", "Shucks", "Zounds"]

def resignations : List String :=
  ["The arithmetic stops here.", "That sum will not come out.", "Something does not add up."]

/-- Picks one of several options; the pick goes around them as often as it takes. -/
def pick (options : List String) (choice : Int) : String :=
  options.getD (choice % options.length).toNat ""

/-- An outburst put together at random from the given picks. Missing picks count as zero. -/
def outburst (picks : List Int) : String :=
  pick openers (picks.getD 0 0) ++ pick oaths (picks.getD 1 0) ++ "! " ++ pick resignations (picks.getD 2 0)

def ruler : String := String.join (List.replicate 20 "  -")

def banner : String := String.ofList (List.replicate 60 '*')

/-- All issues at once, below an outburst; nothing if there are none. -/
def complaint (report : Report) (picks : List Int) : String :=
  if report.sick then
    banner ++ "\n" ++ outburst picks ++ "\n" ++
      String.join (report.issues.map fun issue => ruler ++ "\n" ++ issue.text ++ "\n")
  else ""

end Report

end Reckoner
