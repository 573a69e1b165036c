import Reckoner.Span
import Reckoner.Text.Blank
import Reckoner.Text.Lines

/-! A line of source text with carets under the place in question. The line is found and the
picture drawn by tools that reports are given; the usual ones stand here as well. -/

namespace Reckoner.Report

/-- What it takes to illustrate a place in a text. -/
structure Illustrator where
  /-- The row and the column of an offset in a text. -/
  locate : (text : List Char) → (offset : Nat) → Nat × Nat
  /-- The line in a row of a text. -/
  lineAt : (text : List Char) → (row : Nat) → List Char
  /-- A line behind a margin, and below it carets from a column on, with a caption. -/
  draw : (line : List Char) → (column width : Nat) → (margin : List Char) → (caption : String) → String

/-- Blank space as wide as the given characters; tabs stay, so that it stays as wide. -/
def blanked (chars : List Char) : List Char := chars.map fun c => if c = '\t' then '\t' else ' '

/-- As many carets as the width asks for and the line, its break included, has room for, but at
least one. -/
def caretCount (line : List Char) (column width : Nat) : Nat := max 1 (min width (line.length - column))

/-- The line without the white space at its end, and below it the carets with a caption. -/
def picture (line : List Char) (column width : Nat) (margin : List Char) (caption : String) : String :=
  String.ofList
    (margin ++ Text.trimEnd line ++ '\n' :: blanked (margin ++ line.take column) ++
      List.replicate (caretCount line column width) '^' ++ ' ' :: caption.toList)

/-- The usual tools. -/
def Illustrator.usual : Illustrator := ⟨Text.locate, Text.lineAt, picture⟩

/-- The row number, right-aligned, and a bar. -/
def margin (row : Nat) : List Char :=
  let digits := ' ' :: Nat.toDigits 10 row
  List.replicate (6 - digits.length) ' ' ++ digits ++ [' ', '|']

/-- A span can be shown if it starts inside the text. -/
def isVisible (text : List Char) (span : Span) : Bool := decide (0 ≤ span.start ∧ span.start < text.length)

/-- The line on which a span starts, with carets under the span. An empty span is widened by one. -/
def annotate (tools : Illustrator) (text : List Char) (span : Span) (caption : String) : String :=
  let (row, column) := tools.locate text span.start.toNat
  let width := (max span.stop (span.start + 1) - span.start).toNat
  tools.draw (tools.lineAt text row) column width (margin row) caption

end Reckoner.Report
