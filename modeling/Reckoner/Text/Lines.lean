/-! Lines of a text. A line ends at a carriage return, a line feed, or the two
together, and keeps that break; the last line has none. -/

namespace Reckoner.Text

/-- Splits a text into its lines, each with its break. A text that ends in a break has
an empty last line. -/
def lines : List Char → List (List Char)
  | [] => [[]]
  | '\r' :: '\n' :: rest => ['\r', '\n'] :: lines rest
  | c :: rest =>
    if c = '\r' ∨ c = '\n' then [c] :: lines rest
    else
      match lines rest with
      | line :: others => (c :: line) :: others
      | [] => [[c]]

/-- Where an offset stands among lines, of which the first has the given row. An offset at the
very end stands on the last line. -/
def locateAmong (row : Nat) : List (List Char) → Nat → Nat × Nat
  | line :: next :: rest, offset =>
    if offset < line.length then (row, offset)
    else locateAmong (row + 1) (next :: rest) (offset - line.length)
  | _, offset => (row, offset)

/-- The row and the column of an offset: rows count from one, columns from zero. -/
def locate (text : List Char) (offset : Nat) : Nat × Nat := locateAmong 1 (lines text) offset

/-- The line in a row; there is nothing outside of the text. -/
def lineAt (text : List Char) (row : Nat) : List Char :=
  match row with
  | 0 => []
  | index + 1 => (lines text).getD index []

/-- Every line break becomes a single line feed. -/
def unifyBreaks : List Char → List Char
  | [] => []
  | '\r' :: '\n' :: rest => '\n' :: unifyBreaks rest
  | '\r' :: rest => '\n' :: unifyBreaks rest
  | c :: rest => c :: unifyBreaks rest

end Reckoner.Text
