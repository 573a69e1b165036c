import Reckoner.Text.Utf8

/-! Faults are the troubles no part of a program is to blame for: a drawing whose
geometry breaks down, a file that is no text, an expression that is none, a tree
nobody should have built. -/

namespace Reckoner

inductive Fault where
  | divisionByZero
  /-- A function without a value at its argument. -/
  | outOfDomain
  /-- A value beyond the range of numbers. -/
  | outOfRange
  /-- A whole number beyond that range. -/
  | tooLarge
  | roundingNaN
  | roundingInfinity
  | nothingToPlot
  /-- A text chart needs at least two columns and two rows. -/
  | chartTooSmall
  /-- What lies outside of a chart was looked at. -/
  | cellMissing
  /-- What lies outside of a chart was overwritten. -/
  | rowMissing
  | notText (error : Text.Utf8.Error)
  /-- An expression was announced but its text never came. -/
  | textMissing
  /-- No file can have a null character in its name. -/
  | nullInName
  /-- A token sequence without its end. -/
  | unfinished
  /-- An operator without meaning, a literal without value or a call with the wrong
  number of arguments. -/
  | malformed
  deriving DecidableEq

namespace Fault

def message : Fault → String
  | .divisionByZero => "float division by zero"
  | .outOfDomain => "math domain error"
  | .outOfRange => "math range error"
  | .tooLarge => "int too large to convert to float"
  | .roundingNaN => "cannot convert float NaN to integer"
  | .roundingInfinity => "cannot convert float infinity to integer"
  | .nothingToPlot => "Nothing to plot."
  | .chartTooSmall => ""
  | .cellMissing => "list index out of range"
  | .rowMissing => "list assignment index out of range"
  | .notText error => error.message
  | .textMissing => ""
  | .nullInName => "embedded null byte"
  | .unfinished => "list index out of range"
  | .malformed => ""

end Fault

end Reckoner
