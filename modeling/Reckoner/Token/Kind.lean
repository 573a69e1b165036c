import Reckoner.Number.Operator

/-! What a token is. Every punctuation mark is a kind of its own, labelled by the mark. -/

namespace Reckoner

/-- Punctuation. -/
inductive Mark where
  | opening
  | closing
  | dot
  | plus
  | minus
  | star
  | slash
  | caret
  | bang
  | equals
  | comma
  | less
  | lessEqual
  | greater
  | greaterEqual
  deriving DecidableEq

namespace Mark

def all : List Mark :=
  [.opening, .closing, .dot, .plus, .minus, .star, .slash, .caret, .bang, .equals, .comma,
    .less, .lessEqual, .greater, .greaterEqual]

def glyph : Mark → String
  | .opening => "("
  | .closing => ")"
  | .dot => "."
  | .plus => "+"
  | .minus => "-"
  | .star => "*"
  | .slash => "/"
  | .caret => "^"
  | .bang => "!"
  | .equals => "="
  | .comma => ","
  | .less => "<"
  | .lessEqual => "<="
  | .greater => ">"
  | .greaterEqual => ">="

/-- The operator a mark stands for between two operands. -/
def operator? : Mark → Option Operator
  | .plus => some .add
  | .minus => some .sub
  | .star => some .mul
  | .slash => some .div
  | .caret => some .pow
  | _ => none

theorem mem_all (mark : Mark) : mark ∈ all := by cases mark <;> simp [all]

end Mark

/-- The kind of a token. Scanning makes all but `other`, which a host may use for
tokens of its own. -/
inductive Kind where
  | number
  | name
  | print
  | finish
  | mark (sign : Mark)
  | other (label : String)
  deriving DecidableEq

namespace Kind

def label : Kind → String
  | .number => "number"
  | .name => "name"
  | .print => "PRINT"
  | .finish => "<END>"
  | .mark sign => sign.glyph
  | .other label => label

def ofLabel (label : String) : Kind :=
  if label = "number" then .number
  else if label = "name" then .name
  else if label = "PRINT" then .print
  else if label = "<END>" then .finish
  else match Mark.all.find? (fun sign => sign.glyph == label) with
    | some sign => .mark sign
    | none => .other label

def operator? : Kind → Option Operator
  | .mark sign => sign.operator?
  | _ => none

end Kind

end Reckoner
