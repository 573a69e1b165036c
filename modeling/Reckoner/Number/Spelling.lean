import Reckoner.Number.Shortest

/-! How numbers are written. `spell` gives every number a text that reads back as
the same number; `render` is the friendlier form that `print` shows, in which
whole numbers have no fraction. `read?` reads whatever `spell` writes. -/

namespace Reckoner.Number

/-- The choices a written form of a decimal leaves open. -/
structure Layout where
  /-- Exponents from here on are written positionally … -/
  positionalFrom : Int
  /-- … up to but not including this one. -/
  positionalBelow : Int
  /-- The least number of digits in a written exponent. -/
  exponentDigits : Nat

/-- Positional between a ten-thousandth and ten to the sixteenth, two exponent digits outside. -/
def layout : Layout := ⟨-4, 16, 2⟩

namespace Decimal

/-- Digits with a point somewhere among them, zeros filled in on either side, and at
least one digit behind the point. -/
def positional (decimal : Decimal) : List Char :=
  if decimal.exponent < 0 then
    '0' :: '.' :: List.replicate (-decimal.exponent - 1).toNat '0' ++ decimal.digits
  else
    let places := decimal.exponent.toNat + 1
    let whole := decimal.digits.take places
    let fraction := decimal.digits.drop places
    whole ++ List.replicate (places - whole.length) '0' ++ '.' ::
      (if fraction.isEmpty then ['0'] else fraction)

/-- One digit before the point and a signed exponent behind the digits. -/
def scientific (layout : Layout) (decimal : Decimal) : List Char :=
  let exponent := Nat.toDigits 10 decimal.exponent.natAbs
  let point := if decimal.digits.length ≤ 1 then [] else ['.']
  decimal.digits.take 1 ++ point ++ decimal.digits.drop 1 ++ 'e' ::
    (if decimal.exponent < 0 then '-' else '+') ::
    List.replicate (layout.exponentDigits - exponent.length) '0' ++ exponent

def write (layout : Layout) (decimal : Decimal) : List Char :=
  if layout.positionalFrom ≤ decimal.exponent ∧ decimal.exponent < layout.positionalBelow then
    decimal.positional
  else decimal.scientific layout

end Decimal

/-- The shortest text that reads back as the number. -/
def spell (x : Float) : String :=
  match parts? x with
  | none => if x.isNaN then "nan" else if x < 0 then "-inf" else "inf"
  | some parts =>
    let decimal := if parts.mantissa = 0 then ⟨['0'], 0⟩ else parts.shortest
    (if parts.negative then "-" else "") ++ String.ofList (decimal.write layout)

/-- Whole numbers below this magnitude are shown without a fraction. -/
def wholeBelow : Nat := Nat.pow 10 16

/-- The text of a number as `print` shows it. Both zeros are shown as `0`. -/
def render (x : Float) : String :=
  match parts? x with
  | none => spell x
  | some parts =>
    if parts.isWhole ∧ parts.truncated.natAbs < wholeBelow then toString parts.truncated
    else spell x

/-- The whole number written by a run of decimal digits. -/
def ofDigits (digits : List Char) : Nat :=
  digits.foldl (fun total digit => 10 * total + (digit.toNat - '0'.toNat)) 0

/-- The number nearest to the decimal with these digits before and behind the point. -/
def ofDecimal (whole fraction : List Char) : Float :=
  Float.ofScientific (ofDigits (whole ++ fraction)) true fraction.length

/-- The number nearest to `digits · 10 ^ exponent`. -/
def ofScaled (digits : Nat) (exponent : Int) : Float :=
  Float.ofScientific digits (decide (exponent < 0)) exponent.natAbs

/-- Reads a sign, digits with an optional fraction, and an optional exponent; also the
names of the infinities and of NaN. -/
def read? (text : String) : Option Float :=
  match text.toList with
  | '-' :: rest => (magnitude? rest).map (fun x => -x)
  | '+' :: rest => magnitude? rest
  | rest => magnitude? rest
where
  magnitude? (chars : List Char) : Option Float :=
    if chars = "inf".toList then some (1 / 0)
    else if chars = "nan".toList then some (0 / 0)
    else
      let whole := chars.takeWhile Char.isDigit
      let (fraction, rest) := match chars.dropWhile Char.isDigit with
        | '.' :: rest => (rest.takeWhile Char.isDigit, rest.dropWhile Char.isDigit)
        | rest => ([], rest)
      if whole.isEmpty && fraction.isEmpty then none
      else
        (exponent? rest).map fun exponent =>
          ofScaled (ofDigits (whole ++ fraction)) (exponent - (fraction.length : Int))
  exponent? : List Char → Option Int
    | [] => some 0
    | mark :: rest =>
      if mark = 'e' ∨ mark = 'E' then
        match rest with
        | '-' :: digits => (digits? digits).map (fun n => -(n : Int))
        | '+' :: digits => (digits? digits).map (fun n => (n : Int))
        | digits => (digits? digits).map (fun n => (n : Int))
      else none
  digits? (digits : List Char) : Option Nat :=
    if digits.isEmpty || !digits.all Char.isDigit then none else some (ofDigits digits)

end Reckoner.Number
