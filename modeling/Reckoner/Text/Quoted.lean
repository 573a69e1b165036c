import Reckoner.Text.Printable

/-! Quoted text in messages. Single quotes surround it, unless it holds a single
quote and no double one. What cannot be shown is escaped. -/

namespace Reckoner.Text

/-- The lower-case hexadecimal digits of a number, filled up with zeros. -/
def hex (width n : Nat) : List Char :=
  let digits := Nat.toDigits 16 n
  List.replicate (width - digits.length) '0' ++ digits

/-- One character as it stands between the given quotes. -/
def escaped (quote c : Char) : List Char :=
  if c = '\\' ∨ c = quote then ['\\', c]
  else if c = '\n' then ['\\', 'n']
  else if c = '\r' then ['\\', 'r']
  else if c = '\t' then ['\\', 't']
  else if isPrintable c then [c]
  else if c.toNat < 0x100 then '\\' :: 'x' :: hex 2 c.toNat
  else if c.toNat < 0x10000 then '\\' :: 'u' :: hex 4 c.toNat
  else '\\' :: 'U' :: hex 8 c.toNat

/-- The quote that needs the least escaping. -/
def quoteFor (text : List Char) : Char :=
  if text.contains '\'' && !text.contains '"' then '"' else '\''

def quoted (text : String) : String :=
  let chars := text.toList
  let quote := quoteFor chars
  String.ofList (quote :: chars.flatMap (escaped quote) ++ [quote])

end Reckoner.Text
