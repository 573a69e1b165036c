/-! White space of all scripts. -/

namespace Reckoner.Text

/-- Closed ranges of the code points that are white space: the controls that move the
carriage or separate records, and the separators. -/
def blanks : List (Nat × Nat) := [
  (0x9, 0xd), (0x1c, 0x20), (0x85, 0x85), (0xa0, 0xa0), (0x1680, 0x1680),
  (0x2000, 0x200a), (0x2028, 0x2029), (0x202f, 0x202f), (0x205f, 0x205f), (0x3000, 0x3000)]

def isBlank (c : Char) : Bool :=
  blanks.any fun range => decide (range.1 ≤ c.toNat) && decide (c.toNat ≤ range.2)

/-- A line without the white space at its end. -/
def trimEnd (line : List Char) : List Char :=
  (line.reverse.dropWhile isBlank).reverse

end Reckoner.Text
