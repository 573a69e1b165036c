/-! Stretches of a text. -/

namespace Reckoner

/-- From offset `start` up to, but not including, offset `stop`. Offsets count
characters. A host may hand in any span, so nothing is assumed about the two. -/
structure Span where
  start : Int
  stop : Int
  deriving DecidableEq

end Reckoner
