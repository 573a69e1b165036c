import Reckoner.Number.Partial

/-! The numbers a chart is computed in. The program computes in doubles; the same
definitions also make sense in exact arithmetic, where they can be compared with it. -/

namespace Reckoner

/-- What a chart needs to know about its numbers. Comparisons are Boolean, because a
double may be unordered; division and rounding may break down. -/
class Coordinate (α : Type) extends Add α, Sub α, Mul α where
  ofInt : Int → α
  less : α → α → Bool
  atMost : α → α → Bool
  equal : α → α → Bool
  isFinite : α → Bool
  divide : α → α → Except Fault α
  /-- The nearest whole number, a half going to the even one. -/
  nearest : α → Except Fault Int

instance : Coordinate Float where
  ofInt := Float.ofInt
  less a b := decide (a < b)
  atMost a b := decide (a ≤ b)
  equal a b := a == b
  isFinite := Float.isFinite
  divide := Number.divide
  nearest := Number.nearest

end Reckoner
