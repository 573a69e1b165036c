/-! Points of a curve. -/

namespace Reckoner

structure Point (α : Type) where
  x : α
  y : α

end Reckoner
