/-! Values that a cluster agrees on. A comparison of two values may be refused, which is a fault of
the node that asked for it. -/

namespace Synod

/-- What the protocol needs of a value: whether it equals another one, a place in an order and a
printed form. -/
class Value (V : Type) where
  /-- Whether two values are the same, or nothing where they cannot be compared. -/
  same? : V → V → Option Bool
  /-- The order in which messages that differ in their values alone are listed. -/
  order : V → V → Ordering
  /-- The value as it is shown to a reader. -/
  shown : V → String

/-- Values of which any two can be compared. -/
class ComparableValue (V : Type) [DecidableEq V] [Value V] : Prop where
  same?_eq (a b : V) : Value.same? a b = some (decide (a = b))

end Synod
