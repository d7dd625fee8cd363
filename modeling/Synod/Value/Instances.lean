import Synod.Value
import Synod.Text.Quoted

/-! Texts and whole numbers as values, and texts one of which cannot be compared. -/

namespace Synod

instance : Value String where
  same? a b := some (decide (a = b))
  order := compare
  shown := Text.quoted

instance : ComparableValue String where
  same?_eq _ _ := rfl

instance : Value Int64 where
  same? a b := some (decide (a = b))
  order := compare
  shown n := toString n.toInt

instance : ComparableValue Int64 where
  same?_eq _ _ := rfl

/-- A text that may be agreed on like any other, but which no node can compare where it is the
explosive one. -/
structure Fragile where
  text : String
deriving DecidableEq

/-- The text with which every comparison fails. -/
def Fragile.isExplosive (v : Fragile) : Bool := v.text = "BOOM"

instance : Value Fragile where
  same? a b := if a.isExplosive || b.isExplosive then none else some (decide (a = b))
  order a b := compare a.text b.text
  shown v := Text.quoted v.text

end Synod
