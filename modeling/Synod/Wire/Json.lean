import Synod.Ballot
import Synod.Value.Instances

/-! JSON values, and how types are written as such and read back. -/

namespace Synod

inductive Json where
  | null
  | bool (b : Bool)
  /-- A number without a fraction. -/
  | int (n : Int)
  /-- A number that was written with so many places after its point. -/
  | fraction (mantissa : Int) (places : Nat)
  | text (s : String)
  | list (items : List Json)
  | object (members : List (String × Json))
deriving Inhabited

/-- Types with a written form. -/
class Wire (α : Type) where
  encode : α → Json
  /-- Reads a value, unless it is the form of none. -/
  decode? : Json → Option α

export Wire (encode decode?)

namespace Json

/-- The members of those names, in their order. Other members are ignored, and a member that is
missing is null. -/
def members? (names : List String) : Json → Option (List Json)
  | object members => some (names.map fun name => (members.lookup name).getD null)
  | _ => none

/-- The fields of a record, in the order of their names. A record may also be the list of its
fields, of which the last `optional` may be left out. -/
def fields? (names : List String) (optional : Nat) : Json → Option (List Json)
  | object members => (object members).members? names
  | list items =>
    if items.length ≤ names.length ∧ names.length ≤ items.length + optional then
      some (items ++ List.replicate (names.length - items.length) null)
    else none
  | _ => none

def decodeAll? {α : Type} [Wire α] : List Json → Option (List α)
  | [] => some []
  | item :: items =>
    match decode? item, decodeAll? items with
    | some a, some as => some (a :: as)
    | _, _ => none

end Json

instance : Wire String where
  encode s := .text s
  decode?
    | .text s => some s
    | _ => none

instance : Wire UInt64 where
  encode n := .int n.toNat
  decode?
    | .int n => if 0 ≤ n ∧ n < UInt64.size then some (UInt64.ofNat n.toNat) else none
    | _ => none

instance : Wire Int64 where
  encode n := .int n.toInt
  decode?
    | .int n =>
      if Int64.minValue.toInt ≤ n ∧ n ≤ Int64.maxValue.toInt then some (Int64.ofInt n) else none
    | _ => none

instance : Wire Fragile where
  encode v := .text v.text
  decode? j := (decode? j).map Fragile.mk

instance : Wire NodeId where
  encode id := .text id.name
  decode? j := (decode? j).map NodeId.mk

/-- What is missing is null. -/
instance {α : Type} [Wire α] : Wire (Option α) where
  encode
    | none => .null
    | some a => encode a
  decode?
    | .null => some none
    | j => (decode? j).map some

instance {α : Type} [Wire α] : Wire (List α) where
  encode as := .list (as.map encode)
  decode?
    | .list items => Json.decodeAll? items
    | _ => none

end Synod
