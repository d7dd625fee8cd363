/-! Text cut and padded to a number of characters. -/

namespace Synod.Text

/-- Where a text stands in a wider field; without a choice it stands left. -/
inductive Align where
  | left
  | center
  | right
deriving DecidableEq

/-- Cuts to `precision` characters, then fills with spaces to `width`; in the center an odd space
goes to the right. -/
def pad (align : Align) (width : Nat) (precision : Option Nat) (text : String) : String :=
  let kept := match precision with
    | some n => text.toList.take n
    | none => text.toList
  let missing := width - kept.length
  let before := match align with
    | .left => 0
    | .center => missing / 2
    | .right => missing
  String.ofList
    (List.replicate before ' ' ++ kept ++ List.replicate (missing - before) ' ')

/-- No field is wider, and no text is cut to more characters. -/
def widest : Nat := 65535

/-- Why a text cannot be padded. -/
inductive FieldError where
  | outOfRange
deriving DecidableEq

def FieldError.message : FieldError → String
  | .outOfRange => "Formatting argument out of range"

/-- Cuts and pads as far as a field can be measured. -/
def field (align : Align) (width : Nat) (precision : Option Nat) (text : String) :
    Except FieldError String :=
  if width ≤ widest ∧ precision.getD 0 ≤ widest then .ok (pad align width precision text)
  else .error .outOfRange

end Synod.Text
