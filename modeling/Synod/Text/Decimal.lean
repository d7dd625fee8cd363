/-! Counts of 64 bits in decimal, and why a text is not one. -/

namespace Synod.Text

inductive CountError where
  | empty
  | invalidDigit
  | tooLarge
deriving DecidableEq

def CountError.message : CountError → String
  | .empty => "cannot parse integer from empty string"
  | .invalidDigit => "invalid digit found in string"
  | .tooLarge => "number too large to fit in target type"

/-- Reads digits from the left, so that of two defects the earlier one is reported. -/
def readDigits (limit acc : Nat) : List Char → Except CountError Nat
  | [] => .ok acc
  | c :: cs =>
    if c.isDigit then
      let next := acc * 10 + (c.toNat - '0'.toNat)
      if next < limit then readDigits limit next cs else .error .tooLarge
    else .error .invalidDigit

/-- A count may be written with a plus sign and with leading zeros. -/
def readCountChars : List Char → Except CountError Nat
  | [] => .error .empty
  | '+' :: c :: cs => readDigits UInt64.size 0 (c :: cs)
  | cs => readDigits UInt64.size 0 cs

def readCount (text : String) : Except CountError Nat :=
  readCountChars text.toList

end Synod.Text
