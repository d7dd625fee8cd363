/-! Why a node stops in the middle of its work. -/

namespace Synod

/-- A fault ends what a node is doing and leaves the state it had reached. -/
inductive Fault where
  /-- The number of the next round does not fit into 64 bits. -/
  | roundOverflow
  /-- Two values could not be compared. -/
  | incomparable
  /-- The fault was put there from outside. -/
  | injected
deriving DecidableEq

def Fault.message : Fault → String
  | .roundOverflow => "attempt to add with overflow"
  | .incomparable => "BOOM"
  | .injected => "poisoned by request"

end Synod
