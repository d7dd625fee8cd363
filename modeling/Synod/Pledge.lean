import Synod.Message

/-! What an acceptor is bound to: the latest ballot it takes part in and the last vote it cast. -/

namespace Synod

variable {V : Type}

structure Pledge (V : Type) where
  promised : Option Ballot := none
  accepted : Option (Vote V) := none
deriving DecidableEq

/-- The answer to a prepare. -/
inductive Promise (V : Type) where
  /-- The ballot is promised; the last vote is reported. -/
  | given (ballot : Ballot) (accepted : Option (Vote V))
  /-- The ballot is not after the promised one. -/
  | refused (promised : Ballot)
deriving DecidableEq

/-- The answer to an accept. -/
inductive Consent where
  | given
  /-- The ballot is before the promised one. -/
  | refused (promised : Ballot)
deriving DecidableEq

namespace Pledge

/-- Promises a ballot that is after everything promised so far. -/
def prepare (p : Pledge V) (b : Ballot) : Pledge V × Promise V :=
  match p.promised.filter (b ≤ ·) with
  | some m => (p, .refused m)
  | none => ({ p with promised := some b }, .given b p.accepted)

/-- Votes under a ballot that is not before the promised one, and promises it as well. -/
def accept (p : Pledge V) (vote : Vote V) : Pledge V × Consent :=
  match p.promised.filter (vote.ballot < ·) with
  | some m => (p, .refused m)
  | none => (⟨some vote.ballot, some vote⟩, .given)

end Pledge

end Synod
