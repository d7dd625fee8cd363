import Synod.Ballot

/-! The five kinds of messages. A prepare is answered by a promise, which reports the vote its
sender has cast; an accept asks for a vote, and the vote is then told to the proposer and to the
learners. -/

namespace Synod

/-- A value under a ballot: what an acceptor accepts and a learner learns. -/
structure Vote (V : Type) where
  ballot : Ballot
  value : V
deriving DecidableEq

inductive Body (V : Type) where
  /-- A proposer asks for a promise to take part in no earlier ballot. -/
  | prepare (ballot : Ballot)
  /-- The answer. Where its ballot is not the prepared one, the request was refused because of the
  later ballot named here, and no vote is reported. -/
  | promise (ballot : Ballot) (accepted : Option (Vote V))
  /-- A proposer asks for a vote. -/
  | accept (vote : Vote V)
  /-- An acceptor confirms its vote to the proposer. -/
  | accepted (vote : Vote V)
  /-- An acceptor reports its vote to a learner. -/
  | learn (vote : Vote V)
deriving DecidableEq

namespace Body

variable {V : Type}

def kind : Body V → String
  | prepare _ => "PREPARE"
  | promise _ _ => "PROMISE"
  | accept _ => "ACCEPT"
  | accepted _ => "ACCEPTED"
  | learn _ => "LEARN"

/-- The ballot that every message carries. -/
def ballot : Body V → Ballot
  | prepare b => b
  | promise b _ => b
  | accept vote => vote.ballot
  | accepted vote => vote.ballot
  | learn vote => vote.ballot

end Body

structure Message (V : Type) where
  sender : NodeId
  receiver : NodeId
  body : Body V
deriving DecidableEq

end Synod
