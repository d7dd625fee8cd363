import Synod.Effect
import Synod.Tally

/-! Learners count the votes that acceptors report. The first vote that a quorum has cast is learned
and never changes. -/

namespace Synod

variable {V : Type}

structure Learner (V : Type) where
  acceptors : List NodeId
  tally : Tally V
  learned : Option (Vote V)

namespace Learner

/-- A learner of the votes of some acceptors, each of which counts once however often it is
named. -/
def ofAcceptors (acceptors : List NodeId) : Learner V :=
  ⟨acceptors, .ofSize (distinct acceptors).length, none⟩

/-- Counts the vote of an acceptor. With the decision the tally is released. -/
def learn [Value V] (l : Learner V) (sender : NodeId) (vote : Vote V) :
    Except Fault (Learner V × List (Effect V)) :=
  if l.learned.isSome then .ok (l, [.note (.alreadyDecided sender vote)])
  else if sender ∈ l.acceptors then
    match l.tally.record vote sender with
    | .error fault => .error fault
    | .ok (tally, n) =>
      let counted := [.note (.trackingVote vote n), .note (.voteRecorded sender vote n)]
      if tally.reached n then
        .ok ({ l with tally := tally.clear, learned := some vote },
          counted ++ [.note (.consensusReached vote)])
      else .ok ({ l with tally }, counted)
  else .ok (l, [.note (.unknownVoter sender vote)])

def handle [Value V] (l : Learner V) (sender : NodeId) :
    Body V → Except Fault (Learner V × List (Effect V))
  | .learn vote => l.learn sender vote
  | other => .ok (l, [.note (.unexpectedForLearner sender other)])

end Learner

end Synod
