import Synod.Effect
import Synod.Pledge

/-! Acceptors answer prepares and accepts, and report each vote they cast to the learners. -/

namespace Synod

variable {V : Type}

structure Acceptor (V : Type) where
  learners : List NodeId
  pledge : Pledge V := {}

namespace Acceptor

/-- A refused prepare is answered with the ballot that stands in its way. -/
def onPrepare (a : Acceptor V) (sender : NodeId) (b : Ballot) : Acceptor V × List (Effect V) :=
  match a.pledge.prepare b with
  | (pledge, .given ballot accepted) =>
    ({ a with pledge },
      [.note (.promised sender ballot accepted), .send sender (.promise ballot accepted)])
  | (pledge, .refused promised) =>
    ({ a with pledge },
      [.note (.prepareRejected sender b promised), .send sender (.promise promised none)])

/-- A vote is told to the proposer and to every learner; a refused accept is not answered. -/
def onAccept (a : Acceptor V) (sender : NodeId) (vote : Vote V) :
    Acceptor V × List (Effect V) :=
  match a.pledge.accept vote with
  | (pledge, .given) =>
    ({ a with pledge },
      .note (.accepted sender vote) :: .send sender (.accepted vote) ::
        Effect.broadcast a.learners (.learn vote))
  | (pledge, .refused promised) =>
    ({ a with pledge }, [.note (.acceptRejected sender vote promised)])

def handle (a : Acceptor V) (sender : NodeId) (body : Body V) : Acceptor V × List (Effect V) :=
  let (a, effects) := match body with
    | .prepare ballot => a.onPrepare sender ballot
    | .accept vote => a.onAccept sender vote
    | other => (a, [.note (.unexpectedForAcceptor sender other)])
  (a, .note (.received sender body) :: effects)

end Acceptor

end Synod
