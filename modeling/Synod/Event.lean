import Synod.Fault
import Synod.Message

/-! What the log of a run reports. Events carry what they are about, so that the log is a history of
the run: who promised, accepted, started or learned what. -/

namespace Synod

inductive Level where
  | trace
  | debug
  | info
  | warn
  | error
deriving DecidableEq

def Level.name : Level → String
  | .trace => "TRACE"
  | .debug => "DEBUG"
  | .info => "INFO"
  | .warn => "WARN"
  | .error => "ERROR"

/-- What a node reports about its own work. -/
inductive Remark (V : Type) where
  | received (sender : NodeId) (body : Body V)
  | promised (sender : NodeId) (ballot : Ballot) (accepted : Option (Vote V))
  | prepareRejected (sender : NodeId) (ballot promised : Ballot)
  | accepted (sender : NodeId) (vote : Vote V)
  | acceptRejected (sender : NodeId) (vote : Vote V) (promised : Ballot)
  | unexpectedForAcceptor (sender : NodeId) (body : Body V)
  | alreadyDecided (sender : NodeId) (vote : Vote V)
  | unknownVoter (sender : NodeId) (vote : Vote V)
  | trackingVote (vote : Vote V) (count : Nat)
  | voteRecorded (sender : NodeId) (vote : Vote V) (count : Nat)
  | consensusReached (vote : Vote V)
  | unexpectedForLearner (sender : NodeId) (body : Body V)
  | valueUpdated (value : V)
  | alreadyProposing (current : Option Ballot)
  | startingProposal (ballot : Ballot) (value : V)
  | promiseBeforeAnyRound (sender : NodeId) (ballot : Ballot)
  | promiseWhileIdle (sender : NodeId) (ballot : Ballot)
  | roundAbandoned (sender : NodeId) (current promised : Ballot)
  | stalePromise (sender : NodeId) (ballot : Ballot)
  | promiseRecorded (ballot : Ballot) (count : Nat)
  | adoptingValue (ballot : Ballot) (accepted : Vote V)
  | promiseQuorum (vote : Vote V)
  | acceptConfirmed (ballot : Ballot) (count : Nat)
  | acceptedForAnotherRound (sender : NodeId) (ballot : Ballot)
  | unexpectedForProposer (sender : NodeId) (body : Body V)
  | failed
  | recovered
  | skippingFailed
  | processing (count : Nat)
deriving DecidableEq

inductive Event (V : Type) where
  | created
  | sent (message : Message V)
  | remarked (node : NodeId) (remark : Remark V)
  | skippingFaultedNode (node : NodeId)
  | nodeFaulted (node : NodeId) (fault : Fault)
  | tickDone (handled faulted : Nat)
  | allLearnersDecided (decided : Option V)
  | loopCancelled
  | loopEndedAbnormally
deriving DecidableEq

variable {V : Type}

namespace Remark

def level : Remark V → Level
  | received .. | alreadyDecided .. | trackingVote .. | promiseBeforeAnyRound ..
  | promiseWhileIdle .. | stalePromise .. | promiseRecorded .. | acceptedForAnotherRound ..
  | skippingFailed => .trace
  | promised .. | prepareRejected .. | accepted .. | acceptRejected .. | voteRecorded ..
  | valueUpdated .. | roundAbandoned .. | acceptConfirmed .. | processing .. => .debug
  | consensusReached .. | startingProposal .. | adoptingValue .. | promiseQuorum .. | failed
  | recovered => .info
  | unexpectedForAcceptor .. | unknownVoter .. | unexpectedForLearner .. | alreadyProposing ..
  | unexpectedForProposer .. => .warn

def text : Remark V → String
  | received .. => "received"
  | promised .. => "promised"
  | prepareRejected .. => "prepare rejected"
  | accepted .. => "accepted"
  | acceptRejected .. => "accept rejected"
  | unexpectedForAcceptor .. => "unexpected message for acceptor"
  | alreadyDecided .. => "already decided, ignoring"
  | unknownVoter .. => "vote from unknown acceptor"
  | trackingVote .. => "tracking vote"
  | voteRecorded .. => "vote recorded"
  | consensusReached .. => "consensus reached"
  | unexpectedForLearner .. => "unexpected message for learner"
  | valueUpdated .. => "value updated"
  | alreadyProposing .. => "already proposing, not starting a new round"
  | startingProposal .. => "starting proposal"
  | promiseBeforeAnyRound .. => "promise before any round, ignoring"
  | promiseWhileIdle .. => "not proposing, ignoring promise"
  | roundAbandoned .. => "prepare rejected, abandoning round"
  | stalePromise .. => "stale promise"
  | promiseRecorded .. => "promise recorded"
  | adoptingValue .. => "adopting previously accepted value"
  | promiseQuorum .. => "promise quorum reached, sending accept"
  | acceptConfirmed .. => "accept confirmed"
  | acceptedForAnotherRound .. => "accepted for another round"
  | unexpectedForProposer .. => "unexpected message for proposer"
  | failed => "node failed"
  | recovered => "node recovered"
  | skippingFailed => "skipping failed node"
  | processing .. => "processing messages"

end Remark

namespace Event

def level : Event V → Level
  | sent _ => .trace
  | remarked _ remark => remark.level
  | skippingFaultedNode _ | tickDone .. | loopCancelled => .debug
  | created | allLearnersDecided _ => .info
  | nodeFaulted .. | loopEndedAbnormally => .error

def text : Event V → String
  | created => "simulation created"
  | sent _ => "send"
  | remarked _ remark => remark.text
  | skippingFaultedNode _ => "node faulted on an earlier tick, skipping"
  | nodeFaulted .. => "node panicked while handling messages"
  | tickDone .. => "tick done"
  | allLearnersDecided _ => "all learners decided"
  | loopCancelled => "simulation loop cancelled"
  | loopEndedAbnormally => "simulation task ended abnormally"

def line (e : Event V) : String :=
  e.level.name ++ " " ++ e.text

end Event

end Synod
