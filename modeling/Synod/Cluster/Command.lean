import Synod.Cluster.Tick

/-! Commands to a cluster. A command that is refused changes nothing; one that ends in a fault keeps
what it had changed and stops the node. -/

namespace Synod

/-- Why a command is refused. -/
inductive Refusal where
  | unknownProposer (id : NodeId)
  | unknownNode (id : NodeId)
  | faulted (id : NodeId)
  | down (id : NodeId)
  | inFlight (id : NodeId)
  | notStarted (id : NodeId)
deriving DecidableEq

namespace Refusal

def detail : Refusal → String
  | unknownProposer id => "unknown proposer " ++ id.name
  | unknownNode id => "unknown node " ++ id.name
  | faulted id => "node " ++ id.name ++ " faulted and no longer accepts commands"
  | down id => "proposer " ++ id.name ++ " is down"
  | inFlight id => "proposer " ++ id.name ++ " already has a proposal in flight"
  | notStarted id => "proposer " ++ id.name ++ " refused to start a round"

/-- What every report of a refusal begins with. -/
def context : String := "simulation command failed"

def message (r : Refusal) : String := context ++ ": " ++ r.detail

end Refusal

/-- Why a command has no result. -/
inductive Failure where
  | refused (refusal : Refusal)
  /-- The node is stopped by a fault and cannot be used directly. -/
  | locked
  | fault (fault : Fault)
deriving DecidableEq

namespace Cluster

variable {V σ : Type}

/-- The proposer of that name, where it takes commands. -/
def commandProposer (c : Cluster V σ) (id : NodeId) : Except Refusal (Node V × Proposer V) :=
  match c.node? id with
  | none => .error (.unknownProposer id)
  | some n =>
    match n.proposer? with
    | none => .error (.unknownProposer id)
    | some p => if n.faulted then .error (.faulted id) else .ok (n, p)

/-- The node of that name, where it takes commands. -/
def commandNode (c : Cluster V σ) (id : NodeId) : Except Refusal (Node V) :=
  match c.node? id with
  | none => .error (.unknownNode id)
  | some n => if n.faulted then .error (.faulted id) else .ok n

/-- Gives a proposer a value, if there is one. -/
def offer (p : Proposer V) : Option V → Proposer V × List (Effect V)
  | none => (p, [])
  | some value => p.setValue value

/-- Starts a round of a proposer, for the given value from now on if there is one. -/
def propose (c : Cluster V σ) (id : NodeId) (value : Option V) :
    Cluster V σ × Except Failure Ballot :=
  match c.commandProposer id with
  | .error refusal => (c, .error (.refused refusal))
  | .ok (n, p) =>
    if !n.alive then (c, .error (.refused (.down id)))
    else if p.isProposing then (c, .error (.refused (.inFlight id)))
    else
      let (p, offered) := offer p value
      let (p, effects, outcome) := p.start id
      let node := { n with role := .proposer p }
      match outcome with
      | .started ballot => (c.settle node (offered ++ effects), .ok ballot)
      | .refused => (c.settle node (offered ++ effects), .error (.refused (.notStarted id)))
      | .failed fault =>
        (c.settle { node with faulted := true } (offered ++ effects), .error (.fault fault))

/-- Changes what a proposer proposes from its next round on. -/
def setValue (c : Cluster V σ) (id : NodeId) (value : V) : Cluster V σ × Except Failure Unit :=
  match c.commandProposer id with
  | .error refusal => (c, .error (.refused refusal))
  | .ok (n, p) =>
    let (p, effects) := p.setValue value
    (c.settle { n with role := .proposer p } effects, .ok ())

/-- Brings a node down or up again; nothing happens where it is so already. -/
def setAlive (c : Cluster V σ) (n : Node V) (alive : Bool) : Cluster V σ :=
  if n.alive = alive then c
  else c.settle { n with alive } [.note (if alive then .recovered else .failed)]

/-- Takes a node down. Its state and its inbox are kept. -/
def fail (c : Cluster V σ) (id : NodeId) : Cluster V σ × Except Failure Unit :=
  match c.commandNode id with
  | .error refusal => (c, .error (.refused refusal))
  | .ok n => (c.setAlive n false, .ok ())

/-- Brings a node up with the state in which it went down. -/
def recover (c : Cluster V σ) (id : NodeId) : Cluster V σ × Except Failure Unit :=
  match c.commandNode id with
  | .error refusal => (c, .error (.refused refusal))
  | .ok n => (c.setAlive n true, .ok ())

end Cluster

end Synod
