import Synod.Cluster.Command
import Synod.Message.Order

/-! Driving single nodes by hand, between ticks or without any. A node that a fault has stopped
cannot be driven. -/

namespace Synod

/-- Which messages of an inbox are delivered, and in which order. -/
structure Delivery where
  /-- From the last listed message to the first. -/
  descending : Bool := false
  /-- Only the message at this place, counted around the inbox; the others are sent again. -/
  pick : Option Nat := none

namespace Delivery

variable {V : Type} [Value V]

/-- The inbox as it is gone through. -/
def arrange (d : Delivery) (batch : List (Message V)) : List (Message V) :=
  if d.descending then (Message.listed batch).reverse else Message.listed batch

/-- The messages that are delivered and those that are sent again. -/
def split (d : Delivery) (batch : List (Message V)) : List (Message V) × List (Message V) :=
  let batch := d.arrange batch
  match d.pick with
  | none => (batch, [])
  | some k =>
    let k := k % batch.length
    ((batch.drop k).take 1, batch.take k ++ batch.drop (k + 1))

end Delivery

namespace Cluster

variable {V σ : Type}

/-- The node of that name, where no fault has stopped it. -/
def freeNode (c : Cluster V σ) (id : NodeId) : Except Failure (Node V) :=
  match c.node? id with
  | none => .error (.refused (.unknownNode id))
  | some n => if n.faulted then .error .locked else .ok n

/-- Stops a node by a fault. The answer is that fault. -/
def injectFault (c : Cluster V σ) (id : NodeId) : Cluster V σ × Except Failure Unit :=
  match c.freeNode id with
  | .error failure => (c, .error failure)
  | .ok n => (c.setNode { n with faulted := true }, .error (.fault .injected))

/-- Starts a round of a proposer, up or down. The answer is its ballot, if it was started. -/
def startRound (c : Cluster V σ) (id : NodeId) : Cluster V σ × Except Failure (Option Ballot) :=
  match c.commandProposer id with
  | .error refusal => (c, .error (.refused refusal))
  | .ok (n, p) =>
    let (p, effects, outcome) := p.start id
    let c := c.settle { n with role := .proposer p } effects
    match outcome with
    | .started ballot => (c, .ok (some ballot))
    | .refused => (c, .ok none)
    | .failed fault => (c, .error (.fault fault))

/-- Asks an acceptor for a promise; no message is sent. -/
def prepare (c : Cluster V σ) (id : NodeId) (ballot : Ballot) :
    Cluster V σ × Option (Promise V) :=
  match c.node? id with
  | none => (c, none)
  | some n =>
    match n.acceptor? with
    | none => (c, none)
    | some a =>
      let (pledge, promise) := a.pledge.prepare ballot
      (c.setNode { n with role := .acceptor { a with pledge } }, some promise)

/-- Asks an acceptor for a vote; no message is sent. -/
def accept (c : Cluster V σ) (id : NodeId) (vote : Vote V) : Cluster V σ × Option Consent :=
  match c.node? id with
  | none => (c, none)
  | some n =>
    match n.acceptor? with
    | none => (c, none)
    | some a =>
      let (pledge, consent) := a.pledge.accept vote
      (c.setNode { n with role := .acceptor { a with pledge } }, some consent)

variable [Value V]

/-- Lets a node handle a message at once, up or down. -/
def handle (c : Cluster V σ) (id sender : NodeId) (body : Body V) :
    Cluster V σ × Except Failure Unit :=
  match c.freeNode id with
  | .error failure => (c, .error failure)
  | .ok n =>
    match c.finish (n.handleAll [⟨sender, id, body⟩]) 1 with
    | (c, .ok _) => (c, .ok ())
    | (c, .error fault) => (c, .error (.fault fault))

variable [Shuffler σ]

def processNode (c : Cluster V σ) (id : NodeId) : Cluster V σ × Except Failure Nat :=
  match c.freeNode id with
  | .error failure => (c, .error failure)
  | .ok n =>
    match c.process n with
    | (c, .ok handled) => (c, .ok handled)
    | (c, .error fault) => (c, .error (.fault fault))

/-- Lets one node handle messages of its inbox in listing order. A node that is down is skipped. -/
def deliver (c : Cluster V σ) (id : NodeId) (d : Delivery) : Cluster V σ × Except Failure Nat :=
  match c.freeNode id with
  | .error failure => (c, .error failure)
  | .ok n =>
    if n.alive then
      let (batch, bus) := c.bus.drain id
      let (batch, kept) := d.split batch
      let c := kept.foldl send { c with bus }
      match c.finish (n.handleAll batch) batch.length with
      | (c, .ok handled) => (c, .ok handled)
      | (c, .error fault) => (c, .error (.fault fault))
    else (c.note (.remarked id .skippingFailed), .ok 0)

end Cluster

end Synod
