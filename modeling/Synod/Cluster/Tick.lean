import Synod.Cluster.Basic

/-! Ticks. A tick visits every node once, in an order that is drawn for it, and lets each node that
runs handle its inbox. A fault stops only the node in which it happens. -/

namespace Synod

/-- What a tick did. -/
structure TickReport where
  /-- The number of the tick, from one on. -/
  tick : Nat
  /-- How many messages all nodes handled together. -/
  handled : Nat
  /-- The nodes that were stopped by a fault, in this tick or before, as they were visited. -/
  faulted : List NodeId
deriving DecidableEq

namespace Cluster

variable {V σ : Type}

/-- Puts a node back after a batch of so many messages; a fault stops it from here on. -/
def finish (c : Cluster V σ) (turn : Node.Turn V) (size : Nat) : Cluster V σ × Except Fault Nat :=
  match turn.fault with
  | none => (c.settle turn.node turn.effects, .ok size)
  | some fault => (c.settle { turn.node with faulted := true } turn.effects, .error fault)

variable [Value V] [Shuffler σ]

/-- Lets a node handle its inbox, if it is up. The answer is the number of messages it handled. -/
def process (c : Cluster V σ) (n : Node V) : Cluster V σ × Except Fault Nat :=
  if n.alive then
    let (batch, bus) := c.bus.drain n.id
    let c := { c with bus }
    let c := if batch.isEmpty then c else c.note (.remarked n.id (.processing batch.length))
    c.finish (n.handleAll batch) batch.length
  else (c.note (.remarked n.id .skippingFailed), .ok 0)

/-- What came of a visit: how many messages were handled, or nothing where a fault stops the
node. -/
def visit (c : Cluster V σ) (id : NodeId) : Cluster V σ × Option Nat :=
  match c.node? id with
  | none => (c, some 0)
  | some n =>
    if n.faulted then (c.note (.skippingFaultedNode id), none)
    else match c.process n with
      | (c, .ok handled) => (c, some handled)
      | (c, .error fault) => (c.note (.nodeFaulted id fault), none)

/-- Visits nodes in turn, and gives how many messages they handled and which of them are stopped. -/
def visitAll (c : Cluster V σ) : List NodeId → Cluster V σ × Nat × List NodeId
  | [] => (c, 0, [])
  | id :: ids =>
    let (c, outcome) := c.visit id
    let (c, handled, faulted) := c.visitAll ids
    match outcome with
    | some n => (c, n + handled, faulted)
    | none => (c, handled, id :: faulted)

def tick (c : Cluster V σ) : Cluster V σ × TickReport :=
  let (ids, order) := Shuffler.shuffle c.order c.ids
  let (c, handled, faulted) := visitAll { c with order, ticks := c.ticks + 1 } ids
  (c.note (.tickDone handled faulted.length), ⟨c.ticks, handled, faulted⟩)

/-- Ticks a number of times, with the reports of all ticks before those given. -/
def tickTimes : Nat → Cluster V σ → List TickReport → Cluster V σ × List TickReport
  | 0, c, reports => (c, reports.reverse)
  | n + 1, c, reports =>
    let (c, report) := c.tick
    tickTimes n c (report :: reports)

def runTicks (c : Cluster V σ) (n : Nat) : Cluster V σ × List TickReport :=
  tickTimes n c []

/-- Ticks until every learner has decided, at most `budget` times. -/
def tickUntilDecided : Nat → Cluster V σ → Cluster V σ
  | 0, c => c
  | budget + 1, c => if c.allDecided then c else tickUntilDecided budget c.tick.1

/-- Ticks until every learner has decided, at most `budget` times, and gives the decision if there
is one by then. -/
def runUntilDecided (c : Cluster V σ) (budget : Nat) : Cluster V σ × Option V :=
  let c := tickUntilDecided budget c
  (c, if c.allDecided then c.decided? else none)

end Cluster

end Synod
