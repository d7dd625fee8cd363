import Synod.Bus
import Synod.Role.Acceptor
import Synod.Role.Learner
import Synod.Role.Proposer

/-! Nodes: a role with a name, and whether it runs. A node that is down keeps its state, and its
inbox keeps filling. -/

namespace Synod

variable {V : Type}

inductive Role (V : Type) where
  | acceptor (state : Acceptor V)
  | learner (state : Learner V)
  | proposer (state : Proposer V)

structure Node (V : Type) where
  id : NodeId
  role : Role V
  alive : Bool := true
  /-- A fault ended the work of the node; it is not run again. -/
  faulted : Bool := false

namespace Role

variable [Value V]

def handle (role : Role V) (sender : NodeId) (body : Body V) :
    Except Fault (Role V × List (Effect V)) :=
  match role with
  | acceptor a =>
    let (a, effects) := a.handle sender body
    .ok (acceptor a, effects)
  | learner l => (l.handle sender body).map fun (l, effects) => (learner l, effects)
  | proposer p => (p.handle sender body).map fun (p, effects) => (proposer p, effects)

end Role

namespace Node

def acceptor? (n : Node V) : Option (Acceptor V) :=
  match n.role with
  | .acceptor a => some a
  | _ => none

def learner? (n : Node V) : Option (Learner V) :=
  match n.role with
  | .learner l => some l
  | _ => none

def proposer? (n : Node V) : Option (Proposer V) :=
  match n.role with
  | .proposer p => some p
  | _ => none

/-- What came of handling a batch: where a fault stopped it, the rest of the batch is lost. -/
structure Turn (V : Type) where
  node : Node V
  effects : List (Effect V)
  fault : Option Fault

variable [Value V]

def handle (n : Node V) (sender : NodeId) (body : Body V) :
    Except Fault (Node V × List (Effect V)) :=
  (n.role.handle sender body).map fun (role, effects) => ({ n with role }, effects)

/-- Handles messages in their order, up to the first that ends in a fault. -/
def handleAll (n : Node V) : List (Message V) → Turn V
  | [] => ⟨n, [], none⟩
  | m :: ms =>
    match n.handle m.sender m.body with
    | .error fault => ⟨n, [], some fault⟩
    | .ok (n, effects) =>
      let turn := n.handleAll ms
      { turn with effects := effects ++ turn.effects }

end Node

end Synod
