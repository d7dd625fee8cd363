import Synod.Node
import Synod.Random.Shuffle
import Synod.Setup

/-! A cluster: the nodes of a run in the order of their names, the bus between them, the source of
the orders in which they are visited, and the log. -/

namespace Synod

structure Cluster (V σ : Type) where
  nodes : List (Node V)
  bus : Bus V σ
  order : σ
  ticks : Nat := 0
  log : Array (Event V) := #[]

/-- Puts a node where its name belongs, in place of one that bears the name already. -/
def insertNode {V : Type} (n : Node V) : List (Node V) → List (Node V)
  | [] => [n]
  | m :: ms =>
    if n.id < m.id then n :: m :: ms
    else if m.id < n.id then m :: insertNode n ms
    else n :: ms

namespace Setup

variable {V : Type}

/-- The nodes of a setup before anything has happened, by role. -/
def freshNodes (s : Setup V) : List (Node V) :=
  s.acceptors.map (fun id => ⟨id, .acceptor { learners := s.learners }, true, false⟩) ++
    s.learners.map (fun id => ⟨id, .learner (.ofAcceptors s.acceptors), true, false⟩) ++
    s.candidates.map fun c =>
      ⟨c.id, .proposer { acceptors := s.acceptors, value := c.value }, true, false⟩

end Setup

namespace Cluster

variable {V σ : Type}

/-- The cluster of a sound setup, with an empty bus and the given sources of orders. -/
def create (s : Setup V) (bus order : σ) : Except SetupError (Cluster V σ) :=
  match s.defect? with
  | some defect => .error defect
  | none => .ok {
      nodes := s.freshNodes.foldl (fun nodes n => insertNode n nodes) []
      bus := .empty bus
      order
      log := #[.created] }

/-- The cluster of a sound setup, with the orders that follow from its seed, or from `entropy` where
it has none. -/
def ofSetup (s : Setup V) (entropy : UInt64) : Except SetupError (Cluster V Random.Stream) :=
  let seed := s.seed.getD entropy
  create s (.ofSeed seed) (.ofSeed (seed + 1))

/-- One node alone on a bus. -/
def solo (n : Node V) (source : σ) : Cluster V σ where
  nodes := [n]
  bus := .empty source
  order := source

/-! ### Nodes of a cluster -/

def node? (c : Cluster V σ) (id : NodeId) : Option (Node V) :=
  c.nodes.find? (·.id = id)

def acceptor? (c : Cluster V σ) (id : NodeId) : Option (Acceptor V) :=
  (c.node? id).bind Node.acceptor?

def learner? (c : Cluster V σ) (id : NodeId) : Option (Learner V) :=
  (c.node? id).bind Node.learner?

def proposer? (c : Cluster V σ) (id : NodeId) : Option (Proposer V) :=
  (c.node? id).bind Node.proposer?

/-- Puts a node in the place of the one of its name. -/
def setNode (c : Cluster V σ) (n : Node V) : Cluster V σ :=
  { c with nodes := c.nodes.map fun m => if m.id = n.id then n else m }

def ids (c : Cluster V σ) : List NodeId := c.nodes.map Node.id

theorem id_of_node? {c : Cluster V σ} {id : NodeId} {n : Node V} (h : c.node? id = some n) :
    n.id = id := by
  simpa using List.find?_some h

@[simp] theorem ids_setNode (c : Cluster V σ) (n : Node V) : (c.setNode n).ids = c.ids := by
  simp only [ids, setNode, List.map_map]
  refine List.map_congr_left fun m _ => ?_
  by_cases h : m.id = n.id <;> simp [h]

theorem node?_setNode_self {c : Cluster V σ} {n m : Node V} (h : c.node? n.id = some m) :
    (c.setNode n).node? n.id = some n := by
  unfold node? setNode at *
  generalize c.nodes = nodes at h ⊢
  induction nodes with
  | nil => simp at h
  | cons k ks ih =>
    by_cases hk : k.id = n.id
    · simp [hk]
    · simp only [List.find?_cons, hk, decide_false] at h
      simpa [hk] using ih h

theorem node?_setNode_of_ne (c : Cluster V σ) {n : Node V} {id : NodeId} (h : id ≠ n.id) :
    (c.setNode n).node? id = c.node? id := by
  unfold node?
  simp only [setNode]
  induction c.nodes with
  | nil => rfl
  | cons k ks ih =>
    by_cases hk : k.id = n.id
    · simp [hk, Ne.symm h, ih]
    · by_cases hid : k.id = id
      · subst hid
        simp [hk]
      · simp [hk, hid, ih]

/-! ### The log and the effects of a node -/

def note (c : Cluster V σ) (event : Event V) : Cluster V σ :=
  { c with log := c.log.push event }

/-- Puts a message on the bus from outside. -/
def send (c : Cluster V σ) (message : Message V) : Cluster V σ :=
  { c.note (.sent message) with bus := c.bus.send message }

/-- Puts a node back with what it did. -/
def settle (c : Cluster V σ) (n : Node V) (effects : List (Effect V)) : Cluster V σ :=
  { c.setNode n with
    bus := c.bus.sendAll (Effect.messages n.id effects)
    log := c.log ++ Effect.events n.id effects }

@[simp] theorem node?_settle (c : Cluster V σ) (n : Node V) (effects : List (Effect V))
    (id : NodeId) : (c.settle n effects).node? id = (c.setNode n).node? id := rfl

@[simp] theorem pending_settle (c : Cluster V σ) (n : Node V) (effects : List (Effect V)) :
    (c.settle n effects).bus.pending = c.bus.pending ++ Effect.messages n.id effects := rfl

/-! ### Decisions -/

/-- The learners with what they have learned, in order. -/
def learned (c : Cluster V σ) : List (NodeId × Option (Vote V)) :=
  c.nodes.filterMap fun n => n.learner?.map fun l => (n.id, l.learned)

/-- What the first learner that has decided has learned. -/
def decided? (c : Cluster V σ) : Option V :=
  c.learned.findSome? fun entry => entry.2.map Vote.value

def allDecided (c : Cluster V σ) : Bool :=
  c.learned.all (·.2.isSome)

end Cluster

end Synod
