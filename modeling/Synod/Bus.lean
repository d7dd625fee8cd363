import Synod.Message
import Synod.Shuffler

/-! The bus between the nodes. It keeps messages in the order in which they were sent, and hands
each of them once to its receiver, in an order that a shuffler chooses. -/

namespace Synod

structure Bus (V σ : Type) where
  pending : List (Message V)
  source : σ

namespace Bus

variable {V σ : Type}

def empty (source : σ) : Bus V σ := ⟨[], source⟩

def send (bus : Bus V σ) (message : Message V) : Bus V σ :=
  { bus with pending := bus.pending ++ [message] }

def sendAll (bus : Bus V σ) (messages : List (Message V)) : Bus V σ :=
  { bus with pending := bus.pending ++ messages }

/-- One message to each of the receivers, in their order. -/
def broadcast (bus : Bus V σ) (sender : NodeId) (receivers : List NodeId) (body : Body V) :
    Bus V σ :=
  bus.sendAll (receivers.map fun receiver => ⟨sender, receiver, body⟩)

/-- The messages that wait for a node, in the order they were sent. -/
def inbox (bus : Bus V σ) (node : NodeId) : List (Message V) :=
  bus.pending.filter (·.receiver = node)

/-- Takes the messages that wait for a node off the bus, shuffled. -/
def drain [Shuffler σ] (bus : Bus V σ) (node : NodeId) : List (Message V) × Bus V σ :=
  let (batch, source) := Shuffler.shuffle bus.source (bus.inbox node)
  (batch, ⟨bus.pending.filter (·.receiver ≠ node), source⟩)

def pendingCount (bus : Bus V σ) : Nat := bus.pending.length

def pendingFor (bus : Bus V σ) (node : NodeId) : Nat := (bus.inbox node).length

/-! ### What each operation does to an inbox -/

theorem inbox_sendAll (bus : Bus V σ) (messages : List (Message V)) (node : NodeId) :
    (bus.sendAll messages).inbox node =
      bus.inbox node ++ messages.filter (·.receiver = node) := by
  simp [inbox, sendAll]

theorem inbox_send (bus : Bus V σ) (message : Message V) (node : NodeId) :
    (bus.send message).inbox node =
      if message.receiver = node then bus.inbox node ++ [message] else bus.inbox node := by
  by_cases h : message.receiver = node <;> simp [inbox, send, h]

/-- A drained batch is the inbox in some order. -/
theorem drain_fst_perm [Shuffler σ] (bus : Bus V σ) (node : NodeId) :
    (bus.drain node).1.Perm (bus.inbox node) :=
  Shuffler.shuffle_perm _ _

@[simp] theorem inbox_drain_self [Shuffler σ] (bus : Bus V σ) (node : NodeId) :
    (bus.drain node).2.inbox node = [] := by
  simp [inbox, drain]

theorem inbox_drain_of_ne [Shuffler σ] (bus : Bus V σ) {node other : NodeId} (h : other ≠ node) :
    (bus.drain node).2.inbox other = bus.inbox other := by
  simp only [inbox, drain, List.filter_filter]
  refine List.filter_congr fun m _ => ?_
  by_cases hm : m.receiver = other <;> simp [hm, h]

end Bus

end Synod
