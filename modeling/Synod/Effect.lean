import Synod.Event

/-! What a node does besides changing its state: it sends messages and remarks on its work. -/

namespace Synod

inductive Effect (V : Type) where
  | send (receiver : NodeId) (body : Body V)
  | note (remark : Remark V)

namespace Effect

variable {V : Type}

def broadcast (receivers : List NodeId) (body : Body V) : List (Effect V) :=
  receivers.map (send · body)

/-- The messages among the effects of a node. -/
def messages (node : NodeId) : List (Effect V) → List (Message V)
  | [] => []
  | send receiver body :: effects => ⟨node, receiver, body⟩ :: messages node effects
  | note _ :: effects => messages node effects

/-- The events that the effects of a node are. -/
def event (node : NodeId) : Effect V → Event V
  | send receiver body => .sent ⟨node, receiver, body⟩
  | note remark => .remarked node remark

def events (node : NodeId) (effects : List (Effect V)) : List (Event V) :=
  effects.map (event node)

@[simp] theorem messages_nil (n : NodeId) : messages n ([] : List (Effect V)) = [] := rfl

@[simp] theorem messages_note (n : NodeId) (r : Remark V) (es : List (Effect V)) :
    messages n (note r :: es) = messages n es := rfl

@[simp] theorem messages_send (n r : NodeId) (body : Body V) (es : List (Effect V)) :
    messages n (send r body :: es) = ⟨n, r, body⟩ :: messages n es := rfl

@[simp] theorem messages_append (n : NodeId) (es fs : List (Effect V)) :
    messages n (es ++ fs) = messages n es ++ messages n fs := by
  induction es with
  | nil => rfl
  | cons e es ih => cases e <;> simp [ih]

@[simp] theorem messages_broadcast (n : NodeId) (receivers : List NodeId) (body : Body V) :
    messages n (broadcast receivers body) = receivers.map fun r => ⟨n, r, body⟩ := by
  induction receivers with
  | nil => rfl
  | cons r rs ih =>
    rw [List.map_cons, ← ih]
    rfl

theorem forall_mem_broadcast {receivers : List NodeId} {body : Body V} {P : Effect V → Prop} :
    (∀ effect ∈ broadcast receivers body, P effect) ↔ ∀ r ∈ receivers, P (.send r body) := by
  simp [broadcast]

/-- Every message of a node is logged, and no other message. -/
theorem sent_mem_events {n : NodeId} {es : List (Effect V)} {m : Message V} :
    .sent m ∈ events n es ↔ m ∈ messages n es := by
  induction es with
  | nil => simp [events]
  | cons e es ih =>
    cases e <;> simp_all [events, event]

end Effect

end Synod
