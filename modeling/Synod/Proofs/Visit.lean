import Synod.Proofs.Opening

/-! What a visit does. A node that runs takes its inbox off the bus, and what it sends while it
handles the batch waits there in its turn. A visit to a node that is down, or that a fault has
stopped, changes nothing but the log. -/

namespace Synod

variable {V σ : Type}

namespace Node

/-- The node after its turn; a fault has stopped it there. -/
def Turn.result (turn : Turn V) : Node V :=
  { turn.node with faulted := turn.fault.isSome }

variable [Value V]

/-- Every effect of a batch is one of handling one of its messages. -/
theorem exists_reaction_of_mem_handleAll {n : Node V} {batch : List (Message V)}
    {effect : Effect V} (h : effect ∈ (n.handleAll batch).effects) :
    ∃ m ∈ batch, ∃ before after effects,
      Role.Reaction m.sender m.body before after effects ∧ effect ∈ effects := by
  induction batch generalizing n with
  | nil => simp [handleAll] at h
  | cons m ms ih =>
    cases hh : n.handle m.sender m.body with
    | error fault => simp [handleAll, hh] at h
    | ok out =>
      simp only [handleAll, hh, List.mem_append] at h
      rcases h with h | h
      · obtain ⟨role, -, hreaction⟩ := handle_reaction hh
        exact ⟨m, List.mem_cons_self, _, _, _, hreaction, h⟩
      · obtain ⟨k, hk, hrest⟩ := ih h
        exact ⟨k, List.mem_cons_of_mem _ hk, hrest⟩

theorem alive_result (n : Node V) (batch : List (Message V)) (h : n.alive = true) :
    (n.handleAll batch).result.alive = true := by
  induction batch generalizing n with
  | nil => exact h
  | cons m ms ih =>
    cases hh : n.handle m.sender m.body with
    | error fault => simpa [handleAll, hh, Turn.result] using h
    | ok out =>
      simp only [handleAll, hh]
      exact ih out.1 ((handle_frame hh).2.1.trans h)

end Node

namespace Cluster

/-! ## A turn -/

theorem finish_fst (c : Cluster V σ) {turn : Node.Turn V} (h : turn.node.faulted = false)
    (size : Nat) : (c.finish turn size).1 = c.settle turn.result turn.effects := by
  obtain ⟨node, effects, _ | fault⟩ := turn
  · have hsame : { node with faulted := false } = node := by
      cases node
      simpa using h.symm
    simp [finish, Node.Turn.result, hsame]
  · rfl

variable [Shuffler σ]

/-- The cluster once a node has taken its inbox off the bus. -/
def takeInbox (c : Cluster V σ) (n : Node V) : Cluster V σ :=
  let taken : Cluster V σ := { c with bus := (c.bus.drain n.id).2 }
  if (c.bus.drain n.id).1.isEmpty then taken
  else taken.note (.remarked n.id (.processing (c.bus.drain n.id).1.length))

@[simp] theorem node?_takeInbox (c : Cluster V σ) (n : Node V) :
    (c.takeInbox n).node? = c.node? := by
  unfold takeInbox
  dsimp only
  split <;> rfl

@[simp] theorem pending_takeInbox (c : Cluster V σ) (n : Node V) :
    (c.takeInbox n).bus.pending = c.bus.pending.filter (·.receiver ≠ n.id) := by
  unfold takeInbox
  dsimp only
  split <;> rfl

variable [Value V]

/-- What the batch of a node comes to. -/
def turn (c : Cluster V σ) (n : Node V) : Node.Turn V := n.handleAll (c.bus.drain n.id).1

theorem id_result_turn (c : Cluster V σ) (n : Node V) : (c.turn n).result.id = n.id :=
  (n.handleAll_frame _).1

/-- What a node sends in its turn answers a message that waited for it. -/
theorem exists_reaction_of_mem_turn {c : Cluster V σ} {n : Node V} {effect : Effect V}
    (h : effect ∈ (c.turn n).effects) : ∃ m ∈ c.bus.pending, m.receiver = n.id ∧
      ∃ before after effects,
        Role.Reaction m.sender m.body before after effects ∧ effect ∈ effects := by
  obtain ⟨m, hm, hreaction⟩ := Node.exists_reaction_of_mem_handleAll h
  have hinbox := (c.bus.drain_fst_perm n.id).mem_iff.mp hm
  exact ⟨m, List.mem_of_mem_filter hinbox, receiver_of_mem_drain hm, hreaction⟩

theorem process_of_up (c : Cluster V σ) {n : Node V} (hup : n.alive = true) :
    c.process n = (c.takeInbox n).finish (c.turn n) (c.bus.drain n.id).1.length := by
  simp only [process, hup, if_true, takeInbox, turn]

theorem process_fst_of_up (c : Cluster V σ) {n : Node V} (hup : n.alive = true)
    (hf : n.faulted = false) :
    (c.process n).1 = (c.takeInbox n).settle (c.turn n).result (c.turn n).effects := by
  rw [c.process_of_up hup]
  exact finish_fst _ ((n.handleAll_frame _).2.trans hf) _

theorem process_of_down (c : Cluster V σ) {n : Node V} (hdown : n.alive = false) :
    c.process n = (c.note (.remarked n.id .skippingFailed), .ok 0) := by
  simp [process, hdown]

theorem node?_process_of_up {c : Cluster V σ} {n : Node V} (hn : c.node? n.id = some n)
    (hup : n.alive = true) (hf : n.faulted = false) :
    (c.process n).1.node? = Function.update c.node? n.id (some (c.turn n).result) := by
  have hid := c.id_result_turn n
  rw [c.process_fst_of_up hup hf, node?_settle_update (m := n) _ (by simpa [hid] using hn),
    node?_takeInbox, hid]

/-- What waits for others stays on the bus before what the node sends. -/
theorem pending_process_of_up (c : Cluster V σ) {n : Node V} (hup : n.alive = true)
    (hf : n.faulted = false) :
    (c.process n).1.bus.pending = c.bus.pending.filter (·.receiver ≠ n.id) ++
      Effect.messages n.id (c.turn n).effects := by
  rw [c.process_fst_of_up hup hf, pending_settle, pending_takeInbox, c.id_result_turn n]

/-! ## A visit -/

variable {c : Cluster V σ} {id : NodeId} {n : Node V}

theorem visit_of_absent (hn : c.node? id = none) : c.visit id = (c, some 0) := by
  simp [visit, hn]

theorem visit_of_faulted (hn : c.node? id = some n) (hf : n.faulted = true) :
    c.visit id = (c.note (.skippingFaultedNode id), none) := by
  simp [visit, hn, hf]

theorem visit_of_down (hn : c.node? id = some n) (hf : n.faulted = false)
    (hdown : n.alive = false) :
    c.visit id = (c.note (.remarked id .skippingFailed), some 0) := by
  simp [visit, hn, hf, c.process_of_down hdown, id_of_node? hn]

/-- A visit to a node that runs adds to its turn only that a fault is logged. -/
theorem visit_of_up (hn : c.node? id = some n) (hf : n.faulted = false) :
    (c.visit id).1 = (c.process n).1 ∨
      ∃ fault, (c.visit id).1 = (c.process n).1.note (.nodeFaulted id fault) := by
  simp only [visit, hn, hf]
  rcases c.process n with ⟨c', fault | handled⟩
  · exact .inr ⟨fault, rfl⟩
  · exact .inl rfl

theorem node?_visit_of_up (hn : c.node? id = some n) (hup : n.alive = true)
    (hf : n.faulted = false) :
    (c.visit id).1.node? = Function.update c.node? id (some (c.turn n).result) := by
  obtain rfl : n.id = id := id_of_node? hn
  rw [← node?_process_of_up hn hup hf]
  rcases visit_of_up hn hf with h | ⟨fault, h⟩
  · rw [h]
  · rw [h]
    rfl

theorem pending_visit_of_up (hn : c.node? id = some n) (hup : n.alive = true)
    (hf : n.faulted = false) :
    (c.visit id).1.bus.pending = c.bus.pending.filter (·.receiver ≠ id) ++
      Effect.messages id (c.turn n).effects := by
  obtain rfl : n.id = id := id_of_node? hn
  rw [← c.pending_process_of_up hup hf]
  rcases visit_of_up hn hf with h | ⟨fault, h⟩
  · rw [h]
  · rw [h]
    rfl

/-! ## Ticks -/

theorem visitAll_cons_fst (c : Cluster V σ) (id : NodeId) (ids : List NodeId) :
    (c.visitAll (id :: ids)).1 = ((c.visit id).1.visitAll ids).1 := by
  rw [visitAll]
  rcases c.visit id with ⟨c', _ | handled⟩ <;> rfl

/-- A tick visits all nodes in some order; then it only notes that it is done. -/
theorem exists_tick_fst (c : Cluster V σ) : ∃ order ids report, ids.Perm c.ids ∧
    c.tick.1 = (visitAll { c with order, ticks := c.ticks + 1 } ids).1.note report :=
  ⟨_, _, _, Shuffler.shuffle_perm c.order c.ids, rfl⟩

/-! ## What every node keeps -/

section

variable {P : Node V → Prop}
  (hturn : ∀ n batch, P n → P (n.handleAll batch).result)
include hturn

/-- What no turn takes from a node stays true of all nodes in a visit. -/
theorem forall_node_visit {c : Cluster V σ} (h : ∀ id n, c.node? id = some n → P n)
    (visited id : NodeId) (n : Node V) (hn : (c.visit visited).1.node? id = some n) : P n := by
  cases hm : c.node? visited with
  | none => exact h id n (by rwa [visit_of_absent hm] at hn)
  | some m =>
    cases hf : m.faulted with
    | true => exact h id n (by rwa [visit_of_faulted hm hf] at hn)
    | false =>
      cases hup : m.alive with
      | false => exact h id n (by rwa [visit_of_down hm hf hup] at hn)
      | true =>
        rw [node?_visit_of_up hm hup hf] at hn
        by_cases hid : id = visited
        · subst hid
          rw [Function.update_self] at hn
          obtain rfl := Option.some.inj hn
          exact hturn m _ (h id m hm)
        · rw [Function.update_of_ne hid] at hn
          exact h id n hn

theorem forall_node_visitAll {c : Cluster V σ} (h : ∀ id n, c.node? id = some n → P n)
    (ids : List NodeId) (id : NodeId) (n : Node V)
    (hn : (c.visitAll ids).1.node? id = some n) : P n := by
  induction ids generalizing c with
  | nil => exact h id n hn
  | cons visited ids ih =>
    rw [visitAll_cons_fst] at hn
    exact ih (forall_node_visit hturn h visited) hn

theorem forall_node_tick {c : Cluster V σ} (h : ∀ id n, c.node? id = some n → P n)
    (id : NodeId) (n : Node V) (hn : c.tick.1.node? id = some n) : P n := by
  obtain ⟨order, ids, report, -, htick⟩ := c.exists_tick_fst
  rw [htick] at hn
  exact forall_node_visitAll (c := { c with order, ticks := c.ticks + 1 }) hturn h ids id n hn

theorem forall_node_ticks {c : Cluster V σ} (h : ∀ id n, c.node? id = some n → P n) (k : Nat)
    (id : NodeId) (n : Node V) (hn : (c.run (List.replicate k .tick)).node? id = some n) :
    P n := by
  induction k generalizing c with
  | zero => exact h id n hn
  | succ k ih => exact ih (forall_node_tick hturn h) hn

end

end Cluster

end Synod
