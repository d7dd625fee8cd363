import Synod.Proofs.Visit

/-! Nodes that handle messages in any way. A handler may send and change the role before it ends in
a fault. A tick in which the nodes use some handler goes as a tick does; with the handler of the
roles it is the tick. -/

namespace Synod

variable {V σ : Type}

/-- What a node does with a message, by its name and its role: the role it comes to, what it does on
the way, and the fault in which it ends, if it does. -/
abbrev Handler (V : Type) : Type :=
  NodeId → Role V → Message V → Role V × List (Effect V) × Option Fault

/-- What the roles do. One that ends in a fault has done nothing. -/
def Handler.ofRoles [Value V] : Handler V := fun _ role m =>
  match role.handle m.sender m.body with
  | .ok (role, effects) => (role, effects, none)
  | .error fault => (role, [], some fault)

namespace Node

/-- A node is visited in vain while it is down, and once a fault has stopped it. -/
def runs (n : Node V) : Bool := n.alive && !n.faulted

/-- Handles messages in their order, up to the first that ends in a fault. -/
def handleAllBy (h : Handler V) (n : Node V) : List (Message V) → Turn V
  | [] => ⟨n, [], none⟩
  | m :: ms =>
    let (role, effects, fault) := h n.id n.role m
    match fault with
    | some fault => ⟨{ n with role }, effects, some fault⟩
    | none =>
      let turn := handleAllBy h { n with role } ms
      { turn with effects := effects ++ turn.effects }

/-- Whatever a handler does, it does not rename a node, and neither revives nor stops it. -/
theorem handleAllBy_frame (h : Handler V) (n : Node V) (batch : List (Message V)) :
    (n.handleAllBy h batch).node.id = n.id ∧ (n.handleAllBy h batch).node.alive = n.alive ∧
      (n.handleAllBy h batch).node.faulted = n.faulted := by
  induction batch generalizing n with
  | nil => exact ⟨rfl, rfl, rfl⟩
  | cons m ms ih =>
    rcases hm : h n.id n.role m with ⟨role, effects, _ | fault⟩
    · simpa [handleAllBy, hm] using ih { n with role }
    · simp [handleAllBy, hm]

@[simp] theorem handleAllBy_ofRoles [Value V] (n : Node V) (batch : List (Message V)) :
    n.handleAllBy .ofRoles batch = n.handleAll batch := by
  induction batch generalizing n with
  | nil => rfl
  | cons m ms ih =>
    cases hm : n.role.handle m.sender m.body with
    | error fault => simp [handleAllBy, handleAll, Handler.ofRoles, handle, hm, Except.map]
    | ok out => simp [handleAllBy, handleAll, Handler.ofRoles, handle, hm, Except.map, ih]

end Node

/-! ## Visits -/

/-- A node as a visit finds it, and the batch that it is handed. -/
structure Visit (V : Type) where
  node : Node V
  batch : List (Message V)

namespace Visit

def turn (h : Handler V) (v : Visit V) : Node.Turn V := v.node.handleAllBy h v.batch

/-- The messages that the node sends. -/
def sent (h : Handler V) (v : Visit V) : List (Message V) :=
  Effect.messages v.node.id (v.turn h).effects

/-- Whether the node is stopped after the visit. -/
def stopped (h : Handler V) (v : Visit V) : Bool := v.node.faulted || (v.turn h).fault.isSome

/-- The node after the visit. -/
def result (h : Handler V) (v : Visit V) : Node V :=
  { (v.turn h).node with faulted := v.stopped h }

@[simp] theorem id_result (h : Handler V) (v : Visit V) : (v.result h).id = v.node.id :=
  (v.node.handleAllBy_frame h v.batch).1

@[simp] theorem sent_nil (h : Handler V) (n : Node V) : (⟨n, []⟩ : Visit V).sent h = [] := rfl

@[simp] theorem stopped_nil (h : Handler V) (n : Node V) :
    (⟨n, []⟩ : Visit V).stopped h = n.faulted := by
  simp [stopped, turn, Node.handleAllBy]

theorem result_of_calm {h : Handler V} {v : Visit V} (hruns : v.node.runs = true)
    (hcalm : (v.turn h).fault = none) : v.result h = (v.turn h).node := by
  have hf : v.node.faulted = false := (by simpa [Node.runs] using hruns : _ ∧ _).2
  have hstopped : v.stopped h = (v.turn h).node.faulted := by
    rw [stopped, hcalm, turn, (v.node.handleAllBy_frame h v.batch).2.2]
    simp
  rw [result, hstopped]

theorem result_nil (h : Handler V) (n : Node V) : (⟨n, []⟩ : Visit V).result h = n := by
  rw [result, stopped_nil]
  rfl

theorem turn_ofRoles [Value V] (v : Visit V) : v.turn .ofRoles = v.node.handleAll v.batch :=
  v.node.handleAllBy_ofRoles v.batch

end Visit

namespace Cluster

theorem finish_eq (c : Cluster V σ) {turn : Node.Turn V} (h : turn.node.faulted = false)
    (size : Nat) : c.finish turn size =
      (c.settle turn.result turn.effects, turn.fault.elim (.ok size) .error) := by
  refine Prod.ext (finish_fst c h size) ?_
  unfold finish
  cases turn.fault <;> rfl

section

variable [Shuffler σ]

/-- The visit to a node: it takes its inbox off the bus if it runs. -/
def meet (c : Cluster V σ) (n : Node V) : Visit V :=
  ⟨n, if n.runs then (c.bus.drain n.id).1 else []⟩

/-- Lets a node handle its inbox, if it is up. -/
def processBy (h : Handler V) (c : Cluster V σ) (n : Node V) : Cluster V σ × Except Fault Nat :=
  if n.alive then
    (c.takeInbox n).finish (n.handleAllBy h (c.bus.drain n.id).1) (c.bus.drain n.id).1.length
  else (c.note (.remarked n.id .skippingFailed), .ok 0)

def visitBy (h : Handler V) (c : Cluster V σ) (id : NodeId) : Cluster V σ × Option Nat :=
  match c.node? id with
  | none => (c, some 0)
  | some n =>
    if n.faulted then (c.note (.skippingFaultedNode id), none)
    else match c.processBy h n with
      | (c, .ok handled) => (c, some handled)
      | (c, .error fault) => (c.note (.nodeFaulted id fault), none)

def visitAllBy (h : Handler V) (c : Cluster V σ) : List NodeId → Cluster V σ × Nat × List NodeId
  | [] => (c, 0, [])
  | id :: ids =>
    let (c, outcome) := c.visitBy h id
    let (c, handled, faulted) := visitAllBy h c ids
    match outcome with
    | some n => (c, n + handled, faulted)
    | none => (c, handled, id :: faulted)

/-- Visits every node once, and each handles its inbox in this way. -/
def tickBy (h : Handler V) (c : Cluster V σ) : Cluster V σ × TickReport :=
  let (ids, order) := Shuffler.shuffle c.order c.ids
  let (c, handled, faulted) := visitAllBy h { c with order, ticks := c.ticks + 1 } ids
  (c.note (.tickDone handled faulted.length), ⟨c.ticks, handled, faulted⟩)

theorem frame_visitBy (h : Handler V) (c : Cluster V σ) (id : NodeId) :
    (c.visitBy h id).1.ids = c.ids ∧ (c.visitBy h id).1.ticks = c.ticks := by
  have htaken (n : Node V) : (c.takeInbox n).ids = c.ids ∧ (c.takeInbox n).ticks = c.ticks := by
    unfold takeInbox
    dsimp only
    split <;> exact ⟨rfl, rfl⟩
  have hprocess (n : Node V) :
      (c.processBy h n).1.ids = c.ids ∧ (c.processBy h n).1.ticks = c.ticks := by
    unfold processBy
    split
    · rw [ids_finish]
      refine ⟨(htaken n).1, Eq.trans ?_ (htaken n).2⟩
      unfold finish
      split <;> rfl
    · exact ⟨rfl, rfl⟩
  unfold visitBy
  split
  · exact ⟨rfl, rfl⟩
  · rename_i n hn
    split
    · exact ⟨rfl, rfl⟩
    · have hids := hprocess n
      split <;> rename_i hout <;> simpa [hout, note, ids] using hids

@[simp] theorem ids_visitBy (h : Handler V) (c : Cluster V σ) (id : NodeId) :
    (c.visitBy h id).1.ids = c.ids :=
  (frame_visitBy h c id).1

@[simp] theorem ticks_visitBy (h : Handler V) (c : Cluster V σ) (id : NodeId) :
    (c.visitBy h id).1.ticks = c.ticks :=
  (frame_visitBy h c id).2

/-! ### What one visit does -/

variable {h : Handler V} {c : Cluster V σ} {id : NodeId} {n : Node V}

theorem visitBy_of_idle (hn : c.node? id = some n) (hidle : n.runs = false) :
    ∃ e, c.visitBy h id = (c.note e, if n.faulted then none else some 0) := by
  cases hf : n.faulted with
  | true => exact ⟨.skippingFaultedNode id, by simp [visitBy, hn, hf]⟩
  | false =>
    have hdown : n.alive = false := by simpa [Node.runs, hf] using hidle
    exact ⟨.remarked n.id .skippingFailed, by simp [visitBy, processBy, hn, hf, hdown]⟩

/-- A node that runs is put back after its turn; that a fault stopped it is only logged. -/
theorem visitBy_of_runs (hn : c.node? id = some n) (hruns : n.runs = true) :
    ∃ c' : Cluster V σ,
      c.visitBy h id = (c', if (c.meet n).stopped h then none else some (c.meet n).batch.length) ∧
      c'.node? = ((c.takeInbox n).settle ((c.meet n).result h) ((c.meet n).turn h).effects).node? ∧
      c'.bus = ((c.takeInbox n).settle ((c.meet n).result h) ((c.meet n).turn h).effects).bus := by
  obtain ⟨hup, hf⟩ : n.alive = true ∧ n.faulted = false := by simpa [Node.runs] using hruns
  have hmeet : c.meet n = ⟨n, (c.bus.drain n.id).1⟩ := by simp [meet, hruns]
  have hstopped : (c.meet n).stopped h = ((c.meet n).turn h).fault.isSome := by
    simp [Visit.stopped, hmeet, hf]
  have hresult : (c.meet n).result h = ((c.meet n).turn h).result := by
    rw [Visit.result, hstopped]
    rfl
  have hturn : n.handleAllBy h (c.bus.drain n.id).1 = (c.meet n).turn h := by rw [hmeet]; rfl
  have hframe : ((c.meet n).turn h).node.faulted = false :=
    ((c.meet n).node.handleAllBy_frame h _).2.2.trans hf
  simp only [visitBy, processBy, hn, hf, hup, if_true, hturn, hresult, hstopped,
    finish_eq _ hframe]
  rw [hmeet]
  cases (Visit.turn h ⟨n, (c.bus.drain n.id).1⟩).fault with
  | none => exact ⟨_, rfl, rfl, rfl⟩
  | some fault => exact ⟨_, rfl, rfl, rfl⟩

/-- What there is to know of one visit: the node is left as its batch leaves it, its inbox is taken
off the bus if it runs, what it sends is put there, and its batch counts if no fault stops it. -/
theorem visitBy_spec (h : Handler V) (hn : c.node? id = some n) :
    (c.visitBy h id).1.node? = Function.update c.node? id (some ((c.meet n).result h)) ∧
      (c.visitBy h id).1.bus.pending =
        (if n.runs then c.bus.pending.filter (·.receiver ≠ id) else c.bus.pending) ++
          (c.meet n).sent h ∧
      (c.visitBy h id).2 = if (c.meet n).stopped h then none else some (c.meet n).batch.length := by
  obtain rfl : n.id = id := id_of_node? hn
  cases hruns : n.runs with
  | false =>
    obtain ⟨e, hvisit⟩ := visitBy_of_idle (h := h) hn hruns
    have hmeet : c.meet n = ⟨n, []⟩ := by simp [meet, hruns]
    rw [hvisit, hmeet, Visit.result_nil, ← hn, Function.update_eq_self]
    exact ⟨rfl, by simp [note], by simp⟩
  | true =>
    obtain ⟨c', hvisit, hnode, hbus⟩ := visitBy_of_runs (h := h) hn hruns
    have hid : ((c.meet n).result h).id = n.id := Visit.id_result h _
    rw [hvisit]
    refine ⟨?_, ?_, rfl⟩
    · rw [hnode, node?_settle_update (m := n) _ (by rw [hid, node?_takeInbox, hn]),
        node?_takeInbox, hid]
    · rw [hbus, pending_settle, pending_takeInbox, hid]
      rfl

theorem inbox_visitBy_self (h : Handler V) (hn : c.node? id = some n) :
    (c.visitBy h id).1.bus.inbox id = (if n.runs then [] else c.bus.inbox id) ++
      ((c.meet n).sent h).filter (·.receiver = id) := by
  rw [Bus.inbox, (visitBy_spec h hn).2.1, List.filter_append]
  cases n.runs <;> simp [Bus.inbox]

/-- A visit takes nothing from the inbox of another node. -/
theorem inbox_visitBy_of_ne (h : Handler V) (hn : c.node? id = some n) {other : NodeId}
    (hne : other ≠ id) : (c.visitBy h id).1.bus.inbox other = c.bus.inbox other ++
      ((c.meet n).sent h).filter (·.receiver = other) := by
  have hkept : (c.bus.pending.filter (·.receiver ≠ id)).filter (·.receiver = other) =
      c.bus.pending.filter (·.receiver = other) := c.bus.inbox_drain_of_ne hne
  rw [Bus.inbox, (visitBy_spec h hn).2.1, List.filter_append]
  cases n.runs with
  | false => rfl
  | true => rw [if_pos rfl, hkept, Bus.inbox]

/-- What is taken off the bus is handed over, and nothing else. -/
theorem accounted_visitBy (h : Handler V) (hn : c.node? id = some n) :
    ((c.meet n).batch ++ (c.visitBy h id).1.bus.pending).Perm
      (c.bus.pending ++ (c.meet n).sent h) := by
  obtain rfl : n.id = id := id_of_node? hn
  rw [(visitBy_spec h hn).2.1, ← List.append_assoc]
  refine List.Perm.append_right _ ?_
  cases hruns : n.runs with
  | false => simp [meet, hruns]
  | true =>
    have hsplit := List.filter_append_perm (fun m : Message V => m.receiver = n.id) c.bus.pending
    simpa [meet, hruns, Bus.inbox] using
      ((c.bus.drain_fst_perm n.id).append_right _).trans hsplit

end

/-! ### The handler of the roles -/

section

variable [Value V] [Shuffler σ]

theorem processBy_ofRoles (c : Cluster V σ) (n : Node V) :
    c.processBy .ofRoles n = c.process n := by
  cases hup : n.alive with
  | false => simp [processBy, hup, c.process_of_down hup]
  | true => simp [processBy, hup, c.process_of_up hup, turn]

theorem visitBy_ofRoles (c : Cluster V σ) (id : NodeId) : c.visitBy .ofRoles id = c.visit id := by
  cases hn : c.node? id with
  | none => simp [visitBy, visit, hn]
  | some n =>
    cases hf : n.faulted with
    | true => simp [visitBy, visit, hn, hf]
    | false =>
      rcases hprocess : c.process n with ⟨c', fault | handled⟩ <;>
        simp [visitBy, visit, hn, hf, processBy_ofRoles, hprocess]

theorem visitAllBy_ofRoles (c : Cluster V σ) (ids : List NodeId) :
    c.visitAllBy .ofRoles ids = c.visitAll ids := by
  induction ids generalizing c with
  | nil => rfl
  | cons id ids ih =>
    rcases hvisit : c.visit id with ⟨c', _ | handled⟩ <;>
      simp [visitAllBy, visitAll, visitBy_ofRoles, hvisit, ih]

theorem tickBy_ofRoles (c : Cluster V σ) : c.tickBy .ofRoles = c.tick := by
  simp only [tickBy, tick, visitAllBy_ofRoles]

end

end Cluster

end Synod
