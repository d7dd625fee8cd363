import Mathlib.Algebra.Order.Group.Multiset
import Mathlib.Logic.Function.Basic
import Mathlib.Logic.Relation
import Synod.Proofs.History
import Synod.Proofs.Reaction
import Synod.Proofs.Run

/-! A cluster seen without its orders: the nodes, the messages in flight and the log. What an
operation does to it is a sequence of moves, in each of which one node handles one message or one
round is started. Orders of delivery and of visits disappear in the choice of moves. -/

namespace Synod

variable {V σ : Type}

@[ext] structure World (V : Type) where
  node? : NodeId → Option (Node V)
  /-- The messages on the bus, and those that were taken off it and wait to be handled. -/
  flight : Multiset (Message V)
  log : List (Event V)

namespace World

/-- Puts a node back with what it did. -/
def settle (w : World V) (n : Node V) (effects : List (Effect V)) : World V where
  node? := Function.update w.node? n.id (some n)
  flight := w.flight + Effect.messages n.id effects
  log := w.log ++ Effect.events n.id effects

theorem settle_settle (w : World V) {n n' : Node V} (hid : n'.id = n.id)
    (effects later : List (Effect V)) :
    (w.settle n effects).settle n' later = w.settle n' (effects ++ later) := by
  simp [settle, hid, Effect.events, add_assoc]

theorem node?_settle_eq_some {w : World V} {n m : Node V} {effects : List (Effect V)} {id : NodeId}
    (h : (w.settle n effects).node? id = some m) :
    id = n.id ∧ m = n ∨ id ≠ n.id ∧ w.node? id = some m := by
  by_cases hid : id = n.id
  · subst hid
    exact .inl ⟨rfl, (by simpa [settle] using h : n = m).symm⟩
  · exact .inr ⟨hid, by simpa [settle, hid] using h⟩

/-! ### Nodes by role -/

def acceptor? (w : World V) (id : NodeId) : Option (Acceptor V) := (w.node? id).bind Node.acceptor?

def learner? (w : World V) (id : NodeId) : Option (Learner V) := (w.node? id).bind Node.learner?

def proposer? (w : World V) (id : NodeId) : Option (Proposer V) := (w.node? id).bind Node.proposer?

theorem acceptor?_eq_some_iff {w : World V} {id : NodeId} {a : Acceptor V} :
    w.acceptor? id = some a ↔ ∃ n, w.node? id = some n ∧ n.role = .acceptor a := by
  refine Option.bind_eq_some_iff.trans (exists_congr fun n => and_congr_right fun _ => ?_)
  cases hr : n.role <;> simp [Node.acceptor?, hr]

theorem learner?_eq_some_iff {w : World V} {id : NodeId} {l : Learner V} :
    w.learner? id = some l ↔ ∃ n, w.node? id = some n ∧ n.role = .learner l := by
  refine Option.bind_eq_some_iff.trans (exists_congr fun n => and_congr_right fun _ => ?_)
  cases hr : n.role <;> simp [Node.learner?, hr]

theorem proposer?_eq_some_iff {w : World V} {id : NodeId} {p : Proposer V} :
    w.proposer? id = some p ↔ ∃ n, w.node? id = some n ∧ n.role = .proposer p := by
  refine Option.bind_eq_some_iff.trans (exists_congr fun n => and_congr_right fun _ => ?_)
  cases hr : n.role <;> simp [Node.proposer?, hr]

theorem acceptor?_settle (w : World V) (n : Node V) (effects : List (Effect V)) :
    (w.settle n effects).acceptor? = Function.update w.acceptor? n.id n.acceptor? := by
  funext id
  by_cases h : id = n.id <;> simp [acceptor?, settle, Function.update, h]

theorem learner?_settle (w : World V) (n : Node V) (effects : List (Effect V)) :
    (w.settle n effects).learner? = Function.update w.learner? n.id n.learner? := by
  funext id
  by_cases h : id = n.id <;> simp [learner?, settle, Function.update, h]

theorem proposer?_settle (w : World V) (n : Node V) (effects : List (Effect V)) :
    (w.settle n effects).proposer? = Function.update w.proposer? n.id n.proposer? := by
  funext id
  by_cases h : id = n.id <;> simp [proposer?, settle, Function.update, h]

theorem acceptor?_settle_of_eq {w : World V} {n : Node V} (h : n.acceptor? = w.acceptor? n.id)
    (effects : List (Effect V)) : (w.settle n effects).acceptor? = w.acceptor? := by
  rw [acceptor?_settle]
  exact Function.update_eq_self_iff.mpr h

theorem learner?_settle_of_eq {w : World V} {n : Node V} (h : n.learner? = w.learner? n.id)
    (effects : List (Effect V)) : (w.settle n effects).learner? = w.learner? := by
  rw [learner?_settle]
  exact Function.update_eq_self_iff.mpr h

theorem proposer?_settle_of_eq {w : World V} {n : Node V} (h : n.proposer? = w.proposer? n.id)
    (effects : List (Effect V)) : (w.settle n effects).proposer? = w.proposer? := by
  rw [proposer?_settle]
  exact Function.update_eq_self_iff.mpr h

theorem settle_self {w : World V} {n : Node V} (hn : w.node? n.id = some n) :
    w.settle n [] = w := by
  simp [settle, ← hn, Effect.events]

/-! ## Moves -/

/-- Changes that no handler makes: from outside, or by a fault. -/
inductive Aside : World V → World V → Prop where
  | note {w : World V} {e : Event V} (h : e.Routine) (hstray : e.isStray = false) :
      Aside w { w with log := w.log ++ [e] }
  | setValue {w : World V} {n : Node V} {p : Proposer V} {value : V}
      (hn : w.node? n.id = some n) (hf : n.faulted = false) (hr : n.role = .proposer p) :
      Aside w (w.settle { n with role := .proposer { p with value } } [.note (.valueUpdated value)])
  | setAlive {w : World V} {n : Node V} {alive : Bool} (hn : w.node? n.id = some n)
      (hf : n.faulted = false) :
      Aside w (w.settle { n with alive } [.note (if alive then .recovered else .failed)])
  | overflow {w : World V} {n : Node V} {p p' : Proposer V} {effects : List (Effect V)}
      {fault : Fault} (hn : w.node? n.id = some n) (hr : n.role = .proposer p)
      (h : p.start n.id = (p', effects, .failed fault)) :
      Aside w (w.settle { n with role := .proposer p', faulted := true } effects)
  | crash {w : World V} {n : Node V} {lost rest : Multiset (Message V)}
      (hn : w.node? n.id = some n) (hflight : w.flight = lost + rest) :
      Aside w ({ w with flight := rest }.settle { n with faulted := true } [])

/-- One node handles one message, or one round is started, or a change aside. -/
inductive Move [Value V] : World V → World V → Prop where
  | acceptor {w : World V} {n : Node V} {a a' : Acceptor V} {m : Message V}
      {rest : Multiset (Message V)} {effects : List (Effect V)} (hn : w.node? n.id = some n)
      (hup : n.alive = true) (hf : n.faulted = false) (hr : n.role = .acceptor a)
      (hm : m.receiver = n.id) (hflight : w.flight = m ::ₘ rest)
      (h : a.Reaction m.sender m.body a' effects) :
      Move w ({ w with flight := rest }.settle { n with role := .acceptor a' } effects)
  | learner {w : World V} {n : Node V} {l l' : Learner V} {m : Message V}
      {rest : Multiset (Message V)} {effects : List (Effect V)} (hn : w.node? n.id = some n)
      (hup : n.alive = true) (hf : n.faulted = false) (hr : n.role = .learner l)
      (hm : m.receiver = n.id) (hflight : w.flight = m ::ₘ rest)
      (h : l.Reaction m.sender m.body l' effects) :
      Move w ({ w with flight := rest }.settle { n with role := .learner l' } effects)
  | proposer {w : World V} {n : Node V} {p p' : Proposer V} {m : Message V}
      {rest : Multiset (Message V)} {effects : List (Effect V)} (hn : w.node? n.id = some n)
      (hup : n.alive = true) (hf : n.faulted = false) (hr : n.role = .proposer p)
      (hm : m.receiver = n.id) (hflight : w.flight = m ::ₘ rest)
      (h : p.Reaction m.sender m.body p' effects) :
      Move w ({ w with flight := rest }.settle { n with role := .proposer p' } effects)
  | start {w : World V} {n : Node V} {p p' : Proposer V} {b : Ballot} {effects : List (Effect V)}
      (hn : w.node? n.id = some n) (hup : n.alive = true) (hf : n.faulted = false)
      (hr : n.role = .proposer p) (h : p.start n.id = (p', effects, .started b)) :
      Move w (w.settle { n with role := .proposer p' } effects)
  | aside {w w' : World V} (h : Aside w w') : Move w w'

abbrev Moves [Value V] : World V → World V → Prop :=
  Relation.ReflTransGen Move

/-- What every move preserves holds after any number of moves. -/
theorem Moves.induction [Value V] {P : World V → Prop} {w w' : World V} (h : Moves w w')
    (hP : P w) (hstep : ∀ {w w'}, P w → Move w w' → P w') : P w' := by
  induction h with
  | refl => exact hP
  | tail _ hmove ih => exact hstep ih hmove

theorem Moves.aside [Value V] {w w' : World V} (h : Aside w w') : Moves w w' :=
  .single (.aside h)

variable [Value V]

/-- A node that handles a message follows a rule of its role. -/
theorem Move.deliver {w : World V} {n n' : Node V} {m : Message V}
    {rest : Multiset (Message V)} {effects : List (Effect V)} (hn : w.node? n.id = some n)
    (hup : n.alive = true) (hf : n.faulted = false) (hm : m.receiver = n.id)
    (hflight : w.flight = m ::ₘ rest) (h : n.handle m.sender m.body = .ok (n', effects)) :
    Move w ({ w with flight := rest }.settle n' effects) := by
  obtain ⟨role, rfl, hreaction⟩ := Node.handle_reaction h
  generalize hr : n.role = before at hreaction
  cases hreaction with
  | acceptor h => exact .acceptor hn hup hf hr hm hflight h
  | learner h => exact .learner hn hup hf hr hm hflight h
  | proposer h => exact .proposer hn hup hf hr hm hflight h

omit [Value V] in
theorem Aside.log_subset {w w' : World V} (h : Aside w w') : w.log ⊆ w'.log := by
  cases h <;> exact List.subset_append_left _ _

omit [Value V] in
/-- What is done aside logs nothing but routine. -/
theorem Aside.exists_routine {w w' : World V} (h : Aside w w') :
    ∃ later, w'.log = w.log ++ later ∧ ∀ e ∈ later, e.Routine := by
  cases h with
  | @note e he _ => exact ⟨[e], rfl, List.forall_mem_singleton.mpr he⟩
  | @setValue n p value hn hf hr =>
    exact ⟨_, rfl, List.forall_mem_singleton.mpr (.remarked n.id rfl)⟩
  | @setAlive n alive hn hf =>
    refine ⟨_, rfl, List.forall_mem_singleton.mpr (.remarked n.id ?_)⟩
    cases alive <;> rfl
  | overflow hn hr hstart =>
    obtain ⟨r, -, -, rfl⟩ := Proposer.start_eq_failed hstart
    exact ⟨[], rfl, by simp⟩
  | crash hn hflight => exact ⟨[], rfl, by simp⟩

theorem Move.log_subset {w w' : World V} (h : Move w w') : w.log ⊆ w'.log := by
  cases h with
  | aside h => exact h.log_subset
  | _ => exact List.subset_append_left _ _

theorem Moves.log_subset {w w' : World V} (h : Moves w w') : w.log ⊆ w'.log :=
  Moves.induction h (P := fun w' => w.log ⊆ w'.log) (List.Subset.refl _)
    fun hsub hmove => List.Subset.trans hsub hmove.log_subset

end World

/-! ## A batch -/

namespace Node

variable [Value V]

/-- Handling a message changes nothing but the role. -/
theorem handle_frame {n n' : Node V} {sender : NodeId} {body : Body V}
    {effects : List (Effect V)} (h : n.handle sender body = .ok (n', effects)) :
    n'.id = n.id ∧ n'.alive = n.alive ∧ n'.faulted = n.faulted := by
  obtain ⟨role, rfl, -⟩ := handle_reaction h
  exact ⟨rfl, rfl, rfl⟩

theorem handleAll_frame (n : Node V) (batch : List (Message V)) :
    (n.handleAll batch).node.id = n.id ∧ (n.handleAll batch).node.faulted = n.faulted := by
  induction batch generalizing n with
  | nil => exact ⟨rfl, rfl⟩
  | cons m ms ih =>
    cases hh : n.handle m.sender m.body with
    | error fault => simp [handleAll, hh]
    | ok out =>
      obtain ⟨hid, -, hfault⟩ := handle_frame hh
      simp only [handleAll, hh]
      exact ⟨(ih out.1).1.trans hid, (ih out.1).2.trans hfault⟩

/-- A batch is handled message by message; where a fault stops it, the rest is lost. -/
theorem moves_handleAll {w : World V} {n : Node V} {batch : List (Message V)}
    {rest : Multiset (Message V)} (hn : w.node? n.id = some n) (hup : n.alive = true)
    (hf : n.faulted = false) (hto : ∀ m ∈ batch, m.receiver = n.id)
    (hflight : w.flight = batch + rest) :
    World.Moves w ({ w with flight := rest }.settle
      { (n.handleAll batch).node with faulted := (n.handleAll batch).fault.isSome }
      (n.handleAll batch).effects) := by
  induction batch generalizing w n rest with
  | nil =>
    have hw : { w with flight := rest } = w := by
      cases w
      simpa using hflight.symm
    have hsame : { n with faulted := false } = n := by
      cases n
      simpa using hf.symm
    simp only [handleAll, Option.isSome_none, hw, hsame, World.settle_self hn]
    exact .refl
  | cons m ms ih =>
    cases hh : n.handle m.sender m.body with
    | error fault =>
      simp only [handleAll, hh]
      exact .aside (.crash hn hflight)
    | ok out =>
      obtain ⟨n', effects⟩ := out
      obtain ⟨hid, halive, hfault⟩ := handle_frame hh
      have hto' : ∀ m' ∈ ms, m'.receiver = n'.id := fun m' hm' =>
        (hto m' (List.mem_cons_of_mem _ hm')).trans hid.symm
      have hcons : w.flight = m ::ₘ (ms + rest : Multiset (Message V)) := by
        rw [hflight, ← Multiset.cons_coe, Multiset.cons_add]
      have hmove := World.Move.deliver hn hup hf (hto m List.mem_cons_self) hcons hh
      let w₁ : World V := { w with flight := ms + rest }.settle n' effects
      have hflight₁ : w₁.flight = ms + (rest + Effect.messages n'.id effects) := by
        simp [w₁, World.settle, add_assoc]
      have hnext := ih (w := w₁) (by simp [w₁, World.settle]) (halive.trans hup) (hfault.trans hf)
        hto' hflight₁
      simp only [handleAll, hh]
      refine .head hmove ?_
      convert hnext using 1
      simp [w₁, World.settle, (handleAll_frame n' ms).1, Effect.events, add_assoc]

end Node

/-! ## Operations -/

namespace Cluster

/-- The cluster without its orders. -/
def world (c : Cluster V σ) : World V where
  node? := c.node?
  flight := c.bus.pending
  log := c.log.toList

theorem node?_settle_update (c : Cluster V σ) {n m : Node V} (h : c.node? n.id = some m)
    (effects : List (Effect V)) :
    (c.settle n effects).node? = Function.update c.node? n.id (some n) := by
  funext id
  rw [node?_settle]
  by_cases hid : id = n.id
  · subst hid
    rw [node?_setNode_self h, Function.update_self]
  · rw [node?_setNode_of_ne c hid, Function.update_of_ne hid]

theorem world_settle (c : Cluster V σ) {n m : Node V} (h : c.node? n.id = some m)
    (effects : List (Effect V)) : (c.settle n effects).world = c.world.settle n effects := by
  refine World.ext (c.node?_settle_update h effects) ?_ ?_
  · exact congrArg Multiset.ofList (c.pending_settle n effects)
  · simp [world, World.settle, settle]

theorem world_note (c : Cluster V σ) (e : Event V) :
    (c.note e).world = { c.world with log := c.world.log ++ [e] } :=
  World.ext rfl rfl (by simp [world, note])

theorem world_finish (c : Cluster V σ) (turn : Node.Turn V) (size : Nat) {n : Node V}
    (h : c.node? turn.node.id = some n) (hf : turn.node.faulted = false) :
    (c.finish turn size).1.world =
      c.world.settle { turn.node with faulted := turn.fault.isSome } turn.effects := by
  unfold finish
  cases turn with
  | mk node effects fault =>
    cases fault with
    | none =>
      have hsame : { node with faulted := false } = node := by
        cases node
        simpa using hf.symm
      simp only [Option.isSome_none, hsame]
      exact c.world_settle h effects
    | some fault => exact c.world_settle (n := { node with faulted := true }) h effects

/-- A node that takes commands is there and no fault has stopped it. -/
theorem commandNode_eq_ok {c : Cluster V σ} {id : NodeId} {n : Node V}
    (h : c.commandNode id = .ok n) : c.node? n.id = some n ∧ n.id = id ∧ n.faulted = false := by
  unfold commandNode at h
  cases hn : c.node? id with
  | none => simp [hn] at h
  | some m =>
    have hid : m.id = id := id_of_node? hn
    by_cases hf : m.faulted = true
    · simp [hn, hf] at h
    · simp only [hn, hf] at h
      obtain rfl : m = n := Except.ok.inj h
      exact ⟨by rw [hid]; exact hn, hid, by simpa using hf⟩

theorem commandProposer_eq_ok {c : Cluster V σ} {id : NodeId} {n : Node V} {p : Proposer V}
    (h : c.commandProposer id = .ok (n, p)) :
    c.node? n.id = some n ∧ n.id = id ∧ n.faulted = false ∧ n.role = .proposer p := by
  unfold commandProposer at h
  cases hn : c.node? id with
  | none => simp [hn] at h
  | some m =>
    have hid : m.id = id := id_of_node? hn
    cases hr : m.role with
    | acceptor a => simp [hn, hr, Node.proposer?] at h
    | learner l => simp [hn, hr, Node.proposer?] at h
    | proposer q =>
      by_cases hf : m.faulted = true
      · simp [hn, hr, hf, Node.proposer?] at h
      · simp only [hn, hr, hf, Node.proposer?] at h
        obtain ⟨rfl, rfl⟩ := Prod.mk.inj (Except.ok.inj h)
        exact ⟨by rw [hid]; exact hn, hid, by simpa using hf, hr⟩

theorem flight_drain [Shuffler σ] (bus : Bus V σ) (id : NodeId) :
    (bus.pending : Multiset (Message V)) = (bus.drain id).1 + (bus.drain id).2.pending := by
  have hbatch : ((bus.drain id).1 : Multiset (Message V)) =
      (bus.pending : Multiset (Message V)).filter (·.receiver = id) := by
    rw [Multiset.filter_coe]
    exact Multiset.coe_eq_coe.mpr (bus.drain_fst_perm id)
  have hrest : ((bus.drain id).2.pending : Multiset (Message V)) =
      (bus.pending : Multiset (Message V)).filter (¬ ·.receiver = id) := rfl
  rw [hbatch, hrest, Multiset.filter_add_not]

theorem receiver_of_mem_drain [Shuffler σ] {bus : Bus V σ} {id : NodeId} {m : Message V}
    (h : m ∈ (bus.drain id).1) : m.receiver = id := by
  have hmem := (bus.drain_fst_perm id).mem_iff.mp h
  simpa [Bus.inbox] using (List.mem_filter.mp hmem).2

variable [Value V]

theorem moves_note (c : Cluster V σ) {e : Event V} (h : e.Routine) (hstray : e.isStray = false) :
    World.Moves c.world (c.note e).world := by
  rw [world_note]
  exact .aside (.note h hstray)

variable [Shuffler σ]

/-- A node takes its inbox off the bus and handles it. -/
theorem moves_process {c : Cluster V σ} {n : Node V} (hn : c.node? n.id = some n)
    (hf : n.faulted = false) : World.Moves c.world (c.process n).1.world := by
  unfold process
  split
  · rename_i hup
    have hflight := flight_drain c.bus n.id
    have hto : ∀ m ∈ (c.bus.drain n.id).1, m.receiver = n.id := fun m => receiver_of_mem_drain
    generalize c.bus.drain n.id = drained at hflight hto
    obtain ⟨batch, bus⟩ := drained
    simp only at hflight hto ⊢
    -- The batch counts as in flight until it is handled, so noting it changes the log alone.
    let c₁ : Cluster V σ :=
      if batch.isEmpty then { c with bus }
      else ({ c with bus } : Cluster V σ).note (.remarked n.id (.processing batch.length))
    let w₁ : World V := { c₁.world with flight := c.world.flight }
    have hnode : c₁.node? = c.node? := by
      dsimp only [c₁]
      split <;> rfl
    have hbus : c₁.bus = bus := by
      dsimp only [c₁]
      split <;> rfl
    have hnote : World.Moves c.world w₁ := by
      dsimp only [w₁, c₁]
      split
      · exact .refl
      · rw [world_note]
        exact .aside (.note (.remarked _ rfl) rfl)
    have hbatch := Node.moves_handleAll (w := w₁)
      (by simpa [w₁, world, hnode] using hn) hup hf hto hflight
    obtain ⟨hid, hfault⟩ := n.handleAll_frame batch
    have hfinish := c₁.world_finish (n.handleAll batch) batch.length
      (by rw [hid, hnode]; exact hn) (hfault.trans hf)
    refine hnote.trans ?_
    rw [hfinish]
    convert hbatch using 2
    exact World.ext rfl (by rw [← hbus]; rfl) rfl
  · exact c.moves_note (.remarked _ rfl) rfl

theorem moves_visit (c : Cluster V σ) (id : NodeId) :
    World.Moves c.world (c.visit id).1.world := by
  unfold visit
  split
  · exact .refl
  · rename_i n hn
    have hid : n.id = id := id_of_node? hn
    split
    · exact c.moves_note (.skippingFaultedNode id) rfl
    · rename_i hf
      have hmoves := moves_process (c := c) (n := n) (by rw [hid]; exact hn) (by simpa using hf)
      split
      · rename_i hprocess
        simpa [hprocess] using hmoves
      · rename_i c' fault hprocess
        simp only [hprocess] at hmoves
        exact hmoves.trans (c'.moves_note (.nodeFaulted id fault) rfl)

theorem moves_visitAll (c : Cluster V σ) (ids : List NodeId) :
    World.Moves c.world (c.visitAll ids).1.world := by
  induction ids generalizing c with
  | nil => exact .refl
  | cons id ids ih =>
    have hvisit := c.moves_visit id
    have hrest := ih (c.visit id).1
    unfold visitAll
    cases hout : (c.visit id).2 <;> simpa [hout] using hvisit.trans hrest

theorem moves_tick (c : Cluster V σ) : World.Moves c.world c.tick.1.world := by
  unfold tick
  rcases Shuffler.shuffle c.order c.ids with ⟨ids, order⟩
  have hvisits := moves_visitAll { c with order, ticks := c.ticks + 1 } ids
  dsimp only
  generalize visitAll { c with order, ticks := c.ticks + 1 } ids = out at hvisits
  exact Relation.ReflTransGen.trans hvisits (out.1.moves_note (.tickDone _ _) rfl)

theorem moves_processNode (c : Cluster V σ) (id : NodeId) :
    World.Moves c.world (c.processNode id).1.world := by
  unfold processNode freeNode
  cases hn : c.node? id with
  | none => exact .refl
  | some n =>
    have hid : n.id = id := id_of_node? hn
    by_cases hf : n.faulted = true
    · simp only [hf, if_true]
      exact .refl
    · have hmoves := moves_process (c := c) (n := n) (by rw [hid]; exact hn) (by simpa using hf)
      simp only [hf]
      rcases hprocess : c.process n with ⟨c', _ | handled⟩ <;> simpa [hprocess] using hmoves

omit [Shuffler σ] in
theorem moves_setAlive {c : Cluster V σ} {n : Node V} (hn : c.node? n.id = some n)
    (hf : n.faulted = false) (alive : Bool) : World.Moves c.world (c.setAlive n alive).world := by
  unfold setAlive
  split
  · exact .refl
  · rw [c.world_settle (n := { n with alive }) hn]
    exact .aside (.setAlive hn hf)

omit [Shuffler σ] in
theorem moves_offer {w : World V} {n : Node V} {p : Proposer V} (hn : w.node? n.id = some n)
    (hf : n.faulted = false) (hr : n.role = .proposer p) (value : Option V) :
    World.Moves w (w.settle { n with role := .proposer (offer p value).1 } (offer p value).2) := by
  cases value with
  | none =>
    have hsame : { n with role := .proposer p } = n := by rw [← hr]
    simp only [offer, hsame, World.settle_self hn]
    exact .refl
  | some value => exact .aside (.setValue hn hf hr)

omit [Value V] [Shuffler σ] in
theorem isProposing_offer (p : Proposer V) (value : Option V) :
    (offer p value).1.isProposing = p.isProposing := by
  cases value <;> rfl

omit [Shuffler σ] in
/-- A proposer is given its value first, and then the round is started. -/
theorem moves_propose (c : Cluster V σ) (id : NodeId) (value : Option V) :
    World.Moves c.world (c.propose id value).1.world := by
  unfold propose
  cases hcommand : c.commandProposer id with
  | error refusal => exact .refl
  | ok found =>
    obtain ⟨n, p⟩ := found
    obtain ⟨hn, rfl, hf, hr⟩ := commandProposer_eq_ok hcommand
    by_cases hup : n.alive = true
    · by_cases hidle : p.isProposing = true
      · simp only [hup, hidle, Bool.not_true, if_true]
        exact .refl
      · have hoffer := moves_offer (w := c.world) hn hf hr value
        have hstill := (isProposing_offer p value).trans (by simpa using hidle)
        dsimp only
        rw [if_neg (by simp [hup]), if_neg hidle]
        generalize offer p value = offered at hoffer hstill
        obtain ⟨q, given⟩ := offered
        simp only at hoffer hstill ⊢
        let m : Node V := { n with role := .proposer q }
        have hm : (c.world.settle m given).node? m.id = some m := Function.update_self ..
        rcases hstart : q.start n.id with ⟨p', effects, _ | b | fault⟩
        · exact absurd (by rw [hstart]) (Proposer.start_ne_refused hstill)
        · have hmoves := hoffer.tail (.start hm hup hf rfl hstart)
          rw [World.settle_settle _ (by rfl)] at hmoves
          simpa only [c.world_settle (n := { n with role := .proposer p' }) hn] using hmoves
        · have hmoves := hoffer.tail (.aside (.overflow hm rfl hstart))
          rw [World.settle_settle _ (by rfl)] at hmoves
          simpa only [c.world_settle (n := { n with role := .proposer p', faulted := true }) hn]
            using hmoves
    · simp only [hup]
      exact .refl

omit [Shuffler σ] in
theorem moves_setValue (c : Cluster V σ) (id : NodeId) (value : V) :
    World.Moves c.world (c.setValue id value).1.world := by
  unfold setValue
  cases hcommand : c.commandProposer id with
  | error refusal => exact .refl
  | ok found =>
    obtain ⟨n, p⟩ := found
    obtain ⟨hn, rfl, hf, hr⟩ := commandProposer_eq_ok hcommand
    exact c.world_settle (n := { n with role := .proposer { p with value } }) hn _ ▸
      .aside (.setValue hn hf hr)

omit [Shuffler σ] in
theorem moves_fail (c : Cluster V σ) (id : NodeId) :
    World.Moves c.world (c.fail id).1.world := by
  unfold fail
  cases hcommand : c.commandNode id with
  | error refusal => exact .refl
  | ok n =>
    obtain ⟨hn, -, hf⟩ := commandNode_eq_ok hcommand
    exact moves_setAlive hn hf false

omit [Shuffler σ] in
theorem moves_recover (c : Cluster V σ) (id : NodeId) :
    World.Moves c.world (c.recover id).1.world := by
  unfold recover
  cases hcommand : c.commandNode id with
  | error refusal => exact .refl
  | ok n =>
    obtain ⟨hn, -, hf⟩ := commandNode_eq_ok hcommand
    exact moves_setAlive hn hf true

theorem moves_perform (c : Cluster V σ) (op : Operation V) :
    World.Moves c.world (c.perform op).world := by
  cases op with
  | propose id value => exact c.moves_propose id value
  | setValue id value => exact c.moves_setValue id value
  | fail id => exact c.moves_fail id
  | recover id => exact c.moves_recover id
  | tick => exact c.moves_tick
  | process id => exact c.moves_processNode id

theorem moves_run (c : Cluster V σ) (ops : List (Operation V)) :
    World.Moves c.world (c.run ops).world := by
  induction ops generalizing c with
  | nil => exact .refl
  | cons op ops ih => exact (c.moves_perform op).trans (ih (c.perform op))

theorem log_subset_run (c : Cluster V σ) (ops later : List (Operation V)) :
    (c.run ops).log.toList ⊆ (c.run (ops ++ later)).log.toList := by
  rw [run_append]
  exact ((c.run ops).moves_run later).log_subset

end Cluster

end Synod
