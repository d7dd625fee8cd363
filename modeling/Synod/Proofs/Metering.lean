import Synod.Proofs.Visit

/-! How much work a run does. Where what is in flight stands for so much work that handling a
message always takes one unit of it away, and no handler ends in a fault, the messages that were
handled and the work that is left add up to the same number, whatever the orders of messages and
nodes. -/

namespace Synod

variable {V σ : Type}

namespace World

variable [Value V]

/-- Worlds in which every message that reaches a node that is up is handled without a fault, for one
unit of work. What is only noted costs nothing. -/
structure Metered (Inv : World V → Prop) (work : World V → Nat) : Prop where
  calm {w : World V} {id : NodeId} {n : Node V} : Inv w → w.node? id = some n → n.faulted = false
  deliver {w : World V} {n : Node V} {m : Message V} {rest : Multiset (Message V)} :
    Inv w → w.node? n.id = some n → n.alive = true → m.receiver = n.id → w.flight = m ::ₘ rest →
      ∃ n' effects, n.handle m.sender m.body = .ok (n', effects) ∧
        Inv ({ w with flight := rest }.settle n' effects) ∧
        work ({ w with flight := rest }.settle n' effects) + 1 = work w
  note {w : World V} {e : Event V} : Inv w → e.Routine →
    Inv { w with log := w.log ++ [e] } ∧ work { w with log := w.log ++ [e] } = work w

/-- Nodes may go down and come up again at no cost. -/
def Switchable (Inv : World V → Prop) (work : World V → Nat) : Prop :=
  ∀ ⦃w : World V⦄ ⦃n : Node V⦄ (alive : Bool), Inv w → w.node? n.id = some n →
    Inv (w.settle { n with alive } [.note (if alive then .recovered else .failed)]) ∧
      work (w.settle { n with alive } [.note (if alive then .recovered else .failed)]) = work w

variable {Inv : World V → Prop} {work : World V → Nat}

/-- A batch costs one unit for each of its messages. -/
theorem Metered.handleAll (h : Metered Inv work) {w : World V} {n : Node V}
    {batch : List (Message V)} {rest : Multiset (Message V)} (hw : Inv w)
    (hn : w.node? n.id = some n) (hup : n.alive = true) (hto : ∀ m ∈ batch, m.receiver = n.id)
    (hflight : w.flight = batch + rest) :
    (n.handleAll batch).fault = none ∧
      Inv ({ w with flight := rest }.settle (n.handleAll batch).node (n.handleAll batch).effects) ∧
      work ({ w with flight := rest }.settle (n.handleAll batch).node
        (n.handleAll batch).effects) + batch.length = work w := by
  induction batch generalizing w n rest with
  | nil =>
    have hsame : { w with flight := rest } = w := by
      cases w
      simpa using hflight.symm
    rw [Node.handleAll, hsame, settle_self hn]
    exact ⟨rfl, hw, rfl⟩
  | cons m ms ih =>
    have hcons : w.flight = m ::ₘ (ms + rest : Multiset (Message V)) := by
      rw [hflight, ← Multiset.cons_coe, Multiset.cons_add]
    obtain ⟨n', effects, hhandle, hinv, hwork⟩ :=
      h.deliver hw hn hup (hto m List.mem_cons_self) hcons
    obtain ⟨hid, halive, -⟩ := Node.handle_frame hhandle
    have hnext : ({ w with flight := ms + rest }.settle n' effects).flight =
        ms + (rest + Effect.messages n'.id effects : Multiset (Message V)) := by
      simp [settle, add_assoc]
    have hrest := ih hinv (by simp [settle]) (halive.trans hup)
      (fun m' hm' => (hto m' (List.mem_cons_of_mem _ hm')).trans hid.symm) hnext
    have hsettle : ({ ({ w with flight := ms + rest }.settle n' effects) with
          flight := rest + Effect.messages n'.id effects } : World V).settle
          (n'.handleAll ms).node (n'.handleAll ms).effects =
        ({ w with flight := rest } : World V).settle (n'.handleAll ms).node
          (effects ++ (n'.handleAll ms).effects) := by
      simp [settle, (n'.handleAll_frame ms).1, Effect.events, add_assoc]
    rw [hsettle] at hrest
    simp only [Node.handleAll, hhandle]
    exact ⟨hrest.1, hrest.2.1, by rw [List.length_cons, ← hwork, ← hrest.2.2, add_assoc]⟩

end World

/-! ## Counting what is handled -/

def Operation.handles : Operation V → Bool
  | tick | process _ => true
  | _ => false

def Operation.switches : Operation V → Bool
  | fail _ | recover _ => true
  | _ => false

namespace Cluster

open World

section

variable [Value V] [Shuffler σ]

/-- How many messages an operation reports as handled. -/
def handledBy (c : Cluster V σ) : Operation V → Nat
  | .tick => c.tick.2.handled
  | .process id =>
    match (c.processNode id).2 with
    | .ok handled => handled
    | .error _ => 0
  | _ => 0

def handledIn (c : Cluster V σ) : List (Operation V) → Nat
  | [] => 0
  | op :: ops => c.handledBy op + (c.perform op).handledIn ops

end

/-! ## Metered runs -/

variable [Value V] {Inv : World V → Prop} {work : World V → Nat} (h : Metered Inv work)
include h

theorem metered_note {c : Cluster V σ} (hc : Inv c.world) {e : Event V} (he : e.Routine) :
    Inv (c.note e).world ∧ work (c.note e).world = work c.world := by
  rw [world_note]
  exact h.note hc he

variable [Shuffler σ]

theorem metered_process {c : Cluster V σ} (hc : Inv c.world) {n : Node V}
    (hn : c.node? n.id = some n) : ∃ k, (c.process n).2 = .ok k ∧ Inv (c.process n).1.world ∧
      work (c.process n).1.world + k = work c.world := by
  cases hup : n.alive with
  | false =>
    rw [process_of_down c hup]
    exact ⟨0, rfl, metered_note h hc (.remarked _ rfl)⟩
  | true =>
    -- The batch counts as in flight until it is handled, so noting it changes the log alone.
    let w : World V := { (c.takeInbox n).world with flight := c.world.flight }
    have hw : Inv w ∧ work w = work c.world := by
      simp only [w, takeInbox]
      split
      · exact ⟨hc, rfl⟩
      · rw [world_note]
        exact h.note hc (.remarked _ rfl)
    have hflight : w.flight = (c.bus.drain n.id).1 + (c.takeInbox n).world.flight := by
      simp only [w, world, pending_takeInbox]
      exact flight_drain c.bus n.id
    have hnode : (c.takeInbox n).node? n.id = some n := by rwa [node?_takeInbox]
    obtain ⟨hfault, hinv, hwork⟩ := h.handleAll (w := w) hw.1 hnode hup
      (fun m hm => receiver_of_mem_drain hm) hflight
    have hprocess : c.process n = ((c.takeInbox n).settle (c.turn n).node (c.turn n).effects,
        .ok (c.bus.drain n.id).1.length) := by
      rw [process_of_up c hup, finish, show (c.turn n).fault = none from hfault]
    have hworld := (c.takeInbox n).world_settle (n := (c.turn n).node) (m := n)
      (by rw [turn, (n.handleAll_frame _).1]; exact hnode) (c.turn n).effects
    rw [hprocess]
    refine ⟨_, rfl, ?_⟩
    rw [hworld]
    exact ⟨hinv, hwork.trans hw.2⟩

theorem metered_visit {c : Cluster V σ} (hc : Inv c.world) (id : NodeId) :
    ∃ k, (c.visit id).2 = some k ∧ Inv (c.visit id).1.world ∧
      work (c.visit id).1.world + k = work c.world := by
  unfold visit
  cases hn : c.node? id with
  | none => exact ⟨0, rfl, hc, rfl⟩
  | some n =>
    obtain rfl : n.id = id := id_of_node? hn
    obtain ⟨k, hk, hinv, hwork⟩ := metered_process h hc hn
    rcases hprocess : c.process n with ⟨c', outcome⟩
    rw [hprocess] at hk hinv hwork
    obtain rfl : outcome = .ok k := hk
    simp only [h.calm hc hn, hprocess]
    exact ⟨k, rfl, hinv, hwork⟩

theorem metered_visitAll {c : Cluster V σ} (hc : Inv c.world) (ids : List NodeId) :
    Inv (c.visitAll ids).1.world ∧
      work (c.visitAll ids).1.world + (c.visitAll ids).2.1 = work c.world := by
  induction ids generalizing c with
  | nil => exact ⟨hc, rfl⟩
  | cons id ids ih =>
    obtain ⟨k, hk, hinv, hwork⟩ := metered_visit h hc id
    rcases hvisit : c.visit id with ⟨c', outcome⟩
    rw [hvisit] at hk hinv hwork
    obtain rfl : outcome = some k := hk
    dsimp only at hinv hwork
    obtain ⟨hinv', hwork'⟩ := ih hinv
    simp only [visitAll, hvisit]
    refine ⟨hinv', ?_⟩
    rw [← hwork, ← hwork', Nat.add_assoc, Nat.add_comm k]

/-- A tick takes away as much work as it handles messages. -/
theorem metered_tick {c : Cluster V σ} (hc : Inv c.world) :
    Inv c.tick.1.world ∧ work c.tick.1.world + c.tick.2.handled = work c.world := by
  obtain ⟨hinv, hwork⟩ := metered_visitAll h
    (c := { c with order := (Shuffler.shuffle c.order c.ids).2, ticks := c.ticks + 1 }) hc
    (Shuffler.shuffle c.order c.ids).1
  obtain ⟨hinv', hwork'⟩ := metered_note h hinv (.tickDone _ _)
  exact ⟨hinv', (congrArg (· + _) hwork').trans hwork⟩

theorem metered_processNode {c : Cluster V σ} (hc : Inv c.world) (id : NodeId) :
    Inv (c.processNode id).1.world ∧
      work (c.processNode id).1.world + c.handledBy (.process id) = work c.world := by
  cases hn : c.node? id with
  | none =>
    have hprocess : c.processNode id = (c, .error (.refused (.unknownNode id))) := by
      simp [processNode, freeNode, hn]
    rw [handledBy, hprocess]
    exact ⟨hc, rfl⟩
  | some n =>
    obtain rfl : n.id = id := id_of_node? hn
    obtain ⟨k, hk, hinv, hwork⟩ := metered_process h hc hn
    have hprocess : c.processNode n.id = ((c.process n).1, .ok k) := by
      rcases hout : c.process n with ⟨c', outcome⟩
      rw [hout] at hk
      obtain rfl : outcome = .ok k := hk
      simp [processNode, freeNode, hn, h.calm hc hn, hout]
    rw [handledBy, hprocess]
    exact ⟨hinv, hwork⟩

omit h [Value V] [Shuffler σ] in
theorem switched_setAlive (hswitch : Switchable Inv work) {c : Cluster V σ} (hc : Inv c.world)
    {n : Node V} (hn : c.node? n.id = some n) (alive : Bool) :
    Inv (c.setAlive n alive).world ∧ work (c.setAlive n alive).world = work c.world := by
  unfold setAlive
  split
  · exact ⟨hc, rfl⟩
  · rw [c.world_settle (n := { n with alive }) hn]
    exact hswitch alive hc hn

omit h [Value V] [Shuffler σ] in
theorem switched_command (hswitch : Switchable Inv work) {c : Cluster V σ} (hc : Inv c.world)
    (id : NodeId) : (Inv (c.fail id).1.world ∧ work (c.fail id).1.world = work c.world) ∧
      Inv (c.recover id).1.world ∧ work (c.recover id).1.world = work c.world := by
  unfold fail recover
  cases hcommand : c.commandNode id with
  | error refusal => exact ⟨⟨hc, rfl⟩, hc, rfl⟩
  | ok n =>
    obtain ⟨hn, -, -⟩ := commandNode_eq_ok hcommand
    exact ⟨switched_setAlive hswitch hc hn false, switched_setAlive hswitch hc hn true⟩

/-- What a run handles and the work that it leaves add up to the work that there was. -/
theorem metered_run {ops : List (Operation V)} {c : Cluster V σ} (hc : Inv c.world)
    (hops : ∀ op ∈ ops, op.handles ∨ op.switches ∧ Switchable Inv work) :
    Inv (c.run ops).world ∧ work (c.run ops).world + c.handledIn ops = work c.world := by
  induction ops generalizing c with
  | nil => exact ⟨hc, rfl⟩
  | cons op ops ih =>
    have hop : Inv (c.perform op).world ∧
        work (c.perform op).world + c.handledBy op = work c.world := by
      rcases hops op List.mem_cons_self with hhandles | ⟨hswitches, hswitch⟩
      · cases op with
        | tick => exact metered_tick h hc
        | process id => exact metered_processNode h hc id
        | _ => simp [Operation.handles] at hhandles
      · cases op with
        | fail id => exact (switched_command hswitch hc id).1
        | recover id => exact (switched_command hswitch hc id).2
        | _ => simp [Operation.switches] at hswitches
    obtain ⟨hinv, hwork⟩ := ih hop.1 fun op hmem => hops op (List.mem_cons_of_mem _ hmem)
    refine ⟨hinv, ?_⟩
    rw [run_cons, handledIn, ← hop.2, ← hwork, Nat.add_assoc, Nat.add_comm (c.handledBy op)]

end Cluster

end Synod
