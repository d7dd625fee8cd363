import Synod.Proofs.Commitment
import Synod.Proofs.Tour

/-! Faults. A fault stops the node in which it happens and no other. The node then stays as it is
for ever: every tick reports it and passes it by, no command is taken for it, and its inbox only
grows. -/

namespace Synod

variable {V σ : Type}

/-- What may be done to a cluster and its bus from outside. -/
inductive Action (V : Type) where
  | operation (op : Operation V)
  /-- A tick in which the nodes handle messages in this way. -/
  | tick (h : Handler V)
  | send (message : Message V)
  /-- Takes the inbox of a node off the bus. -/
  | drain (id : NodeId)

namespace Cluster

/-! ## A node that is passed by -/

/-- A node stays as it is, and only more messages come to wait for it. -/
structure Leaves (id : NodeId) (c c' : Cluster V σ) : Prop where
  node : c'.node? id = c.node? id
  inbox : c.bus.inbox id <+: c'.bus.inbox id

namespace Leaves

variable {id : NodeId} {c c' : Cluster V σ}

theorem refl (c : Cluster V σ) : Leaves id c c := ⟨rfl, List.prefix_refl _⟩

theorem note (h : Leaves id c c') (e : Event V) : Leaves id c (c'.note e) := ⟨h.node, h.inbox⟩

theorem settle (h : Leaves id c c') {n : Node V} (hne : id ≠ n.id) (effects : List (Effect V)) :
    Leaves id c (c'.settle n effects) := by
  refine ⟨?_, h.inbox.trans ?_⟩
  · rw [node?_settle, node?_setNode_of_ne c' hne, h.node]
  · exact ⟨_, (Bus.inbox_sendAll _ _ _).symm⟩

theorem drain [Shuffler σ] {other : NodeId} (hne : id ≠ other) :
    Leaves id c { c with bus := (c.bus.drain other).2 } :=
  ⟨rfl, by rw [Bus.inbox_drain_of_ne c.bus hne]⟩

theorem takeInbox [Shuffler σ] {n : Node V} (hne : id ≠ n.id) : Leaves id c (c.takeInbox n) := by
  unfold Cluster.takeInbox
  dsimp only
  split
  · exact .drain hne
  · exact (Leaves.drain hne).note _

end Leaves

section

variable {c : Cluster V σ} {id other : NodeId} {k n : Node V}
  (hk : c.node? id = some k) (hf : k.faulted = true)
include hk hf

theorem ne_of_calm (hn : c.node? other = some n) (hcalm : n.faulted = false) : id ≠ other := by
  rintro rfl
  obtain rfl := Option.some.inj (hn.symm.trans hk)
  simp [hf] at hcalm

theorem leaves_settle (hn : c.node? n.id = some n) (hcalm : n.faulted = false) {m : Node V}
    (hid : m.id = n.id) (effects : List (Effect V)) : Leaves id c (c.settle m effects) :=
  (Leaves.refl c).settle (hid ▸ ne_of_calm hk hf hn hcalm) effects

/-- A command is only taken for a node that no fault has stopped, and only that node acts. -/
theorem leaves_commanded {c' : Cluster V σ} (h : c.Commanded other c') : Leaves id c c' := by
  cases h with
  | same => exact .refl c
  | settled effects hn _ hcalm hm => exact leaves_settle hk hf hn hcalm hm effects

theorem leaves_processNode [Value V] [Shuffler σ] : Leaves id c (c.processNode other).1 := by
  cases hn : c.node? other with
  | none => simpa [processNode, freeNode, hn] using Leaves.refl c
  | some n =>
    cases hcalm : n.faulted with
    | true => simpa [processNode, freeNode, hn, hcalm] using Leaves.refl c
    | false =>
      obtain rfl : n.id = other := id_of_node? hn
      have hne := ne_of_calm hk hf hn hcalm
      rw [processNode_fst hn hcalm]
      cases hup : n.alive with
      | false => rw [c.process_of_down hup]; exact (Leaves.refl c).note _
      | true =>
        rw [c.process_fst_of_up hup hcalm]
        exact (Leaves.takeInbox hne).settle (by rwa [c.id_result_turn n]) _

/-- A tick passes the node by. -/
theorem leaves_tickBy [Shuffler σ] (hids : c.ids.Nodup) (h : Handler V) :
    Leaves id c (c.tickBy h).1 := by
  have spec := tickBy_spec h hids
  obtain ⟨v, hv, rfl⟩ := spec.exists_visit hk
  obtain rfl : v.node.id = id := id_of_node? hk
  obtain ⟨before, after, -, hmet⟩ := spec.exists_met hv
  have hidle : v.node.runs = false := by simp [Node.runs, hf]
  refine ⟨?_, _, (hmet.waiting_of_idle hidle).symm⟩
  rw [hmet.left, hmet.result_of_idle hidle, hk]

end

/-! ## Whatever is done -/

section

variable [Value V] [Shuffler σ]

def act (c : Cluster V σ) : Action V → Cluster V σ
  | .operation op => c.perform op
  | .tick h => (c.tickBy h).1
  | .send message => c.send message
  | .drain id => { c with bus := (c.bus.drain id).2 }

def actAll (c : Cluster V σ) (acts : List (Action V)) : Cluster V σ := acts.foldl act c

variable {c : Cluster V σ} {id : NodeId} {n : Node V}

theorem ids_act (hids : c.ids.Nodup) (a : Action V) : (c.act a).ids = c.ids := by
  cases a with
  | operation op => exact c.ids_perform op
  | tick h => exact (tickBy_spec h hids).ids_eq
  | send message => rfl
  | drain id => rfl

theorem leaves_perform (hn : c.node? id = some n) (hf : n.faulted = true) (hids : c.ids.Nodup)
    (op : Operation V) : Leaves id c (c.perform op) := by
  cases op with
  | propose other value => exact leaves_commanded hn hf (c.commanded_propose other value)
  | setValue other value => exact leaves_commanded hn hf (c.commanded_setValue other value)
  | fail other => exact leaves_commanded hn hf (c.commanded_fail other)
  | recover other => exact leaves_commanded hn hf (c.commanded_recover other)
  | tick =>
    have htick := leaves_tickBy hn hf hids .ofRoles
    rwa [tickBy_ofRoles] at htick
  | process other => exact leaves_processNode hn hf

theorem leaves_act (hn : c.node? id = some n) (hf : n.faulted = true) (hids : c.ids.Nodup)
    {a : Action V} (ha : a ≠ .drain id) : Leaves id c (c.act a) := by
  cases a with
  | operation op => exact leaves_perform hn hf hids op
  | tick h => exact leaves_tickBy hn hf hids h
  | send message =>
    refine ⟨rfl, ?_⟩
    rw [act, send, Bus.inbox_send]
    split
    · exact List.prefix_append _ _
    · exact List.prefix_refl _
  | drain other => exact Leaves.drain fun heq => ha (heq ▸ rfl)

/-- A node that a fault has stopped is the same after any actions. Its inbox only grows, unless it
is taken off the bus from outside. -/
theorem after_actAll (hn : c.node? id = some n) (hf : n.faulted = true) (hids : c.ids.Nodup)
    (acts : List (Action V)) :
    (c.actAll acts).node? id = some n ∧ (c.actAll acts).ids.Nodup ∧
      ((∀ a ∈ acts, a ≠ .drain id) → c.bus.inbox id <+: (c.actAll acts).bus.inbox id) := by
  induction acts generalizing c with
  | nil => exact ⟨hn, hids, fun _ => List.prefix_refl _⟩
  | cons a acts ih =>
    have hnext : (c.act a).ids.Nodup := ids_act hids a ▸ hids
    by_cases ha : a = .drain id
    · subst ha
      obtain ⟨hnode, hnodup, -⟩ := ih (c := c.act (.drain id)) hn hnext
      exact ⟨hnode, hnodup, fun hnone => absurd rfl (hnone _ List.mem_cons_self)⟩
    · have hleaves := leaves_act hn hf hids ha
      obtain ⟨hnode, hnodup, hinbox⟩ := ih (hleaves.node.trans hn) hnext
      refine ⟨hnode, hnodup, fun hnone => hleaves.inbox.trans (hinbox ?_)⟩
      exact fun b hb => hnone b (List.mem_cons_of_mem _ hb)

end

/-! ## Containment -/

section

variable [Shuffler σ] {c : Cluster V σ} {id : NodeId} {n : Node V}

/-- Why no command is taken for a node that a fault has stopped, where it asks for a proposer. -/
def refusal (id : NodeId) (n : Node V) : Refusal :=
  if n.proposer?.isSome then .faulted id else .unknownProposer id

/-- What becomes of a node that a fault has stopped. -/
structure Stopped (c : Cluster V σ) (id : NodeId) (n : Node V) : Prop where
  node : c.node? id = some n
  /-- No command is taken for it, and none changes anything. -/
  propose : ∀ value, c.propose id value = (c, .error (.refused (refusal id n)))
  setValue : ∀ value, c.setValue id value = (c, .error (.refused (refusal id n)))
  fail : c.fail id = (c, .error (.refused (.faulted id)))
  recover : c.recover id = (c, .error (.refused (.faulted id)))
  /-- Every tick reports it and hands it nothing. -/
  reported : ∀ h, id ∈ (c.tickBy h).2.faulted
  skipped : ∀ h, ∀ v ∈ c.tourBy h, v.node.id = id → v = ⟨n, []⟩

namespace TickSpec

variable {h : Handler V} {out : Cluster V σ × TickReport} (spec : TickSpec h c out)
include spec

theorem mem_faulted_iff :
    id ∈ out.2.faulted ↔ ∃ v ∈ c.tourBy h, v.stopped h = true ∧ v.node.id = id := by
  simp [spec.faulted_eq, and_assoc]

theorem faulted_iff :
    id ∈ out.2.faulted ↔ ∃ n, out.1.node? id = some n ∧ n.faulted = true := by
  rw [spec.mem_faulted_iff]
  constructor
  · rintro ⟨v, hv, hstopped, rfl⟩
    obtain ⟨before, after, -, hmet⟩ := spec.exists_met hv
    exact ⟨v.result h, hmet.left, hstopped⟩
  · rintro ⟨n, hn, hf⟩
    have hid : id ∈ c.ids := spec.ids_eq ▸ mem_ids_of_node? hn
    obtain ⟨m, hm⟩ := mem_ids_iff.mp hid
    obtain ⟨v, hv, rfl⟩ := spec.exists_visit hm
    obtain ⟨before, after, -, hmet⟩ := spec.exists_met hv
    obtain rfl : v.node.id = id := id_of_node? hm
    obtain rfl : v.result h = n := Option.some.inj (hmet.left.symm.trans hn)
    exact ⟨v, hv, hf, rfl⟩

theorem nodup_faulted (hids : c.ids.Nodup) : out.2.faulted.Nodup := by
  rw [spec.faulted_eq]
  exact (spec.ids_tour.nodup_iff.mpr hids).sublist (List.filter_sublist.map _)

theorem visit_of_faulted (hn : c.node? id = some n) (hf : n.faulted = true) {v : Visit V}
    (hv : v ∈ c.tourBy h) (hid : v.node.id = id) : v = ⟨n, []⟩ := by
  obtain ⟨before, after, -, hmet⟩ := spec.exists_met hv
  obtain rfl : v.node = n := Option.some.inj (hmet.found.symm.trans (hid ▸ hn))
  have hbatch : v.batch = [] := hmet.batch_of_idle (by simp [Node.runs, hf])
  rw [← hbatch]

end TickSpec

theorem stopped_of_faulted (hn : c.node? id = some n) (hf : n.faulted = true)
    (hids : c.ids.Nodup) : c.Stopped id n := by
  have hproposer : c.commandProposer id = .error (refusal id n) := by
    cases hp : n.proposer? <;> simp [commandProposer, refusal, hn, hf, hp]
  have hnode : c.commandNode id = .error (.faulted id) := by simp [commandNode, hn, hf]
  constructor
  · exact hn
  · exact fun value => by simp [propose, hproposer]
  · exact fun value => by simp [setValue, hproposer]
  · simp [fail, hnode]
  · simp [recover, hnode]
  · intro h
    have spec := tickBy_spec h hids
    obtain ⟨v, hv, rfl⟩ := spec.exists_visit hn
    apply spec.mem_faulted_iff.mpr
    exact ⟨v, hv, by simp [Visit.stopped, hf], id_of_node? hn⟩
  · exact fun h v hv hid => (tickBy_spec h hids).visit_of_faulted hn hf hv hid

variable [Value V]

/-- In whatever way the nodes handle messages, and whichever of them end in a fault, a tick visits
all nodes, and each that runs is handed its inbox. The report lists, once each and in the order of
the visits, the nodes that are stopped before the tick or in it, and counts the batches of the
others. The bus delivers as before. A node that is stopped stays so, with its role and whether it is
up: no command is taken for it, ticks skip and report it, and its inbox only grows. -/
theorem faults_contained (h : Handler V) (c : Cluster V σ) (hids : c.ids.Nodup) :
    c.tickBy .ofRoles = c.tick ∧
    TickSpec h c (c.tickBy h) ∧
    (c.tickBy h).2.faulted.Nodup ∧
    (∀ id, id ∈ (c.tickBy h).2.faulted ↔
      ∃ n, (c.tickBy h).1.node? id = some n ∧ n.faulted = true) ∧
    (∀ m, (((c.tickBy h).1.bus.send m).drain m.receiver).1.Perm
      ((c.tickBy h).1.bus.inbox m.receiver ++ [m])) ∧
    ∀ id n, c.node? id = some n → n.faulted = true → ∀ acts : List (Action V),
      (c.actAll acts).Stopped id n ∧
        ((∀ a ∈ acts, a ≠ .drain id) → c.bus.inbox id <+: (c.actAll acts).bus.inbox id) := by
  have spec := tickBy_spec h hids
  refine ⟨c.tickBy_ofRoles, spec, spec.nodup_faulted hids, fun id => spec.faulted_iff, ?_, ?_⟩
  · intro m
    have hbatch := ((c.tickBy h).1.bus.send m).drain_fst_perm m.receiver
    rwa [Bus.inbox_send, if_pos rfl] at hbatch
  · intro id n hn hf acts
    obtain ⟨hnode, hnodup, hinbox⟩ := after_actAll hn hf hids acts
    exact ⟨stopped_of_faulted hnode hf hnodup, hinbox⟩

end

/-- `A2` sends a message back and then ends in a fault. -/
def bomb : Handler String := fun id role m =>
  if id = ⟨"A2"⟩ then (role, [.send m.sender m.body], some .injected)
  else Handler.ofRoles id role m

theorem faults_contained_of_bomb :
    (unsteady.tickBy bomb).2.faulted = [⟨"A2"⟩, ⟨"P2"⟩] ∧ (unsteady.tickBy bomb).2.handled = 3 ∧
      (∃ n, (unsteady.tickBy bomb).1.node? ⟨"A2"⟩ = some n ∧ n.faulted = true) ∧
      ∀ acts, ∃ n, (unsteady.actAll acts).Stopped ⟨"P2"⟩ n := by
  obtain ⟨-, -, -, hfaulted, -, hstopped⟩ := faults_contained bomb unsteady (by decide +kernel)
  have hlisted : (unsteady.tickBy bomb).2.faulted = [⟨"A2"⟩, ⟨"P2"⟩] := by decide +kernel
  have hbefore : (unsteady.node? ⟨"P2"⟩).map Node.faulted = some true := by decide +kernel
  obtain ⟨n, hn, hf⟩ := Option.map_eq_some_iff.mp hbefore
  refine ⟨hlisted, by decide +kernel, (hfaulted ⟨"A2"⟩).mp (by simp [hlisted]), fun acts => ?_⟩
  exact ⟨n, (hstopped ⟨"P2"⟩ n hn hf acts).1⟩

end Cluster

end Synod
