import Synod.Proofs.Commitment
import Synod.Proofs.Construction
import Synod.Proofs.Routing

/-! States. What a cluster can come to: by commands and ticks, by messages that are put on the bus
or taken off it from outside, by driving single nodes by hand, and by faults from outside. Whatever
is done, every name keeps its node, and every node its role and its neighbours. -/

namespace Synod

variable {V σ : Type}

/-! ## Roles in their places -/

theorem Role.Reaction.placed [Value V] {s : Setup V} {id sender : NodeId} {body : Body V}
    {role role' : Role V} {effects : List (Effect V)}
    (h : Role.Reaction sender body role role' effects) (hrole : role.Placed s id) :
    role'.Placed s id := by
  cases h with
  | acceptor h => cases h <;> exact hrole
  | learner h => cases h <;> exact hrole
  | proposer h => cases h <;> exact hrole

theorem Proposer.placed_start {s : Setup V} {id : NodeId} {p p' : Proposer V}
    {effects : List (Effect V)} {outcome : Start V} (hstart : p.start id = (p', effects, outcome))
    (h : (Role.proposer p).Placed s id) : (Role.proposer p').Placed s id := by
  obtain ⟨hmem, hsetup, hown⟩ := h
  cases outcome with
  | refused =>
    cases hp : p.isProposing with
    | true =>
      obtain rfl : p = p' := by simpa [start, hp] using congrArg Prod.fst hstart
      exact ⟨hmem, hsetup, hown⟩
    | false => exact absurd (by rw [hstart]) (start_ne_refused hp)
  | started b =>
    obtain ⟨-, hself, -, rfl, -⟩ := start_eq_started hstart
    refine ⟨hmem, hsetup, ?_⟩
    rintro c ⟨⟩
    exact ⟨hself, UInt64.le_refl _⟩
  | failed fault =>
    obtain ⟨r, hnext, rfl, -⟩ := start_eq_failed hstart
    refine ⟨hmem, hsetup, fun c hc => ⟨(hown c hc).1, ?_⟩⟩
    have hle := p.round_le_nextRound
    rw [hnext] at hle
    exact UInt64.le_trans (hown c hc).2 (UInt64.le_iff_toNat_le.mpr hle)

theorem Node.placed_handleAll [Value V] {s : Setup V} {n : Node V} (h : n.role.Placed s n.id)
    (batch : List (Message V)) : (n.handleAll batch).node.role.Placed s n.id := by
  induction batch generalizing n with
  | nil => exact h
  | cons m ms ih =>
    cases hh : n.handle m.sender m.body with
    | error fault => simpa [handleAll, hh] using h
    | ok out =>
      obtain ⟨n', effects⟩ := out
      obtain ⟨role, rfl, hreaction⟩ := handle_reaction hh
      simp only [handleAll, hh]
      exact ih (n := { n with role }) (hreaction.placed h)

namespace World

/-- Every node has the role and the neighbours that the setup gives to its name. -/
def Placed (s : Setup V) (w : World V) : Prop := ∀ id n, w.node? id = some n → n.role.Placed s id

variable {s : Setup V} {w w' : World V}

theorem Placed.settle (h : w.Placed s) {n : Node V} (hn : n.role.Placed s n.id)
    (effects : List (Effect V)) : (w.settle n effects).Placed s := by
  intro id m hm
  rcases node?_settle_eq_some hm with ⟨rfl, rfl⟩ | ⟨-, hm⟩
  · exact hn
  · exact h id m hm

theorem Placed.proposer (h : w.Placed s) {n : Node V} {p : Proposer V}
    (hn : w.node? n.id = some n) (hr : n.role = .proposer p) :
    (Role.proposer p).Placed s n.id :=
  hr ▸ h n.id n hn

theorem Placed.aside (h : w.Placed s) (haside : Aside w w') : w'.Placed s := by
  cases haside with
  | note _ _ => exact h
  | @setValue n p value hn _ hr =>
    have hplaced := h.proposer hn hr
    exact h.settle (n := { n with role := .proposer { p with value } }) hplaced _
  | @setAlive n alive hn _ => exact h.settle (n := { n with alive }) (h n.id n hn) _
  | @overflow n p p' effects fault hn hr hstart =>
    have hplaced := Proposer.placed_start hstart (h.proposer hn hr)
    exact h.settle (n := { n with role := .proposer p', faulted := true }) hplaced _
  | @crash n lost rest hn _ =>
    exact Placed.settle (w := { w with flight := rest }) h (n := { n with faulted := true })
      (h n.id n hn) _

/-- Every move leaves the nodes in their places, whatever messages are in flight. -/
theorem Placed.step [Value V] (h : w.Placed s) (hmove : Move w w') : w'.Placed s := by
  have hdeliver {n : Node V} {sender : NodeId} {body : Body V} {role role' : Role V}
      {effects : List (Effect V)} {rest : Multiset (Message V)} (hn : w.node? n.id = some n)
      (hr : n.role = role) (hreaction : Role.Reaction sender body role role' effects) :
      (World.settle { w with flight := rest } { n with role := role' } effects).Placed s := by
    subst hr
    exact Placed.settle (w := { w with flight := rest }) h (n := { n with role := role' })
      (hreaction.placed (h n.id n hn)) effects
  cases hmove with
  | acceptor hn _ _ hr _ _ hreaction => exact hdeliver hn hr (.acceptor hreaction)
  | learner hn _ _ hr _ _ hreaction => exact hdeliver hn hr (.learner hreaction)
  | proposer hn _ _ hr _ _ hreaction => exact hdeliver hn hr (.proposer hreaction)
  | @start n p p' b effects hn _ _ hr hstart =>
    have hplaced := Proposer.placed_start hstart (h.proposer hn hr)
    exact h.settle (n := { n with role := .proposer p' }) hplaced _
  | aside haside => exact h.aside haside

end World

/-! ## Whatever is done -/

/-- What can be done to a cluster, its bus and its nodes. -/
inductive Deed (V : Type) where
  | operation (op : Operation V)
  | send (message : Message V)
  /-- Takes the inbox of a node off the bus. -/
  | drain (id : NodeId)
  /-- A node handles a message at once, up or down. -/
  | handle (id sender : NodeId) (body : Body V)
  | deliver (id : NodeId) (d : Delivery)
  /-- An acceptor is asked for a promise or a vote, and nobody is told. -/
  | prepare (id : NodeId) (ballot : Ballot)
  | accept (id : NodeId) (vote : Vote V)
  /-- A proposer starts a round, up or down. -/
  | startRound (id : NodeId)
  | injectFault (id : NodeId)

namespace Cluster

variable [Value V] [Shuffler σ]

def undergo (c : Cluster V σ) : Deed V → Cluster V σ
  | .operation op => c.perform op
  | .send message => c.send message
  | .drain id => { c with bus := (c.bus.drain id).2 }
  | .handle id sender body => (c.handle id sender body).1
  | .deliver id d => (c.deliver id d).1
  | .prepare id ballot => (c.prepare id ballot).1
  | .accept id vote => (c.accept id vote).1
  | .startRound id => (c.startRound id).1
  | .injectFault id => (c.injectFault id).1

def undergoAll (c : Cluster V σ) (deeds : List (Deed V)) : Cluster V σ := deeds.foldl undergo c

omit [Value V] [Shuffler σ] in
theorem node?_of_freeNode {c : Cluster V σ} {id : NodeId} {n : Node V}
    (h : c.freeNode id = .ok n) : c.node? n.id = some n ∧ n.id = id ∧ n.faulted = false := by
  cases hn : c.node? id with
  | none => simp [freeNode, hn] at h
  | some m =>
    have hid : m.id = id := id_of_node? hn
    cases hf : m.faulted with
    | true => simp [freeNode, hn, hf] at h
    | false =>
      obtain rfl : m = n := Except.ok.inj ((freeNode_eq_ok hn hf).symm.trans h)
      exact ⟨hid ▸ hn, hid, hf⟩

/-- The names are those of the setup, in their order, and every node is in its place. -/
structure Staffed (s : Setup V) (c : Cluster V σ) : Prop where
  ids : c.ids.Perm s.ids ∧ c.ids.Pairwise (· < ·)
  placed : c.world.Placed s

namespace Staffed

variable {s : Setup V} {c : Cluster V σ}

section

omit [Value V] [Shuffler σ]

/-- A node that is in its place is put back. -/
theorem settle (h : c.Staffed s) {n m : Node V} (hm : c.node? n.id = some m)
    (hn : n.role.Placed s n.id) (effects : List (Effect V)) : (c.settle n effects).Staffed s := by
  refine ⟨by rw [ids_settle]; exact h.ids, ?_⟩
  rw [c.world_settle hm]
  exact h.placed.settle hn effects

theorem setNode (h : c.Staffed s) {n m : Node V} (hm : c.node? n.id = some m)
    (hn : n.role.Placed s n.id) : (c.setNode n).Staffed s := by
  obtain ⟨hids, hplaced⟩ := h.settle hm hn []
  exact ⟨hids, hplaced⟩

/-- An acceptor may be given any pledge. -/
theorem setPledge (h : c.Staffed s) {id : NodeId} {n : Node V} {a : Acceptor V}
    (hn : c.node? id = some n) (ha : n.acceptor? = some a) (pledge : Pledge V) :
    (c.setNode { n with role := .acceptor { a with pledge } }).Staffed s := by
  obtain rfl : n.id = id := id_of_node? hn
  have hr : n.role = .acceptor a := by
    cases hrole : n.role <;> simp_all [Node.acceptor?]
  have hplaced := h.placed n.id n hn
  rw [hr] at hplaced
  exact h.setNode (n := { n with role := .acceptor { a with pledge } }) hn hplaced

theorem node?_sendAll (c : Cluster V σ) (messages : List (Message V)) :
    (messages.foldl send c).node? = c.node? := by
  induction messages generalizing c with
  | nil => rfl
  | cons m ms ih => exact ih (c.send m)

theorem sendAll (h : c.Staffed s) (messages : List (Message V)) :
    (messages.foldl send c).Staffed s := by
  induction messages generalizing c with
  | nil => exact h
  | cons m ms ih => exact ih (c := c.send m) ⟨h.ids, h.placed⟩

end

omit [Shuffler σ] in
/-- A node that handles a batch stays in its place. -/
theorem finish (h : c.Staffed s) {n : Node V} (hn : c.node? n.id = some n)
    (hf : n.faulted = false) (batch : List (Message V)) (size : Nat) :
    (c.finish (n.handleAll batch) size).1.Staffed s := by
  obtain ⟨hid, hfault⟩ := n.handleAll_frame batch
  have hplaced := Node.placed_handleAll (h.placed n.id n hn) batch
  rw [finish_fst c (hfault.trans hf)]
  apply h.settle (m := n)
  · rw [← hn, ← hid]
    rfl
  · rw [← hid] at hplaced
    exact hplaced

theorem deliver (h : c.Staffed s) (id : NodeId) (d : Delivery) :
    (c.deliver id d).1.Staffed s := by
  unfold Cluster.deliver
  cases hfree : c.freeNode id with
  | error failure => exact h
  | ok n =>
    obtain ⟨hn, -, hf⟩ := node?_of_freeNode hfree
    dsimp only
    split
    · -- What is not delivered is sent again, before the batch is handled.
      have hsent : ((d.split (c.bus.drain id).1).2.foldl send
          { c with bus := (c.bus.drain id).2 }).Staffed s :=
        sendAll (c := { c with bus := (c.bus.drain id).2 }) ⟨h.ids, h.placed⟩ _
      have hnode : ((d.split (c.bus.drain id).1).2.foldl send
          { c with bus := (c.bus.drain id).2 }).node? n.id = some n := by
        rw [node?_sendAll]
        exact hn
      have hfinish := hsent.finish hnode hf (d.split (c.bus.drain id).1).1
        (d.split (c.bus.drain id).1).1.length
      split <;> rename_i hout <;> rwa [hout] at hfinish
    · exact ⟨h.ids, h.placed⟩

theorem undergo (h : c.Staffed s) (deed : Deed V) : (c.undergo deed).Staffed s := by
  cases deed with
  | operation op =>
    refine ⟨by rw [Cluster.undergo, c.ids_perform op]; exact h.ids, ?_⟩
    exact (c.moves_perform op).induction h.placed fun hw hmove => hw.step hmove
  | send message => exact ⟨h.ids, h.placed⟩
  | drain id => exact ⟨h.ids, h.placed⟩
  | handle id sender body =>
    cases hfree : c.freeNode id with
    | error failure => simpa [Cluster.undergo, Cluster.handle, hfree] using h
    | ok n =>
      obtain ⟨hn, rfl, hf⟩ := node?_of_freeNode hfree
      rw [Cluster.undergo, handle_fst hn hf]
      exact h.finish hn hf _ 1
  | deliver id d => exact h.deliver id d
  | prepare id ballot =>
    cases hn : c.node? id with
    | none => simpa [Cluster.undergo, Cluster.prepare, hn] using h
    | some n =>
      cases ha : n.acceptor? with
      | none => simpa [Cluster.undergo, Cluster.prepare, hn, ha] using h
      | some a =>
        simpa [Cluster.undergo, Cluster.prepare, hn, ha] using
          h.setPledge hn ha (a.pledge.prepare ballot).1
  | accept id vote =>
    cases hn : c.node? id with
    | none => simpa [Cluster.undergo, Cluster.accept, hn] using h
    | some n =>
      cases ha : n.acceptor? with
      | none => simpa [Cluster.undergo, Cluster.accept, hn, ha] using h
      | some a =>
        simpa [Cluster.undergo, Cluster.accept, hn, ha] using
          h.setPledge hn ha (a.pledge.accept vote).1
  | startRound id =>
    cases hcommand : c.commandProposer id with
    | error refusal => simpa [Cluster.undergo, startRound, hcommand] using h
    | ok found =>
      obtain ⟨n, p⟩ := found
      obtain ⟨hn, rfl, -, hr⟩ := commandProposer_eq_ok hcommand
      rcases hstart : p.start n.id with ⟨p', effects, outcome⟩
      have hplaced := Proposer.placed_start hstart (h.placed.proposer hn hr)
      have hsettled := h.settle (n := { n with role := .proposer p' }) hn hplaced effects
      cases outcome <;> simpa [Cluster.undergo, startRound, hcommand, hstart] using hsettled
  | injectFault id =>
    cases hfree : c.freeNode id with
    | error failure => simpa [Cluster.undergo, injectFault, hfree] using h
    | ok n =>
      obtain ⟨hn, -, -⟩ := node?_of_freeNode hfree
      rw [Cluster.undergo, injectFault, hfree]
      exact h.setNode (n := { n with faulted := true }) hn (h.placed n.id n hn)

theorem undergoAll (h : c.Staffed s) (deeds : List (Deed V)) :
    (c.undergoAll deeds).Staffed s := by
  induction deeds generalizing c with
  | nil => exact h
  | cons deed deeds ih => exact ih (h.undergo deed)

end Staffed

/-! ## States of a setup -/

/-- A cluster of a setup after whatever was done to it. -/
def StateOf (s : Setup V) (c : Cluster V σ) : Prop :=
  ∃ bus order, ∃ c₀ : Cluster V σ, create s bus order = .ok c₀ ∧
    ∃ deeds, c₀.undergoAll deeds = c

namespace StateOf

variable {s : Setup V} {c : Cluster V σ} {id : NodeId} (h : c.StateOf s)
include h

theorem undergo (deed : Deed V) : (c.undergo deed).StateOf s := by
  obtain ⟨bus, order, c₀, hcreate, deeds, rfl⟩ := h
  exact ⟨bus, order, c₀, hcreate, deeds ++ [deed], List.foldl_append⟩

theorem sound_setup : s.acceptors ≠ [] ∧ s.learners ≠ [] ∧ s.ids.Nodup := by
  obtain ⟨bus, order, c₀, hcreate, -⟩ := h
  exact Setup.defect?_eq_none_iff.mp (create_eq_ok hcreate).1

theorem staffed : c.Staffed s := by
  obtain ⟨bus, order, c₀, hcreate, deeds, rfl⟩ := h
  have hfirst : c₀.Staffed s :=
    ⟨(constructed_create s bus order).ids hcreate,
      fun _ _ hn => (routed_create hcreate).placed hn⟩
  exact hfirst.undergoAll deeds

theorem nodup_ids : c.ids.Nodup :=
  h.staffed.ids.1.nodup_iff.mpr h.sound_setup.2.2

/-- The node of a name has the role that the setup gives to the name. -/
theorem exists_node (hid : id ∈ s.ids) : ∃ n, c.node? id = some n ∧ n.role.Placed s id := by
  obtain ⟨n, hn, rfl⟩ := List.mem_map.mp (h.staffed.ids.1.mem_iff.mpr hid)
  have hnode : c.node? n.id = some n := (node?_eq_some_iff h.nodup_ids).mpr ⟨hn, rfl⟩
  exact ⟨n, hnode, h.staffed.placed n.id n hnode⟩

theorem mem_acceptors_iff : id ∈ s.acceptors ↔ ∃ a, c.acceptor? id = some a := by
  obtain ⟨hlearners, hproposers, -⟩ := Setup.disjoint_roles h.sound_setup.2.2
  constructor
  · intro hid
    have hmem : id ∈ s.ids := List.mem_append_left _ (List.mem_append_left _ hid)
    obtain ⟨n, hn, hplaced⟩ := h.exists_node hmem
    cases hr : n.role with
    | acceptor a => exact ⟨a, by simp [acceptor?, hn, Node.acceptor?, hr]⟩
    | learner l => exact absurd (hr ▸ hplaced).1 (hlearners hid)
    | proposer p => exact absurd (hr ▸ hplaced).1 (hproposers hid)
  · rintro ⟨a, ha⟩
    obtain ⟨n, hn, hr⟩ := World.acceptor?_eq_some_iff (w := c.world).mp ha
    have hplaced := h.staffed.placed id n hn
    rw [hr] at hplaced
    exact hplaced.1

theorem exists_learner : ∃ id l, c.learner? id = some l := by
  obtain ⟨-, hlearners, hnodup⟩ := h.sound_setup
  obtain ⟨hacceptors, -, hproposers⟩ := Setup.disjoint_roles hnodup
  obtain ⟨id, hid⟩ := List.exists_mem_of_ne_nil _ hlearners
  have hmem : id ∈ s.ids := List.mem_append_left _ (List.mem_append_right _ hid)
  obtain ⟨n, hn, hplaced⟩ := h.exists_node hmem
  cases hr : n.role with
  | acceptor a => exact absurd hid (hacceptors (hr ▸ hplaced).1)
  | learner l => exact ⟨id, l, by simp [learner?, hn, Node.learner?, hr]⟩
  | proposer p => exact absurd (hr ▸ hplaced).1 (hproposers hid)

theorem acceptors_eq {p : Proposer V} (hp : c.proposer? id = some p) :
    p.acceptors = s.acceptors := by
  obtain ⟨n, hn, hr⟩ := World.proposer?_eq_some_iff (w := c.world).mp hp
  have hplaced := h.staffed.placed id n hn
  rw [hr] at hplaced
  exact hplaced.2.1

end StateOf

end Cluster

end Synod
