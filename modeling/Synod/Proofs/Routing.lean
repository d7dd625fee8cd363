import Mathlib.Algebra.GroupWithZero.Nat
import Synod.Cluster.Status
import Synod.Proofs.Bus
import Synod.Proofs.Reports

/-! Routing. Proposers write to acceptors, acceptors to proposers and to learners, and learners to
nobody; and every message is addressed to a node of the setup that expects its kind. So no node is
ever asked for what its role does not do, and all that waits is in some inbox of a status. -/

namespace Synod

variable {V σ : Type}

/-! ## Messages -/

/-- A message goes from a role to one that expects its kind. -/
def Message.Routed (s : Setup V) (m : Message V) : Prop :=
  match m.body with
  | .prepare _ | .accept _ =>
    m.sender = m.body.ballot.proposer ∧ m.sender ∈ s.candidates.map Candidate.id ∧
      m.receiver ∈ s.acceptors
  | .promise _ _ | .accepted _ =>
    m.sender ∈ s.acceptors ∧ m.receiver ∈ s.candidates.map Candidate.id
  | .learn _ => m.sender ∈ s.acceptors ∧ m.receiver ∈ s.learners

theorem Message.Routed.mem_ids {s : Setup V} {m : Message V} (h : m.Routed s) :
    m.receiver ∈ s.ids := by
  unfold Message.Routed at h
  unfold Setup.ids
  split at h
  · exact List.mem_append_left _ (List.mem_append_left _ h.2.2)
  · exact List.mem_append_left _ (List.mem_append_left _ h.2.2)
  · exact List.mem_append_right _ h.2
  · exact List.mem_append_right _ h.2
  · exact List.mem_append_left _ (List.mem_append_right _ h.2)

/-- A request: the ballot under which a proposer asks for something. -/
def Body.asked? : Body V → Option Ballot
  | .prepare b => some b
  | .accept vote => some vote.ballot
  | _ => none

theorem Setup.disjoint_roles {s : Setup V} (h : s.ids.Nodup) :
    s.acceptors.Disjoint s.learners ∧ s.acceptors.Disjoint (s.candidates.map Candidate.id) ∧
      s.learners.Disjoint (s.candidates.map Candidate.id) := by
  obtain ⟨hlisteners, -, hproposers⟩ := List.nodup_append'.mp h
  obtain ⟨-, -, hlearners⟩ := List.nodup_append'.mp hlisteners
  obtain ⟨hleft, hright⟩ := List.disjoint_append_left.mp hproposers
  exact ⟨hlearners, hleft, hright⟩

/-! ## Roles in their places -/

/-- A node has the role and the neighbours that the setup gives to its name, and a proposer starts
rounds under its own. -/
def Role.Placed (s : Setup V) (id : NodeId) : Role V → Prop
  | .acceptor a => id ∈ s.acceptors ∧ a.learners = s.learners
  | .learner l => id ∈ s.learners ∧ l.acceptors = s.acceptors
  | .proposer p => id ∈ s.candidates.map Candidate.id ∧ p.acceptors = s.acceptors ∧
      ∀ c, p.current = some c → c.proposer = id ∧ c.round ≤ p.round

def Role.ballot? : Role V → Option Ballot
  | .proposer p => p.current
  | _ => none

/-- A message of a node is routed, and asks for what its own ballot allows; and a node remarks only
on messages it expects. -/
def Effect.Orderly (s : Setup V) (id : NodeId) (current : Option Ballot) : Effect V → Prop
  | .send receiver body =>
    (⟨id, receiver, body⟩ : Message V).Routed s ∧ ∀ b, body.asked? = some b → current = some b
  | .note r => r.isStray = false

/-- What a role does with a message is in order. -/
structure Role.Orderly (s : Setup V) (id : NodeId) (role role' : Role V)
    (effects : List (Effect V)) : Prop where
  placed : role'.Placed s id
  ballot_eq : role'.ballot? = role.ballot?
  effects : ∀ effect ∈ effects, effect.Orderly s id role'.ballot?

section

variable {s : Setup V} {id sender : NodeId} {body : Body V} {effects : List (Effect V)}
  (hs : s.ids.Nodup) (hm : (⟨sender, id, body⟩ : Message V).Routed s)
include hs hm

/-- An acceptor answers the proposer that wrote to it, and tells the learners. -/
theorem Acceptor.Reaction.orderly {a a' : Acceptor V} (h : a.Reaction sender body a' effects)
    (ha : (Role.acceptor a).Placed s id) :
    Role.Orderly s id (.acceptor a) (.acceptor a') effects := by
  obtain ⟨hlearners, hproposers, -⟩ := Setup.disjoint_roles hs
  cases h with
  | promise hb | refuse hb hle =>
    have hsender : sender ∈ s.candidates.map Candidate.id := hm.2.1
    refine ⟨ha, rfl, ?_⟩
    simp [Effect.Orderly, Message.Routed, Body.asked?, Remark.isStray, ha.1, hsender,
      -List.mem_map]
  | vote hb =>
    have hsender : sender ∈ s.candidates.map Candidate.id := hm.2.1
    refine ⟨ha, rfl, ?_⟩
    simp +contextual [Effect.forall_mem_broadcast, Effect.Orderly, Message.Routed, Body.asked?,
      Remark.isStray, ha.1, ha.2, hsender, -List.mem_map]
  | decline hb hlt => exact ⟨ha, rfl, by simp [Effect.Orderly, Remark.isStray]⟩
  | ignore hp hv =>
    cases body with
    | prepare b => exact absurd rfl (hp b)
    | accept vote => exact absurd rfl (hv vote)
    | promise b acc => exact absurd hm.2 (hproposers ha.1)
    | accepted vote => exact absurd hm.2 (hproposers ha.1)
    | learn vote => exact absurd hm.2 (hlearners ha.1)

/-- A learner writes to nobody, and knows who writes to it. -/
theorem Learner.Reaction.orderly [Value V] {l l' : Learner V}
    (h : l.Reaction sender body l' effects) (hl : (Role.learner l).Placed s id) :
    Role.Orderly s id (.learner l) (.learner l') effects := by
  obtain ⟨hacceptors, -, hproposers⟩ := Setup.disjoint_roles hs
  cases h with
  | stranger hnone hsender => exact absurd (hl.2 ▸ hm.1) hsender
  | ignore hvote =>
    cases body with
    | prepare b => exact absurd hl.1 (hacceptors hm.2.2)
    | accept vote => exact absurd hl.1 (hacceptors hm.2.2)
    | promise b acc => exact absurd hm.2 (hproposers hl.1)
    | accepted vote => exact absurd hm.2 (hproposers hl.1)
    | learn vote => exact absurd rfl (hvote vote)
  | _ => exact ⟨hl, rfl, by simp [Effect.Orderly, Remark.isStray]⟩

/-- A proposer writes to the acceptors under its own ballot. -/
theorem Proposer.Reaction.orderly [Value V] {p p' : Proposer V}
    (h : p.Reaction sender body p' effects) (hp : (Role.proposer p).Placed s id) :
    Role.Orderly s id (.proposer p) (.proposer p') effects := by
  obtain ⟨-, hacceptors, hlearners⟩ := Setup.disjoint_roles hs
  cases h with
  | @conclude acc c value reports hc hphase hn =>
    obtain ⟨hmem, hsetup, hown⟩ := hp
    refine ⟨⟨hmem, hsetup, hown⟩, rfl, List.forall_mem_cons.mpr ⟨rfl, ?_⟩⟩
    apply forall_mem_conclude
    · exact fun _ => rfl
    · exact rfl
    · intro a ha
      refine ⟨⟨(hown c hc).1.symm, hmem, hsetup ▸ ha⟩, ?_⟩
      rintro b ⟨⟩
      exact hc
  | ignore hpromise haccepted =>
    cases body with
    | prepare b => exact absurd hp.1 (hacceptors hm.2.2)
    | accept vote => exact absurd hp.1 (hacceptors hm.2.2)
    | promise b acc => exact absurd rfl (hpromise b acc)
    | accepted vote => exact absurd rfl (haccepted vote)
    | learn vote => exact absurd hp.1 (hlearners hm.2)
  | _ => exact ⟨hp, rfl, by simp [Effect.Orderly, Remark.isStray]⟩

theorem Role.Reaction.orderly [Value V] {role role' : Role V}
    (h : Role.Reaction sender body role role' effects) (hrole : role.Placed s id) :
    Role.Orderly s id role role' effects := by
  cases h with
  | acceptor h => exact h.orderly hs hm hrole
  | learner h => exact h.orderly hs hm hrole
  | proposer h => exact h.orderly hs hm hrole

end

/-! ## Worlds -/

namespace World

/-- The ballot of a proposer's last round. -/
def ballot? (w : World V) (id : NodeId) : Option Ballot :=
  (w.node? id).bind fun n => n.role.ballot?

/-- A request is not ahead of its sender. -/
def Timely (w : World V) (m : Message V) : Prop :=
  ∀ b, m.body.asked? = some b → ∃ c, w.ballot? m.sender = some c ∧ b.round ≤ c.round

/-- All nodes are in their places, what is in flight is routed and timely, and no node was ever sent
what it does not expect. -/
structure Routed (s : Setup V) (w : World V) : Prop where
  present : ∀ id ∈ s.ids, ∃ n, w.node? id = some n
  placed {id : NodeId} {n : Node V} : w.node? id = some n → n.role.Placed s id
  flight : ∀ m ∈ w.flight, m.Routed s ∧ w.Timely m
  expected : ∀ e ∈ w.log, e.isStray = false

variable {s : Setup V} {w : World V}

theorem ballot?_eq_some_iff {id : NodeId} {b : Ballot} :
    w.ballot? id = some b ↔ ∃ p, w.proposer? id = some p ∧ p.current = some b := by
  constructor
  · intro h
    obtain ⟨n, hn, hb⟩ := Option.bind_eq_some_iff.mp h
    cases hr : n.role with
    | proposer p =>
      rw [hr] at hb
      exact ⟨p, proposer?_eq_some_iff.mpr ⟨n, hn, hr⟩, hb⟩
    | _ => simp [hr, Role.ballot?] at hb
  · rintro ⟨p, hp, hb⟩
    obtain ⟨n, hn, hr⟩ := proposer?_eq_some_iff.mp hp
    exact Option.bind_eq_some_iff.mpr ⟨n, hn, by rw [hr]; exact hb⟩

theorem ballot?_settle (w : World V) (n : Node V) (effects : List (Effect V)) :
    (w.settle n effects).ballot? = Function.update w.ballot? n.id n.role.ballot? := by
  funext id
  by_cases h : id = n.id <;> simp [ballot?, settle, Function.update, h]

/-- A node is put back with what it did in order, for messages that were taken off the bus. -/
theorem Routed.settle (h : w.Routed s) {n : Node V} (hn : w.node? n.id = some n) (n' : Node V)
    (hid : n'.id = n.id) {rest : Multiset (Message V)} (hrest : rest ≤ w.flight)
    {effects : List (Effect V)} (hplaced : n'.role.Placed s n.id)
    (hballot : ∀ b, n.role.ballot? = some b →
      ∃ c, n'.role.ballot? = some c ∧ b.round ≤ c.round)
    (heffects : ∀ effect ∈ effects, effect.Orderly s n.id n'.role.ballot?) :
    ({ w with flight := rest }.settle n' effects).Routed s := by
  refine ⟨?_, ?_, ?_, ?_⟩
  · intro id hmem
    by_cases heq : id = n'.id
    · exact ⟨n', by simp [World.settle, heq]⟩
    · obtain ⟨m, hm⟩ := h.present id hmem
      exact ⟨m, by simpa [World.settle, heq] using hm⟩
  · intro id m hm
    rcases node?_settle_eq_some hm with ⟨rfl, rfl⟩ | ⟨-, hm⟩
    · exact hid ▸ hplaced
    · exact h.placed hm
  · intro m hm
    rcases Multiset.mem_add.mp hm with hold | hnew
    · obtain ⟨hrouted, htimely⟩ := h.flight m (Multiset.mem_of_le hrest hold)
      refine ⟨hrouted, fun b hb => ?_⟩
      obtain ⟨c, hc, hle⟩ := htimely b hb
      rw [ballot?_settle]
      by_cases heq : m.sender = n'.id
      · rw [heq, hid] at hc
        obtain ⟨c', hc', hle'⟩ := hballot c (by simpa [ballot?, hn] using hc)
        exact ⟨c', by rw [heq, Function.update_self]; exact hc', UInt64.le_trans hle hle'⟩
      · exact ⟨c, by rw [Function.update_of_ne heq]; exact hc, hle⟩
    · obtain ⟨hsender, hsend⟩ := Effect.mem_messages.mp hnew
      obtain ⟨hrouted, hasked⟩ := heffects _ hsend
      rw [← hid, ← hsender] at hrouted
      refine ⟨hrouted, fun b hb => ⟨b, ?_, UInt64.le_refl _⟩⟩
      rw [ballot?_settle, ← hsender, Function.update_self]
      exact hasked b hb
  · intro e he
    rcases List.mem_append.mp he with hold | hnew
    · exact h.expected e hold
    · obtain ⟨effect, heffect, rfl⟩ := List.mem_map.mp hnew
      cases effect with
      | send receiver body => rfl
      | note r => exact heffects _ heffect

/-- A node that runs handles a message that was in flight. -/
theorem Routed.deliver [Value V] (h : w.Routed s) (hs : s.ids.Nodup) {n : Node V}
    (hn : w.node? n.id = some n) {m : Message V} (hm : m.receiver = n.id)
    {rest : Multiset (Message V)} (hflight : w.flight = m ::ₘ rest) {role : Role V}
    {effects : List (Effect V)} (hreaction : Role.Reaction m.sender m.body n.role role effects) :
    ({ w with flight := rest }.settle { n with role } effects).Routed s := by
  obtain ⟨hrouted, -⟩ := h.flight m (hflight ▸ Multiset.mem_cons_self m rest)
  rw [show m = ⟨m.sender, n.id, m.body⟩ by rw [← hm]] at hrouted
  obtain ⟨hplaced, hballot, heffects⟩ := hreaction.orderly hs hrouted (h.placed hn)
  apply h.settle hn { n with role } rfl (hflight ▸ Multiset.le_cons_self rest m) hplaced ?_ heffects
  intro b hb
  exact ⟨b, hballot.trans hb, UInt64.le_refl _⟩

theorem Routed.start (h : w.Routed s) {n : Node V} {p p' : Proposer V} {b : Ballot}
    {effects : List (Effect V)} (hn : w.node? n.id = some n) (hr : n.role = .proposer p)
    (hstart : p.start n.id = (p', effects, .started b)) :
    (w.settle { n with role := .proposer p' } effects).Routed s := by
  obtain ⟨-, hself, hnext, hp', rfl⟩ := Proposer.start_eq_started hstart
  obtain ⟨hround, -⟩ := Proposer.nextRound_eq_none hnext
  have hcurrent : p'.current = some b := by rw [hp']
  have hplaced := h.placed hn
  rw [hr] at hplaced
  obtain ⟨hmem, hsetup, hown⟩ := hplaced
  apply h.settle hn { n with role := .proposer p' } rfl le_rfl
  · subst hp'
    refine ⟨hmem, hsetup, ?_⟩
    rintro c ⟨⟩
    exact ⟨hself, UInt64.le_refl _⟩
  · intro c hc
    rw [hr] at hc
    refine ⟨b, hcurrent, ?_⟩
    have hle := UInt64.le_iff_toNat_le.mp (hown c hc).2
    exact UInt64.le_iff_toNat_le.mpr (hle.trans hround.le)
  · refine List.forall_mem_cons.mpr ⟨rfl, Effect.forall_mem_broadcast.mpr ?_⟩
    intro a ha
    refine ⟨⟨hself.symm, hmem, hsetup ▸ ha⟩, ?_⟩
    rintro c ⟨⟩
    exact hcurrent

theorem Routed.aside (h : w.Routed s) {w' : World V} (haside : Aside w w') : w'.Routed s := by
  cases haside with
  | note _ hstray =>
    refine ⟨h.present, h.placed, h.flight, fun e he => ?_⟩
    rcases List.mem_append.mp he with hold | hnew
    · exact h.expected e hold
    · obtain rfl := List.mem_singleton.mp hnew
      exact hstray
  | @setValue n p value hn hf hr =>
    have hplaced := h.placed hn
    rw [hr] at hplaced
    apply h.settle hn { n with role := .proposer { p with value } } rfl le_rfl hplaced
    · intro b hb
      rw [hr] at hb
      exact ⟨b, hb, UInt64.le_refl _⟩
    · simp [Effect.Orderly, Remark.isStray]
  | @setAlive n alive hn hf =>
    have hplaced := h.placed hn
    apply h.settle hn { n with alive } rfl le_rfl hplaced
    · exact fun b hb => ⟨b, hb, UInt64.le_refl _⟩
    · cases alive <;> simp [Effect.Orderly, Remark.isStray]
  | @overflow n p p' effects fault hn hr hstart =>
    obtain ⟨r, hnext, rfl, rfl⟩ := Proposer.start_eq_failed hstart
    have hplaced := h.placed hn
    rw [hr] at hplaced
    obtain ⟨hmem, hsetup, hown⟩ := hplaced
    have hround := p.round_le_nextRound
    rw [hnext] at hround
    apply h.settle hn { n with role := .proposer { p with round := r }, faulted := true } rfl le_rfl
    · refine ⟨hmem, hsetup, fun c hc => ⟨(hown c hc).1, ?_⟩⟩
      exact UInt64.le_trans (hown c hc).2 (UInt64.le_iff_toNat_le.mpr hround)
    · intro b hb
      rw [hr] at hb
      exact ⟨b, hb, UInt64.le_refl _⟩
    · simp
  | @crash n lost rest hn hflight =>
    have hplaced := h.placed hn
    apply h.settle hn { n with faulted := true } rfl (hflight ▸ Multiset.le_add_left rest lost)
      hplaced
    · exact fun b hb => ⟨b, hb, UInt64.le_refl _⟩
    · simp

theorem Routed.step [Value V] (h : w.Routed s) (hs : s.ids.Nodup) {w' : World V}
    (hmove : Move w w') : w'.Routed s := by
  cases hmove with
  | acceptor hn _ _ hr hm hflight hreaction =>
    exact h.deliver hs hn hm hflight (hr ▸ .acceptor hreaction)
  | learner hn _ _ hr hm hflight hreaction =>
    exact h.deliver hs hn hm hflight (hr ▸ .learner hreaction)
  | proposer hn _ _ hr hm hflight hreaction =>
    exact h.deliver hs hn hm hflight (hr ▸ .proposer hreaction)
  | start hn _ _ hr hstart => exact h.start hn hr hstart
  | aside haside => exact h.aside haside

end World

namespace Cluster

variable {s : Setup V} {bus order : σ} {c : Cluster V σ}

theorem routed_create (h : create s bus order = .ok c) : c.world.Routed s := by
  obtain ⟨-, -, hpending, hlog⟩ := create_eq_ok h
  refine ⟨?_, ?_, by simp [world, hpending], by simp [world, hlog, Event.isStray]⟩
  · intro id hid
    rw [← s.ids_freshNodes] at hid
    obtain ⟨n, hn, rfl⟩ := List.mem_map.mp hid
    exact ⟨n, (node?_create h).mpr ⟨hn, rfl⟩⟩
  · intro id n hn
    obtain ⟨hfresh, rfl⟩ := (node?_create h).mp hn
    rcases Setup.mem_freshNodes.mp hfresh with ⟨id, hid, rfl⟩ | ⟨id, hid, rfl⟩ | ⟨x, hid, rfl⟩
    · exact ⟨hid, rfl⟩
    · exact ⟨hid, rfl⟩
    · exact ⟨List.mem_map_of_mem hid, rfl, by simp⟩

/-! ## Inboxes of a status -/

/-- Every node is shown under its one role. -/
theorem sum_inbox_entries (c : Cluster V σ) :
    ((c.entries Node.acceptor?).map Entry.inbox).sum +
      ((c.entries Node.learner?).map Entry.inbox).sum +
      ((c.entries Node.proposer?).map Entry.inbox).sum = (c.ids.map c.bus.pendingFor).sum := by
  unfold entries ids
  induction c.nodes with
  | nil => rfl
  | cons n nodes ih =>
    have hone : (∃ a, n.acceptor? = some a ∧ n.learner? = none ∧ n.proposer? = none) ∨
        (∃ l, n.acceptor? = none ∧ n.learner? = some l ∧ n.proposer? = none) ∨
        ∃ p, n.acceptor? = none ∧ n.learner? = none ∧ n.proposer? = some p := by
      cases hr : n.role <;> simp [Node.acceptor?, Node.learner?, Node.proposer?, hr]
    rcases hone with ⟨_, ha, hl, hp⟩ | ⟨_, ha, hl, hp⟩ | ⟨_, ha, hl, hp⟩ <;>
      simp only [List.filterMap_cons, ha, hl, hp, Option.map_some, Option.map_none,
        List.map_cons, List.sum_cons] <;> omega

/-- Where all that waits is addressed to nodes of the cluster, the inboxes hold all of it. -/
theorem pending_eq_sum_inbox {c : Cluster V σ} (hids : c.ids.Nodup)
    (h : ∀ m ∈ c.bus.pending, m.receiver ∈ c.ids) :
    c.status.pending = (c.status.acceptors.map Entry.inbox).sum +
      (c.status.learners.map Entry.inbox).sum + (c.status.proposers.map Entry.inbox).sum := by
  have hsum : c.bus.pendingCount = ∑ id ∈ c.ids.toFinset, c.bus.pendingFor id :=
    c.bus.pendingCount_eq_sum fun m hm => List.mem_toFinset.mpr (h m hm)
  rw [List.sum_toFinset _ hids, ← c.sum_inbox_entries] at hsum
  exact hsum

/-! ## Runs -/

variable [Value V] [Shuffler σ]

theorem routed_run (h : create s bus order = .ok c) (ops : List (Operation V)) :
    (c.run ops).world.Routed s := by
  have hs := (Setup.defect?_eq_none_iff.mp (create_eq_ok h).1).2.2
  exact World.Moves.induction (c.moves_run ops) (routed_create h) fun hw hmove => hw.step hs hmove

theorem exists_receiver (h : create s bus order = .ok c) (ops : List (Operation V)) {m : Message V}
    (hm : m ∈ (c.run ops).bus.pending) : ∃ n, (c.run ops).node? m.receiver = some n := by
  have hw := routed_run h ops
  exact hw.present _ (hw.flight m hm).1.mem_ids

/-- Whatever waits is routed, and a request is not ahead of the last round of its sender. So no node
remarks that it did not expect a message or does not know a voter, and the inboxes that a status
shows hold all that waits. -/
theorem messages_well_routed (h : create s bus order = .ok c) (ops : List (Operation V)) :
    (∀ m ∈ (c.run ops).bus.pending, m.Routed s ∧
      ∀ b, m.body.asked? = some b →
        ∃ p last, (c.run ops).proposer? m.sender = some p ∧ p.current = some last ∧
          b.round ≤ last.round ∧ last.round ≤ p.round) ∧
    (∀ e ∈ (c.run ops).log.toList, e.isStray = false) ∧
    (c.run ops).status.pending = ((c.run ops).status.acceptors.map Entry.inbox).sum +
      ((c.run ops).status.learners.map Entry.inbox).sum +
      ((c.run ops).status.proposers.map Entry.inbox).sum := by
  have hw := routed_run h ops
  refine ⟨fun m hm => ⟨(hw.flight m hm).1, fun b hb => ?_⟩, hw.expected, ?_⟩
  · obtain ⟨last, hlast, hle⟩ := (hw.flight m hm).2 b hb
    obtain ⟨p, hp, hcurrent⟩ := World.ballot?_eq_some_iff.mp hlast
    obtain ⟨n, hn, hr⟩ := World.proposer?_eq_some_iff.mp hp
    have hplaced := hw.placed hn
    rw [hr] at hplaced
    exact ⟨p, last, hp, hcurrent, hle, (hplaced.2.2 last hcurrent).2⟩
  · apply pending_eq_sum_inbox (nodup_ids_run h ops)
    intro m hm
    obtain ⟨n, hn⟩ := exists_receiver h ops hm
    exact mem_ids_of_node? hn

/-- Two rounds meet: a prepare, promises and an accept of the first wait while the second begins. -/
def crossing : List (Operation String) :=
  [.propose ⟨"P1"⟩ none, .process ⟨"A1"⟩, .process ⟨"A2"⟩, .process ⟨"P1"⟩, .process ⟨"A1"⟩,
    .propose ⟨"P2"⟩ none]

theorem messages_well_routed_of_crossing :
    (⟨⟨"P1"⟩, ⟨"A2"⟩, .accept ⟨⟨1, ⟨"P1"⟩⟩, "x"⟩⟩ : Message String) ∈
        ((ofTrio []).run crossing).bus.pending ∧
      (⟨⟨"P1"⟩, ⟨"A2"⟩, .accept ⟨⟨1, ⟨"P1"⟩⟩, "x"⟩⟩ : Message String).Routed trio ∧
      ((ofTrio []).run crossing).status.pending =
        (((ofTrio []).run crossing).status.acceptors.map Entry.inbox).sum +
          (((ofTrio []).run crossing).status.learners.map Entry.inbox).sum +
          (((ofTrio []).run crossing).status.proposers.map Entry.inbox).sum := by
  have hwaits : (⟨⟨"P1"⟩, ⟨"A2"⟩, .accept ⟨⟨1, ⟨"P1"⟩⟩, "x"⟩⟩ : Message String) ∈
      ((ofTrio []).run crossing).bus.pending := by decide +kernel
  obtain ⟨hmessages, -, hsum⟩ := messages_well_routed (create_trio []) crossing
  exact ⟨hwaits, (hmessages _ hwaits).1, hsum⟩

end Cluster

end Synod
