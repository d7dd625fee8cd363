import Synod.Proofs.Metering
import Synod.Proofs.Phases

/-! One round and no other, from its beginning in a fresh cluster. Its phases follow one another for
one unit of work a message, and where nobody is waited for it has come as far as it can. -/

namespace Synod

variable {V σ : Type}

namespace World

variable {s : Setup V} {vote : Vote V} {down : List NodeId}
  {others : NodeId → Option (Proposer V)} {w : World V} {senders acceptedBy : List NodeId}

/-! ## Whole rounds -/

variable (s vote down others) in
/-- A lone round is under way or over. -/
def Lone (w : World V) : Prop :=
  (∃ senders, Gathering s vote down others senders w) ∨
    ∃ acceptedBy, Voting s vote down others acceptedBy w

/-- Where so many acceptors are down that there is no quorum, the round goes on gathering. -/
theorem metered_gathering [Value V]
    (h : (s.acceptors.filter (· ∉ down)).length < quorumSize s.acceptors.length) :
    Metered (fun w => ∃ senders, Gathering s vote down others senders w)
      (work s vote.ballot.proposer) where
  calm := by
    rintro w id n ⟨senders, hw⟩ hn
    exact (hw.undisturbed id n hn).1
  deliver := by
    rintro w n m rest ⟨senders, hw⟩ hn hup hm hflight
    obtain ⟨n', effects, hhandle, hnext, hwork⟩ := hw.deliver hn hup hm hflight
    refine ⟨n', effects, hhandle, ?_, hwork⟩
    exact hnext.resolve_right fun hmany => absurd hmany.1 (not_le.mpr h)
  note := by
    rintro w e ⟨senders, hw⟩ he
    exact ⟨⟨senders, hw.note he⟩, rfl⟩

theorem metered_lone [Value V] (hsame : Value.same? vote.value vote.value = some true) :
    Metered (Lone s vote down others) (work s vote.ballot.proposer) where
  calm := by
    rintro w id n (⟨senders, hw⟩ | ⟨acceptedBy, hw⟩) hn
    · exact (hw.undisturbed id n hn).1
    · exact (hw.undisturbed id n hn).1
  deliver := by
    rintro w n m rest (⟨senders, hw⟩ | ⟨acceptedBy, hw⟩) hn hup hm hflight
    · obtain ⟨n', effects, hhandle, hnext, hwork⟩ := hw.deliver hn hup hm hflight
      exact ⟨n', effects, hhandle, hnext.imp_right fun hvoting => ⟨[], hvoting.2⟩, hwork⟩
    · obtain ⟨n', effects, hhandle, hnext, hwork⟩ := hw.deliver hsame hn hup hm hflight
      exact ⟨n', effects, hhandle, .inr hnext, hwork⟩
  note := by
    rintro w e (⟨senders, hw⟩ | ⟨acceptedBy, hw⟩) he
    · exact ⟨.inl ⟨senders, hw.note he⟩, rfl⟩
    · exact ⟨.inr ⟨acceptedBy, hw.note e⟩, rfl⟩

theorem switchable_lone :
    Switchable (Lone s vote [] others) (work s vote.ballot.proposer) := by
  intro w n alive hw hn
  obtain ⟨-, -, hproposer, hflight⟩ := World.settle_alive hn alive
    (if alive then .recovered else .failed : Remark V)
  constructor
  · rcases hw with ⟨senders, hw⟩ | ⟨acceptedBy, hw⟩
    · exact .inl ⟨senders, hw.settle_alive hn alive _⟩
    · exact .inr ⟨acceptedBy, hw.settle_alive hn alive _⟩
  · unfold work
    rw [hproposer, hflight]

/-! ## What is left when nobody is waited for -/

section

variable (hleader : vote.ballot.proposer ∉ down)
include hleader

/-- Where no prepare and no promise waits for a node that is up, all acceptors that are up have
promised. -/
theorem Gathering.senders_perm (hw : Gathering s vote down others senders w)
    (hs : s.acceptors.Nodup) (hquiet : ∀ m ∈ w.flight, m.receiver ∈ down) :
    senders.Perm (s.acceptors.filter (· ∉ down)) := by
  rw [List.perm_ext_iff_of_nodup hw.nodup (hs.filter _)]
  intro a
  rw [List.mem_filter, decide_eq_true_iff]
  refine ⟨hw.up a, fun ⟨ha, hup⟩ => ?_⟩
  rcases hw.underway a ha with hask | hanswer | hsender
  · exact absurd (hquiet _ hask) hup
  · exact absurd (hquiet _ hanswer) hleader
  · exact hsender

theorem Gathering.not_quiet (hw : Gathering s vote down others senders w)
    (hs : s.acceptors.Nodup) (hquiet : ∀ m ∈ w.flight, m.receiver ∈ down) :
    (s.acceptors.filter (· ∉ down)).length < quorumSize s.acceptors.length := by
  rw [← (hw.senders_perm hleader hs hquiet).length_eq]
  exact hw.few

omit hleader

/-- Where nothing waits for a node that is up and a majority is up, the learners that are up have
decided, and the others have heard nothing. -/
theorem Voting.learner_eq (hw : Voting s vote down others acceptedBy w) (hs : s.acceptors.Nodup)
    (hquiet : ∀ m ∈ w.flight, m.receiver ∈ down)
    (hmajority : quorumSize s.acceptors.length ≤ (s.acceptors.filter (· ∉ down)).length)
    {l : NodeId} (hl : l ∈ s.learners) :
    w.learner? l = some (if l ∈ down then .counting s vote [] else .decided s vote) := by
  rcases hw.learner l hl with ⟨hdecided, hup⟩ | ⟨voters, hcounting, -, hfew, hdown, hheard⟩
  · rw [if_neg hup]
    exact hdecided
  · by_cases hup : l ∈ down
    · rw [if_pos hup, hcounting, hdown hup]
    · have hsub : s.acceptors.filter (· ∉ down) ⊆ voters := by
        intro a ha
        obtain ⟨ha, haup⟩ := List.mem_filter.mp ha
        have haup : a ∉ down := by simpa using haup
        rcases hheard a ha with (hx | hx) | hmem
        · exact absurd (hquiet _ hx) haup
        · exact absurd (hquiet _ hx) hup
        · exact hmem
      have hlength := (List.subperm_of_subset (hs.filter _) hsub).length_le
      omega

end

/-! ## How a lone round begins -/

/-- Nothing has happened but that some nodes were taken down. -/
structure Fresh (s : Setup V) (down : List NodeId) (w : World V) : Prop where
  alive {id : NodeId} {n : Node V} : w.node? id = some n →
    n.faulted = false ∧ (n.alive = true ↔ id ∉ down)
  acceptor : ∀ a ∈ s.acceptors, w.acceptor? a = some { learners := s.learners }
  learner : ∀ l ∈ s.learners, w.learner? l = some (.ofAcceptors s.acceptors)
  proposer : ∀ x ∈ s.candidates,
    w.proposer? x.id = some { acceptors := s.acceptors, value := x.value }
  flight : w.flight = 0
  silent : ∀ m, .sent m ∉ w.log

end World

namespace Cluster

open World

variable {s : Setup V} {down : List NodeId}

theorem fresh_create {bus order : σ} {c : Cluster V σ} (h : create s bus order = .ok c) :
    c.world.Fresh s [] := by
  obtain ⟨-, -, hpending, hlog⟩ := create_eq_ok h
  have hfound {n : Node V} (hn : n ∈ s.freshNodes) : c.world.node? n.id = some n :=
    (node?_create h).mpr ⟨hn, rfl⟩
  refine ⟨?_, ?_, ?_, ?_, by simp [world, hpending], by simp [world, hlog]⟩
  · intro id n hn
    obtain ⟨hfresh, rfl⟩ := (node?_create h).mp hn
    rcases Setup.mem_freshNodes.mp hfresh with ⟨id, -, rfl⟩ | ⟨id, -, rfl⟩ | ⟨x, -, rfl⟩ <;> simp
  · intro a ha
    have hn := hfound (Setup.mem_freshNodes.mpr (.inl ⟨a, ha, rfl⟩))
    exact acceptor?_eq_some_iff.mpr ⟨_, hn, rfl⟩
  · intro l hl
    have hn := hfound (Setup.mem_freshNodes.mpr (.inr (.inl ⟨l, hl, rfl⟩)))
    exact learner?_eq_some_iff.mpr ⟨_, hn, rfl⟩
  · intro x hx
    have hn := hfound (Setup.mem_freshNodes.mpr (.inr (.inr ⟨x, hx, rfl⟩)))
    exact proposer?_eq_some_iff.mpr ⟨_, hn, rfl⟩

theorem fresh_fail {c : Cluster V σ} (hc : c.world.Fresh s down) (id : NodeId) :
    (c.fail id).1.world.Fresh s (down ++ [id]) := by
  cases hn : c.node? id with
  | none =>
    have hsame : (c.fail id).1 = c := by simp [fail, commandNode, hn]
    rw [hsame]
    refine ⟨fun {other k} hk => ?_, hc.acceptor, hc.learner, hc.proposer, hc.flight, hc.silent⟩
    obtain ⟨hf, halive⟩ := hc.alive hk
    have hne : other ≠ id := by
      rintro rfl
      simp [world, hn] at hk
    exact ⟨hf, by simp [halive, hne]⟩
  | some n =>
    obtain rfl : n.id = id := id_of_node? hn
    obtain ⟨hf, halive⟩ := hc.alive hn
    have hfail : (c.fail n.id).1 = c.setAlive n false := by simp [fail, commandNode, hn, hf]
    rw [hfail, setAlive]
    split
    · rename_i hdown
      refine ⟨fun {other k} hk => ?_, hc.acceptor, hc.learner, hc.proposer, hc.flight, hc.silent⟩
      obtain ⟨hf, halive'⟩ := hc.alive hk
      by_cases heq : other = n.id
      · subst heq
        obtain rfl := Option.some.inj (hn.symm.trans hk)
        exact ⟨hf, by simp [hdown]⟩
      · exact ⟨hf, by simp [halive', heq]⟩
    · rw [c.world_settle (n := { n with alive := false }) hn]
      obtain ⟨hacceptor, hlearner, hproposer, hflight⟩ :=
        settle_alive (w := c.world) hn false (if false then .recovered else .failed)
      refine ⟨fun {other k} hk => ?_, hacceptor ▸ hc.acceptor, hlearner ▸ hc.learner,
        hproposer ▸ hc.proposer, hflight.trans hc.flight, fun m hm => hc.silent m ?_⟩
      · rcases node?_settle_eq_some hk with ⟨rfl, rfl⟩ | ⟨hne, hk⟩
        · exact ⟨hf, by simp⟩
        · obtain ⟨hf, halive'⟩ := hc.alive hk
          have hne : other ≠ n.id := hne
          exact ⟨hf, by simp [halive', hne]⟩
      · simpa [World.settle, Effect.events, Effect.event] using hm

variable [Value V] [Shuffler σ]

theorem fresh_run_fail {c : Cluster V σ} (hc : c.world.Fresh s down) (later : List NodeId) :
    (c.run (later.map .fail)).world.Fresh s (down ++ later) := by
  induction later generalizing c down with
  | nil => simpa using hc
  | cons id later ih =>
    rw [List.map_cons, run_cons, ← List.singleton_append, ← List.append_assoc]
    exact ih (fresh_fail hc id)

omit [Value V] [Shuffler σ] in
theorem start_offer (s : Setup V) (self : NodeId) (value : V) (given : Option V) :
    (offer { acceptors := s.acceptors, value } given).1.start self =
      (.gathering s ⟨⟨1, self⟩, given.getD value⟩ [],
        .note (.startingProposal ⟨1, self⟩ (given.getD value)) ::
          Effect.broadcast s.acceptors (.prepare ⟨1, self⟩),
        .started ⟨1, self⟩) := by
  cases given <;> exact Proposer.start_of_nextRound rfl rfl

omit [Value V] [Shuffler σ] in
theorem propose_of_fresh {c : Cluster V σ} (hc : c.world.Fresh s down) {x : Candidate V}
    (hx : x ∈ s.candidates) (hup : x.id ∉ down) (given : Option V) {vote : Vote V}
    (hvote : vote = ⟨⟨1, x.id⟩, given.getD x.value⟩) :
    ∃ n p effects, c.node? n.id = some n ∧ n.id = x.id ∧ n.role = .proposer p ∧
      (c.propose x.id given).2 = .ok vote.ballot ∧
      (c.propose x.id given).1.world =
        c.world.settle { n with role := .proposer (.gathering s vote []) } effects ∧
      Effect.messages x.id effects = s.acceptors.map vote.prepareTo := by
  obtain ⟨n, hn, hr⟩ := proposer?_eq_some_iff.mp (hc.proposer x hx)
  obtain ⟨hf, halive⟩ := hc.alive hn
  have hid : n.id = x.id := id_of_node? hn
  have hcommand : c.commandProposer x.id =
      .ok (n, { acceptors := s.acceptors, value := x.value }) := by
    have hnode : c.node? x.id = some n := hn
    simp [commandProposer, hnode, Node.proposer?, hr, hf]
  let effects := (offer { acceptors := s.acceptors, value := x.value } given).2 ++
    .note (.startingProposal ⟨1, x.id⟩ (given.getD x.value)) ::
      Effect.broadcast s.acceptors (.prepare ⟨1, x.id⟩)
  subst hvote
  have hpropose : c.propose x.id given = (c.settle { n with
      role := .proposer (.gathering s ⟨⟨1, x.id⟩, given.getD x.value⟩ []) } effects,
      .ok ⟨1, x.id⟩) := by
    simp [propose, hcommand, halive.mpr hup, Proposer.isProposing, start_offer, effects]
  rw [hpropose]
  refine ⟨n, _, effects, hid ▸ hn, hid, hr, rfl, c.world_settle (m := n) (hid ▸ hn) effects, ?_⟩
  cases given <;> simp [effects, offer, Proposer.setValue]

omit [Value V] [Shuffler σ] in
theorem alive_propose_of_fresh {c : Cluster V σ} (hc : c.world.Fresh s down) {x : Candidate V}
    (hx : x ∈ s.candidates) (hup : x.id ∉ down) (given : Option V) {id : NodeId} {k : Node V}
    (hk : (c.propose x.id given).1.node? id = some k) (hid : id ∉ down) : k.alive = true := by
  obtain ⟨n, p, effects, hn, -, -, -, hworld, -⟩ := propose_of_fresh hc hx hup given rfl
  have hnode : (c.propose x.id given).1.world.node? id = some k := hk
  rw [hworld] at hnode
  rcases node?_settle_eq_some hnode with ⟨rfl, rfl⟩ | ⟨-, hold⟩
  · exact (hc.alive hn).2.mpr hid
  · exact (hc.alive hold).2.mpr hid

omit [Value V] [Shuffler σ] in
/-- With the first round of a fresh cluster the leader gathers promises, and every acceptor and
every learner stands for its messages. -/
theorem gathering_propose (hs : s.acceptors.Nodup) {c : Cluster V σ} (hc : c.world.Fresh s down)
    {x : Candidate V} (hx : x ∈ s.candidates) (hup : x.id ∉ down) (given : Option V) {vote : Vote V}
    (hvote : vote = ⟨⟨1, x.id⟩, given.getD x.value⟩) :
    (c.propose x.id given).2 = .ok vote.ballot ∧
      Gathering s vote down c.world.proposer? [] (c.propose x.id given).1.world ∧
      (c.propose x.id given).1.world.work s vote.ballot.proposer =
        s.acceptors.length * (4 + s.learners.length) := by
  obtain ⟨n, p, effects, hn, hid, hr, hok, hw, hsent⟩ := propose_of_fresh hc hx hup given hvote
  have hleader : vote.ballot.proposer = n.id := by rw [hvote, hid]
  obtain ⟨hacceptor, hlearner, hproposer⟩ := settle_proposer (w := c.world) hn hr
    (.gathering s vote []) effects
  rw [← hw] at hacceptor hlearner hproposer
  generalize (c.propose x.id given).1.world = w at hw hacceptor hlearner hproposer ⊢
  have hled : w.proposer? vote.ballot.proposer = some (.gathering s vote []) := by
    rw [hproposer, hleader, Function.update_self]
  have hflight : w.flight = s.acceptors.map vote.prepareTo := by
    simp [hw, World.settle, hc.flight, hid, hsent]
  refine ⟨hok, ⟨?undisturbed, ?acceptor, ?learner, hled, ?other, List.nodup_nil, Nat.succ_pos _,
    by simp, ?flight, ?underway, ?silent⟩, ?work⟩
  case undisturbed =>
    intro id k hk
    rw [hw] at hk
    rcases node?_settle_eq_some hk with ⟨rfl, rfl⟩ | ⟨-, hk⟩
    · exact (hc.alive hn).imp_right Iff.mp
    · exact (hc.alive hk).imp_right Iff.mp
  case acceptor =>
    intro a ha
    rw [hacceptor]
    exact ⟨_, hc.acceptor a ha, rfl, by simp⟩
  case learner =>
    intro l hl
    rw [hlearner, ← Learner.ofAcceptors_eq_counting hs]
    exact hc.learner l hl
  case other =>
    intro id hne
    rw [hproposer, Function.update_of_ne (hleader ▸ hne)]
  case flight =>
    intro m hm
    rw [hflight] at hm
    obtain ⟨a, ha, rfl⟩ := List.mem_map.mp hm
    exact ⟨a, ha, .inl rfl⟩
  case underway =>
    intro a ha
    rw [hflight]
    exact .inl (List.mem_map_of_mem ha)
  case silent =>
    intro m u hm
    rw [hw] at hm
    rcases List.mem_append.mp hm with hold | hnew
    · exact absurd hold (hc.silent m)
    · have hmem : m ∈ Effect.messages x.id effects := hid ▸ Effect.sent_mem_events.mp hnew
      rw [hsent] at hmem
      obtain ⟨a, -, rfl⟩ := List.mem_map.mp hmem
      simp
  case work =>
    rw [World.work, hled, hflight]
    have hsum : 2 + (2 + s.learners.length) = 4 + s.learners.length := by omega
    simp [Body.work, Function.comp_def, ← hsum, Nat.mul_add]

end Cluster

end Synod
