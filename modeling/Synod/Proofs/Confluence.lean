import Synod.Proofs.LoneRound

/-! One round and no other is confluent. However its messages are ordered, whatever runs are
interrupted by nodes that go down and come up, the same number of messages is handled until none is
left, and all nodes end in the same states. -/

namespace Synod

variable {V σ : Type}

namespace World

/-- All nodes are as a lone round for a vote leaves them. -/
structure Finished (s : Setup V) (vote : Vote V) (others : NodeId → Option (Proposer V))
    (w : World V) : Prop where
  acceptor : ∀ a ∈ s.acceptors,
    w.acceptor? a = some ⟨s.learners, ⟨some vote.ballot, some vote⟩⟩
  learner : ∀ l ∈ s.learners,
    w.learner? l = some ⟨s.acceptors, .ofSize s.acceptors.length, some vote⟩
  /-- The acceptors that confirmed the vote are a set; their order shows in nothing. -/
  leader : ∃ acceptedBy, acceptedBy.Perm s.acceptors ∧
    w.proposer? vote.ballot.proposer = some {
      acceptors := s.acceptors
      value := vote.value
      round := vote.ballot.round
      current := some vote.ballot
      phase := .idle
      adopted := none
      highestSeen := none
      lastAccept := some vote
      acceptedBy }
  other : ∀ id, id ≠ vote.ballot.proposer → w.proposer? id = others id

variable {s : Setup V} {vote : Vote V} {others : NodeId → Option (Proposer V)} {w : World V}
  {acceptedBy : List NodeId}

theorem Voting.finished (hw : Voting s vote [] others acceptedBy w) (hs : s.acceptors.Nodup)
    (hne : s.acceptors ≠ []) (hflight : w.flight = 0) : w.Finished s vote others := by
  have hnone (m : Message V) : m ∉ w.flight := by simp [hflight]
  refine ⟨?acceptor, ?learner, ⟨acceptedBy, ?leader, hw.leader⟩, hw.other⟩
  case acceptor =>
    intro a ha
    obtain ⟨p, hp, rfl | ⟨hx, -⟩⟩ := hw.acceptor a ha
    · exact hp
    · exact absurd hx (hnone _)
  case learner =>
    intro l hl
    have hquorum := quorumSize_le (List.length_pos_iff.mpr hne)
    rw [hw.learner_eq hs (fun m hm => absurd hm (hnone m)) (by simpa using hquorum) hl]
    rfl
  case leader =>
    rw [List.perm_ext_iff_of_nodup hw.nodup hs]
    refine fun a => ⟨hw.confirmed a, fun ha => ?_⟩
    rcases hw.underway a ha with hx | hx | hconfirmed
    · exact absurd hx (hnone _)
    · exact absurd hx (hnone _)
    · exact hconfirmed

/-- A lone round in which nothing is in flight any more is over, and no work is left. -/
theorem Lone.finished (hw : Lone s vote [] others w) (hs : s.acceptors.Nodup)
    (hne : s.acceptors ≠ []) (hflight : w.flight = 0) :
    w.Finished s vote others ∧ w.work s vote.ballot.proposer = 0 ∧ w.Calm := by
  rcases hw with ⟨senders, hw⟩ | ⟨acceptedBy, hw⟩
  · have hfew := hw.not_quiet List.not_mem_nil hs (by simp [hflight])
    have hquorum := quorumSize_le (List.length_pos_iff.mpr hne)
    simp at hfew
    omega
  · refine ⟨hw.finished hs hne hflight, ?_, fun id n hn => (hw.undisturbed id n hn).1⟩
    simp [work, hflight, hw.leader]

end World

namespace Cluster

variable [Value V] [Shuffler σ]

/-- A cluster starts one round, for a value that can be compared with itself, and then handles
messages in any way while nodes go down and come up, until nothing waits any more. Then no fault has
stopped a node, as many messages were handled as the round is made of, and all nodes have finished
it. -/
theorem lone_round_confluent {s : Setup V} {bus order : σ} {c : Cluster V σ}
    (h : create s bus order = .ok c) {x : Candidate V} (hx : x ∈ s.candidates) (given : Option V)
    (hsame : Value.same? (given.getD x.value) (given.getD x.value) = some true)
    {ops : List (Operation V)} (hops : ∀ op ∈ ops, op.handles ∨ op.switches)
    (hempty : (c.run (.propose x.id given :: ops)).bus.pending = []) :
    (c.propose x.id given).2 = .ok ⟨1, x.id⟩ ∧
      c.handledIn (.propose x.id given :: ops) =
        s.acceptors.length * (4 + s.learners.length) ∧
      (∀ n ∈ (c.run (.propose x.id given :: ops)).nodes, n.faulted = false) ∧
      (c.run (.propose x.id given :: ops)).world.Finished s
        ⟨⟨1, x.id⟩, given.getD x.value⟩ c.proposer? := by
  obtain ⟨hne, -, hids⟩ := Setup.defect?_eq_none_iff.mp (create_eq_ok h).1
  have hs : s.acceptors.Nodup := Setup.nodup_acceptors hids
  obtain ⟨hok, hbegin, hwork⟩ := gathering_propose hs (fresh_create h) hx List.not_mem_nil given rfl
  obtain ⟨hend, hcount⟩ := metered_run (World.metered_lone hsame) (.inl ⟨[], hbegin⟩)
    fun op hop => (hops op hop).imp_right (⟨·, World.switchable_lone⟩)
  obtain ⟨hfinished, hnone, hcalm⟩ := hend.finished hs hne (congrArg Multiset.ofList hempty)
  refine ⟨hok, ?handled, ?calm, hfinished⟩
  case handled =>
    rw [hwork, hnone, Nat.zero_add] at hcount
    exact (Nat.zero_add _).trans hcount
  case calm =>
    intro n hn
    have hnodup := nodup_ids_run h (.propose x.id given :: ops)
    exact hcalm n.id n ((node?_eq_some_iff hnodup).mpr ⟨hn, rfl⟩)

/-- An accept overtakes the prepare to its acceptor, and another acceptor is down for a while. -/
def overtakenPrepare : List (Operation String) :=
  [.process ⟨"A2"⟩, .process ⟨"A3"⟩, .process ⟨"P1"⟩, .fail ⟨"A3"⟩, .process ⟨"A1"⟩, .tick,
    .recover ⟨"A3"⟩, .tick, .tick, .tick]

theorem lone_round_confluent_of_overtakenPrepare :
    ((ofTrio [[], [], [], [1]]).run (.propose ⟨"P1"⟩ none :: overtakenPrepare)).bus.pending = [] ∧
      (ofTrio [[], [], [], [1]]).handledIn (.propose ⟨"P1"⟩ none :: overtakenPrepare) = 18 ∧
      ((ofTrio [[], [], [], [1]]).run
        (.propose ⟨"P1"⟩ none :: overtakenPrepare)).world.Finished trio ⟨⟨1, ⟨"P1"⟩⟩, "x"⟩
          (ofTrio [[], [], [], [1]]).proposer? := by
  have hempty : ((ofTrio [[], [], [], [1]]).run
      (.propose ⟨"P1"⟩ none :: overtakenPrepare)).bus.pending = [] := by decide +kernel
  have hx : (⟨⟨"P1"⟩, "x"⟩ : Candidate String) ∈ trio.candidates := by simp [trio]
  obtain ⟨-, hhandled, -, hfinished⟩ := lone_round_confluent (create_trio _) hx none
    (by simp [Value.same?]) (by decide) hempty
  exact ⟨hempty, hhandled, hfinished⟩

/-- One acceptor, one learner, and one proposer of the value that cannot be compared. -/
def brittle : Setup Fragile where
  acceptors := [⟨"A1"⟩]
  learners := [⟨"L1"⟩]
  candidates := [⟨⟨"P1"⟩, ⟨"BOOM"⟩⟩]

def ofBrittle : Cluster Fragile Script where
  nodes := brittle.freshNodes
  bus := .empty ⟨[]⟩
  order := ⟨[]⟩
  log := #[.created]

/-- The round ends with an empty bus, but the leader is stopped as it compares the only vote with
the one that it asked for. So that message does not count as handled, and no vote is confirmed. -/
theorem unfinished_of_brittle :
    create brittle ⟨[]⟩ ⟨[]⟩ = .ok ofBrittle ∧
      (ofBrittle.propose ⟨"P1"⟩ none).2 = .ok ⟨1, ⟨"P1"⟩⟩ ∧
      (ofBrittle.run (.propose ⟨"P1"⟩ none :: List.replicate 4 .tick)).bus.pending = [] ∧
      ofBrittle.handledIn (.propose ⟨"P1"⟩ none :: List.replicate 4 .tick) ≠
        brittle.acceptors.length * (4 + brittle.learners.length) ∧
      ((ofBrittle.run (.propose ⟨"P1"⟩ none :: List.replicate 4 .tick)).proposer? ⟨"P1"⟩).map
        Proposer.acceptedBy = some [] := by
  exact ⟨rfl, by decide +kernel, by decide +kernel, by decide +kernel, by decide +kernel⟩

end Cluster

end Synod
