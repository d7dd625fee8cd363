import Synod.Proofs.LoneRound
import Synod.Proofs.Settling

/-! One round and no other, with some nodes down from the beginning. It decides exactly where a
majority of the acceptors is up: with one, four ticks let every learner that is up learn the value;
without one, two ticks let the leader gather all promises there are, and nobody is ever asked for a
vote. -/

namespace Synod

variable {V σ : Type}

namespace Cluster

variable [Value V] [Shuffler σ] {s : Setup V} {bus order : σ} {c : Cluster V σ}

/-- One round begins while some nodes are down, and then the cluster ticks. -/
def oneRound (down : List NodeId) (leader : NodeId) (given : Option V) (t : Nat) :
    List (Operation V) :=
  down.map .fail ++ .propose leader given :: List.replicate t .tick

omit [Value V] in
theorem handles_of_mem_ticks {t : Nat} {op : Operation V} (h : op ∈ List.replicate t .tick) :
    op.handles := by
  rw [List.eq_of_mem_replicate h]
  rfl

theorem run_oneRound (c : Cluster V σ) (down : List NodeId) (leader : NodeId) (given : Option V)
    (t : Nat) : c.run (oneRound down leader given t) =
      ((c.run (down.map .fail)).propose leader given).1.run (List.replicate t .tick) := by
  rw [oneRound, run_append]
  rfl

section

variable (h : create s bus order = .ok c) {down : List NodeId} {x : Candidate V}
  (hx : x ∈ s.candidates) (hup : x.id ∉ down) (given : Option V)
include h hx hup

theorem alive_oneRound (t : Nat) {id : NodeId} {n : Node V}
    (hn : (c.run (oneRound down x.id given t)).node? id = some n) (hid : id ∉ down) :
    n.alive = true := by
  have hfresh := fresh_run_fail (fresh_create h) down
  rw [run_oneRound] at hn
  have hkept : n.id ∉ down → n.alive = true := by
    apply forall_node_ticks (P := fun n => n.id ∉ down → n.alive = true) ?_ ?_ t id n hn
    · intro n batch halive hmem
      exact n.alive_result batch (halive ((n.handleAll_frame batch).1 ▸ hmem))
    · intro id n hn hmem
      exact alive_propose_of_fresh hfresh hx hup given hn (id_of_node? hn ▸ hmem)
  exact hkept (id_of_node? hn ▸ hid)

/-- After so many ticks whatever is of an early stage waits for a node that is down, unless a fault
has stopped a node. -/
theorem receiver_down {t k : Nat} (ht : 4 ≤ t + k)
    (hcalm : (c.run (oneRound down x.id given t)).world.Calm) {m : Message V}
    (hm : m ∈ (c.run (oneRound down x.id given t)).bus.pending) (hk : k ≤ m.body.stage) :
    m.receiver ∈ down := by
  by_contra hmem
  obtain ⟨n, hn⟩ := exists_receiver h _ hm
  have halive := alive_oneRound h hx hup given t hn hmem
  have hsettled : (c.run (oneRound down x.id given t)).SettledBut k [] := by
    rw [run_oneRound]
    exact SettledBut.ticks t fun m _ => .inl (m.body.stage_lt.trans_le ht)
  rcases hsettled m hm with hlt | hstranded | ⟨-, hnil⟩
  · omega
  · have hstopped := hstranded n hn
    simp [halive, hcalm _ n hn] at hstopped
  · exact absurd hnil List.not_mem_nil

theorem learner?_oneRound
    (hsame : Value.same? (given.getD x.value) (given.getD x.value) = some true)
    (hmajority : quorumSize s.acceptors.length ≤ (s.acceptors.filter (· ∉ down)).length)
    {t : Nat} (ht : 4 ≤ t) {l : NodeId} (hl : l ∈ s.learners) :
    (c.run (oneRound down x.id given t)).learner? l =
      some (if l ∈ down then .counting s ⟨⟨1, x.id⟩, given.getD x.value⟩ []
        else .decided s ⟨⟨1, x.id⟩, given.getD x.value⟩) := by
  have hs := Setup.nodup_acceptors (Setup.defect?_eq_none_iff.mp (create_eq_ok h).1).2.2
  obtain ⟨-, hbegin, -⟩ := gathering_propose hs (fresh_run_fail (fresh_create h) down) hx hup given
    rfl
  obtain ⟨hend, -⟩ := metered_run (World.metered_lone hsame) (.inl ⟨[], hbegin⟩)
    fun op hop => .inl (handles_of_mem_ticks hop)
  rw [← run_oneRound] at hend
  have hcalm : (c.run (oneRound down x.id given t)).world.Calm :=
    fun _ _ hn => (World.metered_lone hsame).calm hend hn
  have hquiet : ∀ m ∈ (c.run (oneRound down x.id given t)).world.flight, m.receiver ∈ down :=
    fun m hm => receiver_down h hx hup given ht hcalm hm (Nat.zero_le _)
  rcases hend with ⟨senders, hgathering⟩ | ⟨acceptedBy, hvoting⟩
  · exact absurd hmajority (not_le.mpr (hgathering.not_quiet hup hs hquiet))
  · exact hvoting.learner_eq hs hquiet hmajority hl

/-- Without a majority the round goes on gathering, and two ticks bring all promises there are. -/
theorem gathering_oneRound
    (hminority : (s.acceptors.filter (· ∉ down)).length < quorumSize s.acceptors.length) (t : Nat) :
    ∃ senders, World.Gathering s ⟨⟨1, x.id⟩, given.getD x.value⟩ down
        (c.run (down.map .fail)).proposer? senders (c.run (oneRound down x.id given t)).world ∧
      (2 ≤ t → senders.length = (s.acceptors.filter (· ∉ down)).length) := by
  have hs := Setup.nodup_acceptors (Setup.defect?_eq_none_iff.mp (create_eq_ok h).1).2.2
  obtain ⟨-, hbegin, -⟩ := gathering_propose hs (fresh_run_fail (fresh_create h) down) hx hup given
    rfl
  obtain ⟨⟨senders, hend⟩, -⟩ := metered_run (World.metered_gathering hminority) ⟨[], hbegin⟩
    fun op hop => .inl (handles_of_mem_ticks (t := t) hop)
  rw [← run_oneRound] at hend
  refine ⟨senders, hend, fun ht => ?_⟩
  have hcalm : (c.run (oneRound down x.id given t)).world.Calm :=
    fun id n hn => (hend.undisturbed id n hn).1
  apply (hend.senders_perm hup hs ?_).length_eq
  intro m hm
  apply receiver_down h hx hup given (k := 2) (by omega) hcalm hm
  obtain ⟨a, -, rfl | ⟨-, rfl⟩⟩ := hend.flight m hm <;> simp [Body.stage]

/-- One round begins while some nodes are down, and then the cluster ticks. Where a majority of the
acceptors is up and the value can be compared with itself, four ticks let every learner that is up
learn the value, and no other. Where no majority is up, no learner learns and no accept is ever
sent, and after two ticks the leader has a promise of each acceptor that is up. -/
theorem lone_round_decides_iff_majority :
    ((c.run (down.map .fail)).propose x.id given).2 = .ok ⟨1, x.id⟩ ∧
      ∀ t,
        (quorumSize s.acceptors.length ≤ (s.acceptors.filter (· ∉ down)).length →
          Value.same? (given.getD x.value) (given.getD x.value) = some true → 4 ≤ t →
          ∀ l ∈ s.learners, ∃ state,
            (c.run (oneRound down x.id given t)).learner? l = some state ∧
              state.learned =
                if l ∈ down then none else some ⟨⟨1, x.id⟩, given.getD x.value⟩) ∧
        ((s.acceptors.filter (· ∉ down)).length < quorumSize s.acceptors.length →
          (∀ l ∈ s.learners, ∃ state,
            (c.run (oneRound down x.id given t)).learner? l = some state ∧
              state.learned = none) ∧
          (∀ m, .sent m ∈ (c.run (oneRound down x.id given t)).log.toList →
            ∀ vote, m.body ≠ .accept vote) ∧
          ∃ p, (c.run (oneRound down x.id given t)).proposer? x.id = some p ∧
            p.isProposing = true ∧
            (2 ≤ t → p.reports.length = (s.acceptors.filter (· ∉ down)).length)) := by
  have hs := Setup.nodup_acceptors (Setup.defect?_eq_none_iff.mp (create_eq_ok h).1).2.2
  obtain ⟨hok, -, -⟩ := gathering_propose hs (fresh_run_fail (fresh_create h) down) hx hup given rfl
  refine ⟨hok, fun t => ⟨?majority, ?minority⟩⟩
  case majority =>
    intro hmajority hsame ht l hl
    refine ⟨_, learner?_oneRound h hx hup given hsame hmajority ht hl, ?_⟩
    split <;> rfl
  case minority =>
    intro hminority
    obtain ⟨senders, hgathering, hsenders⟩ := gathering_oneRound h hx hup given hminority t
    refine ⟨fun l hl => ⟨_, hgathering.learner l hl, rfl⟩,
      fun m hm vote => hgathering.silent m vote hm, _, hgathering.leader, rfl, fun ht => ?_⟩
    rw [← hsenders ht]
    exact List.length_map _

end

/-- One of three acceptors is down, and one of two learners; or two acceptors are. -/
theorem lone_round_decides_of_two_up :
    (∃ state, ((ofTrio []).run (oneRound [⟨"A3"⟩, ⟨"L2"⟩] ⟨"P1"⟩ none 4)).learner? ⟨"L1"⟩ =
        some state ∧ state.learned = some ⟨⟨1, ⟨"P1"⟩⟩, "x"⟩) ∧
      (∃ state, ((ofTrio []).run (oneRound [⟨"A3"⟩, ⟨"L2"⟩] ⟨"P1"⟩ none 4)).learner? ⟨"L2"⟩ =
        some state ∧ state.learned = none) ∧
      ∃ p, ((ofTrio []).run (oneRound [⟨"A2"⟩, ⟨"A3"⟩] ⟨"P1"⟩ (some "y") 2)).proposer? ⟨"P1"⟩ =
        some p ∧ p.isProposing = true ∧ p.reports.length = 1 := by
  have hx : (⟨⟨"P1"⟩, "x"⟩ : Candidate String) ∈ trio.candidates := by simp [trio]
  have hup : (⟨"P1"⟩ : NodeId) ∉ [⟨"A3"⟩, ⟨"L2"⟩] ∧ (⟨"P1"⟩ : NodeId) ∉ [⟨"A2"⟩, ⟨"A3"⟩] := by
    decide
  obtain ⟨-, htwo⟩ := lone_round_decides_iff_majority (create_trio []) hx hup.1 none
  obtain ⟨-, hone⟩ := lone_round_decides_iff_majority (create_trio []) hx hup.2 (some "y")
  have hlearned := (htwo 4).1 (by decide) (by simp [Value.same?]) le_rfl
  obtain ⟨-, -, p, hp, hproposing, hreports⟩ := (hone 2).2 (by decide)
  refine ⟨?_, ?_, p, hp, hproposing, hreports le_rfl⟩
  · simpa using hlearned ⟨"L1"⟩ (by simp [trio])
  · simpa using hlearned ⟨"L2"⟩ (by simp [trio])

/-- All acceptors are up, but a learner is stopped as it compares two votes for a value that cannot
be compared with itself, and never learns it. -/
theorem undecided_of_explosive :
    create explosive ⟨[]⟩ ⟨[[], [0, 0, 1]]⟩ = .ok ofExplosive ∧
      ((ofExplosive.run ([].map .fail)).propose ⟨"P1"⟩ none).2 = .ok ⟨1, ⟨"P1"⟩⟩ ∧
      quorumSize explosive.acceptors.length ≤
        (explosive.acceptors.filter (· ∉ ([] : List NodeId))).length ∧
      ((ofExplosive.run (oneRound [] ⟨"P1"⟩ none 4)).learner? ⟨"L1"⟩).map Learner.learned =
        some none := by
  exact ⟨rfl, by decide +kernel, by decide, by decide +kernel⟩

end Cluster

end Synod
