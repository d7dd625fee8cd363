import Synod.Proofs.Calls
import Synod.Proofs.Decision

/-! Overlap. Sets of nodes that are large enough together share a node, and no smaller ones have to.
Proposers count their acceptors as they are listed and learners count each of them once, and still
the quorums of a proposer meet those of a learner. -/

namespace Synod

variable {V : Type}

/-! ## Sets that share a node -/

/-- Any two sets of these nodes, of at least so many each, share a node. -/
def Overlap (ids : List NodeId) (m n : Nat) : Prop :=
  ∀ xs ys : Finset NodeId, xs ⊆ ids.toFinset → ys ⊆ ids.toFinset → m ≤ xs.card → n ≤ ys.card →
    ∃ id ∈ xs, id ∈ ys

/-- Sets have to share a node exactly where there is no room for both. -/
theorem overlap_iff {ids : List NodeId} {m n : Nat} :
    Overlap ids m n ↔ ids.toFinset.card < m + n := by
  constructor
  · intro h
    by_contra hroom
    obtain ⟨xs, hxs, rfl⟩ := Finset.exists_subset_card_eq (show m ≤ ids.toFinset.card by omega)
    have hrest : n ≤ (ids.toFinset \ xs).card := by
      rw [Finset.card_sdiff_of_subset hxs]
      omega
    obtain ⟨ys, hys, rfl⟩ := Finset.exists_subset_card_eq hrest
    obtain ⟨id, hx, hy⟩ := h xs ys hxs (hys.trans Finset.sdiff_subset) le_rfl le_rfl
    exact (Finset.mem_sdiff.mp (hys hy)).2 hx
  · intro hcard xs ys hxs hys hm hn
    have hmeet := Finset.inter_nonempty_of_card_lt_card_add_card hxs hys (by omega)
    obtain ⟨id, hid⟩ := hmeet
    exact ⟨id, Finset.mem_inter.mp hid⟩

/-- A majority is the least number of nodes of which any two sets share one. -/
theorem overlap_self_iff {ids : List NodeId} {n : Nat} :
    Overlap ids n n ↔ quorumSize ids.toFinset.card ≤ n := by
  rw [overlap_iff, quorumSize]
  omega

/-! ## What counts as a quorum never changes -/

theorem Proposer.quorum_callAll [Value V] (self : NodeId) (p : Proposer V) (calls : List (Call V)) :
    (p.callAll self calls).quorum = p.quorum := by
  rw [quorum, quorum, acceptors_callAll]

theorem Tally.quorum_record [Value V] {t t' : Tally V} {vote : Vote V} {voter : NodeId} {n : Nat}
    (h : t.record vote voter = .ok (t', n)) : t'.quorum = t.quorum := by
  unfold record at h
  split at h
  · cases h
  · obtain ⟨rfl, -⟩ := Prod.mk.inj (Except.ok.inj h)
    rfl

namespace Learner

variable [Value V] {l l' : Learner V}

theorem quorum_learn {sender : NodeId} {vote : Vote V} {effects : List (Effect V)}
    (h : l.learn sender vote = .ok (l', effects)) : l'.tally.quorum = l.tally.quorum := by
  cases learn_reaction h with
  | keep | stranger | ignore => rfl
  | count _ _ hrecord => exact Tally.quorum_record hrecord
  | decide _ _ hrecord =>
    have hquorum := Tally.quorum_record hrecord
    exact hquorum

theorem quorum_learnAll {reports : List (NodeId × Vote V)} (h : l.learnAll reports = .ok l') :
    l'.tally.quorum = l.tally.quorum := by
  induction reports generalizing l with
  | nil =>
    obtain rfl := Except.ok.inj h
    rfl
  | cons report reports ih =>
    obtain ⟨sender, vote⟩ := report
    rw [learnAll] at h
    split at h
    · cases h
    · rename_i hlearn
      exact (ih h).trans (quorum_learn hlearn)

end Learner

/-! ## Quorums of promises and of votes -/

/-- Whatever a proposer and a learner of these acceptors have been told: any quorum of promises of
the one and any quorum of votes of the other share an acceptor, and so do any two quorums of votes.
Of acceptors that are all different, no smaller number has to. -/
theorem quorums_overlap [Value V] (ids : List NodeId) (value : V) (self : NodeId)
    (calls : List (Proposer.Call V)) (reports : List (NodeId × Vote V)) {l : Learner V}
    (hl : (Learner.ofAcceptors ids).learnAll reports = .ok l) :
    let p := ({ acceptors := ids, value } : Proposer V).callAll self calls
    Overlap ids p.quorum l.tally.quorum ∧ Overlap ids l.tally.quorum l.tally.quorum ∧
      (ids.Nodup → ∀ n, Overlap ids n n ↔ quorumSize ids.length ≤ n) := by
  intro p
  have hp : p.quorum = quorumSize ids.length := Proposer.quorum_callAll self _ calls
  have hlearner : l.tally.quorum = quorumSize ids.toFinset.card := by
    rw [Learner.quorum_learnAll hl, ← length_distinct]
    rfl
  refine ⟨?_, overlap_self_iff.mpr hlearner.ge, fun hnodup n => ?_⟩
  · have hlisted : ids.toFinset.card ≤ ids.length := ids.toFinset_card_le
    rw [overlap_iff, hp, hlearner, quorumSize, quorumSize]
    omega
  · rw [overlap_self_iff, List.toFinset_card_of_nodup hnodup]

/-- Of four acceptors two pairs need not meet. -/
theorem quorums_overlap_of_four :
    let ids : List NodeId := [⟨"A1"⟩, ⟨"A2"⟩, ⟨"A3"⟩, ⟨"A4"⟩]
    let reports : List (NodeId × Vote String) := [(⟨"A1"⟩, ⟨⟨1, ⟨"P1"⟩⟩, "x"⟩)]
    let p := ({ acceptors := ids, value := "x" } : Proposer String).callAll ⟨"P1"⟩ [.start]
    ∃ l, (Learner.ofAcceptors ids).learnAll reports = .ok l ∧ ids.Nodup ∧ p.quorum = 3 ∧
      l.tally.quorum = 3 ∧ Overlap ids p.quorum l.tally.quorum ∧ ¬ Overlap ids 2 2 := by
  intro ids reports p
  have hnodup : ids.Nodup := by decide
  have hcompare : ∀ x ∈ [] ++ reports, ∀ y ∈ reports,
      Value.same? x.2.value y.2.value ≠ none := by simp [Value.same?]
  obtain ⟨l, hl, -⟩ := (Learner.informed_ofAcceptors ids).learnAll hcompare
  obtain ⟨hmixed, -, hleast⟩ := quorums_overlap ids "x" ⟨"P1"⟩ [.start] reports hl
  have hp : p.quorum = 3 := (Proposer.quorum_callAll ..).trans (by decide)
  have hquorum : l.tally.quorum = 3 := (Learner.quorum_learnAll hl).trans (by decide)
  exact ⟨l, hl, hnodup, hp, hquorum, hmixed, fun h => absurd ((hleast hnodup 2).mp h) (by decide)⟩

end Synod
