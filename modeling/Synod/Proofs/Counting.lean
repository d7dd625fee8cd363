import Mathlib.Data.Finset.Card
import Mathlib.Logic.Function.Basic
import Synod.Proofs.Tally

/-! What a tally stands for: the set of the voters of each vote. Counting a voter adds it to one of
these sets, and the numbers that a tally gives are their sizes. -/

namespace Synod

variable {V : Type}

namespace Tally

/-- Counts that stand for the voters of each vote. -/
structure Records (counts : List (Count V)) (voters : Vote V → Finset NodeId) : Prop where
  votes_nodup : (counts.map Count.vote).Nodup
  voters_nodup : ∀ count ∈ counts, count.voters.Nodup
  voters_ne_nil : ∀ count ∈ counts, count.voters ≠ []
  voters_eq : ∀ count ∈ counts, count.voters.toFinset = voters count.vote
  complete : ∀ vote, (voters vote).Nonempty → ∃ count ∈ counts, count.vote = vote

theorem records_nil : Records ([] : List (Count V)) fun _ => ∅ :=
  ⟨by simp, by simp, by simp, by simp, by simp⟩

variable {counts : List (Count V)} {voters : Vote V → Finset NodeId}

theorem Records.length_voters (h : Records counts voters) {count : Count V} (hc : count ∈ counts) :
    count.voters.length = (voters count.vote).card := by
  rw [← h.voters_eq count hc, List.toFinset_card_of_nodup (h.voters_nodup count hc)]

variable [DecidableEq V]

def withVoter (voters : Vote V → Finset NodeId) (vote : Vote V) (voter : NodeId) :
    Vote V → Finset NodeId :=
  Function.update voters vote (insert voter (voters vote))

theorem withVoter_self (vote : Vote V) (voter : NodeId) :
    withVoter voters vote voter vote = insert voter (voters vote) :=
  Function.update_self ..

theorem withVoter_of_ne {vote u : Vote V} (h : u ≠ vote) (voter : NodeId) :
    withVoter voters vote voter u = voters u :=
  Function.update_of_ne h ..

theorem mem_withVoter {vote u : Vote V} {voter x : NodeId} :
    x ∈ withVoter voters vote voter u ↔ x ∈ voters u ∨ u = vote ∧ x = voter := by
  by_cases h : u = vote
  · subst h
    simp [withVoter_self, or_comm]
  · simp [withVoter_of_ne h, h]

variable {vote : Vote V} {voter : NodeId} {counts' : List (Count V)} {n : Nat}

/-- Counting a voter adds it to those of its vote, and gives their number. -/
theorem Records.added (h : Records counts voters) (hadded : Added vote voter counts counts' n) :
    Records counts' (withVoter voters vote voter) ∧
      n = (withVoter voters vote voter vote).card := by
  have hvotes := hadded.votes_nodup h.votes_nodup
  have hsame {count other : Count V} (hc : count ∈ counts') (ho : other ∈ counts')
      (hvote : count.vote = other.vote) : count = other :=
    List.inj_on_of_nodup_map hvotes hc ho hvote
  obtain ⟨joined, hjoined, rfl, hvoter, rfl⟩ := hadded.voter_mem
  have hkept {u : Vote V} {x : NodeId} (hx : x ∈ voters u) :
      ∃ count ∈ counts', count.vote = u ∧ x ∈ count.voters := by
    obtain ⟨old, ho, rfl⟩ := h.complete u ⟨x, hx⟩
    obtain ⟨count, hc, hvote, hsub⟩ := hadded.voters_mono ho
    exact ⟨count, hc, hvote, hsub (List.mem_toFinset.mp (h.voters_eq old ho ▸ hx))⟩
  have hrecords : Records counts' (withVoter voters joined.vote voter) := by
    refine ⟨hvotes, fun count => hadded.voters_nodup h.voters_nodup,
      fun count => hadded.voters_ne_nil h.voters_ne_nil, fun count hc => ?_, ?_⟩
    · ext x
      rw [List.mem_toFinset, mem_withVoter]
      constructor
      · intro hx
        rcases hadded.mem_voters hc hx with ⟨old, ho, hvote, hx⟩ | hnew
        · exact .inl (hvote ▸ h.voters_eq old ho ▸ List.mem_toFinset.mpr hx)
        · exact .inr hnew
      · rintro (hx | ⟨hvote, rfl⟩)
        · obtain ⟨other, ho, hvote, hx⟩ := hkept hx
          exact hsame ho hc hvote ▸ hx
        · exact hsame hjoined hc hvote.symm ▸ hvoter
    · rintro u ⟨x, hx⟩
      rcases mem_withVoter.mp hx with hx | ⟨rfl, -⟩
      · obtain ⟨count, hc, hvote, -⟩ := hkept hx
        exact ⟨count, hc, hvote⟩
      · exact ⟨joined, hjoined, rfl⟩
  exact ⟨hrecords, hrecords.length_voters hjoined⟩

omit [DecidableEq V] in
/-- The number of voters of a vote is read off the counts, where it can be compared with each. -/
theorem Records.votesFor [Value V] [LawfulValue V] {t : Tally V} (h : Records t.counts voters)
    {vote : Vote V} (hcompare : ∀ count ∈ t.counts, matches? count vote ≠ none) :
    t.votesFor vote = (voters vote).card := by
  have hmatches {count : Count V} (hc : count ∈ t.counts) :
      matches? count vote = some true ↔ count.vote = vote := by
    rcases hm : matches? count vote with _ | _ | _
    · exact absurd hm (hcompare count hc)
    · simp [ne_of_matches? hm]
    · simp [eq_of_matches? hm]
  unfold Tally.votesFor
  split
  · rename_i hfind
    have hnone : ∀ count ∈ t.counts, count.vote ≠ vote := by
      intro count hc hvote
      simpa [(hmatches hc).mpr hvote] using List.find?_eq_none.mp hfind count hc
    have hempty : voters vote = ∅ := by
      by_contra hne
      obtain ⟨count, hc, hvote⟩ := h.complete vote (Finset.nonempty_iff_ne_empty.mpr hne)
      exact hnone count hc hvote
    simp [hempty]
  · rename_i count hfind
    have hc := List.mem_of_find?_eq_some hfind
    obtain rfl := (hmatches hc).mp (by simpa using List.find?_some hfind)
    exact h.length_voters hc

end Tally

end Synod
