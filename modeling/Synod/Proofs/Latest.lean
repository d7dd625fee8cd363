import Mathlib.Data.Prod.Lex
import Synod.Proofs.Order
import Synod.Role.Proposer

/-! The report that a round adopts. Reported votes are ranked by their ballots, and those of one
ballot by their senders; the report of the highest rank is adopted. -/

namespace Synod

variable {V : Type}

namespace Proposer

/-- The rank of a report: the ballot weighs more than the sender. -/
def rank (sender : NodeId) (vote : Vote V) : Ballot ×ₗ NodeId := toLex (vote.ballot, sender)

theorem rank_lt_iff {a b : NodeId} {u v : Vote V} :
    rank a u < rank b v ↔ u.ballot < v.ballot ∨ u.ballot = v.ballot ∧ a < b :=
  Prod.Lex.toLex_lt_toLex

theorem rank_le_iff {a b : NodeId} {u v : Vote V} :
    rank a u ≤ rank b v ↔ u.ballot < v.ballot ∨ u.ballot = v.ballot ∧ a ≤ b :=
  Prod.Lex.toLex_le_toLex

theorem ballot_le_of_rank_le {a b : NodeId} {u v : Vote V} (h : rank a u ≤ rank b v) :
    u.ballot ≤ v.ballot :=
  (rank_le_iff.mp h).elim le_of_lt fun h => h.1.le

theorem mem_of_latest? {reports : List (Report V)} {sender : NodeId} {best : Vote V}
    (h : latest? reports = some (sender, best)) :
    ∃ report ∈ reports, report.sender = sender ∧ report.accepted = some best := by
  induction reports generalizing sender best with
  | nil => simp [latest?] at h
  | cons report reports ih =>
    have htail {sender : NodeId} {best : Vote V} (h : latest? reports = some (sender, best)) :
        ∃ r ∈ report :: reports, r.sender = sender ∧ r.accepted = some best :=
      have ⟨r, hr, hbest⟩ := ih h
      ⟨r, List.mem_cons_of_mem _ hr, hbest⟩
    unfold latest? at h
    split at h
    · exact htail h
    · rename_i vote hacc hrest
      obtain ⟨rfl, rfl⟩ := Prod.mk.inj (Option.some.inj h)
      exact ⟨report, List.mem_cons_self, rfl, hacc⟩
    · rename_i vote other rest hacc hrest
      split at h
      · obtain ⟨rfl, rfl⟩ := Prod.mk.inj (Option.some.inj h)
        exact htail hrest
      · obtain ⟨rfl, rfl⟩ := Prod.mk.inj (Option.some.inj h)
        exact ⟨report, List.mem_cons_self, rfl, hacc⟩

/-- No report has a higher rank than the one that a round adopts. -/
theorem rank_le_latest? {reports : List (Report V)} {report : Report V} (hr : report ∈ reports)
    {vote : Vote V} (hvote : report.accepted = some vote) :
    ∃ sender best, latest? reports = some (sender, best) ∧
      rank report.sender vote ≤ rank sender best := by
  induction reports with
  | nil => simp at hr
  | cons first reports ih =>
    unfold latest?
    rcases List.mem_cons.mp hr with rfl | hr
    · rw [hvote]
      cases hrest : latest? reports with
      | none => exact ⟨_, _, rfl, le_rfl⟩
      | some found =>
        obtain ⟨sender, best⟩ := found
        dsimp only
        split_ifs with hlt
        · exact ⟨_, _, rfl, (rank_lt_iff.mpr hlt).le⟩
        · exact ⟨_, _, rfl, le_rfl⟩
    · obtain ⟨sender, best, hrest, hle⟩ := ih hr
      rw [hrest]
      cases hfirst : first.accepted with
      | none => exact ⟨_, _, rfl, hle⟩
      | some u =>
        dsimp only
        split_ifs with hlt
        · exact ⟨_, _, rfl, hle⟩
        · exact ⟨_, _, rfl, hle.trans (not_lt.mp fun h => hlt (rank_lt_iff.mp h))⟩

theorem le_latest? {reports : List (Report V)} {report : Report V} (hr : report ∈ reports)
    {vote : Vote V} (hvote : report.accepted = some vote) :
    ∃ sender best, latest? reports = some (sender, best) ∧ vote.ballot ≤ best.ballot :=
  have ⟨sender, best, hbest, hle⟩ := rank_le_latest? hr hvote
  ⟨sender, best, hbest, ballot_le_of_rank_le hle⟩

theorem latest?_eq_none_iff {reports : List (Report V)} :
    latest? reports = none ↔ ∀ report ∈ reports, report.accepted = none := by
  constructor
  · intro h report hr
    by_contra hvote
    obtain ⟨vote, hvote⟩ := Option.ne_none_iff_exists'.mp hvote
    obtain ⟨sender, best, hbest, -⟩ := rank_le_latest? hr hvote
    simp [h] at hbest
  · intro h
    by_contra hsome
    obtain ⟨⟨sender, best⟩, hbest⟩ := Option.ne_none_iff_exists'.mp hsome
    obtain ⟨report, hr, -, hvote⟩ := mem_of_latest? hbest
    simp [h report hr] at hvote

end Proposer

end Synod
