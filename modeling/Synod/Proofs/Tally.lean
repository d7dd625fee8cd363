import Mathlib.Data.List.Nodup
import Synod.Role.Learner
import Synod.Value.Instances

/-! What counting a voter does to a tally: one count is begun or joined, every other one stays. -/

namespace Synod

variable {V : Type}

/-- Values whose comparison tells the truth where it is not refused. -/
class LawfulValue (V : Type) [Value V] : Prop where
  eq_of_same? {a b : V} : Value.same? a b = some true → a = b
  ne_of_same? {a b : V} : Value.same? a b = some false → a ≠ b

instance [DecidableEq V] [Value V] [ComparableValue V] : LawfulValue V where
  eq_of_same? h := by simpa [ComparableValue.same?_eq] using h
  ne_of_same? h := by simpa [ComparableValue.same?_eq] using h

instance : LawfulValue Fragile where
  eq_of_same? {a b} h := by
    simp only [Value.same?] at h
    split at h <;> simp_all
  ne_of_same? {a b} h := by
    simp only [Value.same?] at h
    split at h <;> simp_all

namespace Tally

/-- The counts and the number of voters after a voter was counted. -/
inductive Added (vote : Vote V) (voter : NodeId) (counts : List (Count V)) :
    List (Count V) → Nat → Prop where
  | begin (h : ∀ count ∈ counts, count.vote ≠ vote) :
      Added vote voter counts (counts ++ [⟨vote, [voter]⟩]) 1
  | join (before : List (Count V)) (count : Count V) (after : List (Count V))
      (h : counts = before ++ count :: after) (hvote : count.vote = vote) :
      Added vote voter counts
        (before ++ { count with voters := count.voters.insert voter } :: after)
        (count.voters.insert voter).length

namespace Added

variable {vote : Vote V} {voter : NodeId} {counts counts' : List (Count V)} {n : Nat}
  (h : Added vote voter counts counts' n)
include h

/-- Whoever is counted was counted before or is the new voter. -/
theorem mem_voters {count : Count V} (hc : count ∈ counts') {x : NodeId} (hx : x ∈ count.voters) :
    (∃ old ∈ counts, old.vote = count.vote ∧ x ∈ old.voters) ∨ count.vote = vote ∧ x = voter := by
  cases h with
  | begin hnew =>
    rcases List.mem_append.mp hc with hc | hc
    · exact .inl ⟨count, hc, rfl, hx⟩
    · obtain rfl := List.mem_singleton.mp hc
      exact .inr ⟨rfl, by simpa using hx⟩
  | join before joined after hcounts hvote =>
    simp only [List.mem_append, List.mem_cons] at hc
    rcases hc with hc | rfl | hc
    · exact .inl ⟨count, by simp [hcounts, hc], rfl, hx⟩
    · rcases List.mem_insert_iff.mp hx with rfl | hx
      · exact .inr ⟨hvote, rfl⟩
      · exact .inl ⟨joined, by simp [hcounts], rfl, hx⟩
    · exact .inl ⟨count, by simp [hcounts, hc], rfl, hx⟩

/-- The new voter is counted for its vote, of which the number is given. -/
theorem voter_mem : ∃ count ∈ counts', count.vote = vote ∧ voter ∈ count.voters ∧
    count.voters.length = n := by
  cases h with
  | begin hnew => exact ⟨⟨vote, [voter]⟩, by simp, rfl, by simp, rfl⟩
  | join before joined after hcounts hvote =>
    exact ⟨{ joined with voters := joined.voters.insert voter }, by simp, hvote,
      List.mem_insert_iff.mpr (.inl rfl), rfl⟩

/-- Whoever was counted stays so. -/
theorem voters_mono {old : Count V} (ho : old ∈ counts) :
    ∃ count ∈ counts', count.vote = old.vote ∧ old.voters ⊆ count.voters := by
  cases h with
  | begin hnew => exact ⟨old, by simp [ho], rfl, fun _ hx => hx⟩
  | join before joined after hcounts hvote =>
    subst hcounts
    rcases List.mem_append.mp ho with ho | ho
    · exact ⟨old, by simp [ho], rfl, fun _ hx => hx⟩
    · rcases List.mem_cons.mp ho with rfl | ho
      · exact ⟨{ old with voters := old.voters.insert voter }, by simp, rfl,
          fun _ hx => List.mem_insert_iff.mpr (.inr hx)⟩
      · exact ⟨old, by simp [ho], rfl, fun _ hx => hx⟩

theorem mem_or_eq {count : Count V} (hc : count ∈ counts') :
    count ∈ counts ∨ count.vote = vote ∧ count.voters.length = n := by
  cases h with
  | begin hnew =>
    rcases List.mem_append.mp hc with hc | hc
    · exact .inl hc
    · obtain rfl := List.mem_singleton.mp hc
      exact .inr ⟨rfl, rfl⟩
  | join before joined after hcounts hvote =>
    subst hcounts
    simp only [List.mem_append, List.mem_cons] at hc ⊢
    rcases hc with hc | rfl | hc
    · exact .inl (.inl hc)
    · exact .inr ⟨hvote, rfl⟩
    · exact .inl (.inr (.inr hc))

theorem voters_nodup (hnodup : ∀ count ∈ counts, count.voters.Nodup) {count : Count V}
    (hc : count ∈ counts') : count.voters.Nodup := by
  cases h with
  | begin hnew =>
    rcases List.mem_append.mp hc with hc | hc
    · exact hnodup count hc
    · obtain rfl := List.mem_singleton.mp hc
      exact List.nodup_singleton voter
  | join before joined after hcounts hvote =>
    subst hcounts
    simp only [List.mem_append, List.mem_cons] at hc
    rcases hc with hc | rfl | hc
    · exact hnodup count (by simp [hc])
    · exact (hnodup joined (by simp)).insert
    · exact hnodup count (by simp [hc])

theorem voters_ne_nil (hvoters : ∀ count ∈ counts, count.voters ≠ []) {count : Count V}
    (hc : count ∈ counts') : count.voters ≠ [] := by
  cases h with
  | begin hnew =>
    rcases List.mem_append.mp hc with hc | hc
    · exact hvoters count hc
    · obtain rfl := List.mem_singleton.mp hc
      exact List.cons_ne_nil voter []
  | join before joined after hcounts hvote =>
    subst hcounts
    simp only [List.mem_append, List.mem_cons] at hc
    rcases hc with hc | rfl | hc
    · exact hvoters count (by simp [hc])
    · exact List.ne_nil_of_mem (List.mem_insert_iff.mpr (.inl rfl))
    · exact hvoters count (by simp [hc])

theorem votes_nodup (hnodup : (counts.map Count.vote).Nodup) :
    (counts'.map Count.vote).Nodup := by
  cases h with
  | begin hnew =>
    rw [List.map_append, List.nodup_append]
    refine ⟨hnodup, List.nodup_singleton _, ?_⟩
    rintro _ hu _ hv rfl
    obtain ⟨count, hc, rfl⟩ := List.mem_map.mp hu
    exact hnew count hc (by simpa using hv)
  | join before joined after hcounts hvote => simpa [hcounts] using hnodup

end Added

variable [Value V]

section

variable [LawfulValue V] {count : Count V} {vote : Vote V}

theorem eq_of_matches? (h : matches? count vote = some true) : count.vote = vote := by
  unfold matches? at h
  split at h
  · rename_i hb
    have hv := LawfulValue.eq_of_same? h
    cases hc : count.vote
    cases vote
    simp_all
  · simp at h

theorem ne_of_matches? (h : matches? count vote = some false) : count.vote ≠ vote := by
  rintro rfl
  simp only [matches?, if_true] at h
  exact LawfulValue.ne_of_same? h rfl

end

theorem added_of_add [LawfulValue V] {vote : Vote V} {voter : NodeId}
    {counts counts' : List (Count V)} {n : Nat} (h : add vote voter counts = .ok (counts', n)) :
    Added vote voter counts counts' n := by
  induction counts generalizing counts' with
  | nil =>
    obtain ⟨rfl, rfl⟩ := Prod.mk.inj (Except.ok.inj h)
    exact .begin (by simp)
  | cons count counts ih =>
    unfold add at h
    split at h
    · simp at h
    · rename_i hmatch
      obtain ⟨rfl, rfl⟩ := Prod.mk.inj (Except.ok.inj h)
      exact .join [] count counts rfl (eq_of_matches? hmatch)
    · rename_i hmatch
      split at h
      · simp at h
      · rename_i rest m hrest
        obtain ⟨rfl, rfl⟩ := Prod.mk.inj (Except.ok.inj h)
        cases ih hrest with
        | begin hnew =>
          exact .begin (List.forall_mem_cons.mpr ⟨ne_of_matches? hmatch, hnew⟩)
        | join before joined after hcounts hvote =>
          exact .join (count :: before) joined after (congrArg _ hcounts) hvote

theorem matches?_ne_none {count : Count V} {vote : Vote V}
    (h : Value.same? count.vote.value vote.value ≠ none) : matches? count vote ≠ none := by
  unfold matches?
  split
  · exact h
  · simp

/-- A vote that can be compared with all that are counted is counted without a fault. -/
theorem exists_add {vote : Vote V} {counts : List (Count V)}
    (h : ∀ count ∈ counts, matches? count vote ≠ none) (voter : NodeId) :
    ∃ out, add vote voter counts = .ok out := by
  induction counts with
  | nil => exact ⟨_, rfl⟩
  | cons count counts ih =>
    obtain ⟨hcount, hcounts⟩ := List.forall_mem_cons.mp h
    obtain ⟨out, hout⟩ := ih hcounts
    unfold add
    split
    · rename_i hmatch
      exact absurd hmatch hcount
    · exact ⟨_, rfl⟩
    · rw [hout]
      exact ⟨_, rfl⟩

theorem exists_record {t : Tally V} {vote : Vote V}
    (h : ∀ count ∈ t.counts, matches? count vote ≠ none) (voter : NodeId) :
    ∃ t' n, t.record vote voter = .ok (t', n) := by
  obtain ⟨⟨counts, n⟩, hout⟩ := exists_add h voter
  exact ⟨{ t with counts }, n, by rw [record, hout]⟩

theorem record_eq_ok [LawfulValue V] {t t' : Tally V} {vote : Vote V} {voter : NodeId} {n : Nat}
    (h : t.record vote voter = .ok (t', n)) :
    t'.quorum = t.quorum ∧ Added vote voter t.counts t'.counts n := by
  unfold record at h
  split at h
  · simp at h
  · rename_i counts m hadd
    obtain ⟨rfl, rfl⟩ := Prod.mk.inj (Except.ok.inj h)
    exact ⟨rfl, added_of_add hadd⟩

end Tally

/-- A learner takes every report that it can compare with what it has counted, or has decided. -/
theorem Learner.exists_learn [Value V] {l : Learner V} {vote : Vote V}
    (h : l.learned = none → ∀ count ∈ l.tally.counts, Tally.matches? count vote ≠ none)
    (sender : NodeId) : ∃ l' effects, l.learn sender vote = .ok (l', effects) := by
  unfold learn
  split
  · exact ⟨_, _, rfl⟩
  · rename_i hopen
    split
    · have hcounts := h (by simpa using hopen)
      obtain ⟨tally, n, hrecord⟩ := Tally.exists_record hcounts sender
      rw [hrecord]
      dsimp only
      split
      · exact ⟨_, _, rfl⟩
      · exact ⟨_, _, rfl⟩
    · exact ⟨_, _, rfl⟩

end Synod
