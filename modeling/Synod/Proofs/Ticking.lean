import Mathlib.Data.ENat.Lattice
import Synod.Proofs.Settling
import Synod.Proofs.States
import Synod.Proofs.Tour

/-! Ticking. So many ticks and then so many more are all of them together. Ticking until every
learner has decided ends at the first tick after which they have, so a budget of ticks can be
split. -/

namespace Synod

variable {V σ : Type} [Value V] [Shuffler σ]

namespace Cluster

variable {s : Setup V} {c : Cluster V σ}

/-! ## So many ticks -/

def afterTicks (c : Cluster V σ) (n : Nat) : Cluster V σ := c.run (List.replicate n .tick)

def tickReports (c : Cluster V σ) : Nat → List TickReport
  | 0 => []
  | n + 1 => c.tick.2 :: c.tick.1.tickReports n

@[simp] theorem afterTicks_zero (c : Cluster V σ) : c.afterTicks 0 = c := rfl

theorem afterTicks_succ (c : Cluster V σ) (n : Nat) :
    c.afterTicks (n + 1) = c.tick.1.afterTicks n := rfl

theorem afterTicks_add (c : Cluster V σ) (m n : Nat) :
    c.afterTicks (m + n) = (c.afterTicks m).afterTicks n := by
  rw [afterTicks, ← List.replicate_append_replicate, run_append]
  rfl

theorem tickReports_add (c : Cluster V σ) (m n : Nat) :
    c.tickReports (m + n) = c.tickReports m ++ (c.afterTicks m).tickReports n := by
  induction m generalizing c with
  | zero => simp [tickReports]
  | succ m ih =>
    rw [Nat.add_right_comm, tickReports, ih, ← afterTicks_succ]
    rfl

theorem tickTimes_eq (c : Cluster V σ) (n : Nat) (reports : List TickReport) :
    tickTimes n c reports = (c.afterTicks n, reports.reverse ++ c.tickReports n) := by
  induction n generalizing c reports with
  | zero => simp [tickTimes, tickReports]
  | succ n ih => simp [tickTimes, ih, afterTicks_succ, tickReports]

theorem runTicks_eq (c : Cluster V σ) (n : Nat) :
    c.runTicks n = (c.afterTicks n, c.tickReports n) := by
  simp [runTicks, tickTimes_eq]

theorem ticks_tick (c : Cluster V σ) : c.tick.1.ticks = c.ticks + 1 := by
  rw [← tickBy_ofRoles]
  exact (frame_visitAllBy _ _ _).2

theorem ticks_afterTicks (c : Cluster V σ) (n : Nat) : (c.afterTicks n).ticks = c.ticks + n := by
  induction n generalizing c with
  | zero => rfl
  | succ n ih => rw [afterTicks_succ, ih, ticks_tick, Nat.add_assoc, Nat.add_comm 1]

theorem StateOf.run (h : c.StateOf s) (ops : List (Operation V)) : (c.run ops).StateOf s := by
  induction ops generalizing c with
  | nil => exact h
  | cons op ops ih => exact ih (h.undergo (.operation op))

theorem StateOf.afterTicks (h : c.StateOf s) (n : Nat) : (c.afterTicks n).StateOf s :=
  h.run _

/-! ## Deciding -/

/-- Every learner has learned something. -/
def AllLearned (c : Cluster V σ) : Prop :=
  ∀ id l, c.learner? id = some l → ∃ vote, l.learned = some vote

/-- The first learner that has learned anything has learned this. -/
def FirstLearned (c : Cluster V σ) (vote : Vote V) : Prop :=
  ∃ id l, c.learner? id = some l ∧ l.learned = some vote ∧
    ∀ other l', other < id → c.learner? other = some l' → l'.learned = none

omit [Value V] [Shuffler σ] in
theorem allDecided_iff_allLearned (hids : c.ids.Nodup) :
    c.allDecided = true ↔ c.AllLearned := by
  simp only [allDecided_iff hids, AllLearned, Option.isSome_iff_exists]

omit [Value V] [Shuffler σ] in
theorem ascending_learned (hids : c.ids.Pairwise (· < ·)) :
    c.learned.Pairwise fun x y => x.1 < y.1 := by
  unfold ids at hids
  rw [List.pairwise_map] at hids
  refine hids.filterMap _ fun n m hlt x hx y hy => ?_
  obtain ⟨_, -, rfl⟩ := Option.map_eq_some_iff.mp hx
  obtain ⟨_, -, rfl⟩ := Option.map_eq_some_iff.mp hy
  exact hlt

omit [Value V] [Shuffler σ] in
theorem firstLearned_of_decided (hids : c.ids.Pairwise (· < ·)) {v : V}
    (h : c.decided? = some v) : ∃ vote, c.FirstLearned vote ∧ vote.value = v := by
  have hnodup : c.ids.Nodup := hids.imp fun h => ne_of_lt h
  obtain ⟨before, ⟨id, learned⟩, after, hsplit, hvalue, hnone⟩ := List.findSome?_eq_some_iff.mp h
  obtain ⟨vote, rfl, hv⟩ := Option.map_eq_some_iff.mp hvalue
  have hmem : (id, some vote) ∈ c.learned := by simp [hsplit]
  obtain ⟨l, hl, hlearned⟩ := (mem_learned hnodup).mp hmem
  refine ⟨vote, ⟨id, l, hl, hlearned, fun other l' hlt hl' => ?_⟩, hv⟩
  have hentry := (mem_learned hnodup).mpr ⟨l', hl', rfl⟩
  have hascending := ascending_learned hids
  rw [hsplit] at hentry hascending
  obtain ⟨-, hrest, -⟩ := List.pairwise_append.mp hascending
  rcases List.mem_append.mp hentry with hbefore | hfrom
  · simpa using hnone _ hbefore
  · rcases List.mem_cons.mp hfrom with heq | hafter
    · exact absurd (congrArg Prod.fst heq) hlt.ne
    · exact absurd (List.rel_of_pairwise_cons hrest hafter) hlt.asymm

namespace StateOf

variable (h : c.StateOf s)
include h

/-- Where every learner has learned something, the first of them shows what was decided. -/
theorem exists_firstLearned (hall : c.AllLearned) :
    ∃ vote, c.FirstLearned vote ∧ c.decided? = some vote.value := by
  obtain ⟨id, l, hl⟩ := h.exists_learner
  obtain ⟨vote, hvote⟩ := hall id l hl
  obtain ⟨v, hv⟩ := exists_decided_of_learned h.nodup_ids hl hvote
  obtain ⟨vote, hfirst, rfl⟩ := firstLearned_of_decided h.staffed.ids.2 hv
  exact ⟨vote, hfirst, hv⟩

end StateOf

/-- How many ticks it takes until every learner has learned something, which may be for ever. -/
noncomputable def ticksToDecide (c : Cluster V σ) : ℕ∞ :=
  sInf {k | ∃ n : ℕ, (c.afterTicks n).AllLearned ∧ (n : ℕ∞) = k}

theorem ticksToDecide_le {n : ℕ} (h : (c.afterTicks n).AllLearned) : c.ticksToDecide ≤ n :=
  sInf_le ⟨n, h, rfl⟩

theorem le_ticksToDecide {n : ℕ} (h : ∀ m < n, ¬ (c.afterTicks m).AllLearned) :
    n ≤ c.ticksToDecide := by
  refine le_sInf ?_
  rintro k ⟨m, hm, rfl⟩
  exact Nat.cast_le.mpr (Nat.le_of_not_lt fun hlt => h m hlt hm)

/-! ## Until all have decided -/

theorem tickUntilDecided_of_decided (h : c.allDecided = true) (budget : Nat) :
    tickUntilDecided budget c = c := by
  cases budget with
  | zero => rfl
  | succ budget => rw [tickUntilDecided, if_pos h]

/-- What is left of a budget can be used later. -/
theorem tickUntilDecided_add (a b : Nat) (c : Cluster V σ) :
    tickUntilDecided b (tickUntilDecided a c) = tickUntilDecided (a + b) c := by
  induction a generalizing c with
  | zero => rw [Nat.zero_add, tickUntilDecided]
  | succ a ih =>
    by_cases hall : c.allDecided = true
    · simp only [tickUntilDecided_of_decided hall]
    · rw [Nat.add_right_comm, tickUntilDecided, tickUntilDecided, if_neg hall, if_neg hall, ih]

/-- With a budget the cluster ticks until all have decided, or as often as the budget allows. -/
theorem StateOf.exists_ticks_eq_min (h : c.StateOf s) (budget : ℕ) : ∃ n : ℕ,
    (n : ℕ∞) = min (budget : ℕ∞) c.ticksToDecide ∧ tickUntilDecided budget c = c.afterTicks n ∧
      ((c.afterTicks n).AllLearned ↔ c.ticksToDecide ≤ budget) := by
  have hall (m : Nat) := allDecided_iff_allLearned (h.afterTicks m).nodup_ids
  obtain ⟨n, hn, hticks, hbefore, hdecided⟩ := exists_tickUntilDecided budget c
  have hundecided (m : ℕ) (hm : m < n) : ¬ (c.afterTicks m).AllLearned :=
    fun hlearned => hbefore m hm ((hall m).mpr hlearned)
  have hleast := le_ticksToDecide hundecided
  refine ⟨n, ?_, hticks, ?_⟩
  · rcases Nat.lt_or_eq_of_le hn with hlt | rfl
    · have hle := ticksToDecide_le ((hall n).mp (hdecided hlt))
      rw [le_antisymm hle hleast, min_eq_right (Nat.cast_le.mpr hn)]
    · rw [min_eq_left hleast]
  · refine ⟨fun hlearned => (ticksToDecide_le hlearned).trans (Nat.cast_le.mpr hn), fun hle => ?_⟩
    by_contra hnot
    -- The budget was used up in vain, so it takes one tick more at least.
    obtain rfl : n = budget := by
      by_contra hne
      exact hnot ((hall n).mp (hdecided (Nat.lt_of_le_of_ne hn hne)))
    have hmore : ((n + 1 : ℕ) : ℕ∞) ≤ c.ticksToDecide := by
      refine le_ticksToDecide fun m hm => ?_
      rcases Nat.lt_succ_iff_lt_or_eq.mp hm with hlt | rfl
      · exact hundecided m hlt
      · exact hnot
    exact absurd (Nat.cast_le.mp (hmore.trans hle)) (Nat.not_succ_le_self n)

/-- Running until all have decided performs as many ticks as that takes, or as the budget allows,
whichever is less. It gives what the first decided learner has learned where the budget suffices and
nothing else, does not tick a cluster that has decided, and may be interrupted: one budget and then
another have the same effect and the same result as both together. -/
theorem run_until_decided_minimal (h : c.StateOf s) :
    (∀ budget : ℕ,
      (∃ n : ℕ, (n : ℕ∞) = min (budget : ℕ∞) c.ticksToDecide ∧
        (c.runUntilDecided budget).1 = c.afterTicks n ∧
        (c.runUntilDecided budget).1.ticks = c.ticks + n) ∧
      (c.ticksToDecide ≤ budget → ∃ vote, (c.runUntilDecided budget).1.FirstLearned vote ∧
        (c.runUntilDecided budget).2 = some vote.value) ∧
      (budget < c.ticksToDecide → (c.runUntilDecided budget).2 = none)) ∧
    (c.AllLearned → ∀ budget, (c.runUntilDecided budget).1 = c) ∧
    ∀ a b, (c.runUntilDecided a).1.runUntilDecided b = c.runUntilDecided (a + b) := by
  refine ⟨fun budget => ?_, fun hall budget => ?_, fun a b => ?_⟩
  · obtain ⟨n, hn, hticks, henough⟩ := h.exists_ticks_eq_min budget
    have hstate := h.afterTicks n
    have hdecided := allDecided_iff_allLearned hstate.nodup_ids
    simp only [runUntilDecided, hticks]
    refine ⟨⟨n, hn, rfl, c.ticks_afterTicks n⟩, fun hle => ?_, fun hlt => ?_⟩
    · have hall := henough.mpr hle
      obtain ⟨vote, hfirst, hvalue⟩ := hstate.exists_firstLearned hall
      exact ⟨vote, hfirst, by rw [if_pos (hdecided.mpr hall), hvalue]⟩
    · rw [if_neg fun hall => absurd (henough.mp (hdecided.mp hall)) (not_le_of_gt hlt)]
  · exact tickUntilDecided_of_decided ((allDecided_iff_allLearned h.nodup_ids).mpr hall) budget
  · simp only [runUntilDecided, tickUntilDecided_add]

/-- One tick is not enough for a round, and two are. -/
theorem run_until_decided_minimal_of_trio :
    ((ofTrio []).run [.propose ⟨"P1"⟩ none]).ticksToDecide = 2 ∧
      (((ofTrio []).run [.propose ⟨"P1"⟩ none]).runUntilDecided 1).2 = none ∧
      ((((ofTrio []).run [.propose ⟨"P1"⟩ none]).runUntilDecided 1).1.runUntilDecided 4).2 =
        some "x" := by
  have hstate : ((ofTrio []).run [.propose ⟨"P1"⟩ none]).StateOf trio :=
    ⟨_, _, _, create_trio [], [.operation (.propose ⟨"P1"⟩ none)], rfl⟩
  obtain ⟨hbudget, -, hsplit⟩ := run_until_decided_minimal hstate
  obtain ⟨⟨n, hn, -, hticks⟩, -, -⟩ := hbudget 5
  have htwo : (((ofTrio []).run [.propose ⟨"P1"⟩ none]).runUntilDecided 5).1.ticks = 2 := by
    decide +kernel
  obtain rfl : n = 2 := by
    rw [htwo] at hticks
    exact (hticks.trans (Nat.zero_add n)).symm
  have hleast : ((ofTrio []).run [.propose ⟨"P1"⟩ none]).ticksToDecide = 2 := by
    rcases min_eq_iff.mp hn.symm with ⟨hfive, -⟩ | ⟨htwo, -⟩
    · exact absurd (Nat.cast_inj.mp hfive) (by decide)
    · exact htwo
  refine ⟨hleast, (hbudget 1).2.2 (by rw [hleast]; decide), ?_⟩
  rw [hsplit 1 4]
  decide +kernel

end Cluster

end Synod
