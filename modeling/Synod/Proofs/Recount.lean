import Mathlib.Data.List.DropRight
import Synod.Proofs.Counting

/-! Recount. A tally holds what was recorded since it was last cleared, for each vote the set of its
voters. Whatever it answers can be counted from the calls, and neither the order of the records nor
their repetition shows. -/

namespace Synod

variable {V : Type}

namespace Tally

/-! ## Calls -/

/-- What can be asked of a tally. -/
inductive Call (V : Type) where
  | record (vote : Vote V) (voter : NodeId)
  | votesFor (vote : Vote V)
  | clear
deriving DecidableEq

inductive Answer where
  /-- The vote has so many voters now, and whether that settles it. -/
  | recorded (voters : Nat) (settled : Bool)
  | votes (voters : Nat)
  | cleared
deriving DecidableEq

section

variable [Value V]

def call (t : Tally V) : Call V → Except Fault (Tally V × Answer)
  | .record vote voter =>
    match t.record vote voter with
    | .error fault => .error fault
    | .ok (t, n) => .ok (t, .recorded n (t.reached n))
  | .votesFor vote => .ok (t, .votes (t.votesFor vote))
  | .clear => .ok (t.clear, .cleared)

/-- Call after call, up to the first that ends in a fault. -/
def callAll (t : Tally V) : List (Call V) → Except Fault (Tally V × List Answer)
  | [] => .ok (t, [])
  | c :: calls =>
    match t.call c with
    | .error fault => .error fault
    | .ok (t, answer) =>
      match t.callAll calls with
      | .error fault => .error fault
      | .ok (t, answers) => .ok (t, answer :: answers)

end

/-! ## What the calls come to -/

def Call.isClear : Call V → Bool
  | clear => true
  | _ => false

def Call.vote? : Call V → Option (Vote V)
  | record vote _ | votesFor vote => some vote
  | clear => none

def Call.recorded? : Call V → Option (Vote V × NodeId)
  | record vote voter => some (vote, voter)
  | _ => none

/-- All that was recorded after the last clear. -/
def recorded (calls : List (Call V)) : List (Vote V × NodeId) :=
  (calls.rtakeWhile fun c => !c.isClear).filterMap Call.recorded?

/-- A vote that can be compared with those of its ballot that are recorded. -/
def Comparable [Value V] (calls : List (Call V)) (vote : Vote V) : Prop :=
  ∀ x ∈ recorded calls, x.1.ballot = vote.ballot → Value.same? x.1.value vote.value ≠ none

/-- Every call names a vote that can be compared with those that are recorded by then. -/
def AllComparable [Value V] (calls : List (Call V)) : Prop :=
  ∀ before c after, calls = before ++ c :: after → ∀ vote ∈ c.vote?, Comparable before vote

section

variable [DecidableEq V]

/-- Who was recorded for a vote after the last clear. -/
def voters (calls : List (Call V)) (vote : Vote V) : Finset NodeId :=
  (((recorded calls).filter (·.1 = vote)).map Prod.snd).toFinset

/-- The votes that were recorded after the last clear. -/
def votes (calls : List (Call V)) : Finset (Vote V) :=
  ((recorded calls).map Prod.fst).toFinset

/-- The answer that is due to a call after these. -/
def due (n : Nat) (calls : List (Call V)) : Call V → Answer
  | .record vote voter =>
    let count := (voters (calls ++ [.record vote voter]) vote).card
    .recorded count (n / 2 + 1 ≤ count)
  | .votesFor vote => .votes (voters calls vote).card
  | .clear => .cleared

/-- The answers that are due to calls which follow these. -/
def dueAll (n : Nat) (before : List (Call V)) : List (Call V) → List Answer
  | [] => []
  | c :: calls => due n before c :: dueAll n (before ++ [c]) calls

/-- A tally as a set: each vote with the set of its voters. -/
def table (t : Tally V) : Finset (Vote V × Finset NodeId) :=
  (t.counts.map fun count => (count.vote, count.voters.toFinset)).toFinset

end

/-! ### One call more -/

theorem recorded_concat (calls : List (Call V)) (c : Call V) :
    recorded (calls ++ [c]) = if c.isClear then [] else recorded calls ++ c.recorded?.toList := by
  unfold recorded
  rw [List.rtakeWhile_concat]
  cases c <;> simp [Call.isClear, Call.recorded?]

section

variable [DecidableEq V] {calls : List (Call V)} {vote : Vote V} {voter : NodeId}

theorem mem_voters : voter ∈ voters calls vote ↔ (vote, voter) ∈ recorded calls := by
  simp only [voters, List.mem_toFinset, List.mem_map, List.mem_filter, decide_eq_true_eq]
  constructor
  · rintro ⟨x, ⟨hx, rfl⟩, rfl⟩
    exact hx
  · exact fun h => ⟨_, ⟨h, rfl⟩, rfl⟩

theorem mem_votes : vote ∈ votes calls ↔ (voters calls vote).Nonempty := by
  simp only [votes, List.mem_toFinset, List.mem_map, Finset.Nonempty, mem_voters]
  constructor
  · rintro ⟨x, hx, rfl⟩
    exact ⟨x.2, hx⟩
  · exact fun ⟨voter, h⟩ => ⟨_, h, rfl⟩

theorem voters_record : voters (calls ++ [.record vote voter]) =
    withVoter (voters calls) vote voter := by
  funext u
  ext x
  simp [mem_voters, mem_withVoter, recorded_concat, Call.isClear, Call.recorded?]

theorem voters_votesFor : voters (calls ++ [.votesFor vote]) = voters calls := by
  funext u
  ext x
  simp [mem_voters, recorded_concat, Call.isClear, Call.recorded?]

theorem voters_clear : voters (calls ++ [.clear]) = fun _ => ∅ := by
  funext u
  ext x
  simp [mem_voters, recorded_concat, Call.isClear]

end

theorem matches?_ne_none_of_ballot [Value V] {count : Count V} {vote : Vote V}
    (h : count.vote.ballot = vote.ballot → Value.same? count.vote.value vote.value ≠ none) :
    matches? count vote ≠ none := by
  unfold matches?
  split
  · rename_i hballot
    exact h hballot
  · simp

/-! ## The tally after the calls -/

variable [DecidableEq V]

/-- A tally of the votes of so many nodes after these calls. -/
structure Counted (t : Tally V) (n : Nat) (calls : List (Call V)) : Prop where
  quorum_eq : t.quorum = n / 2 + 1
  records : Records t.counts (voters calls)

theorem counted_ofSize (n : Nat) : (ofSize n : Tally V).Counted n [] where
  quorum_eq := rfl
  records := records_nil

namespace Counted

variable {t : Tally V} {n : Nat} {calls : List (Call V)} (h : t.Counted n calls)
include h

/-- The votes that are counted are those that have been recorded. -/
theorem exists_count_iff {vote : Vote V} :
    (∃ count ∈ t.counts, count.vote = vote) ↔ vote ∈ votes calls := by
  rw [mem_votes]
  constructor
  · rintro ⟨count, hc, rfl⟩
    rw [← h.records.voters_eq count hc, List.toFinset_nonempty_iff]
    exact h.records.voters_ne_nil count hc
  · exact h.records.complete vote

theorem table_eq : t.table = (votes calls).image fun vote => (vote, voters calls vote) := by
  ext ⟨vote, nodes⟩
  simp only [table, List.mem_toFinset, List.mem_map, Finset.mem_image, Prod.mk.injEq]
  constructor
  · rintro ⟨count, hc, rfl, rfl⟩
    have hvote := h.exists_count_iff.mp ⟨count, hc, rfl⟩
    exact ⟨count.vote, hvote, rfl, (h.records.voters_eq count hc).symm⟩
  · rintro ⟨vote, hvote, rfl, rfl⟩
    obtain ⟨count, hc, rfl⟩ := h.exists_count_iff.mpr hvote
    exact ⟨count, hc, rfl, h.records.voters_eq count hc⟩

theorem size_eq : t.size = (votes calls).card := by
  have hvotes : (t.counts.map Count.vote).toFinset = votes calls := by
    ext vote
    rw [List.mem_toFinset, List.mem_map, h.exists_count_iff]
  rw [← hvotes, List.toFinset_card_of_nodup h.records.votes_nodup, List.length_map, size]

variable [Value V]

theorem matches?_ne_none {vote : Vote V} (hcompare : Comparable calls vote) :
    ∀ count ∈ t.counts, matches? count vote ≠ none := by
  intro count hc
  obtain ⟨voter, hvoter⟩ := List.exists_mem_of_ne_nil _ (h.records.voters_ne_nil count hc)
  have hrecorded : (count.vote, voter) ∈ recorded calls := by
    rw [← mem_voters, ← h.records.voters_eq count hc]
    exact List.mem_toFinset.mpr hvoter
  exact matches?_ne_none_of_ballot (hcompare _ hrecorded)

variable [LawfulValue V]

/-- One call gets the answer that is due. -/
theorem call {c : Call V} (hcompare : ∀ vote ∈ c.vote?, Comparable calls vote) :
    ∃ t', t.call c = .ok (t', due n calls c) ∧ t'.Counted n (calls ++ [c]) := by
  cases c with
  | record vote voter =>
    have hmatch := h.matches?_ne_none (hcompare vote rfl)
    obtain ⟨t', k, hrecord⟩ := exists_record hmatch voter
    obtain ⟨hquorum, hadded⟩ := record_eq_ok hrecord
    obtain ⟨hrecords, rfl⟩ := h.records.added hadded
    rw [← voters_record] at hrecords hrecord
    have hcounted : t'.Counted n (calls ++ [.record vote voter]) :=
      ⟨hquorum.trans h.quorum_eq, hrecords⟩
    refine ⟨t', ?_, hcounted⟩
    simp [Tally.call, hrecord, due, reached, hcounted.quorum_eq]
  | votesFor vote =>
    have hvotes := h.records.votesFor (h.matches?_ne_none (hcompare vote rfl))
    have hrecords : Records t.counts (voters (calls ++ [.votesFor vote])) := by
      rw [voters_votesFor]
      exact h.records
    exact ⟨t, by rw [Tally.call, hvotes, due], h.quorum_eq, hrecords⟩
  | clear =>
    have hrecords : Records t.clear.counts (voters (calls ++ [.clear])) := by
      rw [voters_clear]
      exact records_nil
    exact ⟨t.clear, rfl, h.quorum_eq, hrecords⟩

/-- However many calls there are, each gets the answer that is due. -/
theorem callAll {later : List (Call V)} (hcompare : AllComparable (calls ++ later)) :
    ∃ t', t.callAll later = .ok (t', dueAll n calls later) ∧ t'.Counted n (calls ++ later) := by
  induction later generalizing t calls with
  | nil => exact ⟨t, rfl, by simpa using h⟩
  | cons c later ih =>
    obtain ⟨t₁, hcall, hcounted⟩ := h.call (hcompare calls c later rfl)
    obtain ⟨t', hlater, hcounted'⟩ := ih hcounted (by simpa using hcompare)
    refine ⟨t', ?_, by simpa using hcounted'⟩
    rw [Tally.callAll, hcall]
    simp only [hlater, dueAll]

end Counted

/-- Where every call can compare its vote with those that are recorded, all calls get the answers
that are due. The tally holds each recorded vote with its voters, and its size is the number of
these votes. Any calls after which the same is recorded, in whatever order and however often, end
in the same tally. -/
theorem tally_of_calls [Value V] [LawfulValue V] (n : Nat) (calls : List (Call V))
    (hcompare : AllComparable calls) :
    ∃ t, (ofSize n).callAll calls = .ok (t, dueAll n [] calls) ∧ t.quorum = n / 2 + 1 ∧
      t.table = (votes calls).image (fun vote => (vote, voters calls vote)) ∧
      t.size = (votes calls).card ∧ (t.isEmpty = true ↔ (votes calls).card = 0) ∧
      ∀ others, AllComparable others → (∀ x, x ∈ recorded others ↔ x ∈ recorded calls) →
        ∃ u, (ofSize n).callAll others = .ok (u, dueAll n [] others) ∧ u.quorum = t.quorum ∧
          u.table = t.table := by
  obtain ⟨t, hcalls, ht⟩ := (counted_ofSize n).callAll hcompare
  rw [List.nil_append] at ht
  refine ⟨t, hcalls, ht.quorum_eq, ht.table_eq, ht.size_eq, by rw [isEmpty_iff, ht.size_eq], ?_⟩
  intro others hothers hsame
  obtain ⟨u, hcalls', hu⟩ := (counted_ofSize n).callAll hothers
  rw [List.nil_append] at hu
  have hvoters : voters others = voters calls := by
    funext vote
    ext voter
    rw [mem_voters, mem_voters, hsame]
  have hvotes : votes others = votes calls := by
    ext vote
    rw [mem_votes, mem_votes, hvoters]
  refine ⟨u, hcalls', hu.quorum_eq.trans ht.quorum_eq.symm, ?_⟩
  rw [hu.table_eq, ht.table_eq, hvoters, hvotes]

theorem allComparable [Value V] [ComparableValue V] (calls : List (Call V)) :
    AllComparable calls := by
  intro before c after _ vote _ x _ _
  simp [ComparableValue.same?_eq]

/-- Two voters of one vote, one of them twice, a vote for another value, and a new start. -/
def mixedCalls : List (Call String) :=
  [.record ⟨⟨1, ⟨"P1"⟩⟩, "x"⟩ ⟨"A1"⟩, .record ⟨⟨1, ⟨"P1"⟩⟩, "y"⟩ ⟨"A2"⟩,
    .record ⟨⟨1, ⟨"P1"⟩⟩, "x"⟩ ⟨"A1"⟩, .record ⟨⟨1, ⟨"P1"⟩⟩, "x"⟩ ⟨"A3"⟩,
    .votesFor ⟨⟨1, ⟨"P1"⟩⟩, "y"⟩, .clear, .votesFor ⟨⟨1, ⟨"P1"⟩⟩, "y"⟩,
    .record ⟨⟨2, ⟨"P1"⟩⟩, "x"⟩ ⟨"A1"⟩]

theorem tally_of_mixedCalls : AllComparable mixedCalls ∧
    ∃ t, (ofSize 3).callAll mixedCalls = .ok (t, [.recorded 1 false, .recorded 1 false,
      .recorded 1 false, .recorded 2 true, .votes 1, .cleared, .votes 0, .recorded 1 false]) ∧
      t.size = 1 := by
  obtain ⟨t, hcalls, -, -, hsize, -, -⟩ := tally_of_calls 3 mixedCalls (allComparable _)
  exact ⟨allComparable _, t, hcalls, hsize⟩

/-! ### Values that cannot be compared -/

/-- The value that cannot be compared is recorded for two voters. -/
def explosiveCalls : List (Call Fragile) :=
  [.record ⟨⟨1, ⟨"P1"⟩⟩, ⟨"BOOM"⟩⟩ ⟨"A1"⟩, .record ⟨⟨1, ⟨"P1"⟩⟩, ⟨"BOOM"⟩⟩ ⟨"A2"⟩]

/-- The second record is due the answer that two voters settle the vote, and faults instead. -/
theorem uncounted_of_explosiveCalls :
    dueAll 3 [] explosiveCalls = [.recorded 1 false, .recorded 2 true] ∧
      (ofSize 3).callAll explosiveCalls = .error .incomparable :=
  ⟨by decide, rfl⟩

end Tally

end Synod
