import Synod.Fault
import Synod.Message
import Synod.Quorum
import Synod.Value

/-! Counting the voters of each vote. Votes that differ in their ballot or in their value are
counted apart, and no voter is counted twice for one vote. -/

namespace Synod

variable {V : Type}

/-- A vote and the nodes that reported it. -/
structure Count (V : Type) where
  vote : Vote V
  voters : List NodeId

structure Tally (V : Type) where
  /-- How many voters settle a vote. -/
  quorum : Nat
  counts : List (Count V)

namespace Tally

/-- An empty tally of the votes of `n` nodes. -/
def ofSize (n : Nat) : Tally V := ⟨quorumSize n, []⟩

/-- Whether a vote is the counted one. Values are compared only under one ballot. -/
def matches? [Value V] (count : Count V) (vote : Vote V) : Option Bool :=
  if count.vote.ballot = vote.ballot then Value.same? count.vote.value vote.value
  else some false

/-- Adds a voter to the count of its vote, which is begun if need be, and gives the number of voters
that the vote has then. -/
def add [Value V] (vote : Vote V) (voter : NodeId) :
    List (Count V) → Except Fault (List (Count V) × Nat)
  | [] => .ok ([⟨vote, [voter]⟩], 1)
  | count :: counts =>
    match matches? count vote with
    | none => .error .incomparable
    | some true =>
      let voters := count.voters.insert voter
      .ok ({ count with voters } :: counts, voters.length)
    | some false =>
      match add vote voter counts with
      | .error fault => .error fault
      | .ok (counts, n) => .ok (count :: counts, n)

/-- Counts a voter. The answer is the number of voters of that vote. -/
def record [Value V] (tally : Tally V) (vote : Vote V) (voter : NodeId) :
    Except Fault (Tally V × Nat) :=
  match add vote voter tally.counts with
  | .error fault => .error fault
  | .ok (counts, n) => .ok ({ tally with counts }, n)

/-- Whether so many voters settle a vote. -/
def reached (tally : Tally V) (n : Nat) : Bool := tally.quorum ≤ n

/-- The number of voters counted for a vote. -/
def votesFor [Value V] (tally : Tally V) (vote : Vote V) : Nat :=
  match tally.counts.find? fun count => matches? count vote = some true with
  | none => 0
  | some count => count.voters.length

def clear (tally : Tally V) : Tally V := { tally with counts := [] }

/-- The number of votes that have a voter. -/
def size (tally : Tally V) : Nat := tally.counts.length

def isEmpty (tally : Tally V) : Bool := tally.counts.isEmpty

theorem isEmpty_iff (tally : Tally V) : tally.isEmpty = true ↔ tally.size = 0 := by
  simp [isEmpty, size]

end Tally

end Synod
