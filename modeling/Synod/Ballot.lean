import Synod.Text.Decimal

/-! Names of nodes, and the ballots under which proposers run their rounds. Ballots are ordered by
round and then by proposer, so no two proposers share one and any two can be compared. -/

namespace Synod

/-- The name of a node, any text. Names are ordered by code point. -/
structure NodeId where
  name : String
deriving DecidableEq, Inhabited

namespace NodeId

instance : LT NodeId := ⟨fun a b => a.name < b.name⟩

instance (a b : NodeId) : Decidable (a < b) := inferInstanceAs (Decidable (a.name < b.name))

instance : Ord NodeId := ⟨fun a b => compareOfLessAndEq a b⟩

end NodeId

/-- A numbered attempt of one proposer. -/
structure Ballot where
  round : UInt64
  proposer : NodeId
deriving DecidableEq, Inhabited

namespace Ballot

instance : LT Ballot :=
  ⟨fun a b => a.round < b.round ∨ a.round = b.round ∧ a.proposer < b.proposer⟩

instance (a b : Ballot) : Decidable (a < b) :=
  inferInstanceAs (Decidable (a.round < b.round ∨ a.round = b.round ∧ a.proposer < b.proposer))

instance : LE Ballot := ⟨fun a b => ¬ b < a⟩

instance (a b : Ballot) : Decidable (a ≤ b) := inferInstanceAs (Decidable (¬ b < a))

instance : Ord Ballot := ⟨fun a b => compareOfLessAndEq a b⟩

/-- The later of a ballot and one that may be missing. -/
def later (seen : Option Ballot) (b : Ballot) : Ballot :=
  match seen with
  | none => b
  | some a => if a < b then b else a

/-- The round that follows, while there is one in 64 bits. -/
def nextRound? (round : UInt64) : Option UInt64 :=
  if round.toNat + 1 < UInt64.size then some (round + 1) else none

/-- A ballot is written as its round, a dot and its proposer. -/
def text (b : Ballot) : String :=
  toString b.round.toNat ++ "." ++ b.proposer.name

/-- Reads a ballot back: the round stands before the first dot, and all that follows it names the
proposer. -/
def ofText? (text : String) : Option Ballot :=
  match text.toList.dropWhile (· ≠ '.') with
  | [] => none
  | _ :: name =>
    match Text.readCountChars (text.toList.takeWhile (· ≠ '.')) with
    | .ok round => some ⟨UInt64.ofNat round, ⟨String.ofList name⟩⟩
    | .error _ => none

theorem lt_iff {a b : Ballot} :
    a < b ↔ a.round < b.round ∨ a.round = b.round ∧ a.proposer < b.proposer := Iff.rfl

theorem le_iff {a b : Ballot} : a ≤ b ↔ ¬ b < a := Iff.rfl

theorem nextRound?_eq_some_iff {r s : UInt64} :
    nextRound? r = some s ↔ s.toNat = r.toNat + 1 := by
  unfold nextRound?
  split
  · rename_i h
    have hsize : UInt64.size = 2 ^ 64 := rfl
    rw [Option.some.injEq, ← UInt64.toNat_inj, UInt64.toNat_add]
    simp only [UInt64.reduceToNat]
    omega
  · have := s.toNat_lt_size
    simp only [reduceCtorEq, false_iff]
    omega

end Ballot

end Synod
