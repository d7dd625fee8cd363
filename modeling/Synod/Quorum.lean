import Synod.Ballot

/-! Majorities. Any two sets of nodes as large as a quorum of all nodes share a node. -/

namespace Synod

/-- The size of the smallest majority of `n` nodes. -/
def quorumSize (n : Nat) : Nat := n / 2 + 1

def distinct (ids : List NodeId) : List NodeId :=
  ids.foldr List.insert []

theorem lt_two_mul_quorumSize (n : Nat) : n < 2 * quorumSize n := by
  unfold quorumSize
  omega

@[simp] theorem mem_distinct {a : NodeId} {ids : List NodeId} : a ∈ distinct ids ↔ a ∈ ids := by
  induction ids with
  | nil => simp [distinct]
  | cons b ids ih =>
    rw [List.mem_cons, ← ih]
    exact List.mem_insert_iff

end Synod
