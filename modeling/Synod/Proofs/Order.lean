import Mathlib.Data.Prod.Lex
import Mathlib.Data.String.Basic
import Synod.Ballot

/-! Names of nodes and ballots are linearly ordered. -/

namespace Synod

namespace NodeId

theorem lt_iff_name {a b : NodeId} : a < b ↔ a.name < b.name := Iff.rfl

theorem ext_name {a b : NodeId} (h : a.name = b.name) : a = b := by
  cases a
  exact congrArg mk h

instance (priority := low) : LinearOrder NodeId where
  le a b := a.name ≤ b.name
  le_refl a := le_refl a.name
  le_trans _ _ _ := le_trans (α := String)
  le_antisymm _ _ hab hba := ext_name (le_antisymm hab hba)
  le_total a b := le_total a.name b.name
  lt_iff_le_not_ge a b := lt_iff_le_not_ge (a := a.name) (b := b.name)
  toDecidableLE a b := inferInstanceAs (Decidable (a.name ≤ b.name))
  toDecidableEq := inferInstance
  toDecidableLT := inferInstance
  compare := compare
  compare_eq_compareOfLessAndEq _ _ := rfl

end NodeId

namespace Ballot

/-- Round and proposer, of which the round weighs more. -/
def key (b : Ballot) : ℕ ×ₗ String := toLex (b.round.toNat, b.proposer.name)

theorem lt_iff_key {a b : Ballot} : a < b ↔ a.key < b.key := by
  simp only [lt_iff, key, Prod.Lex.toLex_lt_toLex, UInt64.lt_iff_toNat_lt, ← UInt64.toNat_inj,
    NodeId.lt_iff_name]

theorem le_iff_key {a b : Ballot} : a ≤ b ↔ a.key ≤ b.key := by
  rw [le_iff, lt_iff_key, not_lt]

theorem key_injective : Function.Injective key := by
  intro a b h
  obtain ⟨hround, hname⟩ := Prod.mk.inj (toLex.injective h)
  obtain ⟨r, p⟩ := a
  obtain ⟨s, q⟩ := b
  have hr : r = s := UInt64.toNat_inj.mp hround
  have hp : p = q := NodeId.ext_name hname
  rw [hr, hp]

instance (priority := low) : LinearOrder Ballot where
  le_refl _ := le_iff_key.mpr le_rfl
  le_trans _ _ _ hab hbc := le_iff_key.mpr ((le_iff_key.mp hab).trans (le_iff_key.mp hbc))
  le_antisymm _ _ hab hba :=
    key_injective (le_antisymm (le_iff_key.mp hab) (le_iff_key.mp hba))
  le_total a b := by
    simp only [le_iff_key]
    exact le_total a.key b.key
  lt_iff_le_not_ge _ _ := by
    simp only [le_iff_key, lt_iff_key]
    exact lt_iff_le_not_ge
  toDecidableLE := inferInstance
  toDecidableEq := inferInstance
  toDecidableLT := inferInstance
  compare := compare
  compare_eq_compareOfLessAndEq _ _ := rfl

theorem lt_iff_round {a b : Ballot} (h : a.proposer = b.proposer) : a < b ↔ a.round < b.round := by
  rw [lt_iff, h]
  simp

theorem le_iff_round {a b : Ballot} (h : a.proposer = b.proposer) :
    a ≤ b ↔ a.round.toNat ≤ b.round.toNat := by
  rw [← not_lt, lt_iff_round h.symm, UInt64.lt_iff_toNat_lt, not_lt]

end Ballot

end Synod
