/-! Sources of orders. Whatever is said of every shuffler holds for every order of delivery. -/

namespace Synod

/-- A source of orders: each use rearranges a list and moves the source on. -/
class Shuffler (σ : Type) where
  shuffle {α : Type} : σ → List α → List α × σ
  shuffle_perm {α : Type} (source : σ) (xs : List α) : (shuffle source xs).1.Perm xs

namespace Shuffler

variable {σ α : Type} [Shuffler σ]

@[simp] theorem mem_shuffle {source : σ} {xs : List α} {a : α} :
    a ∈ (shuffle source xs).1 ↔ a ∈ xs :=
  (shuffle_perm source xs).mem_iff

end Shuffler

end Synod
