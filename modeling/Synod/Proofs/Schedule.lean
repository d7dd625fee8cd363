import Mathlib.Data.List.Perm.Basic
import Synod.Shuffler

/-! Scripted orders. A script says for each use which element comes first, which of the others comes
next, and so on. -/

namespace Synod

/-- Which of the elements that are left comes next, time after time. -/
def arrange {α : Type} : List Nat → List α → List α
  | [], xs => xs
  | k :: ks, xs =>
    match xs[k]? with
    | some x => x :: arrange ks (xs.eraseIdx k)
    | none => arrange ks xs

theorem arrange_perm {α : Type} (picks : List Nat) (xs : List α) : (arrange picks xs).Perm xs := by
  induction picks generalizing xs with
  | nil => exact .refl xs
  | cons k ks ih =>
    unfold arrange
    split
    · rename_i x hx
      obtain ⟨hk, rfl⟩ := List.getElem?_eq_some_iff.mp hx
      exact ((ih _).cons _).trans (List.getElem_cons_eraseIdx_perm hk)
    · exact ih xs

/-- The picks for one use after another; once they are used up, lists are left as they are. -/
structure Script where
  picks : List (List Nat)

instance : Shuffler Script where
  shuffle script xs := (arrange (script.picks.headD []) xs, ⟨script.picks.tail⟩)
  shuffle_perm _ xs := arrange_perm _ xs

end Synod
