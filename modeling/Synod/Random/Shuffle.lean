import Synod.Random.Stream
import Synod.Shuffler

/-! Shuffling by a stream of random words: each element in turn changes places with one that is not
after it. Places are drawn for as many elements at a time as one word allows. -/

namespace Synod.Random

namespace Stream

/-- A number below `bound`. A second word is drawn where the first leaves the last bit open. -/
def below (bound : UInt32) (s : Stream) : UInt32 × Stream :=
  let (word, s) := s.next
  let product := word.toUInt64 * bound.toUInt64
  let high := (product >>> 32).toUInt32
  let low := product.toUInt32
  if 0 - bound < low then
    let (word, s) := s.next
    let carry := (word.toUInt64 * bound.toUInt64) >>> 32
    (if UInt32.size ≤ (low.toUInt64 + carry).toNat then high + 1 else high, s)
  else (high, s)

/-- The product of consecutive numbers from `bound` on that still fits into a word, and the number
after the last of them. -/
def widen : Nat → UInt64 → UInt64 → UInt64 × UInt64
  | 0, bound, next => (bound, next)
  | fuel + 1, bound, next =>
    if (bound * next).toNat < UInt32.size then widen fuel (bound * next) (next + 1)
    else (bound, next)

/-- A drawn number from which places are still to be taken. -/
structure Chunk where
  value : UInt32
  remaining : UInt64

/-- The place for the element at `i`, at most `i`. -/
def place (i : Nat) (chunk : Chunk) (s : Stream) : Nat × Chunk × Stream :=
  let m := UInt64.ofNat (i + 1)
  let (chunk, s) :=
    if chunk.remaining = 0 then
      let (bound, next) := widen 32 m (m + 1)
      let (value, s) := s.below bound.toUInt32
      ((⟨value, next - m⟩ : Chunk), s)
    else (chunk, s)
  let remaining := chunk.remaining - 1
  if remaining = 0 then (chunk.value.toNat, ⟨0, remaining⟩, s)
  else ((chunk.value % m.toUInt32).toNat, ⟨chunk.value / m.toUInt32, remaining⟩, s)

/-- The places for the next `n` elements, of which the first is at `i`. -/
def places : (n i : Nat) → Chunk → Stream → List Nat × Stream
  | 0, _, _, s => ([], s)
  | n + 1, i, chunk, s =>
    let (j, chunk, s) := place i chunk s
    let (js, s) := places n (i + 1) chunk s
    (j :: js, s)

end Stream

/-- Lets each element from `i` on change places in turn. -/
def exchange {α : Type} : Nat → List Nat → Array α → Array α
  | _, [], xs => xs
  | i, j :: js, xs => exchange (i + 1) js (xs.swapIfInBounds i j)

theorem exchange_perm {α : Type} (i : Nat) (js : List Nat) (xs : Array α) :
    (exchange i js xs).toList.Perm xs.toList := by
  induction js generalizing i xs with
  | nil => exact .refl _
  | cons j js ih =>
    refine (ih (i + 1) (xs.swapIfInBounds i j)).trans ?_
    unfold Array.swapIfInBounds
    split
    · split
      · exact (Array.swap_perm _ _).toList
      · exact .refl _
    · exact .refl _

/-- Lists of at most one element are left alone, and nothing is drawn for them. -/
def shuffle {α : Type} (s : Stream) (xs : List α) : List α × Stream :=
  if xs.length ≤ 1 then (xs, s)
  else
    let (js, s) := s.places xs.length 0 ⟨0, 1⟩
    ((exchange 0 js xs.toArray).toList, s)

theorem shuffle_perm {α : Type} (s : Stream) (xs : List α) : (shuffle s xs).1.Perm xs := by
  unfold shuffle
  split
  · exact .refl _
  · exact exchange_perm 0 _ xs.toArray

instance : Shuffler Stream where
  shuffle := shuffle
  shuffle_perm := shuffle_perm

end Synod.Random
