/-! A reproducible stream of random words: the ChaCha function with twelve rounds on a key that is
drawn from a seed and a counter of blocks. -/

namespace Synod.Random

/-- The words of a block, or the state from which one is computed. -/
abbrev Block := Vector UInt32 16

def rotateLeft (x : UInt32) (n : UInt32) : UInt32 :=
  (x <<< n) ||| (x >>> (32 - n))

/-- Mixes four words of a block. -/
def quarterRound (s : Block) (a b c d : Fin 16) : Block :=
  let s := s.set a (s[a] + s[b])
  let s := s.set d (rotateLeft (s[d] ^^^ s[a]) 16)
  let s := s.set c (s[c] + s[d])
  let s := s.set b (rotateLeft (s[b] ^^^ s[c]) 12)
  let s := s.set a (s[a] + s[b])
  let s := s.set d (rotateLeft (s[d] ^^^ s[a]) 8)
  let s := s.set c (s[c] + s[d])
  s.set b (rotateLeft (s[b] ^^^ s[c]) 7)

/-- A round on the columns and one on the diagonals. -/
def doubleRound (s : Block) : Block :=
  let s := quarterRound s 0 4 8 12
  let s := quarterRound s 1 5 9 13
  let s := quarterRound s 2 6 10 14
  let s := quarterRound s 3 7 11 15
  let s := quarterRound s 0 5 10 15
  let s := quarterRound s 1 6 11 12
  let s := quarterRound s 2 7 8 13
  quarterRound s 3 4 9 14

def doubleRounds : Nat → Block → Block
  | 0, s => s
  | n + 1, s => doubleRounds n (doubleRound s)

/-- The state of a block: four constants, the key, the number of the block and two zeros. -/
def initialBlock (key : Vector UInt32 8) (counter : UInt64) : Block :=
  #v[0x61707865, 0x3320646e, 0x79622d32, 0x6b206574,
    key[0], key[1], key[2], key[3], key[4], key[5], key[6], key[7],
    counter.toUInt32, (counter >>> 32).toUInt32, 0, 0]

def block (key : Vector UInt32 8) (counter : UInt64) : Block :=
  let start := initialBlock key counter
  (doubleRounds 6 start).zipWith (· + ·) start

/-- A position in the stream of a key. -/
structure Stream where
  key : Vector UInt32 8
  /-- The number of the next block. -/
  counter : UInt64
  /-- What is left of the block before it. -/
  ready : List UInt32

namespace Stream

/-- One step of the congruential generator that keys are drawn from. -/
def nextSeed (seed : UInt64) : UInt64 :=
  seed * 6364136223846793005 + 11634580027462260723

/-- A word of the key: bits of the seed, rotated by its topmost five. -/
def keyWord (seed : UInt64) : UInt32 :=
  let x := (((seed >>> 18) ^^^ seed) >>> 27).toUInt32
  let n := (seed >>> 59).toUInt32
  rotateLeft x (32 - n)

/-- The first words of the key that a seed gives. -/
def keyWords : Nat → UInt64 → List UInt32
  | 0, _ => []
  | n + 1, seed => keyWord (nextSeed seed) :: keyWords n (nextSeed seed)

theorem length_keyWords (n : Nat) (seed : UInt64) : (keyWords n seed).length = n := by
  induction n generalizing seed with
  | zero => rfl
  | succ n ih => simp [keyWords, ih]

/-- The start of the stream of a seed. -/
def ofSeed (seed : UInt64) : Stream :=
  ⟨⟨(keyWords 8 seed).toArray, by simp [length_keyWords]⟩, 0, []⟩

def next (s : Stream) : UInt32 × Stream :=
  match s.ready with
  | word :: ready => (word, { s with ready })
  | [] =>
    let words := block s.key s.counter
    (words[0], { s with counter := s.counter + 1, ready := words.toList.drop 1 })

end Stream

end Synod.Random
