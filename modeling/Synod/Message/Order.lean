import Synod.Message
import Synod.Value

/-! The order in which messages are listed: by receiver, then sender, then kind, ballot and vote. -/

namespace Synod

variable {V : Type} [Value V]

namespace Vote

/-- Votes are ordered by ballot, then by value. -/
def order (a b : Vote V) : Ordering :=
  (compare a.ballot b.ballot).then (Value.order a.value b.value)

/-- No vote comes before every vote. -/
def order? : Option (Vote V) → Option (Vote V) → Ordering
  | none, none => .eq
  | none, some _ => .lt
  | some _, none => .gt
  | some a, some b => order a b

end Vote

namespace Body

/-- The place of a kind of message in a round. -/
def rank : Body V → Nat
  | prepare _ => 0
  | promise _ _ => 1
  | accept _ => 2
  | accepted _ => 3
  | learn _ => 4

def order : Body V → Body V → Ordering
  | prepare a, prepare b => compare a b
  | promise a u, promise b v => (compare a b).then (Vote.order? u v)
  | accept u, accept v => u.order v
  | accepted u, accepted v => u.order v
  | learn u, learn v => u.order v
  | a, b => compare a.rank b.rank

end Body

namespace Message

def order (a b : Message V) : Ordering :=
  ((compare a.receiver b.receiver).then (compare a.sender b.sender)).then (a.body.order b.body)

/-- The messages in listing order; those that are equal keep their places. -/
def listed (messages : List (Message V)) : List (Message V) :=
  messages.mergeSort fun a b => (a.order b).isLE

end Message

end Synod
