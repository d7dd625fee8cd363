import Synod.Wire.Json
import Synod.Message

/-! The written form of ballots, votes and messages. -/

namespace Synod

variable {V : Type} [Wire V]

instance : Wire Ballot where
  encode b := .object [("round", encode b.round), ("proposer", encode b.proposer)]
  decode? j :=
    match j.fields? ["round", "proposer"] 0 with
    | some [round, proposer] => do
      let round ← decode? round
      let proposer ← decode? proposer
      return ⟨round, proposer⟩
    | _ => none

/-- A vote on its own is a pair. -/
instance : Wire (Vote V) where
  encode vote := .list [encode vote.ballot, encode vote.value]
  decode?
    | .list [ballot, value] => do
      let ballot ← decode? ballot
      let value ← decode? value
      return ⟨ballot, value⟩
    | _ => none

namespace Vote

/-- The vote as the fields of a message. -/
def encodeFields (vote : Vote V) : Json :=
  .object [("proposal", encode vote.ballot), ("value", encode vote.value)]

def decodeFields? (j : Json) : Option (Vote V) :=
  match j.members? ["proposal", "value"] with
  | some [ballot, value] => do
    let ballot ← decode? ballot
    let value ← decode? value
    return ⟨ballot, value⟩
  | _ => none

end Vote

namespace Body

/-- The fields of a message under the name of its kind, always as an object. -/
def decodeKind? (kind : String) (fields : Json) : Option (Body V) :=
  match kind with
  | "Prepare" =>
    match fields.members? ["proposal"] with
    | some [ballot] => (decode? ballot).map prepare
    | _ => none
  | "Promise" =>
    match fields.members? ["proposal", "accepted"] with
    | some [ballot, vote] => do
      let ballot ← decode? ballot
      let vote ← decode? vote
      return promise ballot vote
    | _ => none
  | "Accept" => (Vote.decodeFields? fields).map accept
  | "Accepted" => (Vote.decodeFields? fields).map accepted
  | "Learn" => (Vote.decodeFields? fields).map learn
  | _ => none

instance : Wire (Body V) where
  encode
    | prepare ballot => .object [("Prepare", .object [("proposal", encode ballot)])]
    | promise ballot vote =>
      .object [("Promise", .object [("proposal", encode ballot), ("accepted", encode vote)])]
    | accept vote => .object [("Accept", vote.encodeFields)]
    | accepted vote => .object [("Accepted", vote.encodeFields)]
    | learn vote => .object [("Learn", vote.encodeFields)]
  decode?
    | .object [(kind, fields)] => decodeKind? kind fields
    | _ => none

end Body

instance : Wire (Message V) where
  encode m :=
    .object [("sender", encode m.sender), ("receiver", encode m.receiver), ("body", encode m.body)]
  decode? j :=
    match j.fields? ["sender", "receiver", "body"] 0 with
    | some [sender, receiver, body] => do
      let sender ← decode? sender
      let receiver ← decode? receiver
      let body ← decode? body
      return ⟨sender, receiver, body⟩
    | _ => none

end Synod
