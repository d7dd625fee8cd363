import Synod.Effect
import Synod.Quorum
import Synod.Value

/-! Proposers run one round at a time. A round asks every acceptor for a promise; with a quorum of
promises it asks for votes, for the value of the latest vote that was reported or else for the value
the round was started with. A promise of a later ballot ends the round. -/

namespace Synod

variable {V : Type}

/-- The latest promise of an acceptor for the round in flight, with the vote it reported. -/
structure Report (V : Type) where
  sender : NodeId
  accepted : Option (Vote V)
deriving DecidableEq

inductive Phase (V : Type) where
  | idle
  /-- A round for `value` is collecting promises. -/
  | preparing (value : V) (reports : List (Report V))
deriving DecidableEq

structure Proposer (V : Type) where
  /-- The acceptors as they were listed; a repeated name is asked again and counts again. -/
  acceptors : List NodeId
  /-- What the next round will be for. -/
  value : V
  /-- The number of the last round. -/
  round : UInt64 := 0
  /-- The ballot of the last round. -/
  current : Option Ballot := none
  phase : Phase V := .idle
  /-- The vote that the last quorum of promises made the round adopt. -/
  adopted : Option (Vote V) := none
  /-- The latest ballot that ended a round of this proposer. -/
  highestSeen : Option Ballot := none
  /-- The last vote that was asked for. -/
  lastAccept : Option (Vote V) := none
  /-- The nodes that confirmed it. -/
  acceptedBy : List NodeId := []

namespace Proposer

def quorum (p : Proposer V) : Nat := quorumSize p.acceptors.length

def isProposing (p : Proposer V) : Bool :=
  match p.phase with
  | .idle => false
  | .preparing _ _ => true

def reports (p : Proposer V) : List (Report V) :=
  match p.phase with
  | .idle => []
  | .preparing _ reports => reports

/-- A round in flight keeps the value it was started with. -/
def setValue (p : Proposer V) (value : V) : Proposer V × List (Effect V) :=
  ({ p with value }, [.note (.valueUpdated value)])

/-- The number of the next round: after the last one, and after every ballot that ended a round. A
number that was counted up stays so even where the other step fails. -/
def nextRound (p : Proposer V) : UInt64 × Option Fault :=
  match Ballot.nextRound? p.round with
  | none => (p.round, some .roundOverflow)
  | some round =>
    match p.highestSeen with
    | none => (round, none)
    | some seen =>
      match Ballot.nextRound? seen.round with
      | none => (round, some .roundOverflow)
      | some beyond => (if round < beyond then beyond else round, none)

/-- What became of the wish to start a round. -/
inductive Start (V : Type) where
  /-- A round is in flight already. -/
  | refused
  | started (ballot : Ballot)
  | failed (fault : Fault)
deriving DecidableEq

/-- Starts a round under a new ballot, unless one is in flight. -/
def start (p : Proposer V) (self : NodeId) : Proposer V × List (Effect V) × Start V :=
  if p.isProposing then (p, [.note (.alreadyProposing p.current)], .refused)
  else match p.nextRound with
    | (round, some fault) => ({ p with round }, [], .failed fault)
    | (round, none) =>
      let ballot : Ballot := ⟨round, self⟩
      ({ p with
          round
          current := some ballot
          phase := .preparing p.value []
          adopted := none },
        .note (.startingProposal ballot p.value) :: Effect.broadcast p.acceptors (.prepare ballot),
        .started ballot)

/-- Replaces what the sender reported before. -/
def addReport (reports : List (Report V)) (report : Report V) : List (Report V) :=
  report :: reports.filter (·.sender ≠ report.sender)

/-- The report of the latest vote; among votes of one ballot, that of the greatest sender. -/
def latest? : List (Report V) → Option (NodeId × Vote V)
  | [] => none
  | report :: reports =>
    match report.accepted, latest? reports with
    | none, best => best
    | some vote, none => some (report.sender, vote)
    | some vote, some (sender, best) =>
      if vote.ballot < best.ballot ∨ vote.ballot = best.ballot ∧ report.sender < sender then
        some (sender, best)
      else some (report.sender, vote)

/-- With a quorum of promises, asks for votes and ends the round. -/
def conclude (p : Proposer V) (ballot : Ballot) (value : V) (reports : List (Report V)) :
    Proposer V × List (Effect V) :=
  let adopted := (latest? reports).map (·.2)
  let vote : Vote V := ⟨ballot, (adopted.map (·.value)).getD value⟩
  ({ p with
      phase := .idle
      adopted
      lastAccept := some vote
      acceptedBy := [] },
    (adopted.toList.map fun accepted => .note (.adoptingValue ballot accepted)) ++
      .note (.promiseQuorum vote) :: Effect.broadcast p.acceptors (.accept vote))

def onPromise (p : Proposer V) (sender : NodeId) (ballot : Ballot) (accepted : Option (Vote V)) :
    Proposer V × List (Effect V) :=
  match p.current, p.phase with
  | none, _ => (p, [.note (.promiseBeforeAnyRound sender ballot)])
  | some _, .idle => (p, [.note (.promiseWhileIdle sender ballot)])
  | some current, .preparing value reports =>
    if current < ballot then
      ({ p with phase := .idle, highestSeen := some (Ballot.later p.highestSeen ballot) },
        [.note (.roundAbandoned sender current ballot)])
    else if ballot < current then (p, [.note (.stalePromise sender ballot)])
    else
      let reports := addReport reports ⟨sender, accepted⟩
      let recorded := .note (.promiseRecorded ballot reports.length)
      if reports.length < p.quorum then
        ({ p with phase := .preparing value reports }, [recorded])
      else
        let (p, effects) := p.conclude ballot value reports
        (p, recorded :: effects)

/-- Notes who voted as asked. Values are compared only under the ballot that was asked for. -/
def onAccepted [Value V] (p : Proposer V) (sender : NodeId) (vote : Vote V) :
    Except Fault (Proposer V × List (Effect V)) :=
  match p.lastAccept.filter (·.ballot = vote.ballot) with
  | none => .ok (p, [.note (.acceptedForAnotherRound sender vote.ballot)])
  | some asked =>
    match Value.same? asked.value vote.value with
    | none => .error .incomparable
    | some false => .ok (p, [.note (.acceptedForAnotherRound sender vote.ballot)])
    | some true =>
      let acceptedBy := p.acceptedBy.insert sender
      .ok ({ p with acceptedBy }, [.note (.acceptConfirmed vote.ballot acceptedBy.length)])

def handle [Value V] (p : Proposer V) (sender : NodeId) :
    Body V → Except Fault (Proposer V × List (Effect V))
  | .promise ballot accepted => .ok (p.onPromise sender ballot accepted)
  | .accepted vote => p.onAccepted sender vote
  | other => .ok (p, [.note (.unexpectedForProposer sender other)])

end Proposer

end Synod
