import Synod.Proofs.Latest
import Synod.Proofs.Quiescence

/-! What a lone round is made of: the states of its nodes, its messages, and how each role answers
them. An acceptor that knows of no other ballot answers alike whatever overtakes a message, so each
message stands for the same amount of work. -/

namespace Synod

variable {V : Type}

/-! ## States of a lone round -/

/-- An acceptor knows of no ballot but that of the vote, and has not cast it. -/
def Pledge.Unvoted (vote : Vote V) (p : Pledge V) : Prop :=
  p.accepted = none ∧ ∀ b, p.promised = some b → b = vote.ballot

theorem Pledge.Unvoted.promised_eq {vote : Vote V} {p : Pledge V} (h : p.Unvoted vote) :
    p.promised = none ∧ p.accepted = none ∨ p.promised = some vote.ballot := by
  cases hpromised : p.promised with
  | none => exact .inl ⟨rfl, h.1⟩
  | some b => exact .inr (congrArg some (h.2 b hpromised))

/-- The leader, with the senders of the promises it has gathered. -/
def Proposer.gathering (s : Setup V) (vote : Vote V) (senders : List NodeId) : Proposer V where
  acceptors := s.acceptors
  value := vote.value
  round := vote.ballot.round
  current := some vote.ballot
  phase := .preparing vote.value (senders.map (⟨·, none⟩))

/-- The leader, once it has asked for votes. -/
def Proposer.voting (s : Setup V) (vote : Vote V) (acceptedBy : List NodeId) : Proposer V where
  acceptors := s.acceptors
  value := vote.value
  round := vote.ballot.round
  current := some vote.ballot
  lastAccept := some vote
  acceptedBy

/-- A learner that has counted some voters. -/
def Learner.counting (s : Setup V) (vote : Vote V) (voters : List NodeId) : Learner V where
  acceptors := s.acceptors
  tally := ⟨quorumSize s.acceptors.length, if voters = [] then [] else [⟨vote, voters⟩]⟩
  learned := none

def Learner.decided (s : Setup V) (vote : Vote V) : Learner V where
  acceptors := s.acceptors
  tally := ⟨quorumSize s.acceptors.length, []⟩
  learned := some vote

theorem Learner.ofAcceptors_eq_counting {s : Setup V} (hs : s.acceptors.Nodup) (vote : Vote V) :
    (ofAcceptors s.acceptors : Learner V) = counting s vote [] := by
  simp [ofAcceptors, counting, Tally.ofSize, distinct_eq_self hs]

/-! ## Answers -/

/-- A role handles a message without a fault, and these are the messages that it sends then. -/
def Role.Answers [Value V] (role : Role V) (m : Message V) (role' : Role V)
    (sent : List (Message V)) : Prop :=
  ∃ effects, role.handle m.sender m.body = .ok (role', effects) ∧
    Effect.messages m.receiver effects = sent

section

variable [Value V] {s : Setup V} {vote : Vote V} {a leader : NodeId}

theorem Acceptor.answers (state : Acceptor V) (m : Message V) :
    Role.Answers (.acceptor state) m (.acceptor (state.handle m.sender m.body).1)
      (Effect.messages m.receiver (state.handle m.sender m.body).2) := ⟨_, rfl, rfl⟩

/-- An acceptor that knows of no ballot but this one promises it, or tells that it has; in both
cases the answer is the same. -/
theorem Acceptor.answers_prepare {p : Pledge V}
    (h : p.promised = none ∧ p.accepted = none ∨ p.promised = some vote.ballot) :
    Role.Answers (.acceptor ⟨s.learners, p⟩) ⟨leader, a, .prepare vote.ballot⟩
      (.acceptor ⟨s.learners, { p with promised := some vote.ballot }⟩)
      [⟨a, leader, .promise vote.ballot none⟩] := by
  obtain ⟨promised, accepted⟩ := p
  have hanswer := answers ⟨s.learners, ⟨promised, accepted⟩⟩
    (⟨leader, a, .prepare vote.ballot⟩ : Message V)
  rcases h with ⟨rfl, rfl⟩ | rfl
  · have hfirst := Pledge.prepare_of_lt (p := (⟨none, none⟩ : Pledge V)) (b := vote.ballot) nofun
    simpa [handle, onPrepare, hfirst] using hanswer
  · have hagain := Pledge.prepare_of_le (p := ⟨some vote.ballot, accepted⟩) rfl le_rfl
    simpa [handle, onPrepare, hagain] using hanswer

/-- An acceptor that knows of no ballot but this one votes, whether it has promised or not. -/
theorem Acceptor.answers_accept {p : Pledge V} (h : ∀ m, p.promised = some m → m = vote.ballot) :
    Role.Answers (.acceptor ⟨s.learners, p⟩) ⟨leader, a, .accept vote⟩
      (.acceptor ⟨s.learners, ⟨some vote.ballot, some vote⟩⟩)
      (⟨a, leader, .accepted vote⟩ :: s.learners.map fun l => ⟨a, l, .learn vote⟩) := by
  have hanswer := answers ⟨s.learners, p⟩ (⟨leader, a, .accept vote⟩ : Message V)
  have hvote := Pledge.accept_of_le fun m hm => (h m hm).le
  simpa [handle, onAccept, hvote] using hanswer

theorem Proposer.answers (p : Proposer V) (b : Ballot) (accepted : Option (Vote V)) :
    Role.Answers (.proposer p) ⟨a, leader, .promise b accepted⟩
      (.proposer (p.onPromise a b accepted).1)
      (Effect.messages leader (p.onPromise a b accepted).2) := ⟨_, rfl, rfl⟩

omit [Value V] in
theorem Proposer.latest?_eq_none (senders : List NodeId) :
    latest? (senders.map fun a => (⟨a, none⟩ : Report V)) = none :=
  latest?_eq_none_iff.mpr (by simp)

variable (s vote leader) in
/-- A promise is counted once for its sender. With a quorum the leader asks for votes. -/
theorem Proposer.answers_promise {senders gathered : List NodeId}
    (h : gathered = a :: senders.filter (· ≠ a)) :
    (gathered.length < quorumSize s.acceptors.length →
      Role.Answers (.proposer (gathering s vote senders)) ⟨a, leader, .promise vote.ballot none⟩
        (.proposer (gathering s vote gathered)) []) ∧
    (quorumSize s.acceptors.length ≤ gathered.length →
      Role.Answers (.proposer (gathering s vote senders)) ⟨a, leader, .promise vote.ballot none⟩
        (.proposer (voting s vote [])) (s.acceptors.map fun b => ⟨leader, b, .accept vote⟩)) := by
  have hanswer : Role.Answers _ (⟨a, leader, .promise vote.ballot none⟩ : Message V) _ _ :=
    answers (gathering s vote senders) vote.ballot none
  have hreports : addReport (senders.map fun b => (⟨b, none⟩ : Report V)) ⟨a, none⟩ =
      gathered.map fun b => ⟨b, none⟩ := by
    simp [h, addReport, List.filter_map, Function.comp_def]
  constructor
  · intro hfew
    simpa [onPromise, gathering, hreports, quorum, hfew] using hanswer
  · intro hmany
    have helection : election vote.ballot vote.value
        (gathered.map fun b => (⟨b, none⟩ : Report V)) = vote := by
      simp [election, latest?_eq_none]
    simpa [onPromise, gathering, voting, hreports, quorum, not_lt.mpr hmany, conclude_fst,
      messages_conclude, helection, latest?_eq_none] using hanswer

theorem Proposer.answers_late (acceptedBy : List NodeId) :
    Role.Answers (.proposer (voting s vote acceptedBy)) ⟨a, leader, .promise vote.ballot none⟩
      (.proposer (voting s vote acceptedBy)) [] :=
  answers (voting s vote acceptedBy) vote.ballot none

/-- Where the value can be compared with itself, each vote is confirmed. -/
theorem Proposer.answers_accepted (hsame : Value.same? vote.value vote.value = some true)
    (acceptedBy : List NodeId) :
    Role.Answers (.proposer (voting s vote acceptedBy)) ⟨a, leader, .accepted vote⟩
      (.proposer (voting s vote (acceptedBy.insert a))) [] := by
  have hasked : (some vote).filter (fun u : Vote V => decide (u.ballot = vote.ballot)) =
      some vote := by
    simp [Option.filter]
  refine ⟨[.note (.acceptConfirmed vote.ballot (acceptedBy.insert a).length)], ?_, rfl⟩
  simp [Role.handle, handle, onAccepted, voting, hasked, hsame, Except.map]

theorem Learner.answers_decided {l : NodeId} :
    Role.Answers (.learner (decided s vote)) ⟨a, l, .learn vote⟩
      (.learner (decided s vote)) [] := ⟨_, rfl, rfl⟩

/-- Where the value can be compared with itself, each vote is counted for the one value. -/
theorem Learner.record_counting (hsame : Value.same? vote.value vote.value = some true)
    (voters : List NodeId) : (counting s vote voters).tally.record vote a =
      .ok ((counting s vote (voters.insert a)).tally, (voters.insert a).length) := by
  have hne : voters.insert a ≠ [] := List.ne_nil_of_mem List.mem_insert_self
  by_cases hnil : voters = []
  · simp [counting, Tally.record, Tally.add, hnil]
  · simp [counting, Tally.record, Tally.add, Tally.matches?, hsame, hne, hnil]

/-- A learner counts votes until a quorum decides. -/
theorem Learner.answers_learn (hsame : Value.same? vote.value vote.value = some true)
    (ha : a ∈ s.acceptors) {l : NodeId} {voters counted : List NodeId}
    (h : counted = voters.insert a) :
    (counted.length < quorumSize s.acceptors.length →
      Role.Answers (.learner (counting s vote voters)) ⟨a, l, .learn vote⟩
        (.learner (counting s vote counted)) []) ∧
    (quorumSize s.acceptors.length ≤ counted.length →
      Role.Answers (.learner (counting s vote voters)) ⟨a, l, .learn vote⟩
        (.learner (decided s vote)) []) := by
  have hrecord := record_counting (s := s) (a := a) hsame voters
  rw [← h] at hrecord
  have hlearned : (counting s vote voters).learned.isSome = false := rfl
  have hmem : a ∈ (counting s vote voters).acceptors := ha
  constructor
  · intro hfew
    have hopen : (counting s vote counted).tally.reached counted.length = false := by
      exact decide_eq_false (not_le.mpr hfew)
    refine ⟨[.note (.trackingVote vote counted.length),
      .note (.voteRecorded a vote counted.length)], ?_, rfl⟩
    simp [Role.handle, handle, learn, hlearned, hmem, hrecord, hopen, Except.map]
    rfl
  · intro hmany
    have hreached : (counting s vote counted).tally.reached counted.length = true := by
      exact decide_eq_true hmany
    refine ⟨[.note (.trackingVote vote counted.length),
      .note (.voteRecorded a vote counted.length), .note (.consensusReached vote)], ?_, rfl⟩
    simp [Role.handle, handle, learn, hlearned, hmem, hrecord, hreached, Except.map]
    rfl

end

/-! ## Messages of a lone round -/

namespace Vote

abbrev prepareTo (vote : Vote V) (a : NodeId) : Message V :=
  ⟨vote.ballot.proposer, a, .prepare vote.ballot⟩

abbrev promiseOf (vote : Vote V) (a : NodeId) : Message V :=
  ⟨a, vote.ballot.proposer, .promise vote.ballot none⟩

abbrev acceptTo (vote : Vote V) (a : NodeId) : Message V :=
  ⟨vote.ballot.proposer, a, .accept vote⟩

abbrev acceptedOf (vote : Vote V) (a : NodeId) : Message V :=
  ⟨a, vote.ballot.proposer, .accepted vote⟩

abbrev learnOf (vote : Vote V) (a l : NodeId) : Message V := ⟨a, l, .learn vote⟩

end Vote

/-- The messages that a lone round for a vote is made of. -/
inductive Message.OfRound (s : Setup V) (vote : Vote V) : Message V → Prop where
  | prepare {a : NodeId} (ha : a ∈ s.acceptors) : OfRound s vote (vote.prepareTo a)
  | promise {a : NodeId} (ha : a ∈ s.acceptors) : OfRound s vote (vote.promiseOf a)
  | accept {a : NodeId} (ha : a ∈ s.acceptors) : OfRound s vote (vote.acceptTo a)
  | accepted {a : NodeId} (ha : a ∈ s.acceptors) : OfRound s vote (vote.acceptedOf a)
  | learn {a l : NodeId} (ha : a ∈ s.acceptors) (hl : l ∈ s.learners) :
      OfRound s vote (vote.learnOf a l)

/-- How many messages are handled for a message, with all its answers: a promise has none of its
own, as the leader asks for votes only once. -/
def Body.work (s : Setup V) : Body V → Nat
  | .prepare _ => 2
  | .promise _ _ => 1
  | .accept _ => 2 + s.learners.length
  | .accepted _ | .learn _ => 1

/-- The work of all the accepts that a leader has not sent yet. -/
def Proposer.due (s : Setup V) (p : Proposer V) : Nat :=
  if p.isProposing then s.acceptors.length * (2 + s.learners.length) else 0

@[simp] theorem Proposer.due_gathering (s : Setup V) (vote : Vote V) (senders : List NodeId) :
    (gathering s vote senders).due s = s.acceptors.length * (2 + s.learners.length) := rfl

@[simp] theorem Proposer.due_voting (s : Setup V) (vote : Vote V) (acceptedBy : List NodeId) :
    (voting s vote acceptedBy).due s = 0 := rfl

end Synod
