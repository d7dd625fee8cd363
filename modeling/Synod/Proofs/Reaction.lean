import Synod.Node
import Synod.Proofs.Order

/-! What a role may do with a message, rule by rule. Every handler follows one of the rules of its
role, so a proof about handlers is a case analysis over rules. -/

namespace Synod

variable {V : Type}

/-! ## Acceptors -/

namespace Pledge

theorem prepare_of_le {p : Pledge V} {b m : Ballot} (hm : p.promised = some m) (h : b ≤ m) :
    p.prepare b = (p, .refused m) := by
  simp [prepare, hm, Option.filter, h]

theorem prepare_of_lt {p : Pledge V} {b : Ballot} (h : ∀ m, p.promised = some m → m < b) :
    p.prepare b = ({ p with promised := some b }, .given b p.accepted) := by
  cases hm : p.promised with
  | none => simp [prepare, hm]
  | some m =>
    have hlt : ¬ b ≤ m := not_le.mpr (h m hm)
    simp [prepare, hm, Option.filter, hlt]

theorem accept_of_lt {p : Pledge V} {vote : Vote V} {m : Ballot} (hm : p.promised = some m)
    (h : vote.ballot < m) : p.accept vote = (p, .refused m) := by
  simp [accept, hm, Option.filter, h]

theorem accept_of_le {p : Pledge V} {vote : Vote V}
    (h : ∀ m, p.promised = some m → m ≤ vote.ballot) :
    p.accept vote = (⟨some vote.ballot, some vote⟩, .given) := by
  cases hm : p.promised with
  | none => simp [accept, hm]
  | some m =>
    have hle : ¬ vote.ballot < m := not_lt.mpr (h m hm)
    simp [accept, hm, Option.filter, hle]

end Pledge

namespace Acceptor

/-- The rules for acceptors. -/
inductive Reaction (a : Acceptor V) (sender : NodeId) :
    Body V → Acceptor V → List (Effect V) → Prop where
  | promise {b} (h : ∀ m, a.pledge.promised = some m → m < b) :
      Reaction a sender (.prepare b) { a with pledge := { a.pledge with promised := some b } }
        [.note (.received sender (.prepare b)), .note (.promised sender b a.pledge.accepted),
          .send sender (.promise b a.pledge.accepted)]
  | refuse {b m} (hm : a.pledge.promised = some m) (h : b ≤ m) :
      Reaction a sender (.prepare b) a
        [.note (.received sender (.prepare b)), .note (.prepareRejected sender b m),
          .send sender (.promise m none)]
  | vote {vote} (h : ∀ m, a.pledge.promised = some m → m ≤ vote.ballot) :
      Reaction a sender (.accept vote) { a with pledge := ⟨some vote.ballot, some vote⟩ }
        (.note (.received sender (.accept vote)) :: .note (.accepted sender vote) ::
          .send sender (.accepted vote) :: Effect.broadcast a.learners (.learn vote))
  | decline {vote m} (hm : a.pledge.promised = some m) (h : vote.ballot < m) :
      Reaction a sender (.accept vote) a
        [.note (.received sender (.accept vote)), .note (.acceptRejected sender vote m)]
  | ignore {body} (hp : ∀ b, body ≠ .prepare b) (ha : ∀ vote, body ≠ .accept vote) :
      Reaction a sender body a
        [.note (.received sender body), .note (.unexpectedForAcceptor sender body)]

theorem onPrepare_reaction (a : Acceptor V) (sender : NodeId) (b : Ballot) :
    Reaction a sender (.prepare b) (a.onPrepare sender b).1
      (.note (.received sender (.prepare b)) :: (a.onPrepare sender b).2) := by
  by_cases h : ∀ m, a.pledge.promised = some m → m < b
  · simp only [onPrepare, Pledge.prepare_of_lt h]
    exact .promise h
  · push Not at h
    obtain ⟨m, hm, hle⟩ := h
    simp only [onPrepare, Pledge.prepare_of_le hm hle]
    exact .refuse hm hle

theorem onAccept_reaction (a : Acceptor V) (sender : NodeId) (vote : Vote V) :
    Reaction a sender (.accept vote) (a.onAccept sender vote).1
      (.note (.received sender (.accept vote)) :: (a.onAccept sender vote).2) := by
  by_cases h : ∀ m, a.pledge.promised = some m → m ≤ vote.ballot
  · simp only [onAccept, Pledge.accept_of_le h]
    exact .vote h
  · push Not at h
    obtain ⟨m, hm, hlt⟩ := h
    simp only [onAccept, Pledge.accept_of_lt hm hlt]
    exact .decline hm hlt

theorem handle_reaction (a : Acceptor V) (sender : NodeId) (body : Body V) :
    Reaction a sender body (a.handle sender body).1 (a.handle sender body).2 := by
  cases body with
  | prepare b => exact onPrepare_reaction a sender b
  | accept vote => exact onAccept_reaction a sender vote
  | promise b acc => exact .ignore nofun nofun
  | accepted vote => exact .ignore nofun nofun
  | learn vote => exact .ignore nofun nofun

end Acceptor

/-! ## Learners -/

namespace Learner

/-- The rules for learners. -/
inductive Reaction [Value V] (l : Learner V) (sender : NodeId) :
    Body V → Learner V → List (Effect V) → Prop where
  | keep {vote} (h : l.learned.isSome) :
      Reaction l sender (.learn vote) l [.note (.alreadyDecided sender vote)]
  | stranger {vote} (h : l.learned = none) (hs : sender ∉ l.acceptors) :
      Reaction l sender (.learn vote) l [.note (.unknownVoter sender vote)]
  | count {vote tally n} (h : l.learned = none) (hs : sender ∈ l.acceptors)
      (ht : l.tally.record vote sender = .ok (tally, n)) (hn : n < tally.quorum) :
      Reaction l sender (.learn vote) { l with tally }
        [.note (.trackingVote vote n), .note (.voteRecorded sender vote n)]
  | decide {vote tally n} (h : l.learned = none) (hs : sender ∈ l.acceptors)
      (ht : l.tally.record vote sender = .ok (tally, n)) (hn : tally.quorum ≤ n) :
      Reaction l sender (.learn vote) { l with tally := tally.clear, learned := some vote }
        [.note (.trackingVote vote n), .note (.voteRecorded sender vote n),
          .note (.consensusReached vote)]
  | ignore {body} (h : ∀ vote, body ≠ .learn vote) :
      Reaction l sender body l [.note (.unexpectedForLearner sender body)]

variable [Value V]

theorem Reaction.send_notMem {l l' : Learner V} {sender : NodeId} {asked : Body V}
    {effects : List (Effect V)} (h : l.Reaction sender asked l' effects) {receiver : NodeId}
    {body : Body V} : .send receiver body ∉ effects := by
  cases h <;> simp

theorem learn_reaction {l l' : Learner V} {sender : NodeId} {vote : Vote V}
    {effects : List (Effect V)} (h : l.learn sender vote = .ok (l', effects)) :
    Reaction l sender (.learn vote) l' effects := by
  unfold learn at h
  split at h
  · rename_i hsome
    obtain ⟨rfl, rfl⟩ := h
    exact .keep hsome
  · rename_i hnone
    have hnone : l.learned = none := by simpa using hnone
    split at h
    · rename_i hs
      cases ht : l.tally.record vote sender with
      | error fault => simp [ht] at h
      | ok counted =>
        obtain ⟨tally, n⟩ := counted
        simp only [ht] at h
        split at h
        · rename_i hn
          obtain ⟨rfl, rfl⟩ := h
          exact .decide hnone hs ht (by simpa [Tally.reached] using hn)
        · rename_i hn
          obtain ⟨rfl, rfl⟩ := h
          exact .count hnone hs ht (by simpa [Tally.reached] using hn)
    · rename_i hs
      obtain ⟨rfl, rfl⟩ := h
      exact .stranger hnone hs

theorem handle_reaction {l l' : Learner V} {sender : NodeId} {body : Body V}
    {effects : List (Effect V)} (h : l.handle sender body = .ok (l', effects)) :
    Reaction l sender body l' effects := by
  cases body with
  | learn vote => exact learn_reaction h
  | prepare b => obtain ⟨rfl, rfl⟩ := h; exact .ignore nofun
  | promise b acc => obtain ⟨rfl, rfl⟩ := h; exact .ignore nofun
  | accept vote => obtain ⟨rfl, rfl⟩ := h; exact .ignore nofun
  | accepted vote => obtain ⟨rfl, rfl⟩ := h; exact .ignore nofun

end Learner

/-! ## Proposers -/

namespace Proposer

/-- The vote that a round asks for with these reports. -/
def election (ballot : Ballot) (value : V) (reports : List (Report V)) : Vote V :=
  ⟨ballot, ((latest? reports).map (·.2.value)).getD value⟩

theorem isProposing_iff {p : Proposer V} :
    p.isProposing = true ↔ ∃ value reports, p.phase = .preparing value reports := by
  unfold isProposing
  cases p.phase <;> simp

/-- The rules for proposers. -/
inductive Reaction [Value V] (p : Proposer V) (sender : NodeId) :
    Body V → Proposer V → List (Effect V) → Prop where
  | early {b acc} (h : p.current = none) :
      Reaction p sender (.promise b acc) p [.note (.promiseBeforeAnyRound sender b)]
  | late {b acc} (h : p.phase = .idle) :
      Reaction p sender (.promise b acc) p [.note (.promiseWhileIdle sender b)]
  | abandon {b acc c value reports} (hc : p.current = some c)
      (hp : p.phase = .preparing value reports) (h : c < b) :
      Reaction p sender (.promise b acc)
        { p with phase := .idle, highestSeen := some (Ballot.later p.highestSeen b) }
        [.note (.roundAbandoned sender c b)]
  | stale {b acc c value reports} (hc : p.current = some c)
      (hp : p.phase = .preparing value reports) (h : b < c) :
      Reaction p sender (.promise b acc) p [.note (.stalePromise sender b)]
  | record {acc c value reports} (hc : p.current = some c)
      (hp : p.phase = .preparing value reports)
      (hn : (addReport reports ⟨sender, acc⟩).length < p.quorum) :
      Reaction p sender (.promise c acc)
        { p with phase := .preparing value (addReport reports ⟨sender, acc⟩) }
        [.note (.promiseRecorded c (addReport reports ⟨sender, acc⟩).length)]
  | conclude {acc c value reports} (hc : p.current = some c)
      (hp : p.phase = .preparing value reports)
      (hn : p.quorum ≤ (addReport reports ⟨sender, acc⟩).length) :
      Reaction p sender (.promise c acc)
        (p.conclude c value (addReport reports ⟨sender, acc⟩)).1
        (.note (.promiseRecorded c (addReport reports ⟨sender, acc⟩).length) ::
          (p.conclude c value (addReport reports ⟨sender, acc⟩)).2)
  | confirm {vote asked} (h : p.lastAccept = some asked) (hb : asked.ballot = vote.ballot)
      (hv : Value.same? asked.value vote.value = some true) :
      Reaction p sender (.accepted vote) { p with acceptedBy := p.acceptedBy.insert sender }
        [.note (.acceptConfirmed vote.ballot (p.acceptedBy.insert sender).length)]
  | another {vote} :
      Reaction p sender (.accepted vote) p [.note (.acceptedForAnotherRound sender vote.ballot)]
  | ignore {body} (hp : ∀ b acc, body ≠ .promise b acc) (ha : ∀ vote, body ≠ .accepted vote) :
      Reaction p sender body p [.note (.unexpectedForProposer sender body)]

variable [Value V]

theorem onPromise_reaction (p : Proposer V) (sender : NodeId) (b : Ballot)
    (acc : Option (Vote V)) :
    Reaction p sender (.promise b acc) (p.onPromise sender b acc).1
      (p.onPromise sender b acc).2 := by
  unfold onPromise
  split
  · rename_i hc
    exact .early hc
  · rename_i hp
    exact .late hp
  · rename_i c value reports hc hp
    rcases lt_trichotomy c b with hlt | rfl | hlt
    · simp only [hlt, if_true]
      exact .abandon hc hp hlt
    · by_cases hn : (addReport reports ⟨sender, acc⟩).length < p.quorum
      · simp only [lt_irrefl, if_false, hn, if_true]
        exact .record hc hp hn
      · simp only [lt_irrefl, if_false, hn]
        exact .conclude hc hp (not_lt.mp hn)
    · simp only [not_lt_of_gt hlt, if_false, hlt, if_true]
      exact .stale hc hp hlt

theorem onAccepted_reaction {p p' : Proposer V} {sender : NodeId} {vote : Vote V}
    {effects : List (Effect V)} (h : p.onAccepted sender vote = .ok (p', effects)) :
    Reaction p sender (.accepted vote) p' effects := by
  unfold onAccepted at h
  split at h
  · obtain ⟨rfl, rfl⟩ := h
    exact .another
  · rename_i asked hasked
    obtain ⟨hlast, hb⟩ := Option.filter_eq_some_iff.mp hasked
    split at h
    · simp at h
    · obtain ⟨rfl, rfl⟩ := h
      exact .another
    · rename_i hv
      obtain ⟨rfl, rfl⟩ := h
      exact .confirm hlast (by simpa using hb) hv

theorem handle_reaction {p p' : Proposer V} {sender : NodeId} {body : Body V}
    {effects : List (Effect V)} (h : p.handle sender body = .ok (p', effects)) :
    Reaction p sender body p' effects := by
  cases body with
  | promise b acc =>
    obtain ⟨rfl, rfl⟩ := Prod.ext_iff.mp (Except.ok.inj h)
    exact onPromise_reaction p sender b acc
  | accepted vote => exact onAccepted_reaction h
  | prepare b => obtain ⟨rfl, rfl⟩ := h; exact .ignore nofun nofun
  | accept vote => obtain ⟨rfl, rfl⟩ := h; exact .ignore nofun nofun
  | learn vote => obtain ⟨rfl, rfl⟩ := h; exact .ignore nofun nofun

/-! ### Starting a round -/

omit [Value V] in
/-- The number of a round does not go down, even where there is no next one. -/
theorem round_le_nextRound (p : Proposer V) : p.round.toNat ≤ p.nextRound.1.toNat := by
  unfold nextRound
  split
  · exact le_rfl
  · rename_i round hround
    have hsucc := Ballot.nextRound?_eq_some_iff.mp hround
    split
    · dsimp only
      omega
    · split
      · dsimp only
        omega
      · split
        · rename_i hlt
          have := UInt64.lt_iff_toNat_lt.mp hlt
          dsimp only
          omega
        · dsimp only
          omega

omit [Value V] in
/-- The next round comes after the last one and after every ballot that ended a round. -/
theorem nextRound_eq_none {p : Proposer V} {r : UInt64} (h : p.nextRound = (r, none)) :
    p.round.toNat < r.toNat ∧ ∀ seen, p.highestSeen = some seen → seen.round.toNat < r.toNat := by
  unfold nextRound at h
  split at h
  · simp at h
  · rename_i round hround
    have hsucc := Ballot.nextRound?_eq_some_iff.mp hround
    split at h
    · rename_i hseen
      obtain rfl : round = r := congrArg Prod.fst h
      exact ⟨by omega, by simp [hseen]⟩
    · rename_i seen hseen
      split at h
      · simp at h
      · rename_i beyond hbeyond
        have hnext := Ballot.nextRound?_eq_some_iff.mp hbeyond
        obtain hr : (if round < beyond then beyond else round) = r := congrArg Prod.fst h
        simp only [hseen, Option.some.injEq, forall_eq']
        split at hr
        · rename_i hlt
          have := UInt64.lt_iff_toNat_lt.mp hlt
          subst hr
          omega
        · rename_i hle
          have := mt UInt64.lt_iff_toNat_lt.mpr hle
          subst hr
          omega

omit [Value V] in
theorem start_of_nextRound {p : Proposer V} {self : NodeId} {r : UInt64}
    (hidle : p.isProposing = false) (hr : p.nextRound = (r, none)) :
    p.start self =
      ({ p with
          round := r
          current := some ⟨r, self⟩
          phase := .preparing p.value []
          adopted := none },
        .note (.startingProposal ⟨r, self⟩ p.value) ::
          Effect.broadcast p.acceptors (.prepare ⟨r, self⟩),
        .started ⟨r, self⟩) := by
  simp [start, hidle, hr]

omit [Value V] in
theorem start_of_overflow {p : Proposer V} {self : NodeId} {r : UInt64} {fault : Fault}
    (hidle : p.isProposing = false) (hr : p.nextRound = (r, some fault)) :
    p.start self = ({ p with round := r }, [], .failed fault) := by
  simp [start, hidle, hr]

omit [Value V] in
theorem start_ne_refused {p : Proposer V} {self : NodeId} (hidle : p.isProposing = false) :
    (p.start self).2.2 ≠ .refused := by
  rcases hr : p.nextRound with ⟨r, _ | fault⟩
  · simp [start_of_nextRound hidle hr]
  · simp [start_of_overflow hidle hr]

omit [Value V] in
/-- Where a round was started, the proposer was idle and had a next round. -/
theorem start_eq_started {p p' : Proposer V} {self : NodeId} {b : Ballot}
    {effects : List (Effect V)} (h : p.start self = (p', effects, .started b)) :
    p.isProposing = false ∧ b.proposer = self ∧ p.nextRound = (b.round, none) ∧
      p' = { p with
        round := b.round, current := some b, phase := .preparing p.value [], adopted := none } ∧
      effects = .note (.startingProposal b p.value) ::
        Effect.broadcast p.acceptors (.prepare b) := by
  by_cases hidle : p.isProposing = true
  · simp [start, hidle] at h
  · have hidle : p.isProposing = false := by simpa using hidle
    rcases hr : p.nextRound with ⟨r, _ | fault⟩
    · simp only [start_of_nextRound hidle hr, Prod.mk.injEq, Start.started.injEq] at h
      obtain ⟨rfl, rfl, rfl⟩ := h
      exact ⟨hidle, rfl, rfl, rfl, rfl⟩
    · simp [start_of_overflow hidle hr] at h

omit [Value V] in
theorem start_eq_failed {p p' : Proposer V} {self : NodeId} {fault : Fault}
    {effects : List (Effect V)} (h : p.start self = (p', effects, .failed fault)) :
    ∃ r, p.nextRound = (r, some fault) ∧ p' = { p with round := r } ∧ effects = [] := by
  by_cases hidle : p.isProposing = true
  · simp [start, hidle] at h
  · have hidle : p.isProposing = false := by simpa using hidle
    rcases hr : p.nextRound with ⟨r, _ | fault'⟩
    · simp [start_of_nextRound hidle hr] at h
    · simp only [start_of_overflow hidle hr, Prod.mk.injEq, Start.failed.injEq] at h
      obtain ⟨rfl, rfl, rfl⟩ := h
      exact ⟨r, rfl, rfl, rfl⟩

end Proposer

/-! ## Nodes -/

/-- The rules of all roles. -/
inductive Role.Reaction [Value V] (sender : NodeId) (body : Body V) :
    Role V → Role V → List (Effect V) → Prop where
  | acceptor {a a' effects} (h : Acceptor.Reaction a sender body a' effects) :
      Reaction sender body (.acceptor a) (.acceptor a') effects
  | learner {l l' effects} (h : Learner.Reaction l sender body l' effects) :
      Reaction sender body (.learner l) (.learner l') effects
  | proposer {p p' effects} (h : Proposer.Reaction p sender body p' effects) :
      Reaction sender body (.proposer p) (.proposer p') effects

/-- A node that handles a message follows a rule of its role, and stays what it is otherwise. -/
theorem Node.handle_reaction [Value V] {n n' : Node V} {sender : NodeId} {body : Body V}
    {effects : List (Effect V)} (h : n.handle sender body = .ok (n', effects)) :
    ∃ role, n' = { n with role } ∧ Role.Reaction sender body n.role role effects := by
  unfold Node.handle Role.handle at h
  cases hr : n.role with
  | acceptor a =>
    simp only [hr, Except.map, Except.ok.injEq, Prod.mk.injEq] at h
    obtain ⟨rfl, rfl⟩ := h
    exact ⟨_, rfl, .acceptor (a.handle_reaction sender body)⟩
  | learner l =>
    cases hl : l.handle sender body with
    | error fault => simp [hr, hl, Except.map] at h
    | ok out =>
      simp only [hr, hl, Except.map, Except.ok.injEq, Prod.mk.injEq] at h
      obtain ⟨rfl, rfl⟩ := h
      exact ⟨_, rfl, .learner (Learner.handle_reaction hl)⟩
  | proposer p =>
    cases hp : p.handle sender body with
    | error fault => simp [hr, hp, Except.map] at h
    | ok out =>
      simp only [hr, hp, Except.map, Except.ok.injEq, Prod.mk.injEq] at h
      obtain ⟨rfl, rfl⟩ := h
      exact ⟨_, rfl, .proposer (Proposer.handle_reaction hp)⟩

end Synod
