import Mathlib.Data.Set.Finite.Basic
import Synod.Effect

/-! The history of a node: the steps of rounds that it has remarked, in order. All that is said here
of what has happened stays true as the log grows. -/

namespace Synod

variable {V : Type}

/-- Remarks that record a step of a round. -/
def Remark.isStep : Remark V → Bool
  | .promised .. | .prepareRejected .. | .accepted .. | .startingProposal .. | .promiseQuorum ..
  | .consensusReached .. => true
  | _ => false

/-- What a node remarks on a message that its role does not expect, or not from that sender. -/
def Remark.isStray : Remark V → Bool
  | .unexpectedForAcceptor .. | .unexpectedForLearner .. | .unexpectedForProposer ..
  | .unknownVoter .. => true
  | _ => false

def Event.isStray : Event V → Bool
  | .remarked _ r => r.isStray
  | _ => false

/-- Events that record no step and no message. -/
inductive Event.Routine : Event V → Prop where
  | remarked (n : NodeId) {r : Remark V} (h : r.isStep = false) : Routine (.remarked n r)
  | skippingFaultedNode (n : NodeId) : Routine (.skippingFaultedNode n)
  | nodeFaulted (n : NodeId) (fault : Fault) : Routine (.nodeFaulted n fault)
  | tickDone (handled faulted : Nat) : Routine (.tickDone handled faulted)

/-- The step that an event records of a node. -/
def Event.step? (id : NodeId) : Event V → Option (Remark V)
  | .remarked n r => if n = id ∧ r.isStep then some r else none
  | _ => none

def history (id : NodeId) (log : List (Event V)) : List (Remark V) :=
  log.filterMap (Event.step? id)

@[simp] theorem history_append (id : NodeId) (log later : List (Event V)) :
    history id (log ++ later) = history id log ++ history id later :=
  List.filterMap_append

theorem mem_history {id : NodeId} {log : List (Event V)} {r : Remark V} :
    r ∈ history id log ↔ r.isStep = true ∧ .remarked id r ∈ log := by
  simp only [history, List.mem_filterMap]
  constructor
  · rintro ⟨e, he, hstep⟩
    cases e with
    | remarked n r' =>
      simp only [Event.step?, Option.ite_none_right_eq_some, Option.some.injEq] at hstep
      obtain ⟨⟨rfl, hr⟩, rfl⟩ := hstep
      exact ⟨hr, he⟩
    | _ => simp [Event.step?] at hstep
  · rintro ⟨hr, he⟩
    exact ⟨_, he, by simp [Event.step?, hr]⟩

/-- Routine is no step of any node. -/
theorem history_eq_nil_of_routine {log : List (Event V)} (h : ∀ e ∈ log, e.Routine)
    (id : NodeId) : history id log = [] := by
  apply List.filterMap_eq_nil_iff.mpr
  intro e he
  cases h e he with
  | remarked n hr => simp [Event.step?, hr]
  | _ => rfl

theorem Event.Routine.history_eq {e : Event V} (h : e.Routine) (id : NodeId) :
    history id [e] = [] :=
  history_eq_nil_of_routine (List.forall_mem_singleton.mpr h) id

namespace Effect

/-- The steps among the effects of a node. -/
def steps (effects : List (Effect V)) : List (Remark V) :=
  effects.filterMap fun
    | .note r => if r.isStep then some r else none
    | .send .. => none

@[simp] theorem steps_nil : steps ([] : List (Effect V)) = [] := rfl

@[simp] theorem steps_send (receiver : NodeId) (body : Body V) (effects : List (Effect V)) :
    steps (.send receiver body :: effects) = steps effects := rfl

theorem steps_note_of_step {r : Remark V} (h : r.isStep = true) (effects : List (Effect V)) :
    steps (.note r :: effects) = r :: steps effects := by
  simp [steps, h]

theorem steps_note_of_not_step {r : Remark V} (h : r.isStep = false) (effects : List (Effect V)) :
    steps (.note r :: effects) = steps effects := by
  simp [steps, h]

@[simp] theorem steps_broadcast (receivers : List NodeId) (body : Body V) :
    steps (broadcast receivers body) = [] := by
  induction receivers with
  | nil => rfl
  | cons r rs ih => exact ih

@[simp] theorem steps_append (effects later : List (Effect V)) :
    steps (effects ++ later) = steps effects ++ steps later :=
  List.filterMap_append

@[simp] theorem note_notMem_broadcast (r : Remark V) (receivers : List NodeId) (body : Body V) :
    .note r ∉ broadcast receivers body := by
  simp [broadcast]

theorem steps_notes {remarks : List (Remark V)} (h : ∀ r ∈ remarks, r.isStep = false) :
    steps (remarks.map .note) = [] := by
  refine List.filterMap_eq_nil_iff.mpr fun effect he => ?_
  obtain ⟨r, hr, rfl⟩ := List.mem_map.mp he
  simp [h r hr]

@[simp] theorem messages_notes (n : NodeId) (remarks : List (Remark V)) :
    messages n (remarks.map .note) = [] := by
  induction remarks with
  | nil => rfl
  | cons r remarks ih => exact ih

theorem history_events_self (n : NodeId) (effects : List (Effect V)) :
    history n (events n effects) = steps effects := by
  induction effects with
  | nil => rfl
  | cons e effects ih =>
    have hcons : history n (events n (e :: effects)) =
        history n [event n e] ++ history n (events n effects) :=
      history_append n [event n e] (events n effects)
    rw [hcons, ih]
    cases e with
    | send receiver body => rfl
    | note r => cases hr : r.isStep <;> simp [history, Event.step?, event, steps, hr]

theorem history_events_of_ne {n id : NodeId} (h : id ≠ n) (effects : List (Effect V)) :
    history id (events n effects) = [] := by
  refine List.filterMap_eq_nil_iff.mpr fun e he => ?_
  obtain ⟨effect, -, rfl⟩ := List.mem_map.mp he
  cases effect with
  | send receiver body => rfl
  | note r => simp [event, Event.step?, h.symm]

theorem mem_messages {n : NodeId} {effects : List (Effect V)} {m : Message V} :
    m ∈ messages n effects ↔ m.sender = n ∧ .send m.receiver m.body ∈ effects := by
  induction effects with
  | nil => simp
  | cons e effects ih =>
    cases e with
    | note r => simp [ih]
    | send receiver body =>
      obtain ⟨sender, addressee, sent⟩ := m
      simp only [messages_send, List.mem_cons, Message.mk.injEq, ih, send.injEq]
      tauto

/-- Every remark of a node is logged as its own, and no other remark. -/
theorem remarked_mem_events {n id : NodeId} {r : Remark V} {effects : List (Effect V)} :
    .remarked id r ∈ events n effects ↔ id = n ∧ .note r ∈ effects := by
  simp only [events, List.mem_map]
  constructor
  · rintro ⟨effect, he, h⟩
    cases effect with
    | send receiver body => simp [event] at h
    | note r' =>
      obtain ⟨rfl, rfl⟩ : n = id ∧ r' = r := by simpa [event] using h
      exact ⟨rfl, he⟩
  · rintro ⟨rfl, he⟩
    exact ⟨.note r, he, rfl⟩

end Effect

/-! ## The last vote -/

def Remark.vote? : Remark V → Option (Vote V)
  | .accepted _ vote => some vote
  | _ => none

def lastVote (rs : List (Remark V)) : Option (Vote V) :=
  (rs.filterMap Remark.vote?).getLast?

theorem lastVote_concat_accepted (rs : List (Remark V)) (sender : NodeId) (vote : Vote V) :
    lastVote (rs ++ [.accepted sender vote]) = some vote := by
  simp [lastVote, Remark.vote?]

theorem lastVote_concat_of_none (rs : List (Remark V)) {r : Remark V} (h : r.vote? = none) :
    lastVote (rs ++ [r]) = lastVote rs := by
  simp [lastVote, h]

theorem mem_of_lastVote {rs : List (Remark V)} {vote : Vote V} (h : lastVote rs = some vote) :
    ∃ sender, .accepted sender vote ∈ rs := by
  obtain ⟨r, hr, hvote⟩ := List.mem_filterMap.mp (List.mem_of_getLast? h)
  cases r with
  | accepted sender u =>
    obtain rfl := Option.some.inj hvote
    exact ⟨sender, hr⟩
  | _ => simp [Remark.vote?] at hvote

/-! ## What has happened -/

/-- The ballot of the prepare that a remark answers. -/
def Remark.answers? : Remark V → Option Ballot
  | .promised _ b _ => some b
  | .prepareRejected _ m _ => some m
  | _ => none

def Effect.answers? : Effect V → Option Ballot
  | .note r => r.answers?
  | .send .. => none

def Event.started? : Event V → Option Ballot
  | .remarked _ (.startingProposal b _) => some b
  | _ => none

/-- The vote that an event asks for. -/
def Event.asked? : Event V → Option (Vote V)
  | .remarked _ (.promiseQuorum vote) => some vote
  | _ => none

section

variable (log : List (Event V))

/-- A proposer has started the round of a ballot. -/
def Started (b : Ballot) : Prop := ∃ value, .remarked b.proposer (.startingProposal b value) ∈ log

/-- A proposer has asked for a vote. -/
def Asked (vote : Vote V) : Prop := .remarked vote.ballot.proposer (.promiseQuorum vote) ∈ log

/-- An acceptor has promised a ballot and reported the vote it held, or none. -/
def Promised (a : NodeId) (b : Ballot) (held : Option (Vote V)) : Prop :=
  ∃ sender, .remarked a (.promised sender b held) ∈ log

/-- An acceptor that was bound to `b` has refused to promise `m`. -/
def Refused (a : NodeId) (m b : Ballot) : Prop :=
  ∃ sender, .remarked a (.prepareRejected sender m b) ∈ log

/-- An acceptor has answered the prepare of a ballot. -/
def Answered (a : NodeId) (b : Ballot) : Prop := ∃ r, .remarked a r ∈ log ∧ r.answers? = some b

def Voted (a : NodeId) (vote : Vote V) : Prop := ∃ sender, .remarked a (.accepted sender vote) ∈ log

def Learned (l : NodeId) (vote : Vote V) : Prop := .remarked l (.consensusReached vote) ∈ log

/-- An acceptor that was bound to a round has handled the prepare of an earlier round of the same
proposer. -/
def Overtaken (a : NodeId) (m b : Ballot) : Prop :=
  Refused log a m b ∧ m.proposer = b.proposer ∧ m.round < b.round

theorem finite_started : {b | Started log b}.Finite := by
  refine (List.finite_toSet (log.filterMap Event.started?)).subset ?_
  rintro b ⟨value, h⟩
  exact List.mem_filterMap.mpr ⟨_, h, rfl⟩

theorem finite_asked : {vote | Asked log vote}.Finite := by
  refine (List.finite_toSet (log.filterMap Event.asked?)).subset ?_
  intro vote h
  exact List.mem_filterMap.mpr ⟨_, h, rfl⟩

end

section

variable {log log' : List (Event V)} {a : NodeId} {b m : Ballot} {vote : Vote V}
  {held : Option (Vote V)} (hsub : log ⊆ log')
include hsub

theorem Started.mono (h : Started log b) : Started log' b :=
  h.imp fun _ he => hsub he

theorem Asked.mono (h : Asked log vote) : Asked log' vote :=
  hsub h

theorem Promised.mono (h : Promised log a b held) : Promised log' a b held :=
  h.imp fun _ he => hsub he

theorem Refused.mono (h : Refused log a m b) : Refused log' a m b :=
  h.imp fun _ he => hsub he

theorem Answered.mono (h : Answered log a b) : Answered log' a b :=
  h.imp fun _ => .imp_left fun he => hsub he

theorem Voted.mono (h : Voted log a vote) : Voted log' a vote :=
  h.imp fun _ he => hsub he

theorem Overtaken.mono (h : Overtaken log a m b) : Overtaken log' a m b :=
  ⟨h.1.mono hsub, h.2⟩

end

end Synod
