import Mathlib.Data.List.Induction
import Synod.Proofs.Visit

/-! Rounds and the operations that start them. A round is started only by a proposal that succeeds,
for the value that the proposer holds at that moment; handling messages starts none. So the rounds
of the log are the rounds of the operations. -/

namespace Synod

variable {V σ : Type}

/-! ## Rounds of a log -/

/-- The round that an event starts, with the value it is for. -/
def Event.round? : Event V → Option (Ballot × V)
  | .remarked _ (.startingProposal b value) => some (b, value)
  | _ => none

def rounds (log : List (Event V)) : List (Ballot × V) := log.filterMap Event.round?

@[simp] theorem rounds_append (log later : List (Event V)) :
    rounds (log ++ later) = rounds log ++ rounds later :=
  List.filterMap_append

theorem mem_rounds {log : List (Event V)} {b : Ballot} {value : V} :
    (b, value) ∈ rounds log ↔ ∃ id, .remarked id (.startingProposal b value) ∈ log := by
  rw [rounds, List.mem_filterMap]
  constructor
  · rintro ⟨e, he, hround⟩
    unfold Event.round? at hround
    split at hround
    · rename_i id b' value'
      obtain ⟨rfl, rfl⟩ := Prod.mk.inj (Option.some.inj hround)
      exact ⟨id, he⟩
    · simp at hround
  · rintro ⟨id, he⟩
    exact ⟨_, he, rfl⟩

theorem rounds_events_eq_nil {id : NodeId} {effects : List (Effect V)}
    (h : ∀ b value, .note (.startingProposal b value) ∉ effects) :
    rounds (Effect.events id effects) = [] := by
  apply List.eq_nil_iff_forall_not_mem.mpr
  intro round hround
  obtain ⟨n, hmem⟩ := mem_rounds.mp hround
  exact h _ _ (Effect.remarked_mem_events.mp hmem).2

theorem Event.Routine.rounds_eq {e : Event V} (h : e.Routine) : rounds [e] = [] := by
  cases h with
  | @remarked n r hr => cases r <;> first | rfl | simp [Remark.isStep] at hr
  | _ => rfl

theorem Role.Reaction.starting_notMem [Value V] {role role' : Role V} {sender : NodeId}
    {body : Body V} {effects : List (Effect V)}
    (h : Role.Reaction sender body role role' effects) (b : Ballot) (value : V) :
    .note (.startingProposal b value) ∉ effects := by
  cases h with
  | acceptor h => cases h <;> simp
  | learner h => cases h <;> simp
  | proposer h => cases h <;> simp [Proposer.conclude_snd]

namespace Cluster

/-! ## Operations that start no round -/

theorem rounds_note (c : Cluster V σ) {e : Event V} (h : e.Routine) :
    rounds (c.note e).log.toList = rounds c.log.toList := by
  simp [note, h.rounds_eq]

theorem rounds_settle (c : Cluster V σ) (n : Node V) (effects : List (Effect V)) :
    rounds (c.settle n effects).log.toList =
      rounds c.log.toList ++ rounds (Effect.events n.id effects) := by
  simp [settle]

theorem rounds_setAlive (c : Cluster V σ) (n : Node V) (alive : Bool) :
    rounds (c.setAlive n alive).log.toList = rounds c.log.toList := by
  unfold setAlive
  split
  · rfl
  · rw [rounds_settle, rounds_events_eq_nil, List.append_nil]
    cases alive <;> simp

theorem rounds_offer (id : NodeId) (p : Proposer V) (given : Option V) :
    rounds (Effect.events id (offer p given).2) = [] := by
  apply rounds_events_eq_nil
  cases given <;> simp [offer, Proposer.setValue]

section

variable [Shuffler σ]

theorem rounds_takeInbox (c : Cluster V σ) (n : Node V) :
    rounds (c.takeInbox n).log.toList = rounds c.log.toList := by
  unfold takeInbox
  dsimp only
  split
  · rfl
  · exact rounds_note _ (.remarked _ rfl)

variable [Value V]

theorem rounds_process (c : Cluster V σ) {n : Node V} (hf : n.faulted = false) :
    rounds (c.process n).1.log.toList = rounds c.log.toList := by
  cases hup : n.alive with
  | false =>
    rw [c.process_of_down hup]
    exact c.rounds_note (.remarked _ rfl)
  | true =>
    rw [c.process_fst_of_up hup hf, rounds_settle, rounds_takeInbox, rounds_events_eq_nil,
      List.append_nil]
    intro b value hnote
    obtain ⟨m, -, -, before, after, effects, hreaction, hmem⟩ := exists_reaction_of_mem_turn hnote
    exact hreaction.starting_notMem b value hmem

theorem rounds_visit (c : Cluster V σ) (id : NodeId) :
    rounds (c.visit id).1.log.toList = rounds c.log.toList := by
  cases hn : c.node? id with
  | none => rw [visit_of_absent hn]
  | some n =>
    cases hf : n.faulted with
    | true =>
      rw [visit_of_faulted hn hf]
      exact c.rounds_note (.skippingFaultedNode id)
    | false =>
      rw [← c.rounds_process hf]
      rcases visit_of_up hn hf with h | ⟨fault, h⟩
      · rw [h]
      · rw [h]
        exact rounds_note _ (.nodeFaulted id fault)

theorem rounds_visitAll (c : Cluster V σ) (ids : List NodeId) :
    rounds (c.visitAll ids).1.log.toList = rounds c.log.toList := by
  induction ids generalizing c with
  | nil => rfl
  | cons id ids ih => rw [visitAll_cons_fst, ih, rounds_visit]

theorem rounds_tick (c : Cluster V σ) :
    rounds c.tick.1.log.toList = rounds c.log.toList :=
  (rounds_note _ (.tickDone _ _)).trans (rounds_visitAll _ _)

theorem rounds_processNode (c : Cluster V σ) (id : NodeId) :
    rounds (c.processNode id).1.log.toList = rounds c.log.toList := by
  unfold processNode freeNode
  cases hn : c.node? id with
  | none => rfl
  | some n =>
    cases hf : n.faulted with
    | true =>
      simp only [hf, if_true]
    | false =>
      have hrounds := c.rounds_process hf
      simp only [hf]
      rcases hprocess : c.process n with ⟨c', _ | handled⟩ <;> simpa [hprocess] using hrounds

end

/-! ## Rounds of an operation -/

/-- The round that an operation starts, if any, with the value that the proposer holds then. -/
def opened (c : Cluster V σ) : Operation V → List (Ballot × V)
  | .propose id given =>
    match (c.propose id given).2, c.proposer? id with
    | .ok b, some p => [(b, given.getD p.value)]
    | _, _ => []
  | _ => []

theorem value_offer (p : Proposer V) (given : Option V) :
    (offer p given).1.value = given.getD p.value := by
  cases given <;> rfl

theorem rounds_start {p p' : Proposer V} {given : Option V} {id : NodeId} {b : Ballot}
    {effects : List (Effect V)} (h : (offer p given).1.start id = (p', effects, .started b)) :
    rounds (Effect.events id ((offer p given).2 ++ effects)) = [(b, given.getD p.value)] := by
  obtain ⟨-, -, -, -, rfl⟩ := Proposer.start_eq_started h
  have hoffered := rounds_offer id p given
  have hsent : rounds (Effect.events id (Effect.broadcast (offer p given).1.acceptors
      (.prepare (V := V) b))) = [] := rounds_events_eq_nil (by simp [Effect.broadcast])
  simp only [Effect.events, List.map_append, List.map_cons, rounds_append] at hoffered hsent ⊢
  rw [hoffered, List.nil_append, ← value_offer]
  exact congrArg (List.cons _) hsent

/-- A proposal starts a round of its proposer, for the value that the proposer holds then, or it
starts none. -/
theorem propose_cases (c : Cluster V σ) (id : NodeId) (given : Option V) :
    (∃ failure, (c.propose id given).2 = .error failure ∧
      rounds (c.propose id given).1.log.toList = rounds c.log.toList) ∨
    ∃ b p, (c.propose id given).2 = .ok b ∧ b.proposer = id ∧ c.proposer? id = some p ∧
      rounds (c.propose id given).1.log.toList =
        rounds c.log.toList ++ [(b, given.getD p.value)] := by
  unfold propose
  cases hcommand : c.commandProposer id with
  | error refusal => exact .inl ⟨_, rfl, rfl⟩
  | ok found =>
    obtain ⟨n, p⟩ := found
    obtain ⟨hn, rfl, -, hr⟩ := commandProposer_eq_ok hcommand
    have hp : c.proposer? n.id = some p := by simp [proposer?, hn, Node.proposer?, hr]
    by_cases hup : n.alive = true
    · by_cases hidle : p.isProposing = true
      · simp only [hup, hidle, Bool.not_true, if_true]
        exact .inl ⟨_, rfl, rfl⟩
      · dsimp only
        rw [if_neg (by simp [hup]), if_neg hidle]
        rcases hstart : (offer p given).1.start n.id with ⟨p', effects, _ | b | fault⟩
        · exact absurd (by rw [hstart]) (Proposer.start_ne_refused
            ((isProposing_offer p given).trans (by simpa using hidle)))
        · obtain ⟨-, hself, -, -, -⟩ := Proposer.start_eq_started hstart
          refine .inr ⟨b, p, rfl, hself, hp, ?_⟩
          rw [rounds_settle, rounds_start hstart]
        · obtain ⟨r, -, -, rfl⟩ := Proposer.start_eq_failed hstart
          refine .inl ⟨_, rfl, ?_⟩
          rw [rounds_settle, List.append_nil, rounds_offer, List.append_nil]
    · simp only [hup]
      exact .inl ⟨_, rfl, rfl⟩

theorem proposer_of_propose {c : Cluster V σ} {id : NodeId} {given : Option V} {b : Ballot}
    (h : (c.propose id given).2 = .ok b) : b.proposer = id := by
  rcases c.propose_cases id given with ⟨failure, herror, -⟩ | ⟨b', p, hok, hself, -, -⟩
  · simp [herror] at h
  · obtain rfl : b' = b := by simpa [hok] using h
    exact hself

theorem rounds_propose (c : Cluster V σ) (id : NodeId) (given : Option V) :
    rounds (c.propose id given).1.log.toList =
      rounds c.log.toList ++ c.opened (.propose id given) := by
  rcases c.propose_cases id given with ⟨failure, herror, hrounds⟩ | ⟨b, p, hok, -, hp, hrounds⟩
  · simp [opened, herror, hrounds]
  · simp [opened, hok, hp, hrounds]

theorem mem_opened {c : Cluster V σ} {op : Operation V} {b : Ballot} {value : V} :
    (b, value) ∈ c.opened op ↔ ∃ given p, op = .propose b.proposer given ∧
      (c.propose b.proposer given).2 = .ok b ∧ c.proposer? b.proposer = some p ∧
      given.getD p.value = value := by
  constructor
  · intro h
    unfold opened at h
    split at h
    · rename_i id given
      split at h
      · rename_i b' p hok hp
        obtain ⟨rfl, rfl⟩ : b = b' ∧ value = given.getD p.value := by simpa using h
        obtain rfl := proposer_of_propose hok
        exact ⟨given, p, rfl, hok, hp, rfl⟩
      · simp at h
    · simp at h
  · rintro ⟨given, p, rfl, hok, hp, rfl⟩
    simp [opened, hok, hp]

variable [Value V] [Shuffler σ]

theorem rounds_perform (c : Cluster V σ) (op : Operation V) :
    rounds (c.perform op).log.toList = rounds c.log.toList ++ c.opened op := by
  cases op with
  | propose id given => exact c.rounds_propose id given
  | setValue id value =>
    unfold perform setValue opened
    dsimp only
    split
    · simp
    · rw [rounds_settle, rounds_events_eq_nil]
      simp [Proposer.setValue]
  | fail id =>
    unfold perform fail opened
    dsimp only
    split
    · simp
    · simp [rounds_setAlive]
  | recover id =>
    unfold perform recover opened
    dsimp only
    split
    · simp
    · simp [rounds_setAlive]
  | tick => exact c.rounds_tick.trans (List.append_nil _).symm
  | process id => exact (c.rounds_processNode id).trans (List.append_nil _).symm

/-! ## Rounds of a run -/

/-- Some operation of a run is a proposal that succeeds and whose answer is this ballot, and this is
the value that the proposer holds when the round is started. -/
def RoundStarted (c : Cluster V σ) (ops : List (Operation V)) (b : Ballot) (value : V) : Prop :=
  ∃ before given later p, ops = before ++ .propose b.proposer given :: later ∧
    ((c.run before).propose b.proposer given).2 = .ok b ∧
    (c.run before).proposer? b.proposer = some p ∧ given.getD p.value = value

theorem roundStarted_append_singleton {c : Cluster V σ} {ops : List (Operation V)}
    {op : Operation V} {b : Ballot} {value : V} :
    c.RoundStarted (ops ++ [op]) b value ↔
      c.RoundStarted ops b value ∨ (b, value) ∈ (c.run ops).opened op := by
  rw [mem_opened]
  constructor
  · rintro ⟨before, given, later, p, hops, hround⟩
    induction later using List.reverseRecOn with
    | nil =>
      obtain ⟨rfl, rfl⟩ : ops = before ∧ op = .propose b.proposer given := by simpa using hops
      exact .inr ⟨given, p, rfl, hround⟩
    | append_singleton later last =>
      have hsplit : ops ++ [op] = (before ++ .propose b.proposer given :: later) ++ [last] := by
        simpa using hops
      obtain ⟨rfl, -⟩ := List.append_inj' hsplit rfl
      exact .inl ⟨before, given, later, p, rfl, hround⟩
  · rintro (⟨before, given, later, p, rfl, hround⟩ | ⟨given, p, rfl, hround⟩)
    · exact ⟨before, given, later ++ [op], p, by simp, hround⟩
    · exact ⟨ops, given, [], p, rfl, hround⟩

/-- The rounds that come into the log in a run are those that its operations start. -/
theorem mem_rounds_run {c : Cluster V σ} {ops : List (Operation V)} {b : Ballot} {value : V} :
    (b, value) ∈ rounds (c.run ops).log.toList ↔
      (b, value) ∈ rounds c.log.toList ∨ c.RoundStarted ops b value := by
  induction ops using List.reverseRecOn with
  | nil => simp [RoundStarted]
  | append_singleton ops op ih =>
    rw [run_append, run_cons, run_nil, rounds_perform, List.mem_append, ih,
      roundStarted_append_singleton, or_assoc]

/-- A round is logged exactly where an operation of the run has started it. -/
theorem roundStarted_iff [LawfulValue V] {s : Setup V} {bus order : σ} {c : Cluster V σ}
    (h : create s bus order = .ok c) {ops : List (Operation V)} {b : Ballot} {value : V} :
    c.RoundStarted ops b value ↔
      .remarked b.proposer (.startingProposal b value) ∈ (c.run ops).log.toList := by
  have hnone : (b, value) ∉ rounds c.log.toList := by
    obtain ⟨-, -, -, hlog⟩ := create_eq_ok h
    simp [hlog, rounds, Event.round?]
  have hrun : (b, value) ∈ rounds (c.run ops).log.toList ↔ c.RoundStarted ops b value :=
    mem_rounds_run.trans (or_iff_right hnone)
  rw [mem_rounds] at hrun
  rw [← hrun]
  constructor
  · rintro ⟨id, hmem⟩
    obtain ⟨-, rfl⟩ := (sound_run h ops).justified _ hmem
    exact hmem
  · exact fun hmem => ⟨_, hmem⟩

end Cluster

end Synod
