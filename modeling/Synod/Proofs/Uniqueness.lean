import Synod.Proofs.Provenance

/-! One vote to a ballot. A round asks for votes once, as it ends with a quorum of promises, and no
ballot is used for two rounds. So no acceptor is asked twice under one ballot, and all votes of one
ballot are the same. -/

namespace Synod

variable {V σ : Type}

/-! ## Requests for votes -/

/-- The acceptor that a message asks for a vote, and the ballot. -/
def Message.appeal? (m : Message V) : Option (NodeId × Ballot) :=
  match m.body with
  | .accept vote => some (m.receiver, vote.ballot)
  | _ => none

def Event.appeal? : Event V → Option (NodeId × Ballot)
  | .sent m => m.appeal?
  | _ => none

/-- Which acceptors were asked for votes, and under which ballots. -/
def appeals (log : List (Event V)) : List (NodeId × Ballot) := log.filterMap Event.appeal?

@[simp] theorem appeals_append (log later : List (Event V)) :
    appeals (log ++ later) = appeals log ++ appeals later :=
  List.filterMap_append

theorem mem_appeals {log : List (Event V)} {a : NodeId} {b : Ballot} :
    (a, b) ∈ appeals log ↔
      ∃ sender vote, vote.ballot = b ∧ .sent ⟨sender, a, .accept vote⟩ ∈ log := by
  rw [appeals, List.mem_filterMap]
  constructor
  · rintro ⟨e, he, happeal⟩
    cases e with
    | sent m =>
      obtain ⟨sender, receiver, body⟩ := m
      cases body with
      | accept vote =>
        obtain ⟨rfl, rfl⟩ := Prod.mk.inj (Option.some.inj happeal)
        exact ⟨sender, vote, rfl, he⟩
      | _ => simp [Event.appeal?, Message.appeal?] at happeal
    | _ => simp [Event.appeal?] at happeal
  · rintro ⟨sender, vote, rfl, hmem⟩
    exact ⟨_, hmem, rfl⟩

theorem appeals_events (id : NodeId) (effects : List (Effect V)) :
    appeals (Effect.events id effects) =
      (Effect.messages id effects).filterMap Message.appeal? := by
  induction effects with
  | nil => rfl
  | cons effect effects ih =>
    have hcons : appeals (Effect.events id (effect :: effects)) =
        appeals [effect.event id] ++ appeals (Effect.events id effects) :=
      appeals_append [effect.event id] (Effect.events id effects)
    rw [hcons, ih]
    cases effect with
    | note r => simp [appeals, Effect.event, Event.appeal?]
    | send receiver body =>
      have hsent : appeals [Effect.event id (.send receiver body)] =
          ([⟨id, receiver, body⟩] : List (Message V)).filterMap Message.appeal? := rfl
      rw [hsent, ← List.filterMap_append]
      rfl

theorem appeals_events_eq_nil {id : NodeId} {effects : List (Effect V)}
    (h : ∀ m ∈ Effect.messages id effects, m.appeal? = none) :
    appeals (Effect.events id effects) = [] := by
  rw [appeals_events]
  exact List.filterMap_eq_nil_iff.mpr h

theorem appeals_eq_nil_of_routine {log : List (Event V)} (h : ∀ e ∈ log, e.Routine) :
    appeals log = [] := by
  apply List.filterMap_eq_nil_iff.mpr
  intro e he
  cases h e he <;> rfl

theorem Acceptor.Reaction.appeal?_eq_none {a a' : Acceptor V} {sender : NodeId} {body : Body V}
    {effects : List (Effect V)} (h : a.Reaction sender body a' effects) (id : NodeId) :
    ∀ m ∈ Effect.messages id effects, m.appeal? = none := by
  cases h <;> simp [Message.appeal?]

theorem Learner.Reaction.appeal?_eq_none [Value V] {l l' : Learner V} {sender : NodeId}
    {body : Body V} {effects : List (Effect V)} (h : l.Reaction sender body l' effects)
    (id : NodeId) : ∀ m ∈ Effect.messages id effects, m.appeal? = none := by
  cases h <;> simp

theorem appeals_conclude (id : NodeId) (p : Proposer V) (c : Ballot) (value : V)
    (reports : List (Report V)) (r : Remark V) :
    appeals (Effect.events id (.note r :: (p.conclude c value reports).2)) =
      p.acceptors.map fun a => (a, c) := by
  rw [appeals_events, Effect.messages_note, Proposer.messages_conclude, List.filterMap_map]
  exact congrFun (List.filterMap_eq_map (f := fun a => (a, c))) p.acceptors

namespace World

def Unrepeated (w : World V) : Prop := (appeals w.log).Nodup

variable {s : Setup V} {w : World V}

theorem Unrepeated.settle (h : w.Unrepeated) {n : Node V} {rest : Multiset (Message V)}
    {effects : List (Effect V)} (hsent : ∀ m ∈ Effect.messages n.id effects, m.appeal? = none) :
    ({ w with flight := rest }.settle n effects).Unrepeated := by
  unfold Unrepeated World.settle
  rw [appeals_append, appeals_events_eq_nil hsent, List.append_nil]
  exact h

/-- A round that still collects promises has asked nobody for a vote. -/
theorem Sound.appeal_notMem (hw : w.Sound s) {id : NodeId} {p : Proposer V}
    (hp : p.Sound s w.log id) {c : Ballot} {value : V} {reports : List (Report V)}
    (hc : p.current = some c) (hphase : p.phase = .preparing value reports) (a : NodeId) :
    (a, c) ∉ appeals w.log := by
  intro happeal
  obtain ⟨sender, vote, rfl, hsent⟩ := mem_appeals.mp happeal
  obtain ⟨-, -, hasked⟩ := hw.justified _ hsent
  obtain ⟨v, hstarted⟩ := hp.faithful.current hc
  obtain ⟨hself, -, -⟩ := hp.faithful.started hstarted
  have hmem : .promiseQuorum vote ∈ history id w.log := mem_history.mpr ⟨rfl, hself ▸ hasked⟩
  exact hp.faithful.not_asked hc hphase hmem rfl

theorem Unrepeated.step [Value V] (h : w.Unrepeated) (hw : w.Sound s) {w' : World V}
    (hmove : Move w w') : w'.Unrepeated := by
  cases hmove with
  | @acceptor n a a' m rest effects hn hup hf hr hm hflight hreaction =>
    exact h.settle (hreaction.appeal?_eq_none n.id)
  | @learner n l l' m rest effects hn hup hf hr hm hflight hreaction =>
    exact h.settle (hreaction.appeal?_eq_none n.id)
  | @proposer n p p' m rest effects hn hup hf hr hm hflight hreaction =>
    have hp := hw.proposer hn hr
    obtain ⟨sender, receiver, body⟩ := m
    cases hreaction with
    | @conclude acc c value reports hc hphase hn =>
      unfold Unrepeated World.settle
      rw [appeals_append, appeals_conclude, List.nodup_append]
      refine ⟨h, ?_, ?_⟩
      · rw [hp.acceptors]
        exact (Setup.nodup_acceptors hw.nodup).map fun _ _ heq => congrArg Prod.fst heq
      · rintro _ hold _ hnew rfl
        obtain ⟨a, -, rfl⟩ := List.mem_map.mp hnew
        exact hw.appeal_notMem hp hc hphase a hold
    | _ => exact h.settle (by simp)
  | start hn hup hf hr hstart =>
    obtain ⟨-, -, -, -, rfl⟩ := Proposer.start_eq_started hstart
    exact h.settle (by simp [Message.appeal?])
  | aside haside =>
    obtain ⟨later, hlog, hroutine⟩ := haside.exists_routine
    unfold Unrepeated
    rw [hlog, appeals_append, appeals_eq_nil_of_routine hroutine, List.append_nil]
    exact h

end World

/-! ## Uniqueness in a run -/

namespace Cluster

variable [Value V] [LawfulValue V] [Shuffler σ] {s : Setup V} {bus order : σ} {c : Cluster V σ}

theorem nodup_appeals_run (h : create s bus order = .ok c) (ops : List (Operation V)) :
    (appeals (c.run ops).log.toList).Nodup := by
  apply invariant_run h (P := World.Unrepeated)
  · obtain ⟨-, -, -, hlog⟩ := create_eq_ok h
    unfold World.Unrepeated world
    rw [hlog]
    exact List.nodup_nil
  · intro w w' hw hunrepeated hmove
    exact hunrepeated.step hw hmove

theorem Holds.unique (h : create s bus order = .ok c) (ops later : List (Operation V))
    {u v : Vote V} (hu : (c.run ops).Holds u) (hv : (c.run (ops ++ later)).Holds v)
    (heq : u.ballot = v.ballot) : u = v := by
  have hw := sound_run h (ops ++ later)
  have hasked := hu.asked (sound_run h ops) (backed_run h ops)
  exact hw.asked_unique (c.log_subset_run ops later hasked) (hv.asked hw (backed_run h _)) heq

/-- The vote of an acceptor stays, or a vote of a later ballot takes its place. -/
theorem exists_later_vote (h : create s bus order = .ok c) (ops later : List (Operation V))
    {id : NodeId} {a : Acceptor V} (ha : (c.run ops).acceptor? id = some a) {u : Vote V}
    (hu : a.pledge.accepted = some u) :
    ∃ a' v, (c.run (ops ++ later)).acceptor? id = some a' ∧ a'.pledge.accepted = some v ∧
      (v = u ∨ u.ballot < v.ballot) := by
  have hsound : a.Sound s (c.run ops).world.log id := (sound_run h ops).of_acceptor ha
  have hw := sound_run h (ops ++ later)
  obtain ⟨sender, hmem⟩ := mem_of_lastVote (hsound.faithful.accepted_eq.symm.trans hu)
  have hlater := c.log_subset_run ops later (mem_history.mp hmem).2
  obtain ⟨a', ha'⟩ := hw.exists_acceptor hsound.mem
  obtain ⟨v, hv, hle⟩ :=
    (hw.of_acceptor ha').faithful.voted_le (mem_history.mpr ⟨rfl, hlater⟩)
  refine ⟨a', v, ha', hv, ?_⟩
  rcases hle.eq_or_lt with heq | hlt
  · exact .inl (Holds.unique h ops later (.accepted ha hu) (.accepted ha' hv) heq).symm
  · exact .inr hlt

/-- No acceptor is asked twice under one ballot, votes of one ballot are the same at all times of a
run, and the vote of an acceptor gives way only to votes of later ballots. -/
theorem one_vote_per_ballot (h : create s bus order = .ok c) (ops later : List (Operation V)) :
    (appeals (c.run ops).log.toList).Nodup ∧
    (∀ u v, (c.run ops).Holds u → (c.run (ops ++ later)).Holds v → u.ballot = v.ballot → u = v) ∧
    ∀ id a u, (c.run ops).acceptor? id = some a → a.pledge.accepted = some u →
      ∃ a' v, (c.run (ops ++ later)).acceptor? id = some a' ∧ a'.pledge.accepted = some v ∧
        (v = u ∨ u.ballot < v.ballot) := by
  refine ⟨nodup_appeals_run h ops, fun u v => Holds.unique h ops later, ?_⟩
  intro id a u ha hu
  exact exists_later_vote h ops later ha hu

/-- The first acceptor votes in the first round and again in the later one. -/
theorem one_vote_per_ballot_of_rival :
    (((ofTrio []).run firstRound).acceptor? ⟨"A1"⟩).bind (fun a => a.pledge.accepted) =
        some ⟨⟨1, ⟨"P1"⟩⟩, "x"⟩ ∧
      ∃ a v, ((ofTrio []).run (firstRound ++ laterRound)).acceptor? ⟨"A1"⟩ = some a ∧
        a.pledge.accepted = some v ∧ (v = ⟨⟨1, ⟨"P1"⟩⟩, "x"⟩ ∨ ⟨1, ⟨"P1"⟩⟩ < v.ballot) := by
  have hheld : (((ofTrio []).run firstRound).acceptor? ⟨"A1"⟩).bind
      (fun a => a.pledge.accepted) = some ⟨⟨1, ⟨"P1"⟩⟩, "x"⟩ := by decide +kernel
  obtain ⟨a, ha, haccepted⟩ := Option.bind_eq_some_iff.mp hheld
  exact ⟨hheld, (one_vote_per_ballot (create_trio []) firstRound laterRound).2.2 _ a _ ha haccepted⟩

end Cluster

end Synod
