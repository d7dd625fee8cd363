import Synod.Proofs.Provenance

/-! Certificates. When a vote is asked for, a quorum has promised its ballot, and when a vote is
learned, a quorum has cast it; each at that moment of the log, and not only by now. An acceptor that
has taken part in such a quorum is bound to the ballot from then on. -/

namespace Synod

variable {V σ : Type}

/-! ## Events with their certificates -/

/-- What an event claims has come about in the log before it. -/
def Event.Certified (s : Setup V) (before : List (Event V)) : Event V → Prop
  | .sent ⟨_, _, .accept vote⟩ => Elected s before vote
  | .remarked _ (.consensusReached vote) => Chosen s before vote
  | _ => True

theorem Event.Certified.mono {s : Setup V} {log log' : List (Event V)} (hsub : log ⊆ log')
    {e : Event V} (h : e.Certified s log) : e.Certified s log' := by
  unfold Event.Certified at h ⊢
  split at h
  · exact Elected.mono hsub h
  · exact Chosen.mono hsub h
  · trivial

/-- Every event of a log is certified by those before it. -/
def Certified (s : Setup V) (log : List (Event V)) : Prop :=
  ∀ before e after, log = before ++ e :: after → e.Certified s before

theorem Certified.append {s : Setup V} {log later : List (Event V)} (h : Certified s log)
    (hlater : ∀ e ∈ later, e.Certified s log) : Certified s (log ++ later) := by
  intro before e after hsplit
  -- Either the event is new and all of the old log comes before it, or it is of the old log.
  rcases List.append_eq_append_iff.mp hsplit with ⟨added, rfl, rfl⟩ | ⟨rest, rfl, hrest⟩
  · exact (hlater e (by simp)).mono (List.subset_append_left _ _)
  · cases rest with
    | nil =>
      obtain rfl : later = e :: after := hrest.symm
      simpa using hlater e List.mem_cons_self
    | cons first rest =>
      obtain ⟨rfl, -⟩ := List.cons.inj hrest
      exact h before e rest rfl

theorem Event.Routine.certified {e : Event V} (h : e.Routine) (s : Setup V)
    (log : List (Event V)) : e.Certified s log := by
  cases h with
  | @remarked n r hr => cases r <;> trivial
  | _ => trivial

namespace World

variable {s : Setup V} {w : World V}

theorem certified_settle (h : Certified s w.log) {n : Node V} {rest : Multiset (Message V)}
    {effects : List (Effect V)}
    (heffects : ∀ effect ∈ effects, (effect.event n.id).Certified s w.log) :
    Certified s ({ w with flight := rest }.settle n effects).log := by
  apply h.append
  intro e he
  obtain ⟨effect, heffect, rfl⟩ := List.mem_map.mp he
  exact heffects effect heffect

theorem certified_acceptor {a a' : Acceptor V} {sender : NodeId} {body : Body V}
    {effects : List (Effect V)} (h : a.Reaction sender body a' effects) (id : NodeId) :
    ∀ effect ∈ effects, (effect.event id).Certified s w.log := by
  cases h <;> simp [Effect.event, Event.Certified, Effect.broadcast]

theorem Sound.certified_learner [Value V] [LawfulValue V] {id : NodeId} {l l' : Learner V}
    (hl : l.Sound s w.log id) {sender : NodeId} {body : Body V} {effects : List (Effect V)}
    (hm : (⟨sender, id, body⟩ : Message V).Justified s w.log)
    (h : l.Reaction sender body l' effects) :
    ∀ effect ∈ effects, (effect.event id).Certified s w.log := by
  cases h with
  | decide hnone hs ht hn =>
    simpa [Effect.event, Event.Certified] using hl.chosen hnone ht hn hm
  | _ => simp [Effect.event, Event.Certified]

theorem Sound.certified_proposer [Value V] (hw : w.Sound s) {id : NodeId} {p p' : Proposer V}
    (hp : p.Sound s w.log id) {sender : NodeId} {body : Body V} {effects : List (Effect V)}
    (hm : (⟨sender, id, body⟩ : Message V).Justified s w.log)
    (h : p.Reaction sender body p' effects) :
    ∀ effect ∈ effects, (effect.event id).Certified s w.log := by
  cases h with
  | conclude hc hphase hn =>
    have hended := Proposer.forall_mem_conclude (p := p) (P := fun effect =>
      (effect.event id).Certified s w.log) (fun _ => trivial) trivial
        fun _ _ => hw.elected hp hc hphase hn hm
    intro effect heffect
    rcases List.mem_cons.mp heffect with rfl | heffect
    · trivial
    · exact hended effect heffect
  | _ => simp [Effect.event, Event.Certified]

theorem certified_step [Value V] [LawfulValue V] (h : Certified s w.log) (hw : w.Sound s)
    {w' : World V} (hmove : Move w w') : Certified s w'.log := by
  cases hmove with
  | @acceptor n a a' m rest effects hn hup hf hr hm hflight hreaction =>
    exact certified_settle h (certified_acceptor hreaction n.id)
  | @learner n l l' m rest effects hn hup hf hr hm hflight hreaction =>
    have hjustified := hw.message hflight
    obtain ⟨sender, receiver, body⟩ := m
    obtain rfl : receiver = n.id := hm
    exact certified_settle h (Sound.certified_learner (hw.learner hn hr) hjustified hreaction)
  | @proposer n p p' m rest effects hn hup hf hr hm hflight hreaction =>
    have hjustified := hw.message hflight
    obtain ⟨sender, receiver, body⟩ := m
    obtain rfl : receiver = n.id := hm
    exact certified_settle h (hw.certified_proposer (hw.proposer hn hr) hjustified hreaction)
  | start hn hup hf hr hstart =>
    obtain ⟨-, -, -, -, rfl⟩ := Proposer.start_eq_started hstart
    exact certified_settle h (by simp [Effect.event, Event.Certified, Effect.broadcast])
  | aside haside =>
    obtain ⟨later, hlog, hroutine⟩ := haside.exists_routine
    rw [hlog]
    exact h.append fun e he => (hroutine e he).certified s w.log

end World

/-! ## Acceptors that are bound -/

namespace Cluster

/-- An acceptor has promised a ballot or a later one. -/
def BoundTo (c : Cluster V σ) (a : NodeId) (b : Ballot) : Prop :=
  ∃ state m, c.acceptor? a = some state ∧ state.pledge.promised = some m ∧ b ≤ m

/-- An acceptor has voted under a ballot or a later one. -/
def VotedFrom (c : Cluster V σ) (a : NodeId) (b : Ballot) : Prop :=
  ∃ state vote, c.acceptor? a = some state ∧ state.pledge.accepted = some vote ∧ b ≤ vote.ballot

section

variable {c : Cluster V σ} {s : Setup V} (hw : c.world.Sound s)
include hw

theorem boundTo_of_promised {a : NodeId} {b : Ballot} {held : Option (Vote V)}
    (h : Promised c.log.toList a b held) : c.BoundTo a b := by
  obtain ⟨state, ha⟩ := hw.exists_acceptor (hw.mem_of_promised h)
  obtain ⟨sender, hmem⟩ := h
  have hbound : Bound (history a c.world.log) b :=
    .inl ⟨sender, held, mem_history.mpr ⟨rfl, hmem⟩⟩
  obtain ⟨m, hm, hle⟩ := (hw.of_acceptor ha).faithful.bound_le hbound
  exact ⟨state, m, ha, hm, hle⟩

/-- Whoever has voted is bound to the ballot, and votes under no earlier one. -/
theorem boundTo_of_voted {a : NodeId} {vote : Vote V} (h : Voted c.log.toList a vote) :
    c.BoundTo a vote.ballot ∧ c.VotedFrom a vote.ballot := by
  obtain ⟨state, ha⟩ := hw.exists_acceptor (hw.mem_of_voted h)
  obtain ⟨sender, hmem⟩ := h
  have hmem : .accepted sender vote ∈ history a c.world.log := mem_history.mpr ⟨rfl, hmem⟩
  have hfaithful := (hw.of_acceptor ha).faithful
  obtain ⟨m, hm, hle⟩ := hfaithful.bound_le (.inr ⟨sender, vote, hmem, rfl⟩)
  obtain ⟨last, hlast, hlater⟩ := hfaithful.voted_le hmem
  exact ⟨⟨state, m, ha, hm, hle⟩, state, last, ha, hlast, hlater⟩

end

/-! ## Certificates of a run -/

variable [Value V] [LawfulValue V] [Shuffler σ] {s : Setup V} {bus order : σ} {c : Cluster V σ}

theorem certified_run (h : create s bus order = .ok c) (ops : List (Operation V)) :
    Certified s (c.run ops).log.toList := by
  apply invariant_run h (P := fun w => Certified s w.log)
  · intro before e after hsplit
    obtain ⟨-, -, -, hlog⟩ := create_eq_ok h
    obtain ⟨-, rfl, -⟩ : before = [] ∧ e = .created ∧ after = [] := by
      simpa [world, hlog, List.append_eq_singleton_iff, eq_comm] using hsplit
    trivial
  · intro w w' hw hcertified hmove
    exact World.certified_step hcertified hw hmove

/-- Where a vote is asked for, a quorum has promised its ballot by then, and every member is bound
to it in all runs in which the same has been logged. -/
theorem quorum_of_asking (h : create s bus order = .ok c) (ops : List (Operation V))
    {before after : List (Event V)} {sender receiver : NodeId} {vote : Vote V}
    (hlog : (c.run ops).log.toList = before ++ .sent ⟨sender, receiver, .accept vote⟩ :: after) :
    ∃ quorum : List NodeId, quorum.Nodup ∧ quorumSize s.acceptors.length ≤ quorum.length ∧
      ∀ a ∈ quorum, a ∈ s.acceptors ∧ (∃ held, Promised before a vote.ballot held) ∧
        ∀ ops', before ⊆ (c.run ops').log.toList → (c.run ops').BoundTo a vote.ballot := by
  obtain ⟨value, reports, hnodup, hlength, hcounted, -⟩ := certified_run h ops before _ after hlog
  have hsub : before ⊆ (c.run ops).log.toList := by simp [hlog]
  refine ⟨reports.map Report.sender, hnodup, by simpa using hlength, fun a ha => ?_⟩
  obtain ⟨report, hreport, rfl⟩ := List.mem_map.mp ha
  obtain ⟨held, hpromised, -⟩ := hcounted report hreport
  refine ⟨(sound_run h ops).mem_of_promised (hpromised.mono hsub), ⟨held, hpromised⟩, ?_⟩
  intro ops' hops'
  exact boundTo_of_promised (sound_run h ops') (hpromised.mono hops')

/-- Where a vote was learned, a quorum had cast it before, and every member is bound to its ballot
and votes under no earlier one. -/
theorem quorum_of_learned (h : create s bus order = .ok c) (ops : List (Operation V))
    {id : NodeId} {l : Learner V} {vote : Vote V} (hl : (c.run ops).learner? id = some l)
    (hvote : l.learned = some vote) :
    ∃ before after, (c.run ops).log.toList =
        before ++ .remarked id (.consensusReached vote) :: after ∧
      ∃ quorum : List NodeId, quorum.Nodup ∧ quorumSize s.acceptors.length ≤ quorum.length ∧
        ∀ a ∈ quorum, a ∈ s.acceptors ∧ Voted before a vote ∧
          (c.run ops).BoundTo a vote.ballot ∧ (c.run ops).VotedFrom a vote.ballot := by
  have hw := sound_run h ops
  obtain ⟨before, after, hlog⟩ := List.append_of_mem (hw.learned_of_learner hl hvote)
  obtain ⟨quorum, hnodup, hlength, hvoted⟩ := certified_run h ops before _ after hlog
  have hsub : before ⊆ (c.run ops).world.log := by simp [hlog]
  refine ⟨before, after, hlog, quorum, hnodup, hlength, fun a ha => ?_⟩
  have hnow := (hvoted a ha).mono hsub
  exact ⟨hw.mem_of_voted hnow, hvoted a ha, boundTo_of_voted hw hnow⟩

/-- Every count that lets a run go on is that of acceptors which have done what they are counted
for. -/
theorem quorum_certificates (h : create s bus order = .ok c) (ops : List (Operation V)) :
    (∀ before sender receiver vote after,
      (c.run ops).log.toList = before ++ .sent ⟨sender, receiver, .accept vote⟩ :: after →
      ∃ quorum : List NodeId, quorum.Nodup ∧ quorumSize s.acceptors.length ≤ quorum.length ∧
        ∀ a ∈ quorum, a ∈ s.acceptors ∧ (∃ held, Promised before a vote.ballot held) ∧
          ∀ ops', before ⊆ (c.run ops').log.toList → (c.run ops').BoundTo a vote.ballot) ∧
    (∀ id l vote, (c.run ops).learner? id = some l → l.learned = some vote →
      ∃ before after, (c.run ops).log.toList =
          before ++ .remarked id (.consensusReached vote) :: after ∧
        ∃ quorum : List NodeId, quorum.Nodup ∧ quorumSize s.acceptors.length ≤ quorum.length ∧
          ∀ a ∈ quorum, a ∈ s.acceptors ∧ Voted before a vote ∧
            (c.run ops).BoundTo a vote.ballot ∧ (c.run ops).VotedFrom a vote.ballot) ∧
    ∀ id p a, (c.run ops).proposer? id = some p → a ∈ p.acceptedBy →
      ∃ vote, p.lastAccept = some vote ∧ Voted (c.run ops).log.toList a vote := by
  refine ⟨?_, ?_, ?_⟩
  · intro before sender receiver vote after hlog
    exact quorum_of_asking h ops hlog
  · intro id l vote hl hvote
    exact quorum_of_learned h ops hl hvote
  · intro id p a hp ha
    exact ((backed_run h ops).of_proposer hp).confirmed ha

/-- The first learner holds the vote of the first round, also after the later one. -/
theorem quorum_certificates_of_rival :
    (((ofTrio []).run (firstRound ++ laterRound)).learner? ⟨"L1"⟩).bind Learner.learned =
        some ⟨⟨1, ⟨"P1"⟩⟩, "x"⟩ ∧
      ∃ quorum : List NodeId, quorum.Nodup ∧ 2 ≤ quorum.length ∧ ∀ a ∈ quorum,
        a ∈ trio.acceptors ∧
          ((ofTrio []).run (firstRound ++ laterRound)).VotedFrom a ⟨1, ⟨"P1"⟩⟩ := by
  have hheld : (((ofTrio []).run (firstRound ++ laterRound)).learner? ⟨"L1"⟩).bind
      Learner.learned = some ⟨⟨1, ⟨"P1"⟩⟩, "x"⟩ := by decide +kernel
  obtain ⟨l, hl, hlearned⟩ := Option.bind_eq_some_iff.mp hheld
  obtain ⟨before, after, hlog, quorum, hnodup, hlength, hmembers⟩ :=
    (quorum_certificates (create_trio []) (firstRound ++ laterRound)).2.1 _ l _ hl hlearned
  refine ⟨hheld, quorum, hnodup, hlength, fun a ha => ?_⟩
  exact ⟨(hmembers a ha).1, (hmembers a ha).2.2.2⟩

end Cluster

end Synod
