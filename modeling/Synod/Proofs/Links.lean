import Synod.Proofs.Opening

/-! What goes over the links between nodes. A proposer sends its rounds in their order, so where
every link keeps the order of its messages no prepare is handled after a message of a later round of
the same proposer. -/

namespace Synod

variable {V σ : Type}

/-! ## What is sent and what is handled -/

/-- The body of the message that an event records as sent from `x` to `y`. -/
def Event.sent? (x y : NodeId) : Event V → Option (Body V)
  | .sent m => if m.sender = x ∧ m.receiver = y then some m.body else none
  | _ => none

/-- The body of the message from `x` that an event records as handled by the acceptor `y`. -/
def Event.handled? (x y : NodeId) : Event V → Option (Body V)
  | .remarked n (.received sender body) => if sender = x ∧ n = y then some body else none
  | _ => none

def sentOver (x y : NodeId) (log : List (Event V)) : List (Body V) :=
  log.filterMap (Event.sent? x y)

def handledOver (x y : NodeId) (log : List (Event V)) : List (Body V) :=
  log.filterMap (Event.handled? x y)

@[simp] theorem sentOver_append (x y : NodeId) (log later : List (Event V)) :
    sentOver x y (log ++ later) = sentOver x y log ++ sentOver x y later :=
  List.filterMap_append

@[simp] theorem handledOver_append (x y : NodeId) (log later : List (Event V)) :
    handledOver x y (log ++ later) = handledOver x y log ++ handledOver x y later :=
  List.filterMap_append

theorem mem_sentOver {x y : NodeId} {log : List (Event V)} {body : Body V} :
    body ∈ sentOver x y log ↔ .sent ⟨x, y, body⟩ ∈ log := by
  rw [sentOver, List.mem_filterMap]
  constructor
  · rintro ⟨e, he, hbody⟩
    cases e with
    | sent m =>
      obtain ⟨⟨rfl, rfl⟩, rfl⟩ : (m.sender = x ∧ m.receiver = y) ∧ m.body = body := by
        simpa [Event.sent?] using hbody
      exact he
    | _ => simp [Event.sent?] at hbody
  · intro h
    exact ⟨_, h, by simp [Event.sent?]⟩

theorem mem_handledOver {x y : NodeId} {log : List (Event V)} {body : Body V} :
    body ∈ handledOver x y log ↔ .remarked y (.received x body) ∈ log := by
  rw [handledOver, List.mem_filterMap]
  constructor
  · rintro ⟨e, he, hbody⟩
    unfold Event.handled? at hbody
    split at hbody
    · rename_i n sender handled
      obtain ⟨⟨rfl, rfl⟩, rfl⟩ : (sender = x ∧ n = y) ∧ handled = body := by simpa using hbody
      exact he
    · simp at hbody
  · intro h
    exact ⟨_, h, by simp [Event.handled?]⟩

/-- Acceptors handle what comes over a link in the order in which it was sent. Messages may be lost
or still be in flight. -/
def InOrder (log : List (Event V)) : Prop :=
  ∀ x y, (handledOver x y log).Sublist (sentOver x y log)

def SingleRounds (log : List (Event V)) : Prop :=
  ∀ b c, Started log b → Started log c → b.proposer = c.proposer → b = c

/-! ## Rounds on a link -/

/-- A prepare that is sent later is of a later round. -/
def Body.Before (earlier later : Body V) : Prop :=
  ∀ b, later = .prepare b → earlier.ballot < b

/-- On every link a prepare is sent after all earlier rounds, and what an acceptor is bound to has
come over a link before. -/
structure Linked (log : List (Event V)) : Prop where
  rising (x y : NodeId) : (sentOver x y log).Pairwise Body.Before
  bound {a : NodeId} {b : Ballot} : Bound (history a log) b →
    ∃ body ∈ handledOver b.proposer a log, body.ballot = b
  overtaken {a : NodeId} {m b : Ballot} : Overtaken log a m b →
    ∃ body, body.ballot = b ∧ [body, .prepare m].Sublist (handledOver m.proposer a log)

/-- Where links keep their order, no round of a proposer overtakes an earlier one. -/
theorem Linked.not_overtaken {log : List (Event V)} (h : Linked log) (horder : InOrder log)
    (a : NodeId) (m b : Ballot) : ¬ Overtaken log a m b := by
  intro hover
  obtain ⟨body, rfl, hhandled⟩ := h.overtaken hover
  have hpair := (h.rising m.proposer a).sublist (hhandled.trans (horder m.proposer a))
  have hlt : body.ballot < m := List.rel_of_pairwise_cons hpair (by simp) m rfl
  exact hlt.not_gt ((Ballot.lt_iff_round hover.2.1).mpr hover.2.2)

theorem Linked.append {log later : List (Event V)} (h : Linked log)
    (hrising : ∀ x y, (sentOver x y (log ++ later)).Pairwise Body.Before)
    (hbound : ∀ a b, Bound (history a later) b →
      ∃ body ∈ handledOver b.proposer a (log ++ later), body.ballot = b)
    (hover : ∀ a m b, Overtaken later a m b →
      ∃ body, body.ballot = b ∧
        [body, .prepare m].Sublist (handledOver m.proposer a (log ++ later))) :
    Linked (log ++ later) := by
  refine ⟨hrising, fun {a b} hb => ?_, fun {a m b} hm => ?_⟩
  · rw [history_append] at hb
    rcases hb.of_append with hb | hb
    · obtain ⟨body, hmem, hballot⟩ := h.bound hb
      exact ⟨body, by simp [hmem], hballot⟩
    · exact hbound a b hb
  · obtain ⟨⟨sender, hmem⟩, hround⟩ := hm
    rcases List.mem_append.mp hmem with hmem | hmem
    · obtain ⟨body, hballot, hsub⟩ := h.overtaken ⟨⟨sender, hmem⟩, hround⟩
      rw [handledOver_append]
      exact ⟨body, hballot, hsub.trans (List.sublist_append_left ..)⟩
    · exact hover a m b ⟨⟨sender, hmem⟩, hround⟩

/-- Only a prepare has to come after what was sent before. -/
theorem Linked.rising_append {log later : List (Event V)} (h : Linked log)
    (hsent : ∀ x y b, .sent ⟨x, y, .prepare b⟩ ∉ later) (x y : NodeId) :
    (sentOver x y (log ++ later)).Pairwise Body.Before := by
  rw [sentOver_append, List.pairwise_append]
  refine ⟨h.rising x y, List.pairwise_of_forall_mem_list ?_, ?_⟩
  · rintro _ - _ hmem b rfl
    exact absurd (mem_sentOver.mp hmem) (hsent x y b)
  · rintro _ - _ hmem b rfl
    exact absurd (mem_sentOver.mp hmem) (hsent x y b)

/-! ## Every move -/

theorem Linked.settle {log : List (Event V)} (h : Linked log) {id : NodeId}
    {effects : List (Effect V)}
    (hsent : ∀ m ∈ Effect.messages id effects, m.request? = none)
    (hbound : ∀ b, Bound (Effect.steps effects) b →
      ∃ body ∈ handledOver b.proposer id (log ++ Effect.events id effects), body.ballot = b)
    (hover : ∀ sender m b, .note (.prepareRejected sender m b) ∈ effects →
      m.proposer = b.proposer → ∃ body, body.ballot = b ∧
        [body, .prepare m].Sublist (handledOver m.proposer id (log ++ Effect.events id effects))) :
    Linked (log ++ Effect.events id effects) := by
  refine h.append (h.rising_append fun x y b hmem => ?_) (fun a b hb => ?_) fun a m b hm => ?_
  · simpa [Message.request?] using hsent _ (Effect.sent_mem_events.mp hmem)
  · by_cases ha : a = id
    · subst ha
      exact hbound b (by rwa [Effect.history_events_self] at hb)
    · simp [Effect.history_events_of_ne ha, Bound] at hb
  · obtain ⟨⟨sender, hmem⟩, hproposer, -⟩ := hm
    obtain ⟨rfl, hnote⟩ := Effect.remarked_mem_events.mp hmem
    exact hover sender m b hnote hproposer

theorem Linked.learner [Value V] {log : List (Event V)} (h : Linked log) {id sender : NodeId}
    {l l' : Learner V} {body : Body V} {effects : List (Effect V)}
    (hreaction : l.Reaction sender body l' effects) : Linked (log ++ Effect.events id effects) := by
  cases hreaction <;>
    exact h.settle (by simp) (by simp [Bound, Effect.steps, Remark.isStep]) (by simp)

theorem Linked.proposer [Value V] {log : List (Event V)} (h : Linked log) {id sender : NodeId}
    {p p' : Proposer V} {body : Body V} {effects : List (Effect V)}
    (hreaction : p.Reaction sender body p' effects) : Linked (log ++ Effect.events id effects) := by
  cases hreaction with
  | conclude hc hphase hn =>
    refine h.settle ?_ ?_ ?_
    · simp [Proposer.messages_conclude, Message.request?]
    · rw [Effect.steps_note_of_not_step rfl, Proposer.steps_conclude]
      simp [Bound]
    · simp [Proposer.conclude_snd]
  | _ => exact h.settle (by simp) (by simp [Bound, Effect.steps, Remark.isStep]) (by simp)

theorem Linked.aside {w w' : World V} (h : Linked w.log) (haside : World.Aside w w') :
    Linked w'.log := by
  obtain ⟨later, hlog, hroutine⟩ := haside.exists_routine
  rw [hlog]
  refine h.append (h.rising_append ?_) ?_ ?_
  · intro x y b hmem
    cases hroutine _ hmem
  · intro a b hb
    simp [history_eq_nil_of_routine hroutine, Bound] at hb
  · rintro a m b ⟨⟨sender, hmem⟩, -⟩
    cases hroutine _ hmem with
    | remarked _ hstep => simp [Remark.isStep] at hstep

namespace World

variable {s : Setup V} {w : World V}

theorem Sound.linked_acceptor (hw : w.Sound s) (h : Linked w.log) {n : Node V}
    {a a' : Acceptor V} {m : Message V} {rest : Multiset (Message V)} {effects : List (Effect V)}
    (hn : w.node? n.id = some n) (hr : n.role = .acceptor a) (hflight : w.flight = m ::ₘ rest)
    (hreaction : a.Reaction m.sender m.body a' effects) :
    Linked (w.log ++ Effect.events n.id effects) := by
  have ha := hw.acceptor hn hr
  have hjustified := hw.message hflight
  obtain ⟨sender, receiver, body⟩ := m
  have hreceived : body ∈ handledOver sender n.id (Effect.events n.id effects) := by
    refine mem_handledOver.mpr (Effect.remarked_mem_events.mpr ⟨rfl, ?_⟩)
    cases hreaction <;> exact List.mem_cons_self
  cases hreaction with
  | @promise b hb =>
    obtain ⟨rfl, -, -⟩ := hjustified
    refine h.settle (by simp [Message.request?]) ?_ (by simp)
    intro c hc
    obtain rfl : c = b := by simpa [Bound, Effect.steps, Remark.isStep] using hc
    exact ⟨_, handledOver_append .. ▸ List.mem_append_right _ hreceived, rfl⟩
  | @refuse b m hm hle =>
    obtain ⟨hsender, -, -⟩ := hjustified
    refine h.settle (by simp [Message.request?]) (by simp [Bound, Effect.steps, Remark.isStep]) ?_
    intro asker c d hnote hproposer
    obtain ⟨-, rfl, rfl⟩ : asker = sender ∧ c = b ∧ d = m := by simpa using hnote
    -- What the acceptor is bound to was handled before the prepare that it refuses.
    obtain ⟨earlier, hearlier, hballot⟩ := h.bound (ha.faithful.bound hm)
    refine ⟨earlier, hballot, ?_⟩
    rw [handledOver_append]
    exact ((List.singleton_sublist.mpr (hproposer ▸ hearlier)).append
      (List.singleton_sublist.mpr (hsender ▸ hreceived)))
  | @vote vote hb =>
    obtain ⟨rfl, -, -⟩ := hjustified
    refine h.settle (by simp [Message.request?]) ?_ (by simp)
    intro c hc
    rw [Effect.steps_note_of_not_step rfl, Effect.steps_note_of_step rfl, Effect.steps_send,
      Effect.steps_broadcast] at hc
    obtain rfl : vote.ballot = c := by simpa [Bound] using hc
    exact ⟨_, handledOver_append .. ▸ List.mem_append_right _ hreceived, rfl⟩
  | decline hb hlt =>
    exact h.settle (by simp) (by simp [Bound, Effect.steps, Remark.isStep]) (by simp)
  | ignore hp hv =>
    exact h.settle (by simp) (by simp [Bound, Effect.steps, Remark.isStep]) (by simp)

theorem Sound.started_of_sent (hw : w.Sound s) {n : Node V} {p : Proposer V}
    (hn : w.node? n.id = some n) (hr : n.role = .proposer p) {receiver : NodeId} {body : Body V}
    (hmem : .sent ⟨n.id, receiver, body⟩ ∈ w.log) :
    body.ballot.proposer = n.id ∧ Started w.log body.ballot := by
  have hjustified : (⟨n.id, receiver, body⟩ : Message V).Justified s w.log := hw.justified _ hmem
  have hno : n.id ∉ s.acceptors := fun hmem =>
    hw.ne_of_mem_acceptors hmem (by simp [acceptor?, hn, Node.acceptor?, hr]) rfl
  cases body with
  | prepare b => exact ⟨hjustified.1.symm, hjustified.2.2⟩
  | accept vote => exact ⟨hjustified.1.symm, hw.started_of_asked hjustified.2.2⟩
  | promise b acc =>
    rcases hjustified with ⟨sender, hpromised⟩ | ⟨-, x, -, sender, hrefused⟩
    · exact absurd (hw.justified _ hpromised).1 hno
    · exact absurd (hw.justified _ hrefused).1 hno
  | accepted vote =>
    obtain ⟨sender, hvoted⟩ := hjustified
    exact absurd (hw.justified _ hvoted).1 hno
  | learn vote =>
    obtain ⟨sender, hvoted⟩ := hjustified
    exact absurd (hw.justified _ hvoted).1 hno

/-- A new round is sent to each acceptor once, after all earlier rounds. -/
theorem Sound.linked_start (hw : w.Sound s) (h : Linked w.log) {n : Node V} {p p' : Proposer V}
    {b : Ballot} {effects : List (Effect V)} (hn : w.node? n.id = some n)
    (hr : n.role = .proposer p) (hstart : p.start n.id = (p', effects, .started b)) :
    Linked (w.log ++ Effect.events n.id effects) := by
  have hp := hw.proposer hn hr
  obtain ⟨-, hself, hnext, -, rfl⟩ := Proposer.start_eq_started hstart
  obtain ⟨hround, -⟩ := Proposer.nextRound_eq_none hnext
  refine h.append (fun x y => ?_) (fun a c hc => ?_) fun a m c hm => ?_
  · rw [sentOver_append, List.pairwise_append]
    refine ⟨h.rising x y, ?_, ?_⟩
    · have hnodup : p.acceptors.Nodup := hp.acceptors ▸ Setup.nodup_acceptors hw.nodup
      simp only [sentOver, Effect.events, Effect.broadcast, List.map_cons, List.map_map]
      rw [List.pairwise_filterMap, List.pairwise_cons, List.pairwise_map]
      refine ⟨by simp [Effect.event, Event.sent?], hnodup.imp fun {i j} hne => ?_⟩
      simp only [Function.comp_apply, Effect.event, Event.sent?, Option.ite_none_right_eq_some]
      rintro _ ⟨⟨-, rfl⟩, -⟩ _ ⟨⟨-, rfl⟩, -⟩
      exact absurd rfl hne
    · intro earlier hearlier later hlater c hc
      have hsent := Effect.sent_mem_events.mp (mem_sentOver.mp hlater)
      simp only [Effect.messages_note, Effect.messages_broadcast, List.mem_map] at hsent
      obtain ⟨a, -, heq⟩ := hsent
      obtain ⟨rfl, rfl, rfl⟩ := Message.mk.inj heq
      obtain rfl : b = c := by simpa using hc
      obtain ⟨hproposer, value, hstarted⟩ := hw.started_of_sent hn hr (mem_sentOver.mp hearlier)
      obtain ⟨-, hle, -⟩ := hp.faithful.started (mem_history.mpr ⟨rfl, hproposer ▸ hstarted⟩)
      exact (Ballot.lt_iff_round (hproposer.trans hself.symm)).mpr (hle.trans_lt hround)
  · by_cases ha : a = n.id
    · subst ha
      rw [Effect.history_events_self, Effect.steps_note_of_step rfl, Effect.steps_broadcast] at hc
      simp [Bound] at hc
    · simp [Effect.history_events_of_ne ha, Bound] at hc
  · obtain ⟨⟨sender, hmem⟩, -⟩ := hm
    simpa using (Effect.remarked_mem_events.mp hmem).2

variable [Value V]

theorem Sound.linked_move (hw : w.Sound s) (h : Linked w.log) {w' : World V} (hmove : Move w w') :
    Linked w'.log := by
  cases hmove with
  | @acceptor n a a' m rest effects hn _ _ hr _ hflight hreaction =>
    exact hw.linked_acceptor (n := n) h hn hr hflight hreaction
  | learner _ _ _ _ _ _ hreaction => exact h.learner hreaction
  | proposer _ _ _ _ _ _ hreaction => exact h.proposer hreaction
  | @start n p p' b effects hn _ _ hr hstart => exact hw.linked_start (n := n) h hn hr hstart
  | aside haside => exact h.aside haside

end World

/-! ## Runs without overtaking -/

/-- A proposer with one round has none to overtake. -/
theorem World.Sound.not_overtaken {s : Setup V} {w : World V} (hw : w.Sound s)
    (h : SingleRounds w.log) (a : NodeId) (m b : Ballot) : ¬ Overtaken w.log a m b := by
  rintro ⟨⟨sender, hrefused⟩, hproposer, hlt⟩
  obtain ⟨hmem, -, hm⟩ := hw.justified _ hrefused
  obtain ⟨state, ha⟩ := hw.exists_acceptor hmem
  obtain ⟨-, hbound⟩ := (hw.of_acceptor ha).faithful.refused (mem_history.mpr ⟨rfl, hrefused⟩)
  obtain rfl := h m b hm (hw.started_of_bound hbound) hproposer
  exact (UInt64.lt_irrefl _) hlt

namespace Cluster

variable [Value V] [LawfulValue V] [Shuffler σ] {s : Setup V} {bus order : σ} {c : Cluster V σ}

theorem linked_run (h : create s bus order = .ok c) (ops : List (Operation V)) :
    Linked (c.run ops).log.toList := by
  apply invariant_run h (P := fun w => Linked w.log)
  · obtain ⟨-, -, -, hlog⟩ := create_eq_ok h
    rw [show c.world.log = [.created] from hlog]
    refine ⟨fun x y => List.Pairwise.nil, ?_, ?_⟩
    · simp [Bound, history, Event.step?]
    · simp [Overtaken, Refused]
  · intro w w' hw hlinked hmove
    exact hw.linked_move hlinked hmove

end Cluster

end Synod
