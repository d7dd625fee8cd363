import Synod.Proofs.Agreement

/-! Nothing is forgotten while no fault stops a node: whatever a round still waits for is in flight.
So where nothing is in flight, the latest round has been through. -/

namespace Synod

variable {V σ : Type}

/-! ## What a handler does with the message it is given -/

/-- Every prepare is answered, and the answer names no earlier ballot. -/
theorem Acceptor.Reaction.answer {a a' : Acceptor V} {sender : NodeId} {b : Ballot}
    {effects : List (Effect V)} (h : a.Reaction sender (.prepare b) a' effects) :
    (∃ r, .note r ∈ effects ∧ r.answers? = some b) ∧
      ∃ x acc, b ≤ x ∧ .send sender (.promise x acc) ∈ effects := by
  cases h with
  | promise hb =>
    exact ⟨⟨.promised sender b a.pledge.accepted, by simp, rfl⟩,
      b, a.pledge.accepted, le_rfl, by simp⟩
  | @refuse b m hm hle =>
    exact ⟨⟨.prepareRejected sender b m, by simp, rfl⟩, m, none, hle, by simp⟩
  | ignore hp hv => exact absurd rfl (hp b)

/-- An accept is followed by a vote, unless the acceptor is bound to a later ballot. -/
theorem Acceptor.Reaction.consent {a a' : Acceptor V} {sender : NodeId} {vote : Vote V}
    {effects : List (Effect V)} (h : a.Reaction sender (.accept vote) a' effects) :
    .note (.accepted sender vote) ∈ effects ∨
      ∃ m, a.pledge.promised = some m ∧ vote.ballot < m := by
  cases h with
  | vote hb => exact .inl (by simp)
  | decline hm hlt => exact .inr ⟨_, hm, hlt⟩
  | ignore hp hv => exact absurd rfl (hv vote)

/-- Every vote is told to every learner. -/
theorem Acceptor.Reaction.learn {a a' : Acceptor V} {sender voter : NodeId} {body : Body V}
    {vote : Vote V} {effects : List (Effect V)} (h : a.Reaction sender body a' effects)
    (hvote : .note (.accepted voter vote) ∈ effects) :
    ∀ l ∈ a.learners, .send l (.learn vote) ∈ effects := by
  cases h with
  | vote hb =>
    obtain ⟨-, rfl⟩ : voter = sender ∧ vote = _ := by simpa using hvote
    exact fun l hl => by simp [Effect.broadcast, hl]
  | _ => simp at hvote

/-- A learner that goes on counting loses no voter, and counts the one it is told of. -/
theorem Learner.Reaction.counted [Value V] [LawfulValue V] {l l' : Learner V} {sender : NodeId}
    {body : Body V} {effects : List (Effect V)} (h : l.Reaction sender body l' effects)
    (hl' : l'.learned = none) :
    l.learned = none ∧
      (∀ count ∈ l.tally.counts, ∃ count' ∈ l'.tally.counts,
        count'.vote = count.vote ∧ count.voters ⊆ count'.voters) ∧
      ∀ vote, body = .learn vote → sender ∈ l.acceptors →
        ∃ count ∈ l'.tally.counts, count.vote = vote ∧ sender ∈ count.voters := by
  have hsame : ∀ count ∈ l.tally.counts, ∃ count' ∈ l.tally.counts,
      count'.vote = count.vote ∧ count.voters ⊆ count'.voters :=
    fun count hc => ⟨count, hc, rfl, List.Subset.refl _⟩
  cases h with
  | keep hsome => simp [hl'] at hsome
  | stranger hnone hs => exact ⟨hnone, hsame, fun _ _ hmem => absurd hmem hs⟩
  | ignore hbody => exact ⟨hl', hsame, fun vote hvote => absurd hvote (hbody vote)⟩
  | decide hnone hs ht hn => simp at hl'
  | @count vote tally n hnone hs ht hn =>
    obtain ⟨-, hadded⟩ := Tally.record_eq_ok ht
    refine ⟨hnone, fun count hc => hadded.voters_mono hc, ?_⟩
    rintro _ ⟨⟩ -
    obtain ⟨count, hc, hvote, hmem, -⟩ := hadded.voter_mem
    exact ⟨count, hc, hvote, hmem⟩

/-- A round that goes on keeps its reports, and records the sender of a promise that is not
earlier. -/
theorem Proposer.Reaction.gathered [Value V] {p p' : Proposer V} {sender : NodeId} {body : Body V}
    {effects : List (Effect V)} (h : p.Reaction sender body p' effects)
    (hp' : p'.isProposing = true) {b : Ballot} (hb : p'.current = some b) :
    p.isProposing = true ∧ p.current = some b ∧
      (∀ a ∈ p.reports.map Report.sender, a ∈ p'.reports.map Report.sender) ∧
      ∀ x acc, body = .promise x acc → b ≤ x → sender ∈ p'.reports.map Report.sender := by
  cases h with
  | early hc => simp [hc] at hb
  | late hidle => simp [isProposing, hidle] at hp'
  | abandon hc hphase hlt => simp [isProposing] at hp'
  | conclude hc hphase hn => simp [conclude_fst, isProposing] at hp'
  | @stale x acc c value reports hc hphase hlt =>
    refine ⟨hp', hb, fun a ha => ha, ?_⟩
    rintro _ _ ⟨⟩ hle
    obtain rfl := Option.some.inj (hc.symm.trans hb)
    exact absurd hlt hle.not_gt
  | @record acc c value reports hc hphase hn =>
    refine ⟨by simp [isProposing, hphase], hb, fun a ha => ?_, fun _ _ _ _ => ?_⟩
    · obtain ⟨report, hr, rfl⟩ := List.mem_map.mp ha
      have hold : report ∈ reports := by simpa [Proposer.reports, hphase] using hr
      by_cases hsender : report.sender = sender
      · exact List.mem_map.mpr ⟨⟨sender, acc⟩, by simp [Proposer.reports, addReport], hsender.symm⟩
      · exact List.mem_map.mpr ⟨report, by simp [Proposer.reports, addReport, hold, hsender], rfl⟩
    · exact List.mem_map.mpr ⟨⟨sender, acc⟩, by simp [Proposer.reports, addReport], rfl⟩
  | confirm hlast hballot hv => exact ⟨hp', hb, fun a ha => ha, by simp⟩
  | another => exact ⟨hp', hb, fun a ha => ha, by simp⟩
  | ignore hpromise haccepted =>
    exact ⟨hp', hb, fun a ha => ha, fun x acc hbody => absurd hbody (hpromise x acc)⟩

/-- A round ends by a promise of a later ballot, or asks every acceptor for a vote. -/
theorem Proposer.Reaction.ended [Value V] {p p' : Proposer V} {sender : NodeId} {body : Body V}
    {effects : List (Effect V)} (h : p.Reaction sender body p' effects)
    (hp : p.isProposing = true) {b : Ballot} (hb : p.current = some b) :
    (p'.isProposing = true ∧ p'.current = some b) ∨
      (∃ x acc, body = .promise x acc ∧ b < x) ∨
      ∃ vote, vote.ballot = b ∧ .note (.promiseQuorum vote) ∈ effects := by
  cases h with
  | abandon hc hphase hlt =>
    obtain rfl := Option.some.inj (hc.symm.trans hb)
    exact .inr (.inl ⟨_, _, rfl, hlt⟩)
  | @conclude acc c value reports hc hphase hn =>
    obtain rfl := Option.some.inj (hc.symm.trans hb)
    exact .inr (.inr ⟨_, rfl, by simp [conclude_snd]; rfl⟩)
  | record hc hphase hn => exact .inl ⟨rfl, hb⟩
  | _ => exact .inl ⟨hp, hb⟩

theorem Proposer.Reaction.accept [Value V] {p p' : Proposer V} {sender : NodeId} {body : Body V}
    {effects : List (Effect V)} (h : p.Reaction sender body p' effects) {vote : Vote V}
    (hvote : .note (.promiseQuorum vote) ∈ effects) :
    ∀ a ∈ p.acceptors, .send a (.accept vote) ∈ effects := by
  cases h with
  | conclude hc hphase hn =>
    obtain rfl : vote = _ := by simpa [conclude_snd] using hvote
    exact fun a ha => by simp [conclude_snd, Effect.broadcast, ha]
  | _ => simp at hvote

/-! ## What was done before -/

section

variable {log : List (Event V)} {n : NodeId} {effects : List (Effect V)}

theorem Started.of_append {b : Ballot} (h : Started (log ++ Effect.events n effects) b)
    (hno : ∀ value, .note (.startingProposal b value) ∉ effects) : Started log b := by
  obtain ⟨value, hmem⟩ := h
  rcases List.mem_append.mp hmem with hold | hnew
  · exact ⟨value, hold⟩
  · exact absurd (Effect.remarked_mem_events.mp hnew).2 (hno value)

theorem Asked.of_append {vote : Vote V} (h : Asked (log ++ Effect.events n effects) vote)
    (hno : .note (.promiseQuorum vote) ∉ effects) : Asked log vote := by
  rcases List.mem_append.mp h with hold | hnew
  · exact hold
  · exact absurd (Effect.remarked_mem_events.mp hnew).2 hno

theorem Voted.of_append {a : NodeId} {vote : Vote V}
    (h : Voted (log ++ Effect.events n effects) a vote)
    (hno : a = n → ∀ sender, .note (.accepted sender vote) ∉ effects) : Voted log a vote := by
  obtain ⟨sender, hmem⟩ := h
  rcases List.mem_append.mp hmem with hold | hnew
  · exact ⟨sender, hold⟩
  · obtain ⟨ha, hnote⟩ := Effect.remarked_mem_events.mp hnew
    exact absurd hnote (hno ha sender)

theorem Answered.of_append {a : NodeId} {b : Ballot}
    (h : Answered (log ++ Effect.events n effects) a b)
    (hno : a = n → ∀ effect ∈ effects, effect.answers? ≠ some b) : Answered log a b := by
  obtain ⟨r, hmem, hanswers⟩ := h
  rcases List.mem_append.mp hmem with hold | hnew
  · exact ⟨r, hold, hanswers⟩
  · obtain ⟨ha, hnote⟩ := Effect.remarked_mem_events.mp hnew
    exact absurd hanswers (hno ha _ hnote)

end

/-! ## Rounds under way -/

/-- The round of a later ballot was started. -/
def Superseded (log : List (Event V)) (b : Ballot) : Prop :=
  ∃ later, b < later ∧ Started log later

theorem Superseded.mono {log log' : List (Event V)} (hsub : log ⊆ log') {b : Ballot}
    (h : Superseded log b) : Superseded log' b :=
  h.imp fun _ => .imp_right (·.mono hsub)

namespace World

/-- A proposer is collecting promises for a ballot. -/
def Preparing (w : World V) (b : Ballot) : Prop :=
  ∃ p, w.proposer? b.proposer = some p ∧ p.isProposing = true ∧ p.current = some b

structure Underway (s : Setup V) (w : World V) : Prop where
  asked {b : Ballot} {a : NodeId} : Started w.log b → a ∈ s.acceptors →
    (a, b) ∈ requests w.flight ∨ Answered w.log a b
  answered {id : NodeId} {p : Proposer V} {b : Ballot} {a : NodeId} :
    w.proposer? id = some p → p.isProposing = true → p.current = some b → Answered w.log a b →
      (∃ x acc, b ≤ x ∧ ⟨a, id, .promise x acc⟩ ∈ w.flight) ∨ a ∈ p.reports.map Report.sender
  round {b : Ballot} : Started w.log b →
    w.Preparing b ∨ (∃ vote, vote.ballot = b ∧ Asked w.log vote) ∨ Superseded w.log b
  vote {vote : Vote V} {a : NodeId} : Asked w.log vote → a ∈ s.acceptors →
    ⟨vote.ballot.proposer, a, .accept vote⟩ ∈ w.flight ∨ Voted w.log a vote ∨
      Superseded w.log vote.ballot
  count {a id : NodeId} {vote : Vote V} {l : Learner V} : Voted w.log a vote →
    w.learner? id = some l → l.learned = none →
      ⟨a, id, .learn vote⟩ ∈ w.flight ∨
        ∃ count ∈ l.tally.counts, count.vote = vote ∧ a ∈ count.voters

variable {s : Setup V} {w : World V}

theorem mem_flight_settle_of_send {n : Node V} {effects : List (Effect V)} {receiver : NodeId}
    {body : Body V} (h : .send receiver body ∈ effects) :
    ⟨n.id, receiver, body⟩ ∈ (w.settle n effects).flight :=
  Multiset.mem_add.mpr (.inr (Multiset.mem_coe.mpr
    (Effect.sent_mem_events.mp (List.mem_map.mpr ⟨_, h, rfl⟩))))

theorem Sound.started_of_promise (hw : w.Sound s) {sender receiver : NodeId} {b : Ballot}
    {acc : Option (Vote V)}
    (h : (⟨sender, receiver, .promise b acc⟩ : Message V).Justified s w.log) : Started w.log b := by
  rcases h with ⟨asker, hpromised⟩ | ⟨-, x, -, asker, hrefused⟩
  · exact (hw.justified _ hpromised).2.2
  · obtain ⟨a, ha⟩ := hw.exists_acceptor (hw.justified _ hrefused).1
    obtain ⟨-, hbound⟩ := (hw.of_acceptor ha).faithful.refused (mem_history.mpr ⟨rfl, hrefused⟩)
    exact hw.started_of_bound hbound

/-! ### What other nodes wait for -/

/-- One message is taken off the bus, and what was logged stays. -/
structure Takes (m : Message V) (w w' : World V) : Prop where
  log : w.log ⊆ w'.log
  flight {x : Message V} : x ∈ w.flight → x ≠ m → x ∈ w'.flight

theorem takes_settle {m : Message V} {rest : Multiset (Message V)}
    (hflight : w.flight = m ::ₘ rest) (n : Node V) (effects : List (Effect V)) :
    Takes m w ({ w with flight := rest }.settle n effects) := by
  refine ⟨List.subset_append_left _ _, fun {x} hx hne => ?_⟩
  rw [hflight, Multiset.mem_cons] at hx
  exact Multiset.mem_add.mpr (.inl (hx.resolve_left hne))

section

variable {m : Message V} {w' : World V} (hu : w.Underway s) (ht : Takes m w w')
include hu ht

theorem Underway.asked_of_ne {b : Ballot} {a : NodeId} (hb : Started w.log b)
    (ha : a ∈ s.acceptors) (hne : a ≠ m.receiver) :
    (a, b) ∈ requests w'.flight ∨ Answered w'.log a b := by
  refine (hu.asked hb ha).imp (fun hrequest => ?_) (·.mono ht.log)
  obtain ⟨x, hx, rfl, hbody⟩ := mem_requests.mp hrequest
  exact mem_requests.mpr ⟨x, ht.flight hx (ne_of_apply_ne Message.receiver hne), rfl, hbody⟩

theorem Underway.answered_of_ne {id : NodeId} {p : Proposer V} {b : Ballot} {a : NodeId}
    (hp : w.proposer? id = some p) (hproposing : p.isProposing = true) (hb : p.current = some b)
    (h : Answered w.log a b) (hne : id ≠ m.receiver) :
    (∃ x acc, b ≤ x ∧ ⟨a, id, .promise x acc⟩ ∈ w'.flight) ∨
      a ∈ p.reports.map Report.sender := by
  refine (hu.answered hp hproposing hb h).imp_left ?_
  rintro ⟨x, acc, hle, hmem⟩
  exact ⟨x, acc, hle, ht.flight hmem (ne_of_apply_ne Message.receiver hne)⟩

theorem Underway.round_of_eq {b : Ballot} (hb : Started w.log b)
    (hsame : w'.proposer? = w.proposer?) :
    w'.Preparing b ∨ (∃ vote, vote.ballot = b ∧ Asked w'.log vote) ∨ Superseded w'.log b := by
  refine (hu.round hb).imp ?_
    (.imp (.imp fun _ => .imp_right (·.mono ht.log)) (·.mono ht.log))
  unfold Preparing
  rw [hsame]
  exact id

theorem Underway.vote_of_ne {vote : Vote V} {a : NodeId} (hasked : Asked w.log vote)
    (ha : a ∈ s.acceptors) (hne : a ≠ m.receiver) :
    ⟨vote.ballot.proposer, a, .accept vote⟩ ∈ w'.flight ∨ Voted w'.log a vote ∨
      Superseded w'.log vote.ballot :=
  (hu.vote hasked ha).imp (ht.flight · (ne_of_apply_ne Message.receiver hne))
    (.imp (·.mono ht.log) (·.mono ht.log))

theorem Underway.count_of_ne {a id : NodeId} {vote : Vote V} {l : Learner V}
    (hvoted : Voted w.log a vote) (hl : w.learner? id = some l) (hopen : l.learned = none)
    (hne : id ≠ m.receiver) :
    ⟨a, id, .learn vote⟩ ∈ w'.flight ∨
      ∃ count ∈ l.tally.counts, count.vote = vote ∧ a ∈ count.voters :=
  (hu.count hvoted hl hopen).imp_left (ht.flight · (ne_of_apply_ne Message.receiver hne))

end

/-! ### Steps -/

theorem Underway.acceptor_step (hu : w.Underway s) (hw : w.Sound s) {n : Node V}
    {a a' : Acceptor V} {m : Message V} {rest : Multiset (Message V)} {effects : List (Effect V)}
    (hn : w.node? n.id = some n) (hr : n.role = .acceptor a) (hm : m.receiver = n.id)
    (hflight : w.flight = m ::ₘ rest) (h : a.Reaction m.sender m.body a' effects) :
    ({ w with flight := rest }.settle { n with role := .acceptor a' } effects).Underway s := by
  have ha := hw.acceptor hn hr
  have hjustified := hw.message hflight
  have ht := takes_settle hflight { n with role := .acceptor a' } effects
  have hnoproposer : w.proposer? n.id = none := by simp [proposer?, hn, Node.proposer?, hr]
  have hnolearner : w.learner? n.id = none := by simp [learner?, hn, Node.learner?, hr]
  have hproposers := proposer?_settle_of_eq (w := { w with flight := rest })
    (n := { n with role := .acceptor a' }) hnoproposer.symm effects
  have hlearners := learner?_settle_of_eq (w := { w with flight := rest })
    (n := { n with role := .acceptor a' }) hnolearner.symm effects
  obtain ⟨sender, receiver, body⟩ := m
  obtain rfl : receiver = n.id := hm
  refine ⟨?_, ?_, ?_, ?_, ?_⟩
  · intro b x hstarted hx
    have hold : Started w.log b := hstarted.of_append fun _ => by cases h <;> simp
    rcases hu.asked hold hx with hrequest | hanswered
    · obtain ⟨message, hmem, rfl, hbody⟩ := mem_requests.mp hrequest
      by_cases heq : message = ⟨sender, n.id, body⟩
      -- The prepare is the message that is handled.
      · obtain rfl : body = .prepare b := (congrArg Message.body heq).symm.trans hbody
        obtain ⟨⟨r, hnote, hanswers⟩, -⟩ := h.answer
        exact .inr ⟨r, List.mem_append_right _ (Effect.remarked_mem_events.mpr
          ⟨congrArg Message.receiver heq, hnote⟩), hanswers⟩
      · exact .inl (mem_requests.mpr ⟨message, ht.flight hmem heq, rfl, hbody⟩)
    · exact .inr (hanswered.mono ht.log)
  · intro id p b x hp hproposing hb hanswered
    rw [hproposers] at hp
    have hne : id ≠ n.id := by
      rintro rfl
      exact absurd (hnoproposer.symm.trans hp) (by simp)
    by_cases hnew : x = n.id ∧ body = .prepare b
    -- The answer goes to the proposer of the ballot.
    · obtain ⟨rfl, rfl⟩ := hnew
      obtain ⟨hsender, -, -⟩ := hjustified
      have hp := hw.of_proposer hp
      obtain ⟨value, hstarted⟩ := hp.faithful.current hb
      obtain rfl : sender = id := hsender.trans (hp.faithful.started hstarted).1
      obtain ⟨-, y, acc, hle, hsend⟩ := h.answer
      exact .inl ⟨y, acc, hle, mem_flight_settle_of_send hsend⟩
    · have hold : Answered w.log x b := hanswered.of_append fun hx effect he heffect =>
        hnew ⟨hx, h.body_of_answers effect he b heffect⟩
      exact hu.answered_of_ne ht hp hproposing hb hold hne
  · intro b hstarted
    exact hu.round_of_eq ht (hstarted.of_append fun _ => by cases h <;> simp) hproposers
  · intro vote x hasked hx
    have hold : Asked w.log vote := hasked.of_append (by cases h <;> simp)
    rcases hu.vote hold hx with hmem | hvoted | hsuperseded
    · by_cases heq : (⟨vote.ballot.proposer, x, .accept vote⟩ : Message V) = ⟨sender, n.id, body⟩
      · obtain ⟨rfl, rfl, rfl⟩ := Message.mk.inj heq
        rcases h.consent with hnote | ⟨later, hlater, hlt⟩
        · exact .inr (.inl ⟨_, List.mem_append_right _
            (Effect.remarked_mem_events.mpr ⟨rfl, hnote⟩)⟩)
        · have hlater := hw.started_of_bound (ha.faithful.bound hlater)
          exact .inr (.inr ⟨later, hlt, hlater.mono ht.log⟩)
      · exact .inl (ht.flight hmem heq)
    · exact .inr (.inl (hvoted.mono ht.log))
    · exact .inr (.inr (hsuperseded.mono ht.log))
  · intro x id vote l hvoted hl hopen
    rw [hlearners] at hl
    have hne : id ≠ n.id := by
      rintro rfl
      exact absurd (hnolearner.symm.trans hl) (by simp)
    by_cases hnew : x = n.id ∧ ∃ sender, .note (.accepted sender vote) ∈ effects
    -- The vote is new, and every learner is told of it.
    · obtain ⟨rfl, sender, hnote⟩ := hnew
      have hmem : id ∈ a.learners := ha.learners ▸ (hw.of_learner hl).mem
      exact .inl (mem_flight_settle_of_send (h.learn hnote id hmem))
    · have hold : Voted w.log x vote :=
        hvoted.of_append fun hx voter hnote => hnew ⟨hx, voter, hnote⟩
      exact hu.count_of_ne ht hold hl hopen hne

theorem Underway.learner_step [Value V] [LawfulValue V] (hu : w.Underway s) (hw : w.Sound s)
    {n : Node V} {l l' : Learner V} {m : Message V} {rest : Multiset (Message V)}
    {effects : List (Effect V)} (hn : w.node? n.id = some n) (hr : n.role = .learner l)
    (hm : m.receiver = n.id) (hflight : w.flight = m ::ₘ rest)
    (h : l.Reaction m.sender m.body l' effects) :
    ({ w with flight := rest }.settle { n with role := .learner l' } effects).Underway s := by
  have hl : w.learner? n.id = some l := by simp [learner?, hn, Node.learner?, hr]
  have ht := takes_settle hflight { n with role := .learner l' } effects
  have hnoacceptor {x : NodeId} (hx : x ∈ s.acceptors) : x ≠ n.id :=
    hw.ne_of_mem_acceptors hx (by simp [acceptor?, hn, Node.acceptor?, hr])
  have hnoproposer : w.proposer? n.id = none := by simp [proposer?, hn, Node.proposer?, hr]
  have hproposers := proposer?_settle_of_eq (w := { w with flight := rest })
    (n := { n with role := .learner l' }) hnoproposer.symm effects
  obtain ⟨sender, receiver, body⟩ := m
  obtain rfl : receiver = n.id := hm
  refine ⟨?_, ?_, ?_, ?_, ?_⟩
  · intro b x hstarted hx
    have hold : Started w.log b := hstarted.of_append fun _ => by cases h <;> simp
    exact hu.asked_of_ne ht hold hx (hnoacceptor hx)
  · intro id p b x hp hproposing hb hanswered
    rw [hproposers] at hp
    have hne : id ≠ n.id := by
      rintro rfl
      exact absurd (hnoproposer.symm.trans hp) (by simp)
    have hold : Answered w.log x b := hanswered.of_append fun _ effect he =>
      by simp [h.answers?_eq_none effect he]
    exact hu.answered_of_ne ht hp hproposing hb hold hne
  · intro b hstarted
    exact hu.round_of_eq ht (hstarted.of_append fun _ => by cases h <;> simp) hproposers
  · intro vote x hasked hx
    have hold : Asked w.log vote := hasked.of_append (by cases h <;> simp)
    exact hu.vote_of_ne ht hold hx (hnoacceptor hx)
  · intro x id vote k hvoted hk hopen
    have hold : Voted w.log x vote := hvoted.of_append fun _ => by cases h <;> simp
    rw [learner?_settle] at hk
    by_cases hid : id = n.id
    -- The learner that handles the message counts the vote if it had not done so before.
    · subst hid
      obtain rfl : l' = k := by simpa [Node.learner?] using hk
      obtain ⟨hundecided, hcounts, hlearn⟩ := h.counted hopen
      rcases hu.count hold hl hundecided with hmem | ⟨count, hc, rfl, hx⟩
      · by_cases heq : (⟨x, n.id, .learn vote⟩ : Message V) = ⟨sender, n.id, body⟩
        · obtain ⟨rfl, -, rfl⟩ := Message.mk.inj heq
          refine .inr (hlearn vote rfl ?_)
          rw [(hw.of_learner hl).acceptors]
          exact hw.mem_of_voted hold
        · exact .inl (ht.flight hmem heq)
      · obtain ⟨count', hc', hvote, hvoters⟩ := hcounts count hc
        exact .inr ⟨count', hc', hvote, hvoters hx⟩
    · have hk : w.learner? id = some k := (Function.update_of_ne hid ..).symm.trans hk
      exact hu.count_of_ne ht hold hk hopen hid

theorem Underway.proposer_step [Value V] (hu : w.Underway s) (hw : w.Sound s)
    {n : Node V} {p p' : Proposer V} {m : Message V} {rest : Multiset (Message V)}
    {effects : List (Effect V)} (hn : w.node? n.id = some n) (hr : n.role = .proposer p)
    (hm : m.receiver = n.id) (hflight : w.flight = m ::ₘ rest)
    (h : p.Reaction m.sender m.body p' effects) :
    ({ w with flight := rest }.settle { n with role := .proposer p' } effects).Underway s := by
  have hp : w.proposer? n.id = some p := by simp [proposer?, hn, Node.proposer?, hr]
  have hw' := hw.proposer_step hn hr hm hflight h
  have hjustified := hw.message hflight
  have ht := takes_settle hflight { n with role := .proposer p' } effects
  have hnoacceptor {x : NodeId} (hx : x ∈ s.acceptors) : x ≠ n.id :=
    hw.ne_of_mem_acceptors hx (by simp [acceptor?, hn, Node.acceptor?, hr])
  have hnolearner : w.learner? n.id = none := by simp [learner?, hn, Node.learner?, hr]
  have hlearners := learner?_settle_of_eq (w := { w with flight := rest })
    (n := { n with role := .proposer p' }) hnolearner.symm effects
  obtain ⟨sender, receiver, body⟩ := m
  obtain rfl : receiver = n.id := hm
  refine ⟨?_, ?_, ?_, ?_, ?_⟩
  · intro b x hstarted hx
    have hold : Started w.log b := hstarted.of_append fun _ => by
      cases h <;> simp [Proposer.conclude_snd]
    exact hu.asked_of_ne ht hold hx (hnoacceptor hx)
  · intro id q b x hq hproposing hb hanswered
    have hold : Answered w.log x b := hanswered.of_append fun _ effect he =>
      by simp [h.answers?_eq_none effect he]
    rw [proposer?_settle] at hq
    by_cases hid : id = n.id
    · subst hid
      obtain rfl : p' = q := by simpa [Node.proposer?] using hq
      obtain ⟨hwas, hcurrent, hreports, hrecord⟩ := h.gathered hproposing hb
      rcases hu.answered hp hwas hcurrent hold with ⟨y, acc, hle, hmem⟩ | hreported
      · by_cases heq : (⟨x, n.id, .promise y acc⟩ : Message V) = ⟨sender, n.id, body⟩
        · obtain ⟨rfl, -, rfl⟩ := Message.mk.inj heq
          exact .inr (hrecord y acc rfl hle)
        · exact .inl ⟨y, acc, hle, ht.flight hmem heq⟩
      · exact .inr (hreports x hreported)
    · have hq : w.proposer? id = some q := (Function.update_of_ne hid ..).symm.trans hq
      exact hu.answered_of_ne ht hq hproposing hb hold hid
  · intro b hstarted
    have hold : Started w.log b := hstarted.of_append fun _ => by
      cases h <;> simp [Proposer.conclude_snd]
    rcases hu.round hold with ⟨q, hq, hproposing, hb⟩ | ⟨vote, hvote, hasked⟩ | hsuperseded
    · by_cases hid : b.proposer = n.id
      · obtain rfl : p = q := by simpa [hid, hp] using hq
        rcases h.ended hproposing hb with ⟨hstill, hcurrent⟩ | ⟨x, acc, rfl, hlt⟩ |
          ⟨vote, hvote, hnote⟩
        · refine .inl ⟨p', ?_, hstill, hcurrent⟩
          rw [proposer?_settle, hid]
          exact Function.update_self ..
        · exact .inr (.inr ⟨x, hlt, (hw.started_of_promise hjustified).mono ht.log⟩)
        · exact .inr (.inl ⟨vote, hvote, List.mem_append_right _
            (Effect.remarked_mem_events.mpr ⟨hvote ▸ hid, hnote⟩)⟩)
      · refine .inl ⟨q, ?_, hproposing, hb⟩
        rw [proposer?_settle]
        exact (Function.update_of_ne hid ..).trans hq
    · exact .inr (.inl ⟨vote, hvote, hasked.mono ht.log⟩)
    · exact .inr (.inr (hsuperseded.mono ht.log))
  · intro vote x hasked hx
    by_cases hnew : .note (.promiseQuorum vote) ∈ effects
    -- The vote is new, and every acceptor is asked for it.
    · obtain ⟨-, hself, -⟩ := hw'.justified _ (List.mem_append_right _
        (Effect.remarked_mem_events.mpr ⟨rfl, hnew⟩))
      refine .inl ?_
      rw [← hself]
      refine mem_flight_settle_of_send (h.accept hnew x ?_)
      rw [(hw.of_proposer hp).acceptors]
      exact hx
    · exact hu.vote_of_ne ht (hasked.of_append hnew) hx (hnoacceptor hx)
  · intro x id vote l hvoted hl hopen
    have hold : Voted w.log x vote := hvoted.of_append fun _ _ => by
      cases h <;> simp [Proposer.conclude_snd]
    rw [hlearners] at hl
    have hne : id ≠ n.id := by
      rintro rfl
      exact absurd (hnolearner.symm.trans hl) (by simp)
    exact hu.count_of_ne ht hold hl hopen hne

theorem Underway.start_step (hu : w.Underway s) (hw : w.Sound s) {n : Node V} {p p' : Proposer V}
    {b : Ballot} {effects : List (Effect V)} (hn : w.node? n.id = some n)
    (hr : n.role = .proposer p) (h : p.start n.id = (p', effects, .started b)) :
    (w.settle { n with role := .proposer p' } effects).Underway s := by
  have hp : w.proposer? n.id = some p := by simp [proposer?, hn, Node.proposer?, hr]
  have hsub : w.log ⊆ w.log ++ Effect.events n.id effects := List.subset_append_left _ _
  have hnew := (hw.of_proposer hp).not_started h
  have hkeep {x : Message V} (hx : x ∈ w.flight) :
      x ∈ (w.settle { n with role := .proposer p' } effects).flight :=
    Multiset.mem_add.mpr (.inl hx)
  have hnolearner : w.learner? n.id = none := by simp [learner?, hn, Node.learner?, hr]
  have hlearners := learner?_settle_of_eq (n := { n with role := .proposer p' })
    hnolearner.symm effects
  obtain ⟨hidle, hself, -, hp', heffects⟩ := Proposer.start_eq_started h
  have hold {c : Ballot} (hne : c ≠ b)
      (hstarted : Started (w.log ++ Effect.events n.id effects) c) : Started w.log c :=
    hstarted.of_append (by simp [heffects, hne])
  refine ⟨?_, ?_, ?_, ?_, ?_⟩
  · intro c x hstarted hx
    by_cases hc : c = b
    · subst hc
      refine .inl (mem_requests.mpr ⟨_, mem_flight_settle_of_send ?_, rfl, rfl⟩)
      simp [heffects, Effect.broadcast, (hw.of_proposer hp).acceptors, hx]
    · refine (hu.asked (hold hc hstarted) hx).imp (fun hrequest => ?_) (·.mono hsub)
      obtain ⟨message, hmem, hreceiver, hbody⟩ := mem_requests.mp hrequest
      exact mem_requests.mpr ⟨message, hkeep hmem, hreceiver, hbody⟩
  · intro id q c x hq hproposing hc hanswered
    have hanswered : Answered w.log x c := hanswered.of_append
      (by simp [heffects, Effect.answers?, Remark.answers?, Effect.broadcast])
    rw [proposer?_settle] at hq
    by_cases hid : id = n.id
    · subst hid
      obtain rfl : p' = q := by simpa [Node.proposer?] using hq
      obtain rfl : b = c := by simpa [hp'] using hc
      exact absurd (hw.started_of_answered hanswered) hnew
    · have hq : w.proposer? id = some q := (Function.update_of_ne hid ..).symm.trans hq
      refine (hu.answered hq hproposing hc hanswered).imp_left ?_
      rintro ⟨y, acc, hle, hmem⟩
      exact ⟨y, acc, hle, hkeep hmem⟩
  · intro c hstarted
    by_cases hc : c = b
    · subst hc
      refine .inl ⟨p', ?_, by simp [hp', Proposer.isProposing], by simp [hp']⟩
      rw [proposer?_settle, hself]
      exact Function.update_self ..
    · rcases hu.round (hold hc hstarted) with ⟨q, hq, hproposing, hcurrent⟩ | hrest
      · have hid : c.proposer ≠ n.id := by
          intro hid
          obtain rfl : p = q := by simpa [hid, hp] using hq
          simp [hidle] at hproposing
        refine .inl ⟨q, ?_, hproposing, hcurrent⟩
        rw [proposer?_settle]
        exact (Function.update_of_ne hid ..).trans hq
      · exact .inr (hrest.imp (.imp fun _ => .imp_right (·.mono hsub)) (·.mono hsub))
  · intro vote x hasked hx
    have hasked : Asked w.log vote := hasked.of_append (by simp [heffects])
    exact (hu.vote hasked hx).imp hkeep (.imp (·.mono hsub) (·.mono hsub))
  · intro x id vote l hvoted hl hopen
    have hvoted : Voted w.log x vote := hvoted.of_append (by simp [heffects])
    rw [hlearners] at hl
    exact (hu.count hvoted hl hopen).imp_left hkeep

/-- Nothing changes for a round where no message is taken, no step is made and no proposer changes
its round. -/
theorem Underway.quiet (hu : w.Underway s) {w' : World V} (hflight : w'.flight = w.flight)
    (hsub : w.log ⊆ w'.log)
    (hsteps : ∀ {id r}, r.isStep = true → .remarked id r ∈ w'.log → .remarked id r ∈ w.log)
    (hlearners : w'.learner? = w.learner?)
    (hproposers : ∀ id, (w'.proposer? id).map (fun p => (p.current, p.phase)) =
      (w.proposer? id).map (fun p => (p.current, p.phase))) : w'.Underway s := by
  have hstarted {b : Ballot} (h : Started w'.log b) : Started w.log b :=
    h.imp fun _ => hsteps rfl
  refine ⟨?_, ?_, ?_, ?_, ?_⟩
  · intro b a hb ha
    rw [hflight]
    exact (hu.asked (hstarted hb) ha).imp_right (·.mono hsub)
  · intro id p' b a hp' hproposing hb hanswered
    obtain ⟨p, hp, hsame⟩ :=
      Option.map_eq_some_iff.mp ((hproposers id).symm.trans (by rw [hp']; rfl))
    obtain ⟨hcurrent, hphase⟩ := Prod.mk.inj hsame
    have hold : Answered w.log a b := by
      obtain ⟨r, hr, hanswers⟩ := hanswered
      refine ⟨r, hsteps ?_ hr, hanswers⟩
      cases r <;> simp_all [Remark.answers?, Remark.isStep]
    rw [hflight]
    simp only [Proposer.reports, ← hphase]
    refine hu.answered hp ?_ (hcurrent.trans hb) hold
    simpa [Proposer.isProposing, hphase] using hproposing
  · intro b hb
    rcases hu.round (hstarted hb) with ⟨p, hp, hproposing, hcurrent⟩ | hrest
    · obtain ⟨p', hp', hsame⟩ := Option.map_eq_some_iff.mp ((hproposers _).trans (by rw [hp]; rfl))
      obtain ⟨hcurrent', hphase⟩ := Prod.mk.inj hsame
      refine .inl ⟨p', hp', ?_, hcurrent'.trans hcurrent⟩
      simpa [Proposer.isProposing, hphase] using hproposing
    · exact .inr (hrest.imp (.imp fun _ => .imp_right (·.mono hsub)) (·.mono hsub))
  · intro vote a hasked ha
    rw [hflight]
    exact (hu.vote (hsteps rfl hasked) ha).imp_right (.imp (·.mono hsub) (·.mono hsub))
  · intro a id vote l hvoted hl hopen
    rw [hflight]
    exact hu.count (hvoted.imp fun _ => hsteps rfl) (hlearners ▸ hl) hopen

/-! ### While no fault stops a node -/

def Calm (w : World V) : Prop := ∀ id n, w.node? id = some n → n.faulted = false

theorem calm_of_settle {n m : Node V} {effects : List (Effect V)} (hn : w.node? n.id = some n)
    (hf : n.faulted = false) {rest : Multiset (Message V)}
    (hcalm : ({ w with flight := rest }.settle m effects).Calm) (hid : m.id = n.id) : w.Calm := by
  intro id k hk
  by_cases h : id = n.id
  · subst h
    obtain rfl := Option.some.inj (hn.symm.trans hk)
    exact hf
  · exact hcalm id k ((Function.update_of_ne (hid ▸ h) ..).trans hk)

theorem Move.calm [Value V] {w' : World V} (h : Move w w') (hcalm : w'.Calm) : w.Calm := by
  cases h with
  | acceptor hn hup hf hr hm hflight h => exact calm_of_settle hn hf hcalm rfl
  | learner hn hup hf hr hm hflight h => exact calm_of_settle hn hf hcalm rfl
  | proposer hn hup hf hr hm hflight h => exact calm_of_settle hn hf hcalm rfl
  | start hn hup hf hr h => exact calm_of_settle hn hf hcalm rfl
  | aside h =>
    cases h with
    | note h => exact hcalm
    | setValue hn hf hr => exact calm_of_settle hn hf hcalm rfl
    | setAlive hn hf => exact calm_of_settle hn hf hcalm rfl
    | @overflow n p p' effects fault hn hr h =>
      exact absurd (hcalm n.id _ (Function.update_self ..)) (by simp)
    | @crash n lost rest hn hflight =>
      exact absurd (hcalm n.id _ (Function.update_self ..)) (by simp)

theorem Underway.aside (hu : w.Underway s) {w' : World V} (h : Aside w w') (hcalm : w'.Calm) :
    w'.Underway s := by
  cases h with
  | @note e he =>
    refine hu.quiet rfl (List.subset_append_left _ _) ?_ rfl fun _ => rfl
    intro id r hr hmem
    refine (List.mem_append.mp hmem).resolve_right fun hmem => ?_
    cases he <;> simp_all
  | @setValue n p value hn hf hr =>
    have hp : w.proposer? n.id = some p := by simp [proposer?, hn, Node.proposer?, hr]
    refine hu.quiet (by simp [World.settle]) (List.subset_append_left _ _) ?_ ?_ ?_
    · intro id r hr hmem
      refine (List.mem_append.mp hmem).resolve_right fun hmem => ?_
      obtain rfl : r = .valueUpdated value := by simpa using (Effect.remarked_mem_events.mp hmem).2
      simp [Remark.isStep] at hr
    · exact learner?_settle_of_eq (by simp [learner?, hn, Node.learner?, hr]) _
    · intro id
      rw [proposer?_settle]
      by_cases hid : id = n.id
      · subst hid
        simp [hp, Node.proposer?]
      · rw [Function.update_of_ne hid]
  | @setAlive n alive hn hf =>
    refine hu.quiet (by simp [World.settle]) (List.subset_append_left _ _) ?_ ?_ ?_
    · intro id r hr hmem
      refine (List.mem_append.mp hmem).resolve_right fun hmem => ?_
      have hnote := (Effect.remarked_mem_events.mp hmem).2
      cases alive <;> simp_all [Remark.isStep]
    · exact learner?_settle_of_eq (by simp [learner?, hn, Node.learner?]) _
    · intro id
      rw [proposer?_settle]
      by_cases hid : id = n.id
      · subst hid
        simp [proposer?, hn, Node.proposer?]
      · rw [Function.update_of_ne hid]
  | @overflow n p p' effects fault hn hr h =>
    exact absurd (hcalm n.id _ (Function.update_self ..)) (by simp)
  | @crash n lost rest hn hflight =>
    exact absurd (hcalm n.id _ (Function.update_self ..)) (by simp)

theorem Underway.step [Value V] [LawfulValue V] (hu : w.Underway s) (hw : w.Sound s)
    {w' : World V} (h : Move w w') (hcalm : w'.Calm) : w'.Underway s := by
  cases h with
  | acceptor hn hup hf hr hm hflight h => exact hu.acceptor_step hw hn hr hm hflight h
  | learner hn hup hf hr hm hflight h => exact hu.learner_step hw hn hr hm hflight h
  | proposer hn hup hf hr hm hflight h => exact hu.proposer_step hw hn hr hm hflight h
  | start hn hup hf hr h => exact hu.start_step hw hn hr h
  | aside h => exact hu.aside h hcalm

/-- As long as no fault has stopped a node, whatever a round waits for is in flight. -/
theorem Underway.moves [Value V] [LawfulValue V] (hu : w.Underway s) (hw : w.Sound s)
    {w' : World V} (h : Moves w w') (hcalm : w'.Calm) : w'.Underway s := by
  induction h with
  | refl => exact hu
  | tail hmoves hmove ih => exact (ih (hmove.calm hcalm)).step (hw.moves hmoves) hmove hcalm

/-! ### Nothing in flight -/

theorem quorumSize_le {n : Nat} (h : 0 < n) : quorumSize n ≤ n := by
  unfold quorumSize
  omega

/-- Where nothing is in flight, no round collects promises. -/
theorem Underway.idle (hu : w.Underway s) (hw : w.Sound s) (hacceptors : s.acceptors ≠ [])
    (hempty : w.flight = 0) {id : NodeId} {p : Proposer V} (hp : w.proposer? id = some p) :
    p.isProposing = false := by
  by_contra hproposing
  have hproposing : p.isProposing = true := by simpa using hproposing
  have hsound := hw.of_proposer hp
  obtain ⟨b, hb⟩ := hsound.faithful.current_of_proposing hproposing
  obtain ⟨value, hvalue⟩ := hsound.faithful.current hb
  obtain ⟨rfl, -, -⟩ := hsound.faithful.started hvalue
  have hstarted : Started w.log b := ⟨value, (mem_history.mp hvalue).2⟩
  have hall : s.acceptors ⊆ p.reports.map Report.sender := by
    intro a ha
    have hanswered : Answered w.log a b :=
      (hu.asked hstarted ha).resolve_left (by simp [hempty, requests])
    exact (hu.answered hp hproposing hb hanswered).resolve_left (by simp [hempty])
  have hlen := (List.subperm_of_subset (Setup.nodup_acceptors hw.nodup) hall).length_le
  have hreports : p.reports.length < p.quorum := by
    obtain ⟨v, reports, hphase⟩ := Proposer.isProposing_iff.mp hproposing
    simpa [Proposer.reports, hphase] using (hsound.faithful.reports hphase).2
  have hquorum := quorumSize_le (List.length_pos_iff.mpr hacceptors)
  rw [Proposer.quorum, hsound.acceptors] at hreports
  rw [List.length_map] at hlen
  omega

/-- Where nothing is in flight, every acceptor has cast the vote that the latest round asked for. -/
theorem Underway.exists_vote (hu : w.Underway s) (hw : w.Sound s) (hacceptors : s.acceptors ≠ [])
    (hempty : w.flight = 0) {b : Ballot} (hb : Started w.log b) :
    ∃ vote, ∀ a ∈ s.acceptors, Voted w.log a vote := by
  obtain ⟨last, hlast, hmax⟩ := Set.exists_max_image _ id (finite_started w.log) ⟨b, hb⟩
  have hlatest : ¬ Superseded w.log last := by
    rintro ⟨later, hlt, hlater⟩
    exact (hmax later hlater).not_gt hlt
  rcases hu.round hlast with ⟨p, hp, hproposing, -⟩ | ⟨vote, rfl, hasked⟩ | hsuperseded
  · simp [hu.idle hw hacceptors hempty hp] at hproposing
  · refine ⟨vote, fun a ha => ?_⟩
    exact ((hu.vote hasked ha).resolve_left (by simp [hempty])).resolve_right hlatest
  · exact absurd hsuperseded hlatest

theorem Underway.learned (hu : w.Underway s) (hw : w.Sound s) (hacceptors : s.acceptors ≠ [])
    (hempty : w.flight = 0) {b : Ballot} (hb : Started w.log b) {id : NodeId} {l : Learner V}
    (hl : w.learner? id = some l) : l.learned ≠ none := by
  intro hopen
  obtain ⟨vote, hvoted⟩ := hu.exists_vote hw hacceptors hempty hb
  have hsound := hw.of_learner hl
  have hcounted (a : NodeId) (ha : a ∈ s.acceptors) :
      ∃ count ∈ l.tally.counts, count.vote = vote ∧ a ∈ count.voters :=
    (hu.count (hvoted a ha) hl hopen).resolve_left (by simp [hempty])
  obtain ⟨first, hfirst⟩ := List.exists_mem_of_ne_nil _ hacceptors
  obtain ⟨count, hc, rfl, -⟩ := hcounted first hfirst
  -- All voters are in one count, as no vote is counted in two places.
  have hall : s.acceptors ⊆ count.voters := by
    intro a ha
    obtain ⟨count', hc', hvote, hmem⟩ := hcounted a ha
    obtain rfl := List.inj_on_of_nodup_map (hsound.faithful.distinct hopen) hc' hc hvote
    exact hmem
  have hlen := (List.subperm_of_subset (Setup.nodup_acceptors hw.nodup) hall).length_le
  have hbelow := (hsound.faithful.below hopen count hc).2
  have hquorum := quorumSize_le (List.length_pos_iff.mpr hacceptors)
  rw [hsound.quorum] at hbelow
  omega

end World

/-! ## Quiescence of a run -/

namespace Cluster

theorem underway_create {s : Setup V} {bus order : σ} {c : Cluster V σ}
    (h : create s bus order = .ok c) : c.world.Underway s := by
  obtain ⟨-, -, -, hlog⟩ := create_eq_ok h
  have hlog : c.world.log = [.created] := hlog
  have hidle {id : NodeId} {p : Proposer V} (hp : c.world.proposer? id = some p) :
      p.current = none := by
    cases hcurrent : p.current with
    | none => rfl
    | some b =>
      obtain ⟨value, hvalue⟩ := ((sound_create h).of_proposer hp).faithful.current hcurrent
      simp [hlog, history, Event.step?] at hvalue
  refine ⟨?_, ?_, ?_, ?_, ?_⟩
  · rintro b a ⟨value, hvalue⟩
    simp [hlog] at hvalue
  · intro id p b a hp _ hb
    simp [hidle hp] at hb
  · rintro b ⟨value, hvalue⟩
    simp [hlog] at hvalue
  · intro vote a hasked
    simp [hlog, Asked] at hasked
  · rintro a id vote l ⟨sender, hvoted⟩
    simp [hlog] at hvoted

variable [Value V] [LawfulValue V] [Shuffler σ] {s : Setup V} {bus order : σ} {c : Cluster V σ}

theorem underway_run (h : create s bus order = .ok c) (ops : List (Operation V))
    (hcalm : ∀ n ∈ (c.run ops).nodes, n.faulted = false) : (c.run ops).world.Underway s := by
  apply (underway_create h).moves (sound_create h) (c.moves_run ops)
  intro id n hn
  exact hcalm n (List.mem_of_find?_eq_some hn)

theorem learned_of_quiescent (h : create s bus order = .ok c) (ops : List (Operation V))
    (hcalm : ∀ n ∈ (c.run ops).nodes, n.faulted = false)
    (hempty : (c.run ops).bus.pending = [])
    (hstarted : ∃ id b value,
      .remarked id (.startingProposal b value) ∈ (c.run ops).log.toList)
    {id : NodeId} {l : Learner V} (hl : (c.run ops).learner? id = some l) : l.learned ≠ none := by
  obtain ⟨hacceptors, -, -⟩ := Setup.defect?_eq_none_iff.mp (create_eq_ok h).1
  have hw := sound_run h ops
  have hflight : (c.run ops).world.flight = 0 := by simp [world, hempty]
  obtain ⟨id, b, value, hstarted⟩ := hstarted
  obtain ⟨-, rfl⟩ := hw.justified _ hstarted
  exact (underway_run h ops hcalm).learned hw hacceptors hflight ⟨value, hstarted⟩ hl

theorem allDecided_of_quiescent (h : create s bus order = .ok c) (ops : List (Operation V))
    (hcalm : ∀ n ∈ (c.run ops).nodes, n.faulted = false)
    (hempty : (c.run ops).bus.pending = [])
    (hstarted : ∃ id b value,
      .remarked id (.startingProposal b value) ∈ (c.run ops).log.toList) :
    (c.run ops).allDecided = true := by
  apply (allDecided_iff (nodup_ids_run h ops)).mpr
  intro id l hl
  exact Option.isSome_iff_ne_none.mpr (learned_of_quiescent h ops hcalm hempty hstarted hl)

/-- Where no message is pending, no fault has stopped a node and some round was ever started, every
learner has learned and no proposer is collecting promises. -/
theorem decided_of_quiescent (h : create s bus order = .ok c) (ops : List (Operation V))
    (hcalm : ∀ n ∈ (c.run ops).nodes, n.faulted = false)
    (hempty : (c.run ops).bus.pending = [])
    (hstarted : ∃ id b value,
      .remarked id (.startingProposal b value) ∈ (c.run ops).log.toList) :
    (∀ id ∈ s.learners, ∃ l vote, (c.run ops).learner? id = some l ∧ l.learned = some vote) ∧
    (c.run ops).allDecided = true ∧
    ∀ id p, (c.run ops).proposer? id = some p → p.isProposing = false := by
  obtain ⟨hacceptors, -, -⟩ := Setup.defect?_eq_none_iff.mp (create_eq_ok h).1
  have hw := sound_run h ops
  have hu := underway_run h ops hcalm
  have hflight : (c.run ops).world.flight = 0 := by simp [world, hempty]
  have hlearned {id : NodeId} {l : Learner V} (hl : (c.run ops).learner? id = some l) :
      ∃ vote, l.learned = some vote :=
    Option.ne_none_iff_exists'.mp (learned_of_quiescent h ops hcalm hempty hstarted hl)
  refine ⟨fun id hid => ?_, ?_, fun id p hp => hu.idle hw hacceptors hflight hp⟩
  · obtain ⟨l, hl⟩ := hw.exists_learner hid
    obtain ⟨vote, hvote⟩ := hlearned hl
    exact ⟨l, vote, hl, hvote⟩
  · exact allDecided_of_quiescent h ops hcalm hempty hstarted

theorem decided_of_quiescent_rivals :
    ((ofTrio []).run (firstRound ++ laterRound)).bus.pending = [] ∧
      ((ofTrio []).run (firstRound ++ laterRound)).allDecided = true ∧
      ∀ id p, ((ofTrio []).run (firstRound ++ laterRound)).proposer? id = some p →
        p.isProposing = false := by
  have hcalm : ∀ n ∈ ((ofTrio []).run (firstRound ++ laterRound)).nodes, n.faulted = false := by
    decide +kernel
  have hempty : ((ofTrio []).run (firstRound ++ laterRound)).bus.pending = [] := by decide +kernel
  have hstarted : .remarked ⟨"P1"⟩ (.startingProposal ⟨1, ⟨"P1"⟩⟩ "x") ∈
      ((ofTrio []).run (firstRound ++ laterRound)).log.toList := by decide +kernel
  exact ⟨hempty, (decided_of_quiescent (create_trio []) _ hcalm hempty ⟨_, _, _, hstarted⟩).2⟩

end Cluster

end Synod
