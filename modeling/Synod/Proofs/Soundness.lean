import Synod.Proofs.Faithful
import Synod.Proofs.World

/-! Soundness: every message and every step has its reason in the log, and what proposers and
learners have gathered are steps of acceptors. Every move keeps a world sound. -/

namespace Synod

variable {V : Type}

/-! ## Prepares in flight -/

/-- The acceptor and the ballot of a prepare. -/
def Message.request? (m : Message V) : Option (NodeId × Ballot) :=
  match m.body with
  | .prepare b => some (m.receiver, b)
  | _ => none

def requests (flight : Multiset (Message V)) : Multiset (NodeId × Ballot) :=
  flight.filterMap Message.request?

theorem mem_requests {flight : Multiset (Message V)} {a : NodeId} {b : Ballot} :
    (a, b) ∈ requests flight ↔ ∃ m ∈ flight, m.receiver = a ∧ m.body = .prepare b := by
  rw [requests, Multiset.mem_filterMap]
  refine exists_congr fun m => and_congr_right fun _ => ?_
  unfold Message.request?
  cases m.body <;> simp

/-- What a handler sends asks for no promise. -/
theorem requests_add_of_none {rest : Multiset (Message V)} {sent : List (Message V)}
    (h : ∀ m ∈ sent, m.request? = none) :
    requests (rest + (sent : Multiset (Message V))) = requests rest := by
  have hnone : (sent : Multiset (Message V)).filterMap Message.request? = 0 := by
    refine Multiset.eq_zero_of_forall_notMem fun x hx => ?_
    obtain ⟨m, hm, hx⟩ := (Multiset.mem_filterMap _ _).mp hx
    simp [h m hm] at hx
  rw [requests, Multiset.filterMap_add, hnone, add_zero]
  rfl

theorem requests_broadcast (id : NodeId) (b : Ballot) (acceptors : List NodeId) :
    requests ((acceptors.map fun a => ⟨id, a, .prepare b⟩ : List (Message V)) :
      Multiset (Message V)) = (acceptors.map fun a => (a, b) : List (NodeId × Ballot)) := by
  induction acceptors with
  | nil => rfl
  | cons a acceptors ih =>
    simp only [List.map_cons, ← Multiset.cons_coe, ← ih]
    exact Multiset.filterMap_cons_some _ _ _ rfl

/-- Every prepare is in flight once, and not after it was answered. -/
structure Unanswered (flight : Multiset (Message V)) (log : List (Event V)) : Prop where
  nodup : (requests flight).Nodup
  unanswered {a : NodeId} {b : Ballot} : (a, b) ∈ requests flight → ¬ Answered log a b

theorem unanswered_iff {flight : Multiset (Message V)} {log : List (Event V)} :
    Unanswered flight log ↔ (requests flight).Nodup ∧
      ∀ a b, (a, b) ∈ requests flight → ¬ Answered log a b :=
  ⟨fun h => ⟨h.nodup, fun _ _ => h.unanswered⟩, fun h => ⟨h.1, h.2 _ _⟩⟩

theorem Unanswered.add {flight rest : Multiset (Message V)} {log : List (Event V)}
    (h : Unanswered flight log) (hrest : rest ≤ flight) {id : NodeId} {effects : List (Effect V)}
    (hsent : ∀ m ∈ Effect.messages id effects, m.request? = none)
    (hnew : ∀ effect ∈ effects, ∀ b, effect.answers? = some b → (id, b) ∉ requests rest) :
    Unanswered (rest + (Effect.messages id effects : Multiset (Message V)))
      (log ++ Effect.events id effects) := by
  have hle : requests rest ≤ requests flight := Multiset.filterMap_le_filterMap _ hrest
  rw [unanswered_iff, requests_add_of_none hsent]
  refine ⟨Multiset.nodup_of_le hle h.nodup, ?_⟩
  rintro a b hab ⟨r, hr, hanswers⟩
  rcases List.mem_append.mp hr with hr | hr
  · exact h.unanswered (Multiset.mem_of_le hle hab) ⟨r, hr, hanswers⟩
  · obtain ⟨rfl, hnote⟩ := Effect.remarked_mem_events.mp hr
    exact hnew _ hnote b hanswers hab

/-- Only a prepare is answered with a promise or a refusal. -/
theorem Acceptor.Reaction.body_of_answers {a a' : Acceptor V} {sender : NodeId}
    {body : Body V} {effects : List (Effect V)} (h : a.Reaction sender body a' effects) :
    ∀ effect ∈ effects, ∀ b, effect.answers? = some b → body = .prepare b := by
  cases h <;> simp [Effect.answers?, Remark.answers?, Effect.broadcast]

theorem Learner.Reaction.answers?_eq_none [Value V] {l l' : Learner V} {sender : NodeId}
    {body : Body V} {effects : List (Effect V)} (h : l.Reaction sender body l' effects) :
    ∀ effect ∈ effects, effect.answers? = none := by
  cases h <;> simp [Effect.answers?, Remark.answers?]

theorem Proposer.Reaction.answers?_eq_none [Value V] {p p' : Proposer V} {sender : NodeId}
    {body : Body V} {effects : List (Effect V)} (h : p.Reaction sender body p' effects) :
    ∀ effect ∈ effects, effect.answers? = none := by
  cases h with
  | conclude hc hphase hn =>
    exact List.forall_mem_cons.mpr
      ⟨rfl, forall_mem_conclude (fun _ => rfl) rfl fun _ _ => rfl⟩
  | _ => simp [Effect.answers?, Remark.answers?]

/-! ## Reasons -/

section

variable (s : Setup V) (log : List (Event V))

/-- A report counts for a ballot if its sender promised the ballot, and reported the vote it held
or, once it had also been asked for an earlier round of the same proposer, perhaps none. -/
def Counted (b : Ballot) (report : Report V) : Prop :=
  ∃ held, Promised log report.sender b held ∧
    (report.accepted = held ∨ report.accepted = none ∧ ∃ m, Overtaken log report.sender m b)

/-- A quorum of reports makes a round ask for this vote. -/
def Elected (vote : Vote V) : Prop :=
  ∃ value reports, (reports.map Report.sender).Nodup ∧
    quorumSize s.acceptors.length ≤ reports.length ∧
    (∀ report ∈ reports, Counted log vote.ballot report) ∧
    vote = Proposer.election vote.ballot value reports

/-- A quorum of acceptors has cast this vote, each at some time. -/
def Chosen (vote : Vote V) : Prop :=
  ∃ voters : List NodeId, voters.Nodup ∧ quorumSize s.acceptors.length ≤ voters.length ∧
    ∀ a ∈ voters, Voted log a vote

def Message.Justified (m : Message V) : Prop :=
  match m.body with
  | .prepare b => m.sender = b.proposer ∧ m.receiver ∈ s.acceptors ∧ Started log b
  | .promise b acc =>
    Promised log m.sender b acc ∨
      acc = none ∧ ∃ x, x.proposer = m.receiver ∧ Refused log m.sender x b
  | .accept vote => m.sender = vote.ballot.proposer ∧ m.receiver ∈ s.acceptors ∧ Asked log vote
  | .accepted vote | .learn vote => Voted log m.sender vote

def Remark.Justified (id : NodeId) (r : Remark V) : Prop :=
  match r with
  | .promised sender b _ => id ∈ s.acceptors ∧ sender = b.proposer ∧ Started log b
  | .prepareRejected sender m _ => id ∈ s.acceptors ∧ sender = m.proposer ∧ Started log m
  | .accepted _ vote => id ∈ s.acceptors ∧ Asked log vote
  | .startingProposal b _ => id ∈ s.candidates.map Candidate.id ∧ id = b.proposer
  | .promiseQuorum vote =>
    id ∈ s.candidates.map Candidate.id ∧ id = vote.ballot.proposer ∧ Elected s log vote
  | .consensusReached vote => Chosen s log vote
  | _ => True

def Event.Justified (e : Event V) : Prop :=
  match e with
  | .sent m => m.Justified s log
  | .remarked id r => r.Justified s log id
  | _ => True

end

section

variable {s : Setup V} {log log' : List (Event V)} (hsub : log ⊆ log')
include hsub

theorem Counted.mono {b : Ballot} {report : Report V} (h : Counted log b report) :
    Counted log' b report := by
  obtain ⟨held, hp, hacc⟩ := h
  exact ⟨held, hp.mono hsub, hacc.imp_right (.imp_right (.imp fun _ ho => ho.mono hsub))⟩

theorem Elected.mono {vote : Vote V} (h : Elected s log vote) : Elected s log' vote := by
  obtain ⟨value, reports, hnodup, hquorum, hcounted, hvote⟩ := h
  exact ⟨value, reports, hnodup, hquorum, fun r hr => (hcounted r hr).mono hsub, hvote⟩

theorem Chosen.mono {vote : Vote V} (h : Chosen s log vote) : Chosen s log' vote := by
  obtain ⟨voters, hnodup, hquorum, hvoted⟩ := h
  exact ⟨voters, hnodup, hquorum, fun a ha => (hvoted a ha).mono hsub⟩

theorem Message.Justified.mono {m : Message V} (h : m.Justified s log) : m.Justified s log' := by
  unfold Message.Justified at h ⊢
  split at h
  · exact ⟨h.1, h.2.1, h.2.2.mono hsub⟩
  · exact h.imp (·.mono hsub) (.imp_right (.imp fun _ => .imp_right (·.mono hsub)))
  · exact ⟨h.1, h.2.1, h.2.2.mono hsub⟩
  · exact h.mono hsub
  · exact h.mono hsub

theorem Remark.Justified.mono {id : NodeId} {r : Remark V} (h : r.Justified s log id) :
    r.Justified s log' id := by
  unfold Remark.Justified at h ⊢
  split at h
  · exact ⟨h.1, h.2.1, h.2.2.mono hsub⟩
  · exact ⟨h.1, h.2.1, h.2.2.mono hsub⟩
  · exact ⟨h.1, h.2.mono hsub⟩
  · exact h
  · exact ⟨h.1, h.2.1, h.2.2.mono hsub⟩
  · exact h.mono hsub
  · trivial

theorem Event.Justified.mono {e : Event V} (h : e.Justified s log) : e.Justified s log' := by
  cases e with
  | sent m => exact Message.Justified.mono hsub h
  | remarked id r => exact Remark.Justified.mono hsub h
  | _ => trivial

end

theorem Event.Routine.justified {e : Event V} (h : e.Routine) (s : Setup V)
    (log : List (Event V)) : e.Justified s log := by
  cases h with
  | @remarked n r hr => cases r <;> trivial
  | _ => trivial

/-! ## Sound nodes -/

theorem Setup.nodup_acceptors {s : Setup V} (h : s.ids.Nodup) : s.acceptors.Nodup := by
  simp only [ids, List.nodup_append] at h
  exact h.1.1

section

variable (s : Setup V) (log : List (Event V)) (id : NodeId)

structure Acceptor.Sound (a : Acceptor V) : Prop where
  mem : id ∈ s.acceptors
  learners : a.learners = s.learners
  faithful : a.Faithful (history id log)

structure Learner.Sound (l : Learner V) : Prop where
  mem : id ∈ s.learners
  acceptors : l.acceptors = s.acceptors
  quorum : l.tally.quorum = quorumSize s.acceptors.length
  faithful : l.Faithful (history id log)
  votes : ∀ count ∈ l.tally.counts, ∀ a ∈ count.voters, Voted log a count.vote

structure Proposer.Sound (p : Proposer V) : Prop where
  mem : id ∈ s.candidates.map Candidate.id
  acceptors : p.acceptors = s.acceptors
  faithful : p.Faithful id (history id log)
  counted : ∀ c, p.current = some c → ∀ report ∈ p.reports, Counted log c report

def Role.Sound : Role V → Prop
  | .acceptor a => a.Sound s log id
  | .learner l => l.Sound s log id
  | .proposer p => p.Sound s log id

end

/-- A role stays sound while its node takes no step. -/
theorem Role.Sound.append {s : Setup V} {log : List (Event V)} {id : NodeId} {role : Role V}
    (h : role.Sound s log id) {later : List (Event V)} (hlater : history id later = []) :
    role.Sound s (log ++ later) id := by
  have hsub : log ⊆ log ++ later := List.subset_append_left _ _
  have hhistory : history id (log ++ later) = history id log := by simp [hlater]
  cases role with
  | acceptor a => exact ⟨h.mem, h.learners, hhistory ▸ h.faithful⟩
  | learner l =>
    exact ⟨h.mem, h.acceptors, h.quorum, hhistory ▸ h.faithful,
      fun count hc a ha => (h.votes count hc a ha).mono hsub⟩
  | proposer p =>
    exact ⟨h.mem, h.acceptors, hhistory ▸ h.faithful,
      fun c hc report hr => (h.counted c hc report hr).mono hsub⟩

theorem Learner.Sound.votes_record [Value V] [LawfulValue V] {s : Setup V}
    {log : List (Event V)} {id : NodeId} {l : Learner V} (hl : l.Sound s log id) {vote : Vote V}
    {sender : NodeId} {tally : Tally V} {n : Nat} (ht : l.tally.record vote sender = .ok (tally, n))
    (hvoted : Voted log sender vote) :
    ∀ count ∈ tally.counts, ∀ a ∈ count.voters, Voted log a count.vote := by
  intro count hc a ha
  rcases (Tally.record_eq_ok ht).2.mem_voters hc ha with ⟨old, ho, hvote, ha⟩ | ⟨hvote, rfl⟩
  · exact hvote ▸ hl.votes old ho a ha
  · exact hvote ▸ hvoted

/-- What a learner decides was chosen. -/
theorem Learner.Sound.chosen [Value V] [LawfulValue V] {s : Setup V} {log : List (Event V)}
    {id : NodeId} {l : Learner V} (hl : l.Sound s log id) (hnone : l.learned = none)
    {vote : Vote V} {sender : NodeId} {tally : Tally V} {n : Nat}
    (ht : l.tally.record vote sender = .ok (tally, n)) (hn : tally.quorum ≤ n)
    (hvoted : Voted log sender vote) : Chosen s log vote := by
  obtain ⟨hquorum, hadded⟩ := Tally.record_eq_ok ht
  obtain ⟨counted, hc, rfl, -, hlength⟩ := hadded.voter_mem
  refine ⟨counted.voters, ?_, ?_, hl.votes_record ht hvoted counted hc⟩
  · exact hadded.voters_nodup (fun c hc => (hl.faithful.below hnone c hc).1) hc
  · rw [hlength, ← hl.quorum, ← hquorum]
    exact hn

theorem Proposer.Sound.not_started {s : Setup V} {log : List (Event V)} {id : NodeId}
    {p p' : Proposer V} (hp : p.Sound s log id) {b : Ballot} {effects : List (Effect V)}
    (h : p.start id = (p', effects, .started b)) : ¬ Started log b := by
  obtain ⟨-, hself, hnext, -, -⟩ := Proposer.start_eq_started h
  rintro ⟨value, hstarted⟩
  rw [hself] at hstarted
  obtain ⟨-, hle, -⟩ := hp.faithful.started (mem_history.mpr ⟨rfl, hstarted⟩)
  exact absurd (Proposer.nextRound_eq_none hnext).1 hle.not_gt

namespace World

structure Sound (s : Setup V) (w : World V) : Prop where
  nodup : s.ids.Nodup
  present : ∀ id ∈ s.ids, ∃ n, w.node? id = some n
  id_eq {id : NodeId} {n : Node V} : w.node? id = some n → n.id = id
  role {id : NodeId} {n : Node V} : w.node? id = some n → n.role.Sound s w.log id
  sent : ∀ m ∈ w.flight, .sent m ∈ w.log
  justified : ∀ e ∈ w.log, e.Justified s w.log
  prepares : Unanswered w.flight w.log

variable {s : Setup V} {w : World V}

/-- A node is put back with what it did, for messages that were taken off the bus. -/
theorem Sound.settle (hw : w.Sound s) {n : Node V} {id : NodeId} (hid : n.id = id)
    (hmem : id ∈ s.ids) {rest : Multiset (Message V)} (hrest : rest ≤ w.flight)
    {effects : List (Effect V)}
    (hrole : n.role.Sound s (w.log ++ Effect.events id effects) id)
    (hjustified : ∀ effect ∈ effects,
      (effect.event id).Justified s (w.log ++ Effect.events id effects))
    (hprepares : Unanswered (rest + (Effect.messages id effects : Multiset (Message V)))
      (w.log ++ Effect.events id effects)) :
    ({ w with flight := rest }.settle n effects).Sound s := by
  subst hid
  have hsub : w.log ⊆ w.log ++ Effect.events n.id effects := List.subset_append_left _ _
  refine ⟨hw.nodup, ?_, ?_, ?_, ?_, ?_, hprepares⟩
  · intro id hid
    by_cases h : id = n.id
    · exact ⟨n, by simp [World.settle, h]⟩
    · simpa [World.settle, h] using hw.present id hid
  · intro id m hm
    rcases node?_settle_eq_some hm with ⟨rfl, rfl⟩ | ⟨-, hold⟩
    · rfl
    · exact hw.id_eq hold
  · intro id m hm
    rcases node?_settle_eq_some hm with ⟨rfl, rfl⟩ | ⟨hne, hold⟩
    · exact hrole
    · exact (hw.role hold).append (Effect.history_events_of_ne hne effects)
  · intro m hm
    rcases Multiset.mem_add.mp hm with hm | hm
    · exact List.mem_append_left _ (hw.sent m (Multiset.mem_of_le hrest hm))
    · exact List.mem_append_right _ (Effect.sent_mem_events.mpr hm)
  · intro e he
    rcases List.mem_append.mp he with he | he
    · exact (hw.justified e he).mono hsub
    · obtain ⟨effect, heffect, rfl⟩ := List.mem_map.mp he
      exact hjustified effect heffect

theorem Sound.message (hw : w.Sound s) {m : Message V} {rest : Multiset (Message V)}
    (hflight : w.flight = m ::ₘ rest) : m.Justified s w.log :=
  hw.justified _ (hw.sent m (by simp [hflight]))

/-! ### Who is who -/

theorem Sound.of_acceptor (hw : w.Sound s) {id : NodeId} {a : Acceptor V}
    (ha : w.acceptor? id = some a) : a.Sound s w.log id := by
  obtain ⟨n, hn, hr⟩ := acceptor?_eq_some_iff.mp ha
  have hsound := hw.role hn
  rwa [hr] at hsound

theorem Sound.of_learner (hw : w.Sound s) {id : NodeId} {l : Learner V}
    (hl : w.learner? id = some l) : l.Sound s w.log id := by
  obtain ⟨n, hn, hr⟩ := learner?_eq_some_iff.mp hl
  have hsound := hw.role hn
  rwa [hr] at hsound

theorem Sound.of_proposer (hw : w.Sound s) {id : NodeId} {p : Proposer V}
    (hp : w.proposer? id = some p) : p.Sound s w.log id := by
  obtain ⟨n, hn, hr⟩ := proposer?_eq_some_iff.mp hp
  have hsound := hw.role hn
  rwa [hr] at hsound

theorem Sound.acceptor (hw : w.Sound s) {n : Node V} {a : Acceptor V} (hn : w.node? n.id = some n)
    (hr : n.role = .acceptor a) : a.Sound s w.log n.id :=
  hw.of_acceptor (acceptor?_eq_some_iff.mpr ⟨n, hn, hr⟩)

theorem Sound.learner (hw : w.Sound s) {n : Node V} {l : Learner V} (hn : w.node? n.id = some n)
    (hr : n.role = .learner l) : l.Sound s w.log n.id :=
  hw.of_learner (learner?_eq_some_iff.mpr ⟨n, hn, hr⟩)

theorem Sound.proposer (hw : w.Sound s) {n : Node V} {p : Proposer V} (hn : w.node? n.id = some n)
    (hr : n.role = .proposer p) : p.Sound s w.log n.id :=
  hw.of_proposer (proposer?_eq_some_iff.mpr ⟨n, hn, hr⟩)

theorem Sound.exists_acceptor (hw : w.Sound s) {id : NodeId} (h : id ∈ s.acceptors) :
    ∃ a, w.acceptor? id = some a := by
  obtain ⟨n, hn⟩ := hw.present id (by simp [Setup.ids, h])
  have hnodup := hw.nodup
  have hrole := hw.role hn
  simp only [Setup.ids, List.nodup_append] at hnodup
  cases hr : n.role with
  | acceptor a => exact ⟨a, acceptor?_eq_some_iff.mpr ⟨n, hn, hr⟩⟩
  | learner l =>
    rw [hr] at hrole
    exact absurd rfl (hnodup.1.2.2 id h id hrole.mem)
  | proposer p =>
    rw [hr] at hrole
    exact absurd rfl (hnodup.2.2 id (List.mem_append_left _ h) id hrole.mem)

theorem Sound.ne_of_mem_acceptors (hw : w.Sound s) {a id : NodeId} (ha : a ∈ s.acceptors)
    (hid : w.acceptor? id = none) : a ≠ id := by
  rintro rfl
  obtain ⟨state, hstate⟩ := hw.exists_acceptor ha
  simp [hstate] at hid

theorem Sound.exists_learner (hw : w.Sound s) {id : NodeId} (h : id ∈ s.learners) :
    ∃ l, w.learner? id = some l := by
  obtain ⟨n, hn⟩ := hw.present id (by simp [Setup.ids, h])
  have hnodup := hw.nodup
  have hrole := hw.role hn
  simp only [Setup.ids, List.nodup_append] at hnodup
  cases hr : n.role with
  | acceptor a =>
    rw [hr] at hrole
    exact absurd rfl (hnodup.1.2.2 id hrole.mem id h)
  | learner l => exact ⟨l, learner?_eq_some_iff.mpr ⟨n, hn, hr⟩⟩
  | proposer p =>
    rw [hr] at hrole
    exact absurd rfl (hnodup.2.2 id (List.mem_append_right _ h) id hrole.mem)

theorem Sound.exists_proposer (hw : w.Sound s) {id : NodeId}
    (h : id ∈ s.candidates.map Candidate.id) : ∃ p, w.proposer? id = some p := by
  obtain ⟨n, hn⟩ := hw.present id (List.mem_append_right _ h)
  have hnodup := hw.nodup
  have hrole := hw.role hn
  simp only [Setup.ids, List.nodup_append] at hnodup
  cases hr : n.role with
  | acceptor a =>
    rw [hr] at hrole
    exact absurd rfl (hnodup.2.2 id (List.mem_append_left _ hrole.mem) id h)
  | learner l =>
    rw [hr] at hrole
    exact absurd rfl (hnodup.2.2 id (List.mem_append_right _ hrole.mem) id h)
  | proposer p => exact ⟨p, proposer?_eq_some_iff.mpr ⟨n, hn, hr⟩⟩

/-! ### Rounds that were started -/

theorem Sound.started_of_asked (hw : w.Sound s) {vote : Vote V} (h : Asked w.log vote) :
    Started w.log vote.ballot := by
  obtain ⟨p, hp⟩ := hw.exists_proposer (hw.justified _ h).1
  obtain ⟨value, hstarted⟩ := (hw.of_proposer hp).faithful.asked (mem_history.mpr ⟨rfl, h⟩)
  exact ⟨value, (mem_history.mp hstarted).2⟩

/-- An acceptor is bound only to rounds that were started. -/
theorem Sound.started_of_bound (hw : w.Sound s) {id : NodeId} {b : Ballot}
    (hb : Bound (history id w.log) b) : Started w.log b := by
  rcases hb with ⟨sender, held, hmem⟩ | ⟨sender, vote, hmem, rfl⟩
  · exact (hw.justified _ (mem_history.mp hmem).2).2.2
  · exact hw.started_of_asked (hw.justified _ (mem_history.mp hmem).2).2

theorem Sound.started_of_answered (hw : w.Sound s) {a : NodeId} {b : Ballot}
    (h : Answered w.log a b) : Started w.log b := by
  obtain ⟨r, hr, hanswers⟩ := h
  have hjustified := hw.justified _ hr
  cases r with
  | promised sender b' held =>
    obtain rfl : b' = b := Option.some.inj hanswers
    exact hjustified.2.2
  | prepareRejected sender b' promised =>
    obtain rfl : b' = b := Option.some.inj hanswers
    exact hjustified.2.2
  | _ => simp [Remark.answers?] at hanswers

/-! ### Acceptors -/

theorem Sound.acceptor_step (hw : w.Sound s) {n : Node V} {a a' : Acceptor V} {m : Message V}
    {rest : Multiset (Message V)} {effects : List (Effect V)} (hn : w.node? n.id = some n)
    (hr : n.role = .acceptor a) (hm : m.receiver = n.id) (hflight : w.flight = m ::ₘ rest)
    (h : a.Reaction m.sender m.body a' effects) :
    ({ w with flight := rest }.settle { n with role := .acceptor a' } effects).Sound s := by
  have ha := hw.acceptor hn hr
  have hjustified := hw.message hflight
  have hrest : rest ≤ w.flight := hflight ▸ Multiset.le_cons_self rest m
  have hsub : w.log ⊆ w.log ++ Effect.events n.id effects := List.subset_append_left _ _
  have hnote {r : Remark V} (hr : .note r ∈ effects) :
      .remarked n.id r ∈ w.log ++ Effect.events n.id effects :=
    List.mem_append_right _ (Effect.remarked_mem_events.mpr ⟨rfl, hr⟩)
  obtain ⟨sender, receiver, body⟩ := m
  obtain rfl : receiver = n.id := hm
  have hfresh (b : Ballot) (hb : body = .prepare b) :
      (∀ r ∈ history n.id w.log, r.answers? ≠ some b) ∧ (n.id, b) ∉ requests rest := by
    subst hb
    have hcons : requests w.flight = (n.id, b) ::ₘ requests rest := by
      rw [hflight]
      exact Multiset.filterMap_cons_some _ _ _ rfl
    have hnodup := hw.prepares.nodup
    rw [hcons, Multiset.nodup_cons] at hnodup
    exact ⟨fun r hr hanswers => hw.prepares.unanswered (by simp [hcons])
      ⟨r, (mem_history.mp hr).2, hanswers⟩, hnodup.1⟩
  refine hw.settle rfl (by simp [Setup.ids, ha.mem]) hrest ⟨ha.mem, ?_, ?_⟩ ?_ ?_
  · cases h <;> exact ha.learners
  · rw [history_append, Effect.history_events_self]
    exact h.faithful ha.faithful fun b hb => (hfresh b hb).1
  · cases h with
    | promise hb =>
      obtain ⟨hsender, -, hstarted⟩ := hjustified
      simp only [List.forall_mem_cons]
      exact ⟨trivial, ⟨ha.mem, hsender, hstarted.mono hsub⟩, .inl ⟨sender, hnote (by simp)⟩,
        by simp⟩
    | refuse hb hle =>
      obtain ⟨hsender, -, hstarted⟩ := hjustified
      simp only [List.forall_mem_cons]
      exact ⟨trivial, ⟨ha.mem, hsender, hstarted.mono hsub⟩,
        .inr ⟨rfl, _, hsender.symm, sender, hnote (by simp)⟩, by simp⟩
    | @vote vote hb =>
      obtain ⟨-, -, hasked⟩ := hjustified
      have hvoted : Voted (w.log ++ Effect.events n.id (.note (.received sender (.accept vote)) ::
          .note (.accepted sender vote) :: .send sender (.accepted vote) ::
            Effect.broadcast a.learners (.learn vote))) n.id vote := ⟨sender, hnote (by simp)⟩
      simp only [List.forall_mem_cons, Effect.broadcast, List.forall_mem_map]
      exact ⟨trivial, ⟨ha.mem, hasked.mono hsub⟩, hvoted, fun _ _ => hvoted⟩
    | decline hb hlt => simp [Effect.event, Event.Justified, Remark.Justified]
    | ignore hp hv => simp [Effect.event, Event.Justified, Remark.Justified]
  · refine hw.prepares.add hrest ?_ ?_
    · cases h <;> simp [Message.request?]
    · exact fun effect he b hb => (hfresh b (h.body_of_answers effect he b hb)).2

/-! ### Learners -/

theorem Sound.learner_step [Value V] [LawfulValue V] (hw : w.Sound s) {n : Node V}
    {l l' : Learner V} {m : Message V} {rest : Multiset (Message V)} {effects : List (Effect V)}
    (hn : w.node? n.id = some n) (hr : n.role = .learner l) (hflight : w.flight = m ::ₘ rest)
    (h : l.Reaction m.sender m.body l' effects) :
    ({ w with flight := rest }.settle { n with role := .learner l' } effects).Sound s := by
  have hl := hw.learner hn hr
  have hjustified := hw.message hflight
  have hrest : rest ≤ w.flight := hflight ▸ Multiset.le_cons_self rest m
  have hsub : w.log ⊆ w.log ++ Effect.events n.id effects := List.subset_append_left _ _
  obtain ⟨sender, receiver, body⟩ := m
  refine hw.settle rfl (by simp [Setup.ids, hl.mem]) hrest ⟨hl.mem, ?_, ?_, ?_, ?_⟩ ?_ ?_
  · cases h <;> exact hl.acceptors
  · cases h with
    | count hnone hs ht hn => exact (Tally.record_eq_ok ht).1.trans hl.quorum
    | decide hnone hs ht hn => exact (Tally.record_eq_ok ht).1.trans hl.quorum
    | _ => exact hl.quorum
  · rw [history_append, Effect.history_events_self]
    exact h.faithful hl.faithful
  · intro count hc a ha
    refine Voted.mono hsub ?_
    cases h with
    | count hnone hs ht hn => exact hl.votes_record ht hjustified count hc a ha
    | decide hnone hs ht hn => simp [Tally.clear] at hc
    | _ => exact hl.votes count hc a ha
  · cases h with
    | @decide vote tally count hnone hs ht hn =>
      simp only [List.forall_mem_cons]
      exact ⟨trivial, trivial, (hl.chosen hnone ht hn hjustified).mono hsub, by simp⟩
    | _ => simp [Effect.event, Event.Justified, Remark.Justified]
  · refine hw.prepares.add hrest ?_ ?_
    · cases h <;> simp
    · intro effect he b hb
      simp [h.answers?_eq_none effect he] at hb

/-! ### Proposers -/

/-- What a proposer records of an acceptor counts. -/
theorem Sound.counted (hw : w.Sound s) {id : NodeId} {p : Proposer V} (hp : p.Sound s w.log id)
    {c : Ballot} {value : V} {reports : List (Report V)} (hc : p.current = some c)
    (hphase : p.phase = .preparing value reports) {sender : NodeId} {acc : Option (Vote V)}
    (hm : (⟨sender, id, .promise c acc⟩ : Message V).Justified s w.log) :
    Counted w.log c ⟨sender, acc⟩ := by
  obtain ⟨v, hstarted⟩ := hp.faithful.current hc
  obtain ⟨hself, -, -⟩ := hp.faithful.started hstarted
  rcases hm with hpromised | ⟨rfl, x, hx, other, hrefused⟩
  · exact ⟨acc, hpromised, .inl rfl⟩
  obtain ⟨hmem, -, -⟩ := hw.justified _ hrefused
  obtain ⟨a, ha⟩ := hw.exists_acceptor hmem
  have ha := hw.of_acceptor ha
  obtain ⟨hle, hbound⟩ := ha.faithful.refused (mem_history.mpr ⟨rfl, hrefused⟩)
  rcases hbound with ⟨asker, held, hpromised⟩ | ⟨asker, vote, hvoted, rfl⟩
  · have hne : x ≠ c := by
      rintro rfl
      exact ha.faithful.exclusive hpromised (mem_history.mpr ⟨rfl, hrefused⟩)
    have hproposer : x.proposer = c.proposer := hx.trans hself.symm
    exact ⟨held, ⟨asker, (mem_history.mp hpromised).2⟩, .inr ⟨rfl, x, ⟨other, hrefused⟩, hproposer,
      (Ballot.lt_iff_round hproposer).mp (hle.lt_of_ne hne)⟩⟩
  -- The acceptor cannot have voted in a round that has not asked for a vote.
  · obtain ⟨-, hasked⟩ := hw.justified _ (mem_history.mp hvoted).2
    unfold Asked at hasked
    rw [hself] at hasked
    exact absurd rfl (hp.faithful.not_asked hc hphase (mem_history.mpr ⟨rfl, hasked⟩))

/-- What a proposer has recorded counts together with what it is told now. -/
theorem Sound.counted_addReport (hw : w.Sound s) {id : NodeId} {p : Proposer V}
    (hp : p.Sound s w.log id) {c : Ballot} {value : V} {reports : List (Report V)}
    (hc : p.current = some c) (hphase : p.phase = .preparing value reports) {sender : NodeId}
    {acc : Option (Vote V)}
    (hm : (⟨sender, id, .promise c acc⟩ : Message V).Justified s w.log) :
    ∀ report ∈ Proposer.addReport reports ⟨sender, acc⟩, Counted w.log c report := by
  intro report hreport
  rcases Proposer.mem_addReport.mp hreport with rfl | ⟨hold, -⟩
  · exact hw.counted hp hc hphase hm
  · exact hp.counted c hc report (by simpa [Proposer.reports, hphase] using hold)

/-- With a quorum of reports a round asks for the vote that they elect. -/
theorem Sound.elected (hw : w.Sound s) {id : NodeId} {p : Proposer V}
    (hp : p.Sound s w.log id) {c : Ballot} {value : V} {reports : List (Report V)}
    (hc : p.current = some c) (hphase : p.phase = .preparing value reports) {sender : NodeId}
    {acc : Option (Vote V)}
    (hn : p.quorum ≤ (Proposer.addReport reports ⟨sender, acc⟩).length)
    (hm : (⟨sender, id, .promise c acc⟩ : Message V).Justified s w.log) :
    Elected s w.log (Proposer.election c value (Proposer.addReport reports ⟨sender, acc⟩)) :=
  ⟨value, Proposer.addReport reports ⟨sender, acc⟩,
    Proposer.nodup_addReport (hp.faithful.reports hphase).1 _, hp.acceptors ▸ hn,
    hw.counted_addReport hp hc hphase hm, rfl⟩

theorem Sound.proposer_step [Value V] (hw : w.Sound s) {n : Node V} {p p' : Proposer V}
    {m : Message V} {rest : Multiset (Message V)} {effects : List (Effect V)}
    (hn : w.node? n.id = some n) (hr : n.role = .proposer p) (hm : m.receiver = n.id)
    (hflight : w.flight = m ::ₘ rest) (h : p.Reaction m.sender m.body p' effects) :
    ({ w with flight := rest }.settle { n with role := .proposer p' } effects).Sound s := by
  have hp := hw.proposer hn hr
  have hjustified := hw.message hflight
  have hrest : rest ≤ w.flight := hflight ▸ Multiset.le_cons_self rest m
  have hsub : w.log ⊆ w.log ++ Effect.events n.id effects := List.subset_append_left _ _
  obtain ⟨sender, receiver, body⟩ := m
  obtain rfl : receiver = n.id := hm
  refine hw.settle rfl (by simp [Setup.ids, List.mem_map.mp hp.mem]) hrest
    ⟨hp.mem, ?_, ?_, ?_⟩ ?_ ?_
  · cases h with
    | conclude hc hphase hn =>
      exact (congrArg Proposer.acceptors (p.conclude_fst ..)).trans hp.acceptors
    | _ => exact hp.acceptors
  · rw [history_append, Effect.history_events_self]
    exact h.faithful hp.faithful
  · intro c' hc' report hreport
    refine Counted.mono hsub ?_
    cases h with
    | abandon hc hphase hlt => simp [Proposer.reports] at hreport
    | record hc hphase hn =>
      obtain rfl := Option.some.inj (hc.symm.trans hc')
      exact hw.counted_addReport hp hc hphase hjustified report
        (by simpa [Proposer.reports] using hreport)
    | conclude hc hphase hn => simp [Proposer.conclude_fst, Proposer.reports] at hreport
    | _ => exact hp.counted c' hc' report hreport
  · cases h with
    | @conclude acc c value reports hc hphase hn =>
      let gathered := Proposer.addReport reports ⟨sender, acc⟩
      let vote := Proposer.election c value gathered
      obtain ⟨v, hstarted⟩ := hp.faithful.current hc
      obtain ⟨hself, -, -⟩ := hp.faithful.started hstarted
      have helected : Elected s w.log vote := hw.elected hp hc hphase hn hjustified
      have hasked : Asked (w.log ++ Effect.events n.id
          (.note (.promiseRecorded c gathered.length) ::
            (p.conclude c value gathered).2)) vote := by
        unfold Asked
        refine List.mem_append_right _ (Effect.remarked_mem_events.mpr ⟨hself, ?_⟩)
        simp [Proposer.conclude_snd, vote]
      refine List.forall_mem_cons.mpr ⟨trivial, Proposer.forall_mem_conclude (fun _ => trivial)
        ⟨hp.mem, hself.symm, helected.mono hsub⟩ fun a ha => ?_⟩
      exact ⟨hself.symm, hp.acceptors ▸ ha, hasked⟩
    | _ => simp [Effect.event, Event.Justified, Remark.Justified]
  · refine hw.prepares.add hrest ?_ ?_
    · cases h <;> simp [Proposer.messages_conclude, Message.request?]
    · intro effect he b hb
      simp [h.answers?_eq_none effect he] at hb

/-- A round that was started is new to every acceptor. -/
theorem Sound.start_step (hw : w.Sound s) {n : Node V} {p p' : Proposer V} {b : Ballot}
    {effects : List (Effect V)} (hn : w.node? n.id = some n) (hr : n.role = .proposer p)
    (h : p.start n.id = (p', effects, .started b)) :
    (w.settle { n with role := .proposer p' } effects).Sound s := by
  have hp := hw.proposer hn hr
  have hfaithful := hp.faithful.start h
  have hnew := hp.not_started h
  obtain ⟨hidle, hself, hnext, rfl, heffects⟩ := Proposer.start_eq_started h
  have hrequested {a : NodeId} (ha : (a, b) ∈ requests w.flight) : Started w.log b := by
    obtain ⟨⟨sender, receiver, body⟩, hm, -, rfl⟩ := mem_requests.mp ha
    exact (hw.justified _ (hw.sent _ hm)).2.2
  refine hw.settle rfl (by simp [Setup.ids, List.mem_map.mp hp.mem]) (le_refl w.flight)
    ⟨hp.mem, hp.acceptors, ?_, ?_⟩ ?_ ?_
  · rw [history_append, Effect.history_events_self]
    exact hfaithful
  · intro c hc report hreport
    simp [Proposer.reports] at hreport
  · have hstarted : Started (w.log ++ Effect.events n.id effects) b :=
      ⟨p.value, List.mem_append_right _
        (Effect.remarked_mem_events.mpr ⟨hself, by simp [heffects]⟩)⟩
    rw [heffects] at hstarted ⊢
    refine List.forall_mem_cons.mpr ⟨⟨hp.mem, hself.symm⟩, List.forall_mem_map.mpr fun a ha => ?_⟩
    exact ⟨hself.symm, hp.acceptors ▸ ha, hstarted⟩
  · have hrequests : requests (w.flight + (Effect.messages n.id effects : Multiset (Message V))) =
        requests w.flight + (p.acceptors.map fun a => (a, b) : List (NodeId × Ballot)) := by
      rw [heffects, Effect.messages_note, Effect.messages_broadcast, ← requests_broadcast n.id]
      exact Multiset.filterMap_add ..
    rw [unanswered_iff, hrequests]
    refine ⟨Multiset.nodup_add.mpr ⟨hw.prepares.nodup, ?_, ?_⟩, ?_⟩
    · exact Multiset.coe_nodup.mpr ((hp.acceptors ▸ Setup.nodup_acceptors hw.nodup).map
        fun _ _ h => congrArg Prod.fst h)
    · refine Multiset.disjoint_left.mpr fun {x} hx hx' => ?_
      obtain ⟨a, -, rfl⟩ := List.mem_map.mp (Multiset.mem_coe.mp hx')
      exact hnew (hrequested hx)
    · rintro a b' hab ⟨r, hr, hanswers⟩
      have hold : Answered w.log a b' := by
        refine ⟨r, (List.mem_append.mp hr).resolve_right fun hr => ?_, hanswers⟩
        have hnote := (Effect.remarked_mem_events.mp hr).2
        rw [heffects] at hnote
        obtain rfl : r = .startingProposal b p.value := by simpa using hnote
        simp [Remark.answers?] at hanswers
      rcases Multiset.mem_add.mp hab with hab | hab
      · exact hw.prepares.unanswered hab hold
      · obtain ⟨a', -, hpair⟩ := List.mem_map.mp (Multiset.mem_coe.mp hab)
        obtain ⟨rfl, rfl⟩ := Prod.mk.inj hpair
        exact hnew (hw.started_of_answered hold)

/-! ### Every move -/

theorem Sound.mem_ids (hw : w.Sound s) {id : NodeId} {n : Node V} (hn : w.node? id = some n) :
    id ∈ s.ids := by
  have hrole := hw.role hn
  cases hr : n.role with
  | acceptor a =>
    rw [hr] at hrole
    simp [Setup.ids, hrole.mem]
  | learner l =>
    rw [hr] at hrole
    simp [Setup.ids, hrole.mem]
  | proposer p =>
    rw [hr] at hrole
    simp [Setup.ids, List.mem_map.mp hrole.mem]

/-- A node that only loses messages and says nothing of a round may take any role that is sound. -/
theorem Sound.quiet (hw : w.Sound s) {n m : Node V} (hn : w.node? n.id = some n)
    (hid : m.id = n.id) (hrole : m.role.Sound s w.log n.id) {rest : Multiset (Message V)}
    (hrest : rest ≤ w.flight) (remarks : List (Remark V))
    (hquiet : ∀ r ∈ remarks, r.isStep = false) :
    ({ w with flight := rest }.settle m (remarks.map .note)).Sound s := by
  refine hw.settle hid (hw.mem_ids hn) hrest (hrole.append ?_) ?_ (hw.prepares.add hrest ?_ ?_)
  · rw [Effect.history_events_self, Effect.steps_notes hquiet]
  · intro effect he
    obtain ⟨r, hr, rfl⟩ := List.mem_map.mp he
    exact (Event.Routine.remarked n.id (hquiet r hr)).justified ..
  · simp
  · intro effect he b hb
    obtain ⟨r, hr, rfl⟩ := List.mem_map.mp he
    have hr := hquiet r hr
    cases r <;> simp_all [Effect.answers?, Remark.answers?, Remark.isStep]

theorem Sound.aside (hw : w.Sound s) {w' : World V} (h : Aside w w') : w'.Sound s := by
  cases h with
  | @note e he =>
    have hsub : w.log ⊆ w.log ++ [e] := List.subset_append_left _ _
    refine ⟨hw.nodup, hw.present, hw.id_eq, fun hn => (hw.role hn).append (he.history_eq _),
      fun m hm => hsub (hw.sent m hm), ?_, hw.prepares.nodup, ?_⟩
    · intro e' he'
      rcases List.mem_append.mp he' with he' | he'
      · exact (hw.justified e' he').mono hsub
      · obtain rfl := List.mem_singleton.mp he'
        exact he.justified ..
    · rintro a b hab ⟨r, hr, hanswers⟩
      rcases List.mem_append.mp hr with hr | hr
      · exact hw.prepares.unanswered hab ⟨r, hr, hanswers⟩
      · obtain rfl := List.mem_singleton.mp hr
        cases he with
        | remarked n hstep => cases r <;> simp_all [Remark.answers?, Remark.isStep]
  | @setValue n p value hn hf hr =>
    have hp := hw.proposer hn hr
    exact hw.quiet (m := { n with role := .proposer { p with value } }) hn rfl
      ⟨hp.mem, hp.acceptors, hp.faithful.setValue value, hp.counted⟩ le_rfl [.valueUpdated value]
      (by simp [Remark.isStep])
  | @setAlive n alive hn hf =>
    have hrole := hw.role hn
    refine hw.quiet (m := { n with alive }) hn rfl hrole le_rfl
      [if alive then .recovered else .failed] ?_
    cases alive <;> simp [Remark.isStep]
  | @overflow n p p' effects fault hn hr h =>
    have hp := hw.proposer hn hr
    obtain ⟨r, hnext, rfl, rfl⟩ := Proposer.start_eq_failed h
    have hround : p.round.toNat ≤ r.toNat := by simpa [hnext] using p.round_le_nextRound
    exact hw.quiet (m := { n with role := .proposer { p with round := r }, faulted := true }) hn rfl
      ⟨hp.mem, hp.acceptors, hp.faithful.setRound hround, hp.counted⟩ le_rfl [] (by simp)
  | @crash n lost rest hn hflight =>
    have hrest : rest ≤ w.flight := hflight ▸ Multiset.le_add_left rest lost
    have hrole := hw.role hn
    exact hw.quiet (m := { n with faulted := true }) hn rfl hrole hrest [] (by simp)

theorem Sound.step [Value V] [LawfulValue V] (hw : w.Sound s) {w' : World V} (h : Move w w') :
    w'.Sound s := by
  cases h with
  | acceptor hn hup hf hr hm hflight h => exact hw.acceptor_step hn hr hm hflight h
  | learner hn hup hf hr hm hflight h => exact hw.learner_step hn hr hflight h
  | proposer hn hup hf hr hm hflight h => exact hw.proposer_step hn hr hm hflight h
  | start hn hup hf hr h => exact hw.start_step hn hr h
  | aside h => exact hw.aside h

theorem Sound.moves [Value V] [LawfulValue V] (hw : w.Sound s) {w' : World V} (h : Moves w w') :
    w'.Sound s :=
  h.induction hw fun hw hmove => hw.step hmove

/-- What every move between sound worlds preserves holds after any number of moves. -/
theorem Sound.induction [Value V] [LawfulValue V] (hw : w.Sound s) {P : World V → Prop} (hP : P w)
    (hstep : ∀ {w w'}, w.Sound s → P w → Move w w' → P w') {w' : World V} (h : Moves w w') :
    P w' :=
  (h.induction (P := fun w => w.Sound s ∧ P w) ⟨hw, hP⟩
    fun ⟨hw, hP⟩ hmove => ⟨hw.step hmove, hstep hw hP hmove⟩).2

end World

end Synod
