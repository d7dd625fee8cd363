import Mathlib.Data.List.Basic
import Synod.Proofs.History
import Synod.Proofs.Reaction
import Synod.Proofs.Tally

/-! A role is faithful to the history of its node: what it holds follows from the steps that the
node has remarked. Every rule keeps it so. -/

namespace Synod

variable {V : Type}

/-! ## Acceptors -/

/-- Whether an acceptor with this history is bound to a ballot, by a promise or by a vote. -/
def Bound (rs : List (Remark V)) (b : Ballot) : Prop :=
  (∃ sender held, .promised sender b held ∈ rs) ∨
    ∃ sender vote, .accepted sender vote ∈ rs ∧ vote.ballot = b

theorem Bound.append {rs : List (Remark V)} {b : Ballot} (h : Bound rs b)
    (later : List (Remark V)) : Bound (rs ++ later) b :=
  h.imp (.imp fun _ => .imp fun _ => List.mem_append_left _)
    (.imp fun _ => .imp fun _ => .imp_left (List.mem_append_left _))

theorem Bound.of_append {rs later : List (Remark V)} {b : Ballot} (h : Bound (rs ++ later) b) :
    Bound rs b ∨ Bound later b := by
  rcases h with ⟨sender, held, hmem⟩ | ⟨sender, vote, hmem, rfl⟩
  · exact (List.mem_append.mp hmem).imp (fun h => .inl ⟨sender, held, h⟩)
      fun h => .inl ⟨sender, held, h⟩
  · exact (List.mem_append.mp hmem).imp (fun h => .inr ⟨sender, vote, h, rfl⟩)
      fun h => .inr ⟨sender, vote, h, rfl⟩

namespace Acceptor

structure Faithful (a : Acceptor V) (rs : List (Remark V)) : Prop where
  accepted_eq : a.pledge.accepted = lastVote rs
  bound_le {b : Ballot} : Bound rs b → ∃ m, a.pledge.promised = some m ∧ b ≤ m
  bound {m : Ballot} : a.pledge.promised = some m → Bound rs m
  voted_le {sender : NodeId} {vote : Vote V} : .accepted sender vote ∈ rs →
    ∃ last, a.pledge.accepted = some last ∧ vote.ballot ≤ last.ballot
  held {sender : NodeId} {b : Ballot} {held : Option (Vote V)} : .promised sender b held ∈ rs →
    ∃ before after, rs = before ++ .promised sender b held :: after ∧ held = lastVote before
  /-- A promise reports the latest of all votes below its ballot, those that come later too. -/
  reported_le {sender voter : NodeId} {b : Ballot} {held : Option (Vote V)} {vote : Vote V} :
    .promised sender b held ∈ rs → .accepted voter vote ∈ rs → vote.ballot < b →
      ∃ u, held = some u ∧ vote.ballot ≤ u.ballot
  reported {sender : NodeId} {b : Ballot} {u : Vote V} : .promised sender b (some u) ∈ rs →
    u.ballot < b ∧ ∃ voter, .accepted voter u ∈ rs
  refused {sender : NodeId} {m b : Ballot} : .prepareRejected sender m b ∈ rs →
    m ≤ b ∧ Bound rs b
  /-- A prepare that was refused was not granted before or after. -/
  exclusive {sender other : NodeId} {m b : Ballot} {held : Option (Vote V)} :
    .promised sender m held ∈ rs → .prepareRejected other m b ∉ rs

theorem faithful_nil (learners : List NodeId) : Faithful { learners : Acceptor V } [] where
  accepted_eq := rfl
  bound_le h := by simp [Bound] at h
  bound h := by simp at h
  voted_le h := by simp at h
  held h := by simp at h
  reported_le h := by simp at h
  reported h := by simp at h
  refused h := by simp at h
  exclusive h := by simp at h

variable {a : Acceptor V} {rs : List (Remark V)}

/-- What was promised to a history stays promised to a longer one. -/
theorem Faithful.held_append (h : a.Faithful rs) (later : List (Remark V)) {sender : NodeId}
    {b : Ballot} {held : Option (Vote V)} (hp : .promised sender b held ∈ rs) :
    ∃ before after, rs ++ later = before ++ .promised sender b held :: after ∧
      held = lastVote before := by
  obtain ⟨before, after, hrs, hheld⟩ := h.held hp
  exact ⟨before, after ++ later, by simp [hrs], hheld⟩

theorem Faithful.promise (h : a.Faithful rs) {b : Ballot}
    (hb : ∀ m, a.pledge.promised = some m → m < b) (sender : NodeId)
    (hfresh : ∀ r ∈ rs, r.answers? ≠ some b) :
    Faithful { a with pledge := { a.pledge with promised := some b } }
      (rs ++ [.promised sender b a.pledge.accepted]) where
  accepted_eq := by
    rw [lastVote_concat_of_none _ rfl]
    exact h.accepted_eq
  bound_le := by
    intro c hc
    refine ⟨b, rfl, ?_⟩
    have hold : Bound rs c → c ≤ b := fun hc =>
      have ⟨m, hm, hle⟩ := h.bound_le hc
      hle.trans (hb m hm).le
    rcases hc with ⟨s, u, hmem⟩ | ⟨s, vote, hmem, rfl⟩
    · rcases List.mem_append.mp hmem with hmem | hmem
      · exact hold (.inl ⟨s, u, hmem⟩)
      · simp only [List.mem_singleton, Remark.promised.injEq] at hmem
        exact hmem.2.1.le
    · exact hold (.inr ⟨s, vote, by simpa using hmem, rfl⟩)
  bound := by
    rintro m ⟨⟩
    exact .inl ⟨sender, a.pledge.accepted, by simp⟩
  voted_le hmem := h.voted_le (by simpa using hmem)
  held := by
    intro s c u hmem
    rcases List.mem_append.mp hmem with hmem | hmem
    · exact h.held_append _ hmem
    · obtain ⟨rfl, rfl, rfl⟩ : s = sender ∧ c = b ∧ u = a.pledge.accepted := by simpa using hmem
      exact ⟨rs, [], rfl, h.accepted_eq⟩
  reported_le := by
    intro s voter c u vote hmem hvote hlt
    have hvote : .accepted voter vote ∈ rs := by simpa using hvote
    rcases List.mem_append.mp hmem with hmem | hmem
    · exact h.reported_le hmem hvote hlt
    · obtain ⟨-, -, rfl⟩ : s = sender ∧ c = b ∧ u = a.pledge.accepted := by simpa using hmem
      exact h.voted_le hvote
  reported := by
    intro s c u hmem
    rcases List.mem_append.mp hmem with hmem | hmem
    · obtain ⟨hlt, voter, hvote⟩ := h.reported hmem
      exact ⟨hlt, voter, List.mem_append_left _ hvote⟩
    · obtain ⟨-, rfl, hu⟩ : s = sender ∧ c = b ∧ some u = a.pledge.accepted := by simpa using hmem
      obtain ⟨voter, hvote⟩ := mem_of_lastVote (h.accepted_eq.symm.trans hu.symm)
      obtain ⟨m, hm, hle⟩ := h.bound_le (.inr ⟨voter, u, hvote, rfl⟩)
      exact ⟨hle.trans_lt (hb m hm), voter, List.mem_append_left _ hvote⟩
  refused hmem :=
    have ⟨hle, hbound⟩ := h.refused (by simpa using hmem)
    ⟨hle, hbound.append _⟩
  exclusive := by
    intro s other m c u hmem hrej
    have hold : .prepareRejected other m c ∈ rs := by simpa using hrej
    rcases List.mem_append.mp hmem with hmem | hmem
    · exact h.exclusive hmem hold
    · obtain ⟨-, rfl, -⟩ : s = sender ∧ m = b ∧ u = a.pledge.accepted := by simpa using hmem
      exact hfresh _ hold rfl

theorem Faithful.refuse (h : a.Faithful rs) {b m : Ballot} (hm : a.pledge.promised = some m)
    (hle : b ≤ m) (sender : NodeId) (hfresh : ∀ r ∈ rs, r.answers? ≠ some b) :
    a.Faithful (rs ++ [.prepareRejected sender b m]) where
  accepted_eq := by
    rw [lastVote_concat_of_none _ rfl]
    exact h.accepted_eq
  bound_le hc := h.bound_le (by simpa [Bound] using hc)
  bound hm := (h.bound hm).append _
  voted_le hmem := h.voted_le (by simpa using hmem)
  held hmem := h.held_append _ (by simpa using hmem)
  reported_le hmem hvote hlt := h.reported_le (by simpa using hmem) (by simpa using hvote) hlt
  reported hmem :=
    have ⟨hlt, voter, hvote⟩ := h.reported (by simpa using hmem)
    ⟨hlt, voter, List.mem_append_left _ hvote⟩
  refused := by
    intro s c d hmem
    rcases List.mem_append.mp hmem with hmem | hmem
    · have ⟨hcd, hbound⟩ := h.refused hmem
      exact ⟨hcd, hbound.append _⟩
    · obtain ⟨-, rfl, rfl⟩ : s = sender ∧ c = b ∧ d = m := by simpa using hmem
      exact ⟨hle, (h.bound hm).append _⟩
  exclusive := by
    intro s other c d u hmem hrej
    have hold : .promised s c u ∈ rs := by simpa using hmem
    rcases List.mem_append.mp hrej with hrej | hrej
    · exact h.exclusive hold hrej
    · obtain ⟨-, rfl, -⟩ : other = sender ∧ c = b ∧ d = m := by simpa using hrej
      exact hfresh _ hold rfl

theorem Faithful.vote (h : a.Faithful rs) {vote : Vote V}
    (hb : ∀ m, a.pledge.promised = some m → m ≤ vote.ballot) (sender : NodeId) :
    Faithful { a with pledge := ⟨some vote.ballot, some vote⟩ }
      (rs ++ [.accepted sender vote]) where
  accepted_eq := (lastVote_concat_accepted rs sender vote).symm
  bound_le := by
    intro c hc
    refine ⟨vote.ballot, rfl, ?_⟩
    have hold : Bound rs c → c ≤ vote.ballot := fun hc =>
      have ⟨m, hm, hle⟩ := h.bound_le hc
      hle.trans (hb m hm)
    rcases hc with ⟨s, u, hmem⟩ | ⟨s, u, hmem, rfl⟩
    · exact hold (.inl ⟨s, u, by simpa using hmem⟩)
    · rcases List.mem_append.mp hmem with hmem | hmem
      · exact hold (.inr ⟨s, u, hmem, rfl⟩)
      · obtain ⟨-, rfl⟩ : s = sender ∧ u = vote := by simpa using hmem
        exact le_rfl
  bound := by
    rintro m ⟨⟩
    exact .inr ⟨sender, vote, by simp, rfl⟩
  voted_le := by
    intro s u hmem
    refine ⟨vote, rfl, ?_⟩
    rcases List.mem_append.mp hmem with hmem | hmem
    · obtain ⟨m, hm, hle⟩ := h.bound_le (.inr ⟨s, u, hmem, rfl⟩)
      exact hle.trans (hb m hm)
    · obtain ⟨-, rfl⟩ : s = sender ∧ u = vote := by simpa using hmem
      exact le_rfl
  held hmem := h.held_append _ (by simpa using hmem)
  reported_le := by
    intro s voter c held u hmem hvote hlt
    have hold : .promised s c held ∈ rs := by simpa using hmem
    rcases List.mem_append.mp hvote with hvote | hvote
    · exact h.reported_le hold hvote hlt
    -- The new vote is not below any ballot that was promised.
    · obtain ⟨-, rfl⟩ : voter = sender ∧ u = vote := by simpa using hvote
      obtain ⟨m, hm, hle⟩ := h.bound_le (.inl ⟨s, held, hold⟩)
      exact absurd (hle.trans (hb m hm)) hlt.not_ge
  reported hmem :=
    have ⟨hlt, voter, hvote⟩ := h.reported (by simpa using hmem)
    ⟨hlt, voter, List.mem_append_left _ hvote⟩
  refused hmem :=
    have ⟨hle, hbound⟩ := h.refused (by simpa using hmem)
    ⟨hle, hbound.append _⟩
  exclusive hmem hrej := h.exclusive (by simpa using hmem) (by simpa using hrej)

/-- An acceptor that answers no prepare twice stays faithful. -/
theorem Reaction.faithful {a' : Acceptor V} {sender : NodeId} {body : Body V}
    {effects : List (Effect V)} (h : a.Reaction sender body a' effects) (ha : a.Faithful rs)
    (hfresh : ∀ b, body = .prepare b → ∀ r ∈ rs, r.answers? ≠ some b) :
    a'.Faithful (rs ++ Effect.steps effects) := by
  cases h with
  | promise hb => exact ha.promise hb sender (hfresh _ rfl)
  | refuse hm hle => exact ha.refuse hm hle sender (hfresh _ rfl)
  | vote hb =>
    rw [Effect.steps_note_of_not_step rfl, Effect.steps_note_of_step rfl, Effect.steps_send,
      Effect.steps_broadcast]
    exact ha.vote hb sender
  | decline hm hlt => simpa [Effect.steps, Remark.isStep] using ha
  | ignore hp hv => simpa [Effect.steps, Remark.isStep] using ha

end Acceptor

/-! ## Learners -/

namespace Learner

structure Faithful (l : Learner V) (rs : List (Remark V)) : Prop where
  learned_iff {vote : Vote V} : .consensusReached vote ∈ rs ↔ l.learned = some vote
  distinct : l.learned = none → (l.tally.counts.map Count.vote).Nodup
  /-- No vote that is still counted has a quorum. -/
  below : l.learned = none → ∀ count ∈ l.tally.counts,
    count.voters.Nodup ∧ count.voters.length < l.tally.quorum

theorem faithful_nil (acceptors : List NodeId) :
    (ofAcceptors acceptors : Learner V).Faithful [] where
  learned_iff := by simp [ofAcceptors]
  distinct _ := List.nodup_nil
  below _ := by simp [ofAcceptors, Tally.ofSize]

theorem Reaction.faithful [Value V] [LawfulValue V] {l l' : Learner V} {rs : List (Remark V)}
    {sender : NodeId} {body : Body V} {effects : List (Effect V)}
    (h : l.Reaction sender body l' effects) (hl : l.Faithful rs) :
    l'.Faithful (rs ++ Effect.steps effects) := by
  cases h with
  | keep hsome => simpa [Effect.steps, Remark.isStep] using hl
  | stranger hnone hs => simpa [Effect.steps, Remark.isStep] using hl
  | ignore hbody => simpa [Effect.steps, Remark.isStep] using hl
  | @count vote tally n hnone hs ht hn =>
    obtain ⟨hquorum, hadded⟩ := Tally.record_eq_ok ht
    rw [Effect.steps_note_of_not_step rfl, Effect.steps_note_of_not_step rfl, Effect.steps_nil,
      List.append_nil]
    refine ⟨hl.learned_iff, fun _ => hadded.votes_nodup (hl.distinct hnone), fun _ count hc => ?_⟩
    refine ⟨hadded.voters_nodup (fun c hc => (hl.below hnone c hc).1) hc, ?_⟩
    rcases hadded.mem_or_eq hc with hold | ⟨-, hlength⟩
    · exact hquorum ▸ (hl.below hnone count hold).2
    · exact hlength ▸ hn
  | @decide vote tally n hnone hs ht hn =>
    rw [Effect.steps_note_of_not_step rfl, Effect.steps_note_of_not_step rfl,
      Effect.steps_note_of_step rfl, Effect.steps_nil]
    refine ⟨?_, by simp, by simp⟩
    intro u
    have hold : .consensusReached u ∉ rs := by simp [hl.learned_iff, hnone]
    simp [hold, eq_comm]

end Learner

/-! ## Proposers -/

namespace Proposer

structure Faithful (p : Proposer V) (id : NodeId) (rs : List (Remark V)) : Prop where
  current_of_proposing : p.isProposing = true → ∃ c, p.current = some c
  current {c : Ballot} : p.current = some c → ∃ value, .startingProposal c value ∈ rs
  started {b : Ballot} {value : V} : .startingProposal b value ∈ rs →
    b.proposer = id ∧ b.round.toNat ≤ p.round.toNat ∧ ∃ c, p.current = some c ∧ b ≤ c
  asked {vote : Vote V} : .promiseQuorum vote ∈ rs →
    ∃ value, .startingProposal vote.ballot value ∈ rs
  /-- A round asks for one vote. -/
  asked_unique {u v : Vote V} : .promiseQuorum u ∈ rs → .promiseQuorum v ∈ rs →
    u.ballot = v.ballot → u = v
  /-- A round that collects promises has not asked for a vote. -/
  not_asked {c : Ballot} {value : V} {reports : List (Report V)} {vote : Vote V} :
    p.current = some c → p.phase = .preparing value reports → .promiseQuorum vote ∈ rs →
      vote.ballot ≠ c
  reports {value : V} {reports : List (Report V)} : p.phase = .preparing value reports →
    (reports.map Report.sender).Nodup ∧ reports.length < p.quorum

theorem faithful_nil (acceptors : List NodeId) (value : V) (id : NodeId) :
    Faithful { acceptors, value } id [] where
  current_of_proposing h := by simp [isProposing] at h
  current h := by simp at h
  started h := by simp at h
  asked h := by simp at h
  asked_unique h := by simp at h
  not_asked h := by simp at h
  reports h := by simp at h

theorem nodup_addReport {reports : List (Report V)} (h : (reports.map Report.sender).Nodup)
    (report : Report V) : ((addReport reports report).map Report.sender).Nodup := by
  rw [addReport, List.map_cons, List.nodup_cons]
  refine ⟨by simp, h.sublist (List.Sublist.map _ List.filter_sublist)⟩

theorem mem_addReport {reports : List (Report V)} {report r : Report V} :
    r ∈ addReport reports report ↔ r = report ∨ r ∈ reports ∧ r.sender ≠ report.sender := by
  simp [addReport]

variable {p : Proposer V} {id : NodeId} {rs : List (Remark V)}

theorem Faithful.setValue (h : p.Faithful id rs) (value : V) :
    Faithful { p with value } id rs :=
  ⟨h.current_of_proposing, h.current, h.started, h.asked, h.asked_unique, h.not_asked, h.reports⟩

/-- Only the number of the next round moves on. -/
theorem Faithful.setRound (h : p.Faithful id rs) {r : UInt64} (hr : p.round.toNat ≤ r.toNat) :
    Faithful { p with round := r } id rs :=
  ⟨h.current_of_proposing, h.current, fun hb => (h.started hb).imp_right (.imp_left (·.trans hr)),
    h.asked, h.asked_unique, h.not_asked, h.reports⟩

/-- A round that was started is the latest of its proposer. -/
theorem Faithful.start (h : p.Faithful id rs) {p' : Proposer V} {b : Ballot}
    {effects : List (Effect V)} (hstart : p.start id = (p', effects, .started b)) :
    p'.Faithful id (rs ++ Effect.steps effects) := by
  obtain ⟨hidle, hid, hnext, rfl, rfl⟩ := start_eq_started hstart
  obtain ⟨hround, -⟩ := nextRound_eq_none hnext
  have hsteps : Effect.steps (.note (.startingProposal b p.value) ::
      Effect.broadcast p.acceptors (.prepare b)) = [.startingProposal b p.value] := by
    rw [Effect.steps_note_of_step rfl, Effect.steps_broadcast]
  rw [hsteps]
  have hle {c : Ballot} {value : V} (hc : .startingProposal c value ∈ rs) :
      c.proposer = id ∧ c.round.toNat < b.round.toNat := by
    obtain ⟨hproposer, hold, -⟩ := h.started hc
    exact ⟨hproposer, hold.trans_lt hround⟩
  have hasked {vote : Vote V} (hq : .promiseQuorum vote ∈ rs ++ [.startingProposal b p.value]) :
      .promiseQuorum vote ∈ rs := by simpa using hq
  refine ⟨fun _ => ⟨b, rfl⟩, ?_, ?_, ?_, ?_, ?_, ?_⟩
  · rintro c ⟨⟩
    exact ⟨p.value, by simp⟩
  · intro c value hc
    rcases List.mem_append.mp hc with hc | hc
    · obtain ⟨hproposer, hlt⟩ := hle hc
      exact ⟨hproposer, hlt.le, b, rfl,
        (Ballot.le_iff_round (hproposer.trans hid.symm)).mpr hlt.le⟩
    · obtain ⟨rfl, -⟩ : c = b ∧ value = p.value := by simpa using hc
      exact ⟨hid, le_rfl, c, rfl, le_rfl⟩
  · intro vote hq
    obtain ⟨value, hv⟩ := h.asked (hasked hq)
    exact ⟨value, List.mem_append_left _ hv⟩
  · exact fun hu hv => h.asked_unique (hasked hu) (hasked hv)
  · rintro c value reports vote ⟨⟩ - hq rfl
    obtain ⟨value, hv⟩ := h.asked (hasked hq)
    exact (hle hv).2.ne rfl
  · rintro value reports ⟨⟩
    exact ⟨List.nodup_nil, by simp [quorum, quorumSize]⟩

theorem Faithful.abandon (h : p.Faithful id rs) (seen : Option Ballot) :
    Faithful { p with phase := .idle, highestSeen := seen } id rs :=
  ⟨by simp [isProposing], h.current, h.started, h.asked, h.asked_unique, by simp, by simp⟩

theorem Faithful.record (h : p.Faithful id rs) {c : Ballot} {value : V}
    {reports : List (Report V)} (hc : p.current = some c) (hp : p.phase = .preparing value reports)
    {report : Report V} (hn : (addReport reports report).length < p.quorum) :
    Faithful { p with phase := .preparing value (addReport reports report) } id rs := by
  refine ⟨fun _ => ⟨c, hc⟩, h.current, h.started, h.asked, h.asked_unique, ?_, ?_⟩
  · intro c' value' reports' vote hc' _ hq
    exact h.not_asked hc' hp hq
  · rintro value' reports' ⟨⟩
    exact ⟨nodup_addReport (h.reports hp).1 report, hn⟩

theorem conclude_fst (p : Proposer V) (c : Ballot) (value : V) (reports : List (Report V)) :
    (p.conclude c value reports).1 =
      { p with
          phase := .idle
          adopted := (latest? reports).map (·.2)
          lastAccept := some (election c value reports)
          acceptedBy := [] } := by
  simp [conclude, election, Function.comp_def]

theorem conclude_snd (p : Proposer V) (c : Ballot) (value : V) (reports : List (Report V)) :
    (p.conclude c value reports).2 =
      (((latest? reports).map (·.2)).toList.map fun vote => .note (.adoptingValue c vote)) ++
        .note (.promiseQuorum (election c value reports)) ::
          Effect.broadcast p.acceptors (.accept (election c value reports)) := by
  simp [conclude, election, Function.comp_def]

theorem steps_conclude (p : Proposer V) (c : Ballot) (value : V) (reports : List (Report V)) :
    Effect.steps (p.conclude c value reports).2 = [.promiseQuorum (election c value reports)] := by
  have hadopting (adopted : Option (Vote V)) :
      Effect.steps (adopted.toList.map fun vote => .note (.adoptingValue c vote)) = [] := by
    cases adopted <;> rfl
  rw [conclude_snd, Effect.steps_append, hadopting, Effect.steps_note_of_step rfl,
    Effect.steps_broadcast, List.nil_append]

theorem messages_conclude (id : NodeId) (p : Proposer V) (c : Ballot) (value : V)
    (reports : List (Report V)) :
    Effect.messages id (p.conclude c value reports).2 =
      p.acceptors.map fun a => ⟨id, a, .accept (election c value reports)⟩ := by
  rw [conclude_snd]
  cases latest? reports <;> simp

/-- What holds of each remark and of each accept holds of all that a round does in its end. -/
theorem forall_mem_conclude {p : Proposer V} {c : Ballot} {value : V} {reports : List (Report V)}
    {P : Effect V → Prop} (hadopting : ∀ vote, P (.note (.adoptingValue c vote)))
    (hasked : P (.note (.promiseQuorum (election c value reports))))
    (hsent : ∀ a ∈ p.acceptors, P (.send a (.accept (election c value reports)))) :
    ∀ effect ∈ (p.conclude c value reports).2, P effect := by
  intro effect he
  rw [conclude_snd] at he
  rcases List.mem_append.mp he with he | he
  · obtain ⟨vote, -, rfl⟩ := List.mem_map.mp he
    exact hadopting vote
  · rcases List.mem_cons.mp he with rfl | he
    · exact hasked
    · obtain ⟨a, ha, rfl⟩ := List.mem_map.mp he
      exact hsent a ha

theorem Faithful.conclude (h : p.Faithful id rs) {c : Ballot} {value : V}
    {reports : List (Report V)} (hc : p.current = some c) (hp : p.phase = .preparing value reports)
    (gathered : List (Report V)) :
    (p.conclude c value gathered).1.Faithful id
      (rs ++ [.promiseQuorum (election c value gathered)]) := by
  rw [conclude_fst]
  have hnew {vote : Vote V} (hq : .promiseQuorum vote ∈ rs) :
      vote.ballot ≠ (election c value gathered).ballot := h.not_asked hc hp hq
  refine ⟨by simp [isProposing], ?_, fun hb => h.started (by simpa using hb), ?_, ?_, by simp,
    by simp⟩
  · intro c' hc'
    obtain ⟨v, hv⟩ := h.current hc'
    exact ⟨v, List.mem_append_left _ hv⟩
  · intro vote hq
    rcases List.mem_append.mp hq with hq | hq
    · obtain ⟨v, hv⟩ := h.asked hq
      exact ⟨v, List.mem_append_left _ hv⟩
    · obtain rfl : vote = election c value gathered := by simpa using hq
      obtain ⟨v, hv⟩ := h.current hc
      exact ⟨v, List.mem_append_left _ hv⟩
  · intro u v hu hv hb
    simp only [List.mem_append, List.mem_singleton, Remark.promiseQuorum.injEq] at hu hv
    rcases hu with hu | rfl <;> rcases hv with hv | rfl
    · exact h.asked_unique hu hv hb
    · exact absurd hb (hnew hu)
    · exact absurd hb.symm (hnew hv)
    · rfl

theorem Reaction.faithful [Value V] {p' : Proposer V} {sender : NodeId} {body : Body V}
    {effects : List (Effect V)} (h : p.Reaction sender body p' effects) (hp : p.Faithful id rs) :
    p'.Faithful id (rs ++ Effect.steps effects) := by
  cases h with
  | early hc => simpa [Effect.steps, Remark.isStep] using hp
  | late hidle => simpa [Effect.steps, Remark.isStep] using hp
  | abandon hc hphase hlt => simpa [Effect.steps, Remark.isStep] using hp.abandon _
  | stale hc hphase hlt => simpa [Effect.steps, Remark.isStep] using hp
  | record hc hphase hn => simpa [Effect.steps, Remark.isStep] using hp.record hc hphase hn
  | conclude hc hphase hn =>
    rw [Effect.steps_note_of_not_step rfl, steps_conclude]
    exact hp.conclude hc hphase _
  | confirm hlast hb hv =>
    rw [Effect.steps_note_of_not_step rfl, Effect.steps_nil, List.append_nil]
    exact ⟨hp.current_of_proposing, hp.current, hp.started, hp.asked, hp.asked_unique,
      hp.not_asked, hp.reports⟩
  | another => simpa [Effect.steps, Remark.isStep] using hp
  | ignore hpromise haccepted => simpa [Effect.steps, Remark.isStep] using hp

end Proposer

end Synod
