import Synod.Proofs.Agreement
import Synod.Proofs.Rounds

/-! Where votes come from. Whatever vote a node holds or a message carries was asked for in a round
of its ballot, and its value is one that a proposer held when it started that round or an earlier
one. -/

namespace Synod

variable {V σ : Type}

/-! ## What is kept of a round -/

/-- The value of a vote is one that was captured by a round, which is not later than the vote. -/
def Captured (log : List (Event V)) (vote : Vote V) : Prop :=
  ∃ b ≤ vote.ballot, .remarked b.proposer (.startingProposal b vote.value) ∈ log

theorem Captured.mono {log log' : List (Event V)} (hsub : log ⊆ log') {vote : Vote V}
    (h : Captured log vote) : Captured log' vote :=
  h.imp fun _ => .imp_right fun he => hsub he

/-- What a proposer keeps of its rounds has happened. -/
structure Proposer.Backed (log : List (Event V)) (id : NodeId) (p : Proposer V) : Prop where
  captured {c : Ballot} {value : V} {reports : List (Report V)} : p.current = some c →
    p.phase = .preparing value reports → .remarked id (.startingProposal c value) ∈ log
  asked {vote : Vote V} : p.lastAccept = some vote → Asked log vote
  adopted {vote : Vote V} : p.adopted = some vote → ∃ a, Voted log a vote
  confirmed {a : NodeId} : a ∈ p.acceptedBy → ∃ vote, p.lastAccept = some vote ∧ Voted log a vote

/-- A learner counts no vote without a voter, and what a proposer keeps has happened. -/
def Role.Backed (log : List (Event V)) (id : NodeId) : Role V → Prop
  | .acceptor _ => True
  | .learner l => ∀ count ∈ l.tally.counts, count.voters ≠ []
  | .proposer p => p.Backed log id

theorem Proposer.Backed.mono {log log' : List (Event V)} (hsub : log ⊆ log') {id : NodeId}
    {p : Proposer V} (h : p.Backed log id) : p.Backed log' id where
  captured hc hphase := hsub (h.captured hc hphase)
  asked hvote := (h.asked hvote).mono hsub
  adopted hvote := (h.adopted hvote).imp fun _ => (·.mono hsub)
  confirmed ha := (h.confirmed ha).imp fun _ => .imp_right (·.mono hsub)

theorem Role.Backed.mono {log log' : List (Event V)} (hsub : log ⊆ log') {id : NodeId}
    {role : Role V} (h : role.Backed log id) : role.Backed log' id := by
  cases role with
  | acceptor a => trivial
  | learner l => exact h
  | proposer p => exact Proposer.Backed.mono hsub h

theorem Acceptor.Reaction.asked_notMem {a a' : Acceptor V} {sender : NodeId} {body : Body V}
    {effects : List (Effect V)} (h : a.Reaction sender body a' effects) (vote : Vote V) :
    .note (.promiseQuorum vote) ∉ effects := by
  cases h <;> simp

theorem Learner.Reaction.asked_notMem [Value V] {l l' : Learner V} {sender : NodeId}
    {body : Body V} {effects : List (Effect V)} (h : l.Reaction sender body l' effects)
    (vote : Vote V) : .note (.promiseQuorum vote) ∉ effects := by
  cases h <;> simp

theorem Learner.Reaction.voters_ne_nil [Value V] [LawfulValue V] {l l' : Learner V}
    {sender : NodeId} {body : Body V} {effects : List (Effect V)}
    (h : l.Reaction sender body l' effects)
    (hvoters : ∀ count ∈ l.tally.counts, count.voters ≠ []) :
    ∀ count ∈ l'.tally.counts, count.voters ≠ [] := by
  cases h with
  | count hnone hs ht hn => exact fun count hc => (Tally.record_eq_ok ht).2.voters_ne_nil hvoters hc
  | decide hnone hs ht hn => simp [Tally.clear]
  | _ => exact hvoters

namespace World

/-- Every role is backed, and every vote that was asked for is for a captured value. -/
structure Backed (w : World V) : Prop where
  role {id : NodeId} {n : Node V} : w.node? id = some n → n.role.Backed w.log id
  captured {vote : Vote V} : Asked w.log vote → Captured w.log vote

variable {s : Setup V} {w : World V}

theorem Backed.of_learner (hb : w.Backed) {id : NodeId} {l : Learner V}
    (hl : w.learner? id = some l) : ∀ count ∈ l.tally.counts, count.voters ≠ [] := by
  obtain ⟨n, hn, hr⟩ := learner?_eq_some_iff.mp hl
  have hbacked := hb.role hn
  rwa [hr] at hbacked

theorem Backed.of_proposer (hb : w.Backed) {id : NodeId} {p : Proposer V}
    (hp : w.proposer? id = some p) : p.Backed w.log id := by
  obtain ⟨n, hn, hr⟩ := proposer?_eq_some_iff.mp hp
  have hbacked := hb.role hn
  rwa [hr] at hbacked

/-- A vote that a report shows was cast, below the ballot that the report counts for. -/
theorem Sound.voted_of_counted (hw : w.Sound s) {b : Ballot} {report : Report V}
    (h : Counted w.log b report) {vote : Vote V} (hvote : report.accepted = some vote) :
    vote.ballot < b ∧ Voted w.log report.sender vote := by
  obtain ⟨held, hpromised, hheld | ⟨hnone, -⟩⟩ := h
  · rw [hvote] at hheld
    exact hw.voted_of_promised (hheld ▸ hpromised)
  · simp [hvote] at hnone

theorem Sound.voted_of_latest (hw : w.Sound s) {b : Ballot} {reports : List (Report V)}
    (h : ∀ report ∈ reports, Counted w.log b report) {sender : NodeId} {best : Vote V}
    (hbest : Proposer.latest? reports = some (sender, best)) :
    best.ballot < b ∧ Voted w.log sender best := by
  obtain ⟨report, hreport, rfl, hvote⟩ := Proposer.mem_of_latest? hbest
  exact hw.voted_of_counted (h report hreport) hvote

/-- The vote that a round asks for is for the value that it captured, or that an earlier round
did. -/
theorem Backed.captured_election (hb : w.Backed) (hw : w.Sound s) {c : Ballot} {value : V}
    {reports : List (Report V)}
    (hvalue : .remarked c.proposer (.startingProposal c value) ∈ w.log)
    (h : ∀ report ∈ reports, Counted w.log c report) :
    Captured w.log (Proposer.election c value reports) := by
  cases hbest : Proposer.latest? reports with
  | none => exact ⟨c, le_rfl, by simpa [Proposer.election, hbest] using hvalue⟩
  | some found =>
    obtain ⟨sender, best⟩ := found
    -- The adopted vote was asked for in an earlier round, so its value was captured by then.
    obtain ⟨hlt, hvoted⟩ := hw.voted_of_latest h hbest
    obtain ⟨b, hle, hmem⟩ := hb.captured (hw.asked_of_voted hvoted)
    exact ⟨b, hle.trans hlt.le, by simpa [Proposer.election, hbest] using hmem⟩

/-! ### Steps -/

theorem Backed.settle (hb : w.Backed) {n : Node V} {rest : Multiset (Message V)}
    {effects : List (Effect V)}
    (hrole : n.role.Backed (w.log ++ Effect.events n.id effects) n.id)
    (hasked : ∀ vote, .note (.promiseQuorum vote) ∈ effects → Captured w.log vote) :
    ({ w with flight := rest }.settle n effects).Backed := by
  have hsub : w.log ⊆ w.log ++ Effect.events n.id effects := List.subset_append_left _ _
  constructor
  · intro id m hm
    rcases node?_settle_eq_some hm with ⟨rfl, rfl⟩ | ⟨-, hold⟩
    · exact hrole
    · exact (hb.role hold).mono hsub
  · intro vote hvote
    rcases List.mem_append.mp hvote with hold | hnew
    · exact (hb.captured hold).mono hsub
    · exact (hasked vote (Effect.remarked_mem_events.mp hnew).2).mono hsub

/-- A proposer that reacts keeps what has happened, and so much more as the message tells. -/
theorem Sound.backed_proposer [Value V] [LawfulValue V] (hw : w.Sound s) {id : NodeId}
    {p p' : Proposer V} (hp : p.Sound s w.log id) (hbacked : p.Backed w.log id) {sender : NodeId}
    {body : Body V} {effects : List (Effect V)}
    (hm : (⟨sender, id, body⟩ : Message V).Justified s w.log)
    (h : p.Reaction sender body p' effects) :
    p'.Backed (w.log ++ Effect.events id effects) id := by
  have hsub : w.log ⊆ w.log ++ Effect.events id effects := List.subset_append_left _ _
  cases h with
  | abandon hc hphase hlt =>
    exact Proposer.Backed.mono hsub ⟨nofun, hbacked.asked, hbacked.adopted, hbacked.confirmed⟩
  | record hc hphase hn =>
    refine Proposer.Backed.mono hsub ⟨?_, hbacked.asked, hbacked.adopted, hbacked.confirmed⟩
    rintro c value gathered hc' ⟨⟩
    exact hbacked.captured hc' hphase
  | @conclude acc c value reports hc hphase hn =>
    obtain ⟨v, hstarted⟩ := hp.faithful.current hc
    obtain ⟨rfl, -, -⟩ := hp.faithful.started hstarted
    have hcounted := hw.counted_addReport hp hc hphase hm
    rw [Proposer.conclude_fst]
    refine ⟨nofun, ?_, ?_, by simp⟩
    · rintro vote ⟨⟩
      apply List.mem_append_right
      exact Effect.remarked_mem_events.mpr ⟨rfl, by simp [Proposer.conclude_snd]⟩
    · intro vote hvote
      obtain ⟨⟨a, best⟩, hbest, rfl⟩ := Option.map_eq_some_iff.mp hvote
      exact ⟨a, (hw.voted_of_latest hcounted hbest).2.mono hsub⟩
  | @confirm vote asked hlast hballot hsame =>
    refine Proposer.Backed.mono hsub ⟨hbacked.captured, hbacked.asked, hbacked.adopted, ?_⟩
    obtain rfl : asked = vote := by
      have hvalue := LawfulValue.eq_of_same? hsame
      cases asked
      cases vote
      simp_all
    intro a ha
    rcases List.mem_insert_iff.mp ha with rfl | hold
    · exact ⟨asked, hlast, hm⟩
    · exact hbacked.confirmed hold
  | _ => exact hbacked.mono hsub

theorem Backed.proposer_step [Value V] [LawfulValue V] (hb : w.Backed) (hw : w.Sound s)
    {n : Node V} {p p' : Proposer V} {m : Message V} {rest : Multiset (Message V)}
    {effects : List (Effect V)} (hn : w.node? n.id = some n) (hr : n.role = .proposer p)
    (hm : m.receiver = n.id) (hflight : w.flight = m ::ₘ rest)
    (h : p.Reaction m.sender m.body p' effects) :
    ({ w with flight := rest }.settle { n with role := .proposer p' } effects).Backed := by
  have hp := hw.proposer hn hr
  have hbacked : p.Backed w.log n.id := by
    have hrole := hb.role hn
    rwa [hr] at hrole
  have hjustified := hw.message hflight
  obtain ⟨sender, receiver, body⟩ := m
  obtain rfl : receiver = n.id := hm
  apply hb.settle
  · exact hw.backed_proposer hp hbacked hjustified h
  · intro vote hvote
    cases h with
    | @conclude acc c value reports hc hphase hn =>
      obtain ⟨v, hstarted⟩ := hp.faithful.current hc
      obtain ⟨hself, -, -⟩ := hp.faithful.started hstarted
      obtain rfl : vote = _ := by simpa [Proposer.conclude_snd] using hvote
      apply hb.captured_election hw
      · exact hself ▸ hbacked.captured hc hphase
      · exact hw.counted_addReport hp hc hphase hjustified
    | _ => simp at hvote

theorem Backed.aside (hb : w.Backed) {w' : World V} (h : Aside w w') : w'.Backed := by
  cases h with
  | @note e he =>
    have hsub : w.log ⊆ w.log ++ [e] := List.subset_append_left _ _
    constructor
    · exact fun hn => (hb.role hn).mono hsub
    · intro vote hvote
      rcases List.mem_append.mp hvote with hold | hnew
      · exact (hb.captured hold).mono hsub
      · obtain rfl := List.mem_singleton.mp hnew
        cases he with
        | remarked _ hstep => simp [Remark.isStep] at hstep
  | @setValue n p value hn hf hr =>
    have hbacked := hb.role hn
    rw [hr] at hbacked
    refine hb.settle (Role.Backed.mono (List.subset_append_left _ _) ?_) (by simp)
    exact ⟨hbacked.captured, hbacked.asked, hbacked.adopted, hbacked.confirmed⟩
  | @setAlive n alive hn hf =>
    have hbacked := hb.role hn
    refine hb.settle (Role.Backed.mono (List.subset_append_left _ _) ?_) ?_
    · exact hbacked
    · cases alive <;> simp
  | @overflow n p p' effects fault hn hr hstart =>
    obtain ⟨r, -, rfl, rfl⟩ := Proposer.start_eq_failed hstart
    have hbacked := hb.role hn
    rw [hr] at hbacked
    refine hb.settle (Role.Backed.mono (List.subset_append_left _ _) ?_) (by simp)
    exact ⟨hbacked.captured, hbacked.asked, hbacked.adopted, hbacked.confirmed⟩
  | @crash n lost rest hn hflight =>
    exact hb.settle ((hb.role hn).mono (List.subset_append_left _ _)) (by simp)

theorem Backed.step [Value V] [LawfulValue V] (hb : w.Backed) (hw : w.Sound s) {w' : World V}
    (h : Move w w') : w'.Backed := by
  cases h with
  | acceptor hn hup hf hr hm hflight h =>
    refine hb.settle ?_ fun vote hvote => absurd hvote (h.asked_notMem vote)
    trivial
  | learner hn hup hf hr hm hflight h =>
    have hvoters := hb.role hn
    rw [hr] at hvoters
    refine hb.settle ?_ fun vote hvote => absurd hvote (h.asked_notMem vote)
    exact h.voters_ne_nil hvoters
  | proposer hn hup hf hr hm hflight h => exact hb.proposer_step hw hn hr hm hflight h
  | @start n p p' b effects hn hup hf hr h =>
    obtain ⟨hidle, hself, hnext, rfl, rfl⟩ := Proposer.start_eq_started h
    have hbacked := hb.role hn
    rw [hr] at hbacked
    have hsub := List.subset_append_left w.log (Effect.events n.id
      (.note (.startingProposal b p.value) :: Effect.broadcast p.acceptors (.prepare b)))
    apply hb.settle
    · refine ⟨?_, fun hvote => (hbacked.asked hvote).mono hsub, nofun, ?_⟩
      · rintro c value reports ⟨⟩ ⟨⟩
        apply List.mem_append_right
        exact Effect.remarked_mem_events.mpr ⟨rfl, by simp⟩
      · exact fun ha => (hbacked.confirmed ha).imp fun _ => .imp_right (·.mono hsub)
    · simp
  | aside h => exact hb.aside h

end World

/-! ## Votes of a cluster -/

/-- The vote that a message carries or reports. -/
def Body.vote? : Body V → Option (Vote V)
  | .prepare _ => none
  | .promise _ held => held
  | .accept vote | .accepted vote | .learn vote => some vote

namespace Cluster

/-- A vote that some node holds, in whatever place, or that some message carries which waits or was
ever sent. -/
inductive Holds (c : Cluster V σ) (vote : Vote V) : Prop where
  | accepted {id : NodeId} {a : Acceptor V} (ha : c.acceptor? id = some a)
      (h : a.pledge.accepted = some vote)
  | learned {id : NodeId} {l : Learner V} (hl : c.learner? id = some l)
      (h : l.learned = some vote)
  | tallied {id : NodeId} {l : Learner V} {count : Count V} (hl : c.learner? id = some l)
      (hc : count ∈ l.tally.counts) (h : count.vote = vote)
  | lastAccept {id : NodeId} {p : Proposer V} (hp : c.proposer? id = some p)
      (h : p.lastAccept = some vote)
  | adopted {id : NodeId} {p : Proposer V} (hp : c.proposer? id = some p)
      (h : p.adopted = some vote)
  | reported {id : NodeId} {p : Proposer V} {report : Report V} (hp : c.proposer? id = some p)
      (hr : report ∈ p.reports) (h : report.accepted = some vote)
  | pending {m : Message V} (hm : m ∈ c.bus.pending) (h : m.body.vote? = some vote)
  | sent {m : Message V} (hm : .sent m ∈ c.log.toList) (h : m.body.vote? = some vote)

theorem asked_of_vote? {c : Cluster V σ} {s : Setup V} (hw : c.world.Sound s) {m : Message V}
    (hm : .sent m ∈ c.log.toList) {vote : Vote V} (hvote : m.body.vote? = some vote) :
    Asked c.log.toList vote := by
  have hjustified : m.Justified s c.world.log := hw.justified _ hm
  obtain ⟨sender, receiver, body⟩ := m
  cases body with
  | prepare b => simp [Body.vote?] at hvote
  | promise b held =>
    obtain rfl : held = some vote := hvote
    rcases hjustified with hpromised | ⟨hnone, -⟩
    · exact hw.asked_of_voted (hw.voted_of_promised hpromised).2
    · simp at hnone
  | accept u =>
    obtain rfl := Option.some.inj hvote
    exact hjustified.2.2
  | accepted u =>
    obtain rfl := Option.some.inj hvote
    exact hw.asked_of_voted hjustified
  | learn u =>
    obtain rfl := Option.some.inj hvote
    exact hw.asked_of_voted hjustified

theorem Holds.asked {c : Cluster V σ} {s : Setup V} (hw : c.world.Sound s) (hb : c.world.Backed)
    {vote : Vote V} (h : c.Holds vote) : Asked c.log.toList vote := by
  cases h with
  | @accepted id a ha hvote =>
    have hfaithful := (hw.of_acceptor ha).faithful
    obtain ⟨sender, hmem⟩ := mem_of_lastVote (hfaithful.accepted_eq.symm.trans hvote)
    exact hw.asked_of_voted ⟨sender, (mem_history.mp hmem).2⟩
  | @learned id l hl hvote =>
    exact hw.asked_of_chosen (hw.chosen_of_learned (hw.learned_of_learner hl hvote))
  | @tallied id l count hl hc hvote =>
    obtain ⟨a, ha⟩ := List.exists_mem_of_ne_nil _ (hb.of_learner hl count hc)
    exact hvote ▸ hw.asked_of_voted ((hw.of_learner hl).votes count hc a ha)
  | @lastAccept id p hp hvote => exact (hb.of_proposer hp).asked hvote
  | @adopted id p hp hvote =>
    obtain ⟨a, ha⟩ := (hb.of_proposer hp).adopted hvote
    exact hw.asked_of_voted ha
  | @reported id p report hp hr hvote =>
    have hsound := hw.of_proposer hp
    have hproposing : p.isProposing = true := by
      unfold Proposer.isProposing
      unfold Proposer.reports at hr
      split <;> simp_all
    obtain ⟨b, hb⟩ := hsound.faithful.current_of_proposing hproposing
    exact hw.asked_of_voted (hw.voted_of_counted (hsound.counted b hb report hr) hvote).2
  | pending hm hvote => exact asked_of_vote? hw (hw.sent _ hm) hvote
  | sent hm hvote => exact asked_of_vote? hw hm hvote

variable [Value V] [LawfulValue V] [Shuffler σ] {s : Setup V} {bus order : σ} {c : Cluster V σ}

theorem backed_run (h : create s bus order = .ok c) (ops : List (Operation V)) :
    (c.run ops).world.Backed := by
  apply invariant_run h
  · obtain ⟨-, -, -, hlog⟩ := create_eq_ok h
    constructor
    · intro id n hn
      have hfresh := ((node?_create h).mp hn).1
      rcases Setup.mem_freshNodes.mp hfresh with ⟨a, -, rfl⟩ | ⟨l, -, rfl⟩ | ⟨p, -, rfl⟩
      · trivial
      · exact fun count hc => absurd hc List.not_mem_nil
      · exact ⟨nofun, nofun, nofun, fun ha => absurd ha List.not_mem_nil⟩
    · intro vote hvote
      simp [world, hlog, Asked] at hvote
  · intro w w' hw hb hmove
    exact hb.step hw hmove

/-- A vote that is held anywhere is of a round that was started, and its value is what a proposer
held when it started that round or one before. -/
theorem vote_provenance (h : create s bus order = .ok c) (ops : List (Operation V))
    {vote : Vote V} (hvote : (c.run ops).Holds vote) :
    (∃ value, c.RoundStarted ops vote.ballot value) ∧
      ∃ b ≤ vote.ballot, c.RoundStarted ops b vote.value := by
  have hw := sound_run h ops
  have hb := backed_run h ops
  have hasked := hvote.asked hw hb
  constructor
  · obtain ⟨value, hstarted⟩ := hw.started_of_asked hasked
    exact ⟨value, (roundStarted_iff h).mpr hstarted⟩
  · obtain ⟨b, hle, hmem⟩ := hb.captured hasked
    exact ⟨b, hle, (roundStarted_iff h).mpr hmem⟩

/-- The later round has adopted the value of the first. -/
theorem vote_provenance_of_rival :
    ((ofTrio []).run (firstRound ++ laterRound)).Holds ⟨⟨1, ⟨"P2"⟩⟩, "x"⟩ ∧
      ∃ b ≤ ⟨1, ⟨"P2"⟩⟩, (ofTrio []).RoundStarted (firstRound ++ laterRound) b "x" := by
  have hheld : (((ofTrio []).run (firstRound ++ laterRound)).acceptor? ⟨"A3"⟩).bind
      (fun a => a.pledge.accepted) = some ⟨⟨1, ⟨"P2"⟩⟩, "x"⟩ := by decide +kernel
  obtain ⟨a, ha, haccepted⟩ := Option.bind_eq_some_iff.mp hheld
  have hvote := Holds.accepted ha haccepted
  exact ⟨hvote, (vote_provenance (create_trio []) _ hvote).2⟩

end Cluster

end Synod
