import Synod.Proofs.Canvass

/-! The course of a round. From its start a round is in flight until its promises complete a quorum
or a later ballot surpasses it, and it never comes back. All that a proposer does for it is told by
the calls since the start. -/

namespace Synod

variable {V : Type}

namespace Proposer

/-- The round of a ballot is in flight, with the promises that the calls since its start have
brought. -/
structure InFlight (q : Proposer V) (n : Ballot) (own : V) (calls : List (Call V)) : Prop where
  current : q.current = some n
  gathering : ∃ reports, q.phase = .preparing own reports ∧ Gathers reports (promises n calls)
  unsurpassed : ¬ Surpassed n calls
  few : (promisers n calls).card < q.quorum

/-- The last round is that of a ballot or a later one, and only a later one can be in flight. -/
def Beyond (q : Proposer V) (n : Ballot) : Prop :=
  ∃ c, q.current = some c ∧ n ≤ c ∧ (q.isProposing = true → n < c)

/-- The round of a ballot has ended, for a reason that the calls since its start tell. -/
structure Over (q : Proposer V) (n : Ballot) (calls : List (Call V)) : Prop where
  reason : Surpassed n calls ∨ q.quorum ≤ (promisers n calls).card
  beyond : q.Beyond n

variable {self : NodeId} {p p' q : Proposer V} {n b : Ballot} {own : V} {calls : List (Call V)}
  {c : Call V} {effects : List (Effect V)} {rs : List (Remark V)}

theorem InFlight.isProposing (h : q.InFlight n own calls) : q.isProposing = true :=
  have ⟨_, hphase, _⟩ := h.gathering
  isProposing_iff.mpr ⟨_, _, hphase⟩

theorem Beyond.ne (h : q.Beyond n) (hp : q.isProposing = true) : q.current ≠ some n := by
  obtain ⟨c, hc, -, hlt⟩ := h
  intro hn
  exact (hlt hp).ne (Option.some.inj (hn.symm.trans hc))

theorem InFlight.length_reports (h : q.InFlight n own calls) :
    q.reports.length = (promisers n calls).card := by
  obtain ⟨reports, hphase, hgathers⟩ := h.gathering
  rw [Proposer.reports, hphase]
  exact hgathers.length_eq

theorem Gathers.add_promise {reports : List (Report V)} (h : Gathers reports (promises n calls))
    (sender : NodeId) (acc : Option (Vote V)) :
    Gathers (addReport reports ⟨sender, acc⟩)
      (promises n (calls ++ [.handle sender (.promise n acc)])) := by
  rw [promises_concat_promise]
  exact h.add ⟨sender, acc⟩

variable [Value V]

/-! ### Beyond a round -/

theorem Called.beyond (h : p.Called self c p' effects) (hp : p.Faithful self rs)
    (hn : p.Beyond n) : p'.Beyond n := by
  obtain ⟨m, hm, hle, hlt⟩ := hn
  cases h with
  | started hstart =>
    have hnew := hle.trans_lt (hp.current_lt hm hstart)
    obtain ⟨-, -, -, rfl, -⟩ := start_eq_started hstart
    exact ⟨_, rfl, hnew.le, fun _ => hnew⟩
  | handled hreaction =>
    cases hreaction with
    | abandon => exact ⟨m, hm, hle, nofun⟩
    | record hcurrent hphase hn =>
      exact ⟨m, hm, hle, fun _ => hlt (isProposing_iff.mpr ⟨_, _, hphase⟩)⟩
    | conclude =>
      rw [conclude_fst]
      exact ⟨m, hm, hle, nofun⟩
    | _ => exact ⟨m, hm, hle, hlt⟩
  | _ => exact ⟨m, hm, hle, hlt⟩

theorem Over.call (h : q.Over n calls) (hq : q.Faithful self rs) (c : Call V) :
    (q.call self c).1.Over n (calls ++ [c]) := by
  have hcalled := call_called self q c
  refine ⟨h.reason.imp (fun hs => surpassed_concat.mpr (.inl hs)) fun hle => ?_,
    hcalled.beyond hq h.beyond⟩
  rw [quorum, hcalled.acceptors_eq]
  exact hle.trans (Finset.card_le_card (promisers_mono n calls c))

/-! ### A round in flight -/

theorem InFlight.call_inert (h : q.InFlight n own calls) (hc : q.Inert c) :
    (q.call self c).1.InFlight n own (calls ++ [c]) := by
  have hcalled := call_called self q c
  have hquiet := hcalled.quiet hc
  obtain ⟨hreport, hsurpassed⟩ := hc.unheard h.current h.isProposing
  have hpromises : promises n (calls ++ [c]) = promises n calls := by
    simp [promises_concat, hreport]
  refine ⟨hquiet.current.trans h.current, ?_, ?_, ?_⟩
  · rw [hquiet.phase, hpromises]
    exact h.gathering
  · rw [surpassed_concat]
    exact not_or.mpr ⟨h.unsurpassed, hsurpassed⟩
  · rw [quorum, hcalled.acceptors_eq, promisers, hpromises]
    exact h.few

/-- A promise of a later ballot ends the round, and nothing is sent. -/
theorem InFlight.call_later (h : q.InFlight n own calls) (sender : NodeId) (acc : Option (Vote V))
    (hlt : n < b) :
    let c : Call V := .handle sender (.promise b acc)
    (q.call self c).1.Over n (calls ++ [c]) ∧ (q.call self c).1.isProposing = false ∧
      Effect.messages self (q.call self c).2 = [] ∧ asks (q.call self c).2 = [] := by
  intro c
  obtain ⟨reports, hphase, -⟩ := h.gathering
  have hcall : q.call self c = _ := onPromise_of_lt h.current hphase hlt sender acc
  rw [hcall]
  have hsurpassed : Surpassed n (calls ++ [c]) :=
    surpassed_concat.mpr (.inr (surpassed_promise.mpr hlt))
  exact ⟨⟨.inl hsurpassed, ⟨n, h.current, le_rfl, nofun⟩⟩, rfl, rfl, rfl⟩

theorem InFlight.call_few (h : q.InFlight n own calls) {sender : NodeId} {acc : Option (Vote V)}
    (hc : c = .handle sender (.promise n acc))
    (hfew : (promisers n (calls ++ [c])).card < q.quorum) :
    (q.call self c).1.InFlight n own (calls ++ [c]) ∧
      Effect.messages self (q.call self c).2 = [] ∧ asks (q.call self c).2 = [] := by
  subst hc
  obtain ⟨reports, hphase, hgathers⟩ := h.gathering
  have hadded := hgathers.add_promise sender acc
  have hcall := onPromise_of_few h.current hphase (hadded.length_eq.trans_lt hfew)
  rw [call_promise, hcall]
  refine ⟨⟨h.current, ⟨_, rfl, hadded⟩, ?_, hfew⟩, rfl, rfl⟩
  rw [surpassed_concat, surpassed_promise]
  exact fun hs => hs.elim h.unsurpassed (lt_irrefl n)

/-- With a quorum the round asks for the value that is due, and ends. -/
theorem InFlight.call_many (h : q.InFlight n own calls) {sender : NodeId} {acc : Option (Vote V)}
    (hc : c = .handle sender (.promise n acc))
    (hmany : q.quorum ≤ (promisers n (calls ++ [c])).card) :
    (q.call self c).1.Over n (calls ++ [c]) ∧ (q.call self c).1.isProposing = false ∧
      ∃ v, Due own (promises n (calls ++ [c])) v ∧ asks (q.call self c).2 = [⟨n, v⟩] ∧
        Effect.messages self (q.call self c).2 =
          q.acceptors.map fun a => ⟨self, a, .accept ⟨n, v⟩⟩ := by
  subst hc
  obtain ⟨reports, hphase, hgathers⟩ := h.gathering
  have hadded := hgathers.add_promise sender acc
  have hcall := onPromise_of_many h.current hphase (hmany.trans hadded.length_eq.ge)
  rw [call_promise, hcall, conclude_fst]
  exact ⟨⟨.inr hmany, ⟨n, h.current, le_rfl, nofun⟩⟩, rfl, _, hadded.due n own,
    asks_conclude q n own _, messages_conclude self q n own _⟩

omit [Value V] in
/-- What a call is to a round in flight. -/
theorem InFlight.call_cases (h : q.InFlight n own calls) (c : Call V) :
    q.Inert c ∨ (∃ sender b acc, c = .handle sender (.promise b acc) ∧ n < b) ∨
      ∃ sender acc, c = .handle sender (.promise n acc) := by
  cases c with
  | start => exact .inl (.start h.isProposing)
  | setValue value => exact .inl (.setValue value)
  | handle sender body =>
    cases body with
    | promise b acc =>
      rcases lt_trichotomy b n with hlt | rfl | hlt
      · exact .inl (.stale h.current hlt)
      · exact .inr (.inr ⟨sender, acc, rfl⟩)
      · exact .inr (.inl ⟨sender, b, acc, rfl, hlt⟩)
    | _ => exact .inl (.other nofun)

/-- A call leaves a round in flight or ends it. -/
theorem InFlight.call (h : q.InFlight n own calls) (c : Call V) :
    (q.call self c).1.InFlight n own (calls ++ [c]) ∨ (q.call self c).1.Over n (calls ++ [c]) := by
  rcases h.call_cases c with hinert | ⟨sender, b, acc, rfl, hlt⟩ | ⟨sender, acc, hc⟩
  · exact .inl (h.call_inert hinert)
  · exact .inr (h.call_later sender acc hlt).1
  · rcases lt_or_ge (promisers n (calls ++ [c])).card q.quorum with hfew | hmany
    · exact .inl (h.call_few hc hfew).1
    · exact .inr (h.call_many hc hmany).1

/-- A round that is started is in flight until it is over. -/
theorem inFlight_or_over (hp : p.Faithful self rs)
    (hstart : p.start self = (p', effects, .started n)) (calls : List (Call V)) :
    (p'.callAll self calls).InFlight n p.value calls ∨ (p'.callAll self calls).Over n calls := by
  have hp' : p'.Faithful self _ := hp.start hstart
  induction calls using List.reverseRecOn with
  | nil =>
    obtain ⟨-, -, -, rfl, -⟩ := start_eq_started hstart
    refine .inl ⟨rfl, ⟨[], rfl, gathers_nil⟩, by simp [Surpassed], ?_⟩
    simp [promisers, promises, quorum, quorumSize]
  | append_singleton calls c ih =>
    rw [callAll_concat]
    rcases ih with hflight | hover
    · exact hflight.call c
    · exact .inr (hover.call (hp'.callAll calls) c)

/-! ## A round follows its promises -/

/-- What a proposer does for a round that it has started for `own`, told by the calls since. -/
structure RoundSpec (id : NodeId) (q : Proposer V) (acceptors : List NodeId) (n : Ballot) (own : V)
    (calls : List (Call V)) : Prop where
  /-- The round is in flight until its promises are a quorum or a later ballot surpasses it. -/
  inFlight_iff : q.isProposing = true ∧ q.current = some n ↔
    ¬ Surpassed n calls ∧ (promisers n calls).card < quorumSize acceptors.length
  /-- While it is in flight, one promise of each sender is held. -/
  held : q.isProposing = true → q.current = some n →
    q.reports.length = (promisers n calls).card
  /-- The call that completes the quorum asks each acceptor that is listed for a vote for the value
  that is due, and leaves the proposer idle. -/
  completed {c : Call V} (h : Completes (quorumSize acceptors.length) n calls c) :
    (q.call id c).1.isProposing = false ∧
      ∃ v, Due own (promises n (calls ++ [c])) v ∧ asks (q.call id c).2 = [⟨n, v⟩] ∧
        Effect.messages id (q.call id c).2 = acceptors.map fun a => ⟨id, a, .accept ⟨n, v⟩⟩
  /-- No other call asks for a vote under the ballot. -/
  uncompleted {c : Call V} (h : ¬ Completes (quorumSize acceptors.length) n calls c) (v : V) :
    ⟨n, v⟩ ∉ asks (q.call id c).2 ∧
      ∀ a, ⟨id, a, .accept ⟨n, v⟩⟩ ∉ Effect.messages id (q.call id c).2
  /-- A promise of a later ballot ends the round in flight, and nothing is sent. -/
  surpassed (hp : q.isProposing = true) (hc : q.current = some n) (sender : NodeId) {b : Ballot}
    (acc : Option (Vote V)) (h : n < b) :
    (q.call id (.handle sender (.promise b acc))).1.isProposing = false ∧
      Effect.messages id (q.call id (.handle sender (.promise b acc))).2 = []
  /-- Promises of earlier ballots, promises while no round is in flight and messages of all other
  kinds do nothing to the rounds of the proposer. -/
  inert (sender : NodeId) {body : Body V}
    (h : ∀ b acc, body = .promise b acc → b < n ∨ q.isProposing = false) :
    Quiet id q (q.call id (.handle sender body)).1 (q.call id (.handle sender body)).2

theorem Called.mem_asks (h : p.Called self c p' effects) {a : NodeId} {vote : Vote V}
    (hsent : ⟨self, a, .accept vote⟩ ∈ Effect.messages self effects) : vote ∈ asks effects := by
  have haccept : (⟨self, a, .accept vote⟩ : Message V) ∈ accepts self effects :=
    List.mem_filter.mpr ⟨hsent, rfl⟩
  rcases h.asks_cases with ⟨-, hnone⟩ | ⟨u, hasks, haccepts, -⟩
  · simp [hnone] at haccept
  · rw [haccepts] at haccept
    obtain ⟨b, -, hb⟩ := List.mem_map.mp haccept
    simp only [Message.mk.injEq, Body.accept.injEq, true_and] at hb
    simp [hasks, hb.2]

omit [Value V] in
/-- A message does nothing to rounds, unless it is a promise of the ballot or a later one that comes
while a round is in flight. -/
theorem inert_of_lt {m : Ballot} (hm : q.current = some m) (hle : n ≤ m) {sender : NodeId}
    {body : Body V} (h : ∀ b acc, body = .promise b acc → b < n ∨ q.isProposing = false) :
    q.Inert (.handle sender body) := by
  cases body with
  | promise b acc =>
    rcases h b acc rfl with hlt | hidle
    · exact .stale hm (hlt.trans_le hle)
    · exact .late hidle
  | _ => exact .other nofun

theorem InFlight.spec (h : q.InFlight n own calls) (self : NodeId) :
    RoundSpec self q q.acceptors n own calls where
  inFlight_iff := iff_of_true ⟨h.isProposing, h.current⟩ ⟨h.unsurpassed, h.few⟩
  held _ _ := h.length_reports
  completed {c} hc := by
    obtain ⟨sender, acc, hpromise⟩ := hc.promise
    obtain ⟨-, hidle, v, hv⟩ := h.call_many hpromise hc.after.ge
    exact ⟨hidle, v, hv⟩
  uncompleted {c} hc v := by
    suffices hnone : (⟨n, v⟩ : Vote V) ∉ asks (q.call self c).2 from
      ⟨hnone, fun a ha => hnone ((call_called self q c).mem_asks ha)⟩
    rcases h.call_cases c with hinert | ⟨sender, b, acc, rfl, hlt⟩ | ⟨sender, acc, hpromise⟩
    · simp [((call_called self q c).quiet hinert).asks]
    · simp [(h.call_later sender acc hlt).2.2.2]
    · rcases lt_or_ge (promisers n (calls ++ [c])).card q.quorum with hfew | hmany
      · simp [(h.call_few hpromise hfew).2.2]
      · have hle : (promisers n (calls ++ [c])).card ≤ (promisers n calls).card + 1 := by
          rw [hpromise, promisers_concat_promise]
          exact Finset.card_insert_le ..
        exact absurd ⟨⟨sender, acc, hpromise⟩, h.unsurpassed, h.few,
          le_antisymm (hle.trans h.few) hmany⟩ hc
  surpassed _ _ sender b acc hlt := by
    obtain ⟨-, hidle, hmessages, -⟩ := h.call_later sender acc hlt
    exact ⟨hidle, hmessages⟩
  inert sender body hbody :=
    (call_called self q _).quiet (inert_of_lt h.current le_rfl hbody)

theorem Over.spec (h : q.Over n calls) (self : NodeId) :
    RoundSpec self q q.acceptors n own calls where
  inFlight_iff := by
    refine iff_of_false (fun hflight => h.beyond.ne hflight.1 hflight.2) fun hopen => ?_
    exact h.reason.elim hopen.1 hopen.2.not_ge
  held hp hc := absurd hc (h.beyond.ne hp)
  completed hc := absurd h.reason (not_or.mpr ⟨hc.unsurpassed, hc.before.not_ge⟩)
  uncompleted {c} hc v := by
    suffices hnone : (⟨n, v⟩ : Vote V) ∉ asks (q.call self c).2 from
      ⟨hnone, fun a ha => hnone ((call_called self q c).mem_asks ha)⟩
    intro hasked
    rcases (call_called self q c).asks_cases with ⟨hnone, -⟩ | ⟨vote, hasks, -, hp, hcurrent, -⟩
    · simp [hnone] at hasked
    · obtain rfl : ⟨n, v⟩ = vote := by simpa [hasks] using hasked
      exact h.beyond.ne hp hcurrent
  surpassed hp hc := absurd hc (h.beyond.ne hp)
  inert sender body hbody := by
    obtain ⟨m, hm, hle, -⟩ := h.beyond
    exact (call_called self q _).quiet (inert_of_lt hm hle hbody)

/-! ### One vote for each round -/

theorem accepts_output (self : NodeId) (p : Proposer V) (calls : List (Call V)) :
    accepts self (p.output self calls) = (asks (p.output self calls)).flatMap fun vote =>
      p.acceptors.map fun a => ⟨self, a, .accept vote⟩ := by
  induction calls generalizing p with
  | nil => rfl
  | cons c calls ih =>
    have hcalled := call_called self p c
    rw [output, accepts_append, asks_append, List.flatMap_append, ih, hcalled.acceptors_eq]
    congr 1
    rcases hcalled.asks_cases with ⟨hasks, haccepts⟩ | ⟨vote, hasks, haccepts, -⟩
    · simp [hasks, haccepts]
    · simp [hasks, haccepts]

/-- The ballots of the votes that a proposer asks for rise. -/
theorem asks_rising (hp : p.Faithful self rs) (calls : List (Call V)) :
    (asks (p.output self calls)).Pairwise (fun u v => u.ballot < v.ballot) ∧
      ∀ vote ∈ asks (p.output self calls), (p.callAll self calls).Beyond vote.ballot := by
  induction calls using List.reverseRecOn with
  | nil => simp [output, asks]
  | append_singleton calls c ih =>
    obtain ⟨hrising, hbeyond⟩ := ih
    have hcalled := call_called self (p.callAll self calls) c
    have hkept (vote) (hv : vote ∈ asks (p.output self calls)) :=
      hcalled.beyond (hp.callAll calls) (hbeyond vote hv)
    rw [output_concat, asks_append, callAll_concat]
    rcases hcalled.asks_cases with ⟨hasks, -⟩ | ⟨vote, hasks, -, hproposing, hcurrent, hidle, hlast⟩
    · simpa [hasks] using ⟨hrising, hkept⟩
    · have hlt (u) (hu : u ∈ asks (p.output self calls)) : u.ballot < vote.ballot := by
        obtain ⟨b, hb, -, hlt⟩ := hbeyond u hu
        exact Option.some.inj (hb.symm.trans hcurrent) ▸ hlt hproposing
      rw [hasks]
      refine ⟨List.pairwise_append.mpr ⟨hrising, by simp, by simpa using hlt⟩, fun u hu => ?_⟩
      rcases List.mem_append.mp hu with hu | hu
      · exact hkept u hu
      · obtain rfl := List.mem_singleton.mp hu
        exact ⟨_, hlast, le_rfl, by simp [hidle]⟩

/-- Whatever a proposer has been asked before and since, a round that it has started follows the
promises of its ballot. Votes are asked for once in a round, of all acceptors that are listed. -/
theorem round_follows_promises (self : NodeId) (acceptors : List NodeId) (value : V)
    (before later : List (Call V)) (n : Ballot)
    (hstart : ((callAll self { acceptors, value } before).start self).2.2 = .started n) :
    let own := (callAll self { acceptors, value } before).value
    let calls := before ++ .start :: later
    let effects := output self { acceptors, value } calls
    RoundSpec self (callAll self { acceptors, value } calls) acceptors n own later ∧
      (accepts self effects = (asks effects).flatMap fun vote =>
        acceptors.map fun a => ⟨self, a, .accept vote⟩) ∧
      (asks effects).Pairwise fun u v => u.ballot < v.ballot := by
  intro own calls effects
  have hfresh := faithful_nil acceptors value self
  refine ⟨?_, accepts_output self _ calls, (asks_rising hfresh calls).1⟩
  have hround := inFlight_or_over (hfresh.callAll before) (Prod.ext rfl (Prod.ext rfl hstart)) later
  have hlisted : (callAll self { acceptors, value } calls).acceptors = acceptors :=
    acceptors_callAll ..
  have hcalls : callAll self { acceptors, value } calls =
      ((callAll self { acceptors, value } before).start self).1.callAll self later :=
    callAll_append ..
  rw [← hcalls] at hround
  have hspec := hround.elim (fun h => h.spec self) fun h => h.spec self
  rwa [hlisted] at hspec

/-- A round for a value that is replaced since. One acceptor promises it twice, and reports a vote
the second time; a confirmation of another vote and an earlier promise come in between. -/
def revisedRound : List (Call String) :=
  [.setValue "z", .handle ⟨"A1"⟩ (.promise ⟨1, ⟨"P1"⟩⟩ none),
    .handle ⟨"A3"⟩ (.accepted ⟨⟨0, ⟨"P2"⟩⟩, "x"⟩),
    .handle ⟨"A3"⟩ (.promise ⟨0, ⟨"P2"⟩⟩ none), .start,
    .handle ⟨"A1"⟩ (.promise ⟨1, ⟨"P1"⟩⟩ (some ⟨⟨0, ⟨"P2"⟩⟩, "x"⟩))]

/-- The promise of a second acceptor, which reports a vote of the same ballot. -/
def decidingPromise : Call String :=
  .handle ⟨"A2"⟩ (.promise ⟨1, ⟨"P1"⟩⟩ (some ⟨⟨0, ⟨"P2"⟩⟩, "y"⟩))

/-- The report of the greater sender is the one that is due. -/
theorem round_follows_promises_of_revised :
    let acceptors : List NodeId := [⟨"A1"⟩, ⟨"A2"⟩, ⟨"A3"⟩]
    let n : Ballot := ⟨1, ⟨"P1"⟩⟩
    ((callAll ⟨"P1"⟩ { acceptors, value := "v" } [.setValue "w"]).start ⟨"P1"⟩).2.2 = .started n ∧
      Completes (quorumSize acceptors.length) n revisedRound decidingPromise ∧
      Due "w" (promises n (revisedRound ++ [decidingPromise])) "y" := by
  intro acceptors n
  have hstart : ((callAll ⟨"P1"⟩ { acceptors, value := "v" } [.setValue "w"]).start
      ⟨"P1"⟩).2.2 = .started n := by decide +kernel
  have hcompletes : Completes (quorumSize acceptors.length) n revisedRound decidingPromise := by
    refine ⟨⟨_, _, rfl⟩, ?_, by decide +kernel, by decide +kernel⟩
    rintro ⟨sender, b, acc, hmem, hlt⟩
    simp only [revisedRound, List.mem_cons, reduceCtorEq, false_or, Call.handle.injEq,
      Body.promise.injEq, and_false, List.not_mem_nil, or_false] at hmem
    rcases hmem with ⟨-, rfl, -⟩ | ⟨-, rfl, -⟩ | ⟨-, rfl, -⟩ <;> revert hlt <;> decide +kernel
  obtain ⟨hspec, -⟩ := round_follows_promises ⟨"P1"⟩ acceptors "v" [.setValue "w"] revisedRound n
    hstart
  obtain ⟨-, v, hdue, hasks, -⟩ := hspec.completed hcompletes
  have hasked : asks ((callAll ⟨"P1"⟩ { acceptors, value := "v" }
      ([.setValue "w"] ++ .start :: revisedRound)).call ⟨"P1"⟩ decidingPromise).2 = [⟨n, "y"⟩] := by
    decide +kernel
  obtain rfl : v = "y" := by simpa using hasks.symm.trans hasked
  exact ⟨hstart, hcompletes, hdue⟩

end Proposer

end Synod
