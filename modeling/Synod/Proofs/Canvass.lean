import Mathlib.Data.Finset.Card
import Synod.Proofs.Calls
import Synod.Proofs.Latest

/-! A round as its promises tell it: who has promised its ballot since it was started, whether a
later ballot has surpassed it, and which value is due. Beside it stand the calls that do nothing to
rounds, and what a call asks for. -/

namespace Synod

variable {V : Type}

namespace Proposer

/-! ## What the calls say -/

/-- The report of a promise of a ballot. -/
def Call.report? (b : Ballot) : Call V → Option (Report V)
  | .handle sender (.promise c acc) => if c = b then some ⟨sender, acc⟩ else none
  | _ => none

def promises (b : Ballot) (calls : List (Call V)) : List (Report V) :=
  calls.filterMap (Call.report? b)

/-- Those who have promised a ballot. -/
def promisers (b : Ballot) (calls : List (Call V)) : Finset NodeId :=
  ((promises b calls).map Report.sender).toFinset

/-- A ballot is surpassed by a promise of a later one. -/
def Surpassed (b : Ballot) (calls : List (Call V)) : Prop :=
  ∃ sender c acc, .handle sender (.promise c acc) ∈ calls ∧ b < c

/-- The last of the promises that came from a sender. -/
def lastFrom (sender : NodeId) (gathered : List (Report V)) : Option (Report V) :=
  (gathered.filter (·.sender = sender)).getLast?

/-- The vote that the last promise of a sender reports. -/
def reportedBy (gathered : List (Report V)) (sender : NodeId) : Option (Vote V) :=
  (lastFrom sender gathered).bind Report.accepted

/-- What a round is for that was started for `own` and has gathered promises: the value of the vote
with the latest ballot that a sender reports in its last promise, among equal ballots the one that
the greatest sender reports; or its own value where no sender reports a vote. -/
inductive Due (own : V) (gathered : List (Report V)) : V → Prop where
  | adopted {sender : NodeId} {vote : Vote V} (h : reportedBy gathered sender = some vote)
      (hmax : ∀ other u, reportedBy gathered other = some u →
        u.ballot < vote.ballot ∨ u.ballot = vote.ballot ∧ other ≤ sender) :
      Due own gathered vote.value
  | own (h : ∀ sender, reportedBy gathered sender = none) : Due own gathered own

/-- A call makes the promises of a ballot a quorum, where no later ballot has surpassed it. -/
structure Completes (quorum : Nat) (b : Ballot) (calls : List (Call V)) (c : Call V) : Prop where
  promise : ∃ sender acc, c = .handle sender (.promise b acc)
  unsurpassed : ¬ Surpassed b calls
  before : (promisers b calls).card < quorum
  after : (promisers b (calls ++ [c])).card = quorum

/-! ### One call more -/

theorem promises_concat (b : Ballot) (calls : List (Call V)) (c : Call V) :
    promises b (calls ++ [c]) = promises b calls ++ (c.report? b).toList := by
  cases h : c.report? b <;> simp [promises, h]

theorem promises_concat_promise (b : Ballot) (calls : List (Call V)) (sender : NodeId)
    (acc : Option (Vote V)) :
    promises b (calls ++ [.handle sender (.promise b acc)]) =
      promises b calls ++ [⟨sender, acc⟩] := by
  simp [promises_concat, Call.report?]

theorem promisers_concat_promise (b : Ballot) (calls : List (Call V)) (sender : NodeId)
    (acc : Option (Vote V)) :
    promisers b (calls ++ [.handle sender (.promise b acc)]) =
      insert sender (promisers b calls) := by
  simp [promisers, promises_concat_promise]

theorem promisers_mono (b : Ballot) (calls : List (Call V)) (c : Call V) :
    promisers b calls ⊆ promisers b (calls ++ [c]) := by
  intro sender h
  simp only [promisers, promises_concat, List.map_append, List.toFinset_append]
  exact Finset.mem_union_left _ h

theorem surpassed_concat {b : Ballot} {calls : List (Call V)} {c : Call V} :
    Surpassed b (calls ++ [c]) ↔ Surpassed b calls ∨ Surpassed b [c] := by
  simp only [Surpassed, List.mem_append, or_and_right, exists_or]

theorem surpassed_promise {b m : Ballot} {sender : NodeId} {acc : Option (Vote V)} :
    Surpassed b [.handle sender (.promise m acc)] ↔ b < m := by
  simp [Surpassed]

/-! ### Reports and promises -/

/-- The reports that a round holds are the last promises of the senders. -/
structure Gathers (reports gathered : List (Report V)) : Prop where
  nodup : (reports.map Report.sender).Nodup
  mem_iff {report : Report V} :
    report ∈ reports ↔ lastFrom report.sender gathered = some report

theorem gathers_nil : Gathers ([] : List (Report V)) [] := ⟨List.nodup_nil, by simp [lastFrom]⟩

theorem sender_of_lastFrom {gathered : List (Report V)} {sender : NodeId} {report : Report V}
    (h : lastFrom sender gathered = some report) : report ∈ gathered ∧ report.sender = sender := by
  simpa using List.mem_of_getLast? h

theorem exists_lastFrom {gathered : List (Report V)} {report : Report V} (h : report ∈ gathered) :
    ∃ last, lastFrom report.sender gathered = some last := by
  apply Option.ne_none_iff_exists'.mp
  simp only [lastFrom, ne_eq, List.getLast?_eq_none_iff, List.filter_eq_nil_iff]
  push Not
  exact ⟨report, h, by simp⟩

/-- A promise takes the place of what its sender reported before, and of nothing else. -/
theorem Gathers.add {reports gathered : List (Report V)} (h : Gathers reports gathered)
    (report : Report V) : Gathers (addReport reports report) (gathered ++ [report]) := by
  refine ⟨nodup_addReport h.nodup report, fun {r} => ?_⟩
  rw [mem_addReport]
  by_cases hsender : r.sender = report.sender
  · have hlast : lastFrom r.sender (gathered ++ [report]) = some report := by
      simp [lastFrom, hsender]
    rw [hlast]
    simp [hsender, eq_comm]
  · have hlast : lastFrom r.sender (gathered ++ [report]) = lastFrom r.sender gathered := by
      simp [lastFrom, Ne.symm hsender]
    have hne : r ≠ report := fun heq => hsender (heq ▸ rfl)
    simp [hlast, hsender, hne, h.mem_iff]

theorem Gathers.length_eq {reports gathered : List (Report V)} (h : Gathers reports gathered) :
    reports.length = ((gathered.map Report.sender).toFinset).card := by
  have hsenders : (reports.map Report.sender).toFinset = (gathered.map Report.sender).toFinset := by
    ext sender
    simp only [List.mem_toFinset, List.mem_map]
    constructor
    · rintro ⟨report, hr, rfl⟩
      exact ⟨report, (sender_of_lastFrom (h.mem_iff.mp hr)).1, rfl⟩
    · rintro ⟨report, hr, rfl⟩
      obtain ⟨last, hlast⟩ := exists_lastFrom hr
      have hsender := (sender_of_lastFrom hlast).2
      exact ⟨last, h.mem_iff.mpr (hsender ▸ hlast), hsender⟩
  rw [← hsenders, List.toFinset_card_of_nodup h.nodup, List.length_map]

/-- The vote that a round asks for is for the value that is due. -/
theorem Gathers.due {reports gathered : List (Report V)} (h : Gathers reports gathered)
    (b : Ballot) (own : V) : Due own gathered (election b own reports).value := by
  have hreported {report : Report V} (hr : report ∈ reports) :
      reportedBy gathered report.sender = report.accepted := by
    simp [reportedBy, h.mem_iff.mp hr]
  have hheld {sender : NodeId} {vote : Vote V} (hvote : reportedBy gathered sender = some vote) :
      ∃ report ∈ reports, report.sender = sender ∧ report.accepted = some vote := by
    obtain ⟨report, hlast, hacc⟩ := Option.bind_eq_some_iff.mp hvote
    have hsender := (sender_of_lastFrom hlast).2
    exact ⟨report, h.mem_iff.mpr (hsender ▸ hlast), hsender, hacc⟩
  cases hbest : latest? reports with
  | none =>
    have hvalue : (election b own reports).value = own := by simp [election, hbest]
    rw [hvalue]
    refine .own fun sender => ?_
    by_contra hsome
    obtain ⟨vote, hvote⟩ := Option.ne_none_iff_exists'.mp hsome
    obtain ⟨report, hr, -, hacc⟩ := hheld hvote
    simp [latest?_eq_none_iff.mp hbest report hr] at hacc
  | some found =>
    obtain ⟨sender, best⟩ := found
    have hvalue : (election b own reports).value = best.value := by simp [election, hbest]
    obtain ⟨report, hr, rfl, hacc⟩ := mem_of_latest? hbest
    rw [hvalue]
    refine .adopted ((hreported hr).trans hacc) fun other u hu => rank_le_iff.mp ?_
    obtain ⟨rival, hrival, rfl, hvote⟩ := hheld hu
    obtain ⟨_, _, hfound, hle⟩ := rank_le_latest? hrival hvote
    obtain ⟨rfl, rfl⟩ := Prod.mk.inj (Option.some.inj (hbest.symm.trans hfound))
    exact hle

/-! ## What calls do -/

def asks (effects : List (Effect V)) : List (Vote V) :=
  effects.filterMap fun
    | .note (.promiseQuorum vote) => some vote
    | _ => none

/-- The accepts among the messages of a proposer. -/
def accepts (self : NodeId) (effects : List (Effect V)) : List (Message V) :=
  (Effect.messages self effects).filter fun m =>
    match m.body with
    | .accept _ => true
    | _ => false

@[simp] theorem asks_append (effects later : List (Effect V)) :
    asks (effects ++ later) = asks effects ++ asks later :=
  List.filterMap_append

@[simp] theorem asks_broadcast (receivers : List NodeId) (body : Body V) :
    asks (Effect.broadcast receivers body) = [] := by
  simp [asks, Effect.broadcast]

@[simp] theorem accepts_append (self : NodeId) (effects later : List (Effect V)) :
    accepts self (effects ++ later) = accepts self effects ++ accepts self later := by
  simp [accepts]

theorem asks_conclude (p : Proposer V) (b : Ballot) (value : V) (reports : List (Report V)) :
    asks (p.conclude b value reports).2 = [election b value reports] := by
  have hadopting (adopted : Option (Vote V)) :
      asks (adopted.toList.map fun vote => .note (.adoptingValue b vote)) = [] := by
    cases adopted <;> rfl
  have hasked : asks (.note (.promiseQuorum (election b value reports)) ::
      Effect.broadcast p.acceptors (.accept (election b value reports))) =
        [election b value reports] :=
    congrArg (election b value reports :: ·) (asks_broadcast ..)
  rw [conclude_snd, asks_append, hadopting, hasked, List.nil_append]

/-- What a call leaves as it is while it sends nothing. -/
structure Quiet (id : NodeId) (p p' : Proposer V) (effects : List (Effect V)) : Prop where
  phase : p'.phase = p.phase
  current : p'.current = p.current
  messages : Effect.messages id effects = []
  asks : asks effects = []

/-- Calls that do nothing to the rounds of a proposer. -/
inductive Inert (p : Proposer V) : Call V → Prop where
  | start (h : p.isProposing = true) : Inert p .start
  | setValue (value : V) : Inert p (.setValue value)
  | late {sender b acc} (h : p.isProposing = false) : Inert p (.handle sender (.promise b acc))
  | stale {sender b acc c} (hc : p.current = some c) (h : b < c) :
      Inert p (.handle sender (.promise b acc))
  | other {sender body} (h : ∀ b acc, body ≠ .promise b acc) : Inert p (.handle sender body)

theorem Inert.lt {p : Proposer V} {sender : NodeId} {b c : Ballot} {acc : Option (Vote V)}
    (h : p.Inert (.handle sender (.promise b acc))) (hc : p.current = some c)
    (hp : p.isProposing = true) : b < c := by
  cases h with
  | late hidle => simp [hidle] at hp
  | stale hcurrent hlt => exact Option.some.inj (hcurrent.symm.trans hc) ▸ hlt
  | other hbody => exact absurd rfl (hbody b acc)

/-- A call that does nothing to a round in flight brings no promise of its ballot or a later one. -/
theorem Inert.unheard {p : Proposer V} {c : Call V} {n : Ballot} (h : p.Inert c)
    (hcurrent : p.current = some n) (hp : p.isProposing = true) :
    c.report? n = none ∧ ¬ Surpassed n [c] := by
  have hlt {sender m acc} (hpromise : c = .handle sender (.promise m acc)) : m < n :=
    (hpromise ▸ h).lt hcurrent hp
  constructor
  · cases c with
    | handle sender body =>
      cases body with
      | promise m acc => simp [Call.report?, (hlt rfl).ne]
      | _ => rfl
    | _ => rfl
  · rintro ⟨sender, m, acc, hmem, hm⟩
    exact hm.asymm (hlt (List.mem_singleton.mp hmem).symm)

section

variable [Value V] {self : NodeId} {p p' : Proposer V} {c : Call V} {effects : List (Effect V)}

theorem Reaction.quiet {sender : NodeId} {body : Body V}
    (h : p.Reaction sender body p' effects) (hc : p.Inert (.handle sender body)) :
    Quiet self p p' effects := by
  cases h with
  | abandon hcurrent hphase hlt =>
    exact absurd hlt (hc.lt hcurrent (isProposing_iff.mpr ⟨_, _, hphase⟩)).asymm
  | record hcurrent hphase hn =>
    exact absurd (hc.lt hcurrent (isProposing_iff.mpr ⟨_, _, hphase⟩)) (lt_irrefl _)
  | conclude hcurrent hphase hn =>
    exact absurd (hc.lt hcurrent (isProposing_iff.mpr ⟨_, _, hphase⟩)) (lt_irrefl _)
  | _ => exact ⟨rfl, rfl, rfl, rfl⟩

theorem Called.quiet (h : p.Called self c p' effects) (hc : p.Inert c) :
    Quiet self p p' effects := by
  cases h with
  | started hstart =>
    obtain ⟨hidle, -⟩ := start_eq_started hstart
    cases hc with
    | start hproposing => simp [hidle] at hproposing
  | handled hreaction => exact hreaction.quiet hc
  | _ => exact ⟨rfl, rfl, rfl, rfl⟩

/-- A call asks for one vote at most, and that ends the round in flight. -/
theorem Called.asks_cases (h : p.Called self c p' effects) :
    (asks effects = [] ∧ accepts self effects = []) ∨
      ∃ vote, asks effects = [vote] ∧
        accepts self effects = p.acceptors.map (fun a => ⟨self, a, .accept vote⟩) ∧
        p.isProposing = true ∧ p.current = some vote.ballot ∧
        p'.isProposing = false ∧ p'.current = some vote.ballot := by
  cases h with
  | started hstart =>
    obtain ⟨-, -, -, -, rfl⟩ := start_eq_started hstart
    refine .inl ⟨asks_broadcast .., ?_⟩
    simp [accepts]
  | handled hreaction =>
    cases hreaction with
    | @conclude acc b value reports hcurrent hphase hn =>
      refine .inr ⟨_, asks_conclude .., ?_, isProposing_iff.mpr ⟨_, _, hphase⟩, hcurrent, ?_, ?_⟩
      · simp [accepts, messages_conclude]
      · simp [conclude_fst, isProposing]
      · simpa [conclude_fst, election] using hcurrent
    | _ => exact .inl ⟨rfl, rfl⟩
  | _ => exact .inl ⟨rfl, rfl⟩

end

end Proposer

end Synod
