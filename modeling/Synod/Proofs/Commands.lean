import Synod.Proofs.Reports
import Synod.Proofs.States

/-! Commands. A command is refused on the first ground against it and then changes nothing. Without
such a ground it is carried out on its node alone, save that a proposer may have no number left for
another round. -/

namespace Synod

variable {V σ : Type}

/-! ## Grounds -/

/-- The refusal of the first condition that holds. -/
inductive FirstGround : List (Prop × Refusal) → Refusal → Prop where
  | here {p r grounds} (h : p) : FirstGround ((p, r) :: grounds) r
  | later {p r r' grounds} (h : ¬ p) (hrest : FirstGround grounds r') :
      FirstGround ((p, r) :: grounds) r'

/-- None of the conditions holds. -/
def Unopposed (grounds : List (Prop × Refusal)) : Prop := ∀ g ∈ grounds, ¬ g.1

theorem Unopposed.append {grounds more : List (Prop × Refusal)} (h : Unopposed grounds)
    (h' : Unopposed more) : Unopposed (grounds ++ more) := fun g hg =>
  (List.mem_append.mp hg).elim (h g) (h' g)

namespace FirstGround

variable {grounds more : List (Prop × Refusal)} {r r' : Refusal}

theorem exists_mem (h : FirstGround grounds r) : ∃ p, (p, r) ∈ grounds ∧ p := by
  induction h with
  | here h => exact ⟨_, List.mem_cons_self, h⟩
  | later _ _ ih =>
    obtain ⟨p, hmem, hp⟩ := ih
    exact ⟨p, List.mem_cons_of_mem _ hmem, hp⟩

/-- There is no ground before the first. -/
theorem unique (h : FirstGround grounds r) (h' : FirstGround grounds r') : r = r' := by
  induction h with
  | here h =>
    cases h' with
    | here => rfl
    | later hnot => exact absurd h hnot
  | later hnot _ ih =>
    cases h' with
    | here h => exact absurd h hnot
    | later _ hrest => exact ih hrest

theorem not_unopposed (h : FirstGround grounds r) : ¬ Unopposed grounds := by
  intro hfree
  obtain ⟨p, hmem, hp⟩ := h.exists_mem
  exact hfree _ hmem hp

theorem append_left (h : FirstGround grounds r) : FirstGround (grounds ++ more) r := by
  induction h with
  | here h => exact .here h
  | later hnot _ ih => exact .later hnot ih

theorem append_right (hfree : Unopposed grounds) (h : FirstGround more r) :
    FirstGround (grounds ++ more) r := by
  induction grounds with
  | nil => exact h
  | cons g grounds ih =>
    exact .later (hfree g List.mem_cons_self) (ih fun g hg => hfree g (List.mem_cons_of_mem _ hg))

end FirstGround

theorem exists_firstGround_iff {grounds : List (Prop × Refusal)} :
    (∃ r, FirstGround grounds r) ↔ ∃ g ∈ grounds, g.1 := by
  constructor
  · rintro ⟨r, h⟩
    obtain ⟨p, hmem, hp⟩ := h.exists_mem
    exact ⟨(p, r), hmem, hp⟩
  · rintro ⟨g, hmem, hg⟩
    induction grounds with
    | nil => cases hmem
    | cons g' grounds ih =>
      by_cases hfirst : g'.1
      · exact ⟨g'.2, .here hfirst⟩
      · have hlater : g ∈ grounds :=
          (List.mem_cons.mp hmem).resolve_left fun heq => hfirst (heq ▸ hg)
        obtain ⟨r, hr⟩ := ih hlater
        exact ⟨r, .later hfirst hr⟩

/-! ## Numbers that are left -/

theorem Ballot.nextRound?_eq_none_iff {r : UInt64} :
    nextRound? r = none ↔ 2 ^ 64 ≤ r.toNat + 1 := by
  have hsize : UInt64.size = 2 ^ 64 := rfl
  unfold nextRound?
  split <;> simp only [reduceCtorEq, false_iff, true_iff] <;> omega

namespace Proposer

/-- No number of 64 bits is left for another round: after the last one, or after the latest ballot
that ended one. -/
def Spent (p : Proposer V) : Prop :=
  2 ^ 64 ≤ p.round.toNat + 1 ∨ ∃ seen ∈ p.highestSeen, 2 ^ 64 ≤ seen.round.toNat + 1

/-- The next round fails for want of a number, and for nothing else. -/
theorem nextRound_cases (p : Proposer V) :
    (∃ r, p.nextRound = (r, none) ∧ ¬ p.Spent) ∨
      ∃ r, p.nextRound = (r, some .roundOverflow) ∧ p.Spent := by
  unfold nextRound Spent
  simp only [← Ballot.nextRound?_eq_none_iff]
  cases hround : Ballot.nextRound? p.round with
  | none => simp
  | some round =>
    cases hs : p.highestSeen with
    | none => simp
    | some seen => cases hseen : Ballot.nextRound? seen.round <;> simp [hseen]

/-- An idle proposer starts a round, unless it has no number left. -/
theorem start_cases {p : Proposer V} (hidle : p.isProposing = false) (self : NodeId) :
    (∃ b, ¬ p.Spent ∧ b.proposer = self ∧ p.start self =
      ({ p with
          round := b.round
          current := some b
          phase := .preparing p.value []
          adopted := none },
        .note (.startingProposal b p.value) :: Effect.broadcast p.acceptors (.prepare b),
        .started b)) ∨
      ∃ r, p.Spent ∧ p.start self = ({ p with round := r }, [], .failed .roundOverflow) := by
  rcases p.nextRound_cases with ⟨r, hr, hspare⟩ | ⟨r, hr, hspent⟩
  · exact .inl ⟨⟨r, self⟩, hspare, rfl, start_of_nextRound hidle hr⟩
  · exact .inr ⟨r, hspent, start_of_overflow hidle hr⟩

end Proposer

namespace Cluster

variable {c c' : Cluster V σ} {s : Setup V} {id : NodeId}

theorem offer_fst (p : Proposer V) (given : Option V) :
    (offer p given).1 = { p with value := given.getD p.value } := by
  cases given <;> rfl

theorem spent_offer (p : Proposer V) (given : Option V) : (offer p given).1.Spent ↔ p.Spent := by
  cases given <;> rfl

theorem messages_offer (p : Proposer V) (given : Option V) (id : NodeId) :
    Effect.messages id (offer p given).2 = [] := by
  cases given <;> rfl

/-! ## What there may be against a command -/

def Halted (c : Cluster V σ) (id : NodeId) : Prop := ∃ n, c.node? id = some n ∧ n.faulted = true

def IsDown (c : Cluster V σ) (id : NodeId) : Prop := ∃ n, c.node? id = some n ∧ n.alive = false

/-- A round of the proposer is collecting promises. -/
def InRound (c : Cluster V σ) (id : NodeId) : Prop :=
  ∃ p, c.proposer? id = some p ∧ p.isProposing = true

/-- The proposer has no number left for another round. -/
def IsSpent (c : Cluster V σ) (id : NodeId) : Prop := ∃ p, c.proposer? id = some p ∧ p.Spent

def nodeGrounds (c : Cluster V σ) (id : NodeId) : List (Prop × Refusal) :=
  [(c.node? id = none, .unknownNode id), (c.Halted id, .faulted id)]

def proposerGrounds (c : Cluster V σ) (id : NodeId) : List (Prop × Refusal) :=
  [(c.proposer? id = none, .unknownProposer id), (c.Halted id, .faulted id)]

def proposeGrounds (c : Cluster V σ) (id : NodeId) : List (Prop × Refusal) :=
  c.proposerGrounds id ++ [(c.IsDown id, .down id), (c.InRound id, .inFlight id)]

theorem firstGround_of_commandNode {r : Refusal} (h : c.commandNode id = .error r) :
    FirstGround (c.nodeGrounds id) r := by
  unfold commandNode at h
  cases hn : c.node? id with
  | none =>
    obtain rfl : Refusal.unknownNode id = r := by simpa [hn] using h
    exact .here hn
  | some n =>
    cases hf : n.faulted with
    | false => simp [hn, hf] at h
    | true =>
      obtain rfl : Refusal.faulted id = r := by simpa [hn, hf] using h
      exact .later (by simp [hn]) (.here ⟨n, hn, hf⟩)

theorem unopposed_of_commandNode {n : Node V} (h : c.commandNode id = .ok n) :
    Unopposed (c.nodeGrounds id) := by
  obtain ⟨hn, rfl, hf⟩ := commandNode_eq_ok h
  simp [Unopposed, nodeGrounds, Halted, hn, hf]

theorem firstGround_of_commandProposer {r : Refusal} (h : c.commandProposer id = .error r) :
    FirstGround (c.proposerGrounds id) r := by
  unfold commandProposer at h
  cases hn : c.node? id with
  | none =>
    obtain rfl : Refusal.unknownProposer id = r := by simpa [hn] using h
    exact .here (by simp [proposer?, hn])
  | some n =>
    cases hp : n.proposer? with
    | none =>
      obtain rfl : Refusal.unknownProposer id = r := by simpa [hn, hp] using h
      exact .here (by simp [proposer?, hn, hp])
    | some p =>
      cases hf : n.faulted with
      | false => simp [hn, hp, hf] at h
      | true =>
        obtain rfl : Refusal.faulted id = r := by simpa [hn, hp, hf] using h
        exact .later (by simp [proposer?, hn, hp]) (.here ⟨n, hn, hf⟩)

/-- The node whose proposer takes commands, with nothing against them. -/
theorem unopposed_of_commandProposer {n : Node V} {p : Proposer V}
    (h : c.commandProposer id = .ok (n, p)) :
    c.proposer? id = some p ∧ Unopposed (c.proposerGrounds id) := by
  obtain ⟨hn, rfl, hf, hr⟩ := commandProposer_eq_ok h
  have hp : c.proposer? n.id = some p := by simp [proposer?, hn, Node.proposer?, hr]
  exact ⟨hp, by simp [Unopposed, proposerGrounds, Halted, hp, hn, hf]⟩

/-! ## What a command leaves alone -/

/-- One node is replaced, and what it sends follows all that waits on the bus. Nothing else is
touched, neither of the two sources of orders in particular. -/
structure Replaces (c c' : Cluster V σ) (n : Node V) (sent : List (Message V)) : Prop where
  node? : c'.node? = Function.update c.node? n.id (some n)
  ids : c'.ids = c.ids
  bus : c'.bus = { c.bus with pending := c.bus.pending ++ sent }
  order : c'.order = c.order
  ticks : c'.ticks = c.ticks

theorem replaces_settle {n m : Node V} (hm : c.node? n.id = some m) {effects : List (Effect V)}
    {sent : List (Message V)} (hsent : Effect.messages n.id effects = sent) :
    c.Replaces (c.settle n effects) n sent where
  node? := c.node?_settle_update hm effects
  ids := c.ids_settle n effects
  bus := by rw [← hsent]; rfl
  order := rfl
  ticks := rfl

theorem replaces_setAlive {n : Node V} (hn : c.node? n.id = some n) (alive : Bool) :
    c.Replaces (c.setAlive n alive) { n with alive } [] := by
  unfold setAlive
  split
  · rename_i hsame
    subst hsame
    exact ⟨by rw [← hn, Function.update_eq_self], rfl, by simp, rfl, rfl⟩
  · exact replaces_settle (n := { n with alive }) hn rfl

/-! ## What comes of a command -/

/-- A command is refused and changes nothing, or it is done, or it stops its node because no number
is left for the round. -/
inductive Outcome {α : Type} (c : Cluster V σ) (id : NodeId) (grounds : List (Prop × Refusal))
    (spent : Prop) (Done : Cluster V σ → α → Prop) : Cluster V σ × Except Failure α → Prop where
  | refused {r} (h : FirstGround grounds r) :
      Outcome c id grounds spent Done (c, .error (.refused r))
  | done {c' a} (hfree : Unopposed grounds) (hspare : ¬ spent) (h : Done c' a) :
      Outcome c id grounds spent Done (c', .ok a)
  | stopped {c' n} (hfree : Unopposed grounds) (hspent : spent) (hid : n.id = id)
      (hf : n.faulted = true) (h : c.Replaces c' n []) :
      Outcome c id grounds spent Done (c', .error (.fault .roundOverflow))

/-- The contract of a command, with what there may be against it and what it does: it is refused
exactly where there is something against it, and then the cluster is left as it was. -/
structure AllOrNothing {α : Type} (c : Cluster V σ) (id : NodeId)
    (grounds : List (Prop × Refusal)) (spent : Prop) (Done : Cluster V σ → α → Prop)
    (out : Cluster V σ × Except Failure α) : Prop where
  error_iff : (∃ r, out.2 = .error (.refused r)) ↔ ∃ g ∈ grounds, g.1
  /-- Of several grounds the first is reported. -/
  refused_iff (r : Refusal) : out.2 = .error (.refused r) ↔ FirstGround grounds r
  unchanged (r : Refusal) : out.2 = .error (.refused r) → out.1 = c
  done (a : α) : out.2 = .ok a → Done out.1 a
  ok_iff : (∃ a, out.2 = .ok a) ↔ Unopposed grounds ∧ ¬ spent
  not_locked : out.2 ≠ .error .locked
  /-- A fault is no refusal: the node had all it takes, save a number. -/
  fault_iff (f : Fault) : out.2 = .error (.fault f) ↔
    f = .roundOverflow ∧ Unopposed grounds ∧ spent
  stopped (f : Fault) : out.2 = .error (.fault f) →
    ∃ n, n.id = id ∧ n.faulted = true ∧ c.Replaces out.1 n []

namespace Outcome

variable {α : Type} {grounds : List (Prop × Refusal)} {spent : Prop}
  {Done : Cluster V σ → α → Prop} {out : Cluster V σ × Except Failure α}

theorem cases_of_error (h : c.Outcome id grounds spent Done out) {failure : Failure}
    (herror : out.2 = .error failure) :
    (∃ r, failure = .refused r ∧ out.1 = c) ∨ failure = .fault .roundOverflow := by
  cases h with
  | @refused r _ =>
    obtain rfl := Except.error.inj herror
    exact .inl ⟨r, rfl, rfl⟩
  | done _ _ _ => cases herror
  | stopped _ _ _ _ _ => exact .inr (Except.error.inj herror).symm

/-- Without a ground there is no refusal, and else it is that of the first. -/
theorem refused_iff (h : c.Outcome id grounds spent Done out) (r : Refusal) :
    out.2 = .error (.refused r) ↔ FirstGround grounds r := by
  have hnone (hfree : Unopposed grounds) : ¬ FirstGround grounds r :=
    fun hr => hr.not_unopposed hfree
  cases h with
  | refused hr =>
    refine ⟨?_, fun hr' => by rw [hr.unique hr']⟩
    rintro ⟨⟩
    exact hr
  | done hfree _ _ => simp [hnone hfree]
  | stopped hfree _ _ _ _ => simp [hnone hfree]

theorem allOrNothing (h : c.Outcome id grounds spent Done out) :
    c.AllOrNothing id grounds spent Done out := by
  have hrefused := h.refused_iff
  have herror : (∃ r, out.2 = .error (.refused r)) ↔ ∃ g ∈ grounds, g.1 := by
    simp only [hrefused, exists_firstGround_iff]
  cases h with
  | refused hr =>
    have hnot := hr.not_unopposed
    exact ⟨herror, hrefused, fun _ _ => rfl, by simp, by simp [hnot], by simp, by simp [hnot],
      by simp⟩
  | @done c' a hfree hspare hdone =>
    refine ⟨herror, hrefused, by simp, ?_, ?_, by simp, by simp [hspare], by simp⟩
    · rintro _ ⟨⟩
      exact hdone
    · exact iff_of_true ⟨a, rfl⟩ ⟨hfree, hspare⟩
  | @stopped c' n hfree hspent hid hf hreplaces =>
    refine ⟨herror, hrefused, by simp, by simp, by simp [hspent], by simp, ?_, ?_⟩
    · intro f
      simp only [Except.error.injEq, Failure.fault.injEq, eq_comm (a := f)]
      exact ⟨fun h => ⟨h, hfree, hspent⟩, And.left⟩
    · exact fun _ _ => ⟨n, hid, hf, hreplaces⟩

end Outcome

/-! ## The commands -/

/-- What is done to the proposer and the bus where a round is started: the value is replaced if
another is given, and every acceptor is asked once. -/
def Opened (s : Setup V) (c : Cluster V σ) (id : NodeId) (given : Option V) (c' : Cluster V σ)
    (b : Ballot) : Prop :=
  b.proposer = id ∧ ∃ n p, c.node? id = some n ∧ n.role = .proposer p ∧
    c.Replaces c'
      { n with role := .proposer { p with
        value := given.getD p.value
        round := b.round
        current := some b
        phase := .preparing (given.getD p.value) []
        adopted := none } }
      (s.acceptors.map fun a => ⟨id, a, .prepare b⟩)

/-- With nothing against it, a round is started unless no number is left for it. -/
theorem outcome_propose_of_idle [Value V] [Shuffler σ] (hc : c.StateOf s) {n : Node V}
    {p : Proposer V} (hcommand : c.commandProposer n.id = .ok (n, p)) (hup : n.alive = true)
    (hidle : p.isProposing = false) (given : Option V) :
    c.Outcome n.id (c.proposeGrounds n.id) (c.IsSpent n.id) (c.Opened s n.id given)
      (c.propose n.id given) := by
  obtain ⟨hp, hfree⟩ := unopposed_of_commandProposer hcommand
  obtain ⟨hn, -, -, hr⟩ := commandProposer_eq_ok hcommand
  have hfree : Unopposed (c.proposeGrounds n.id) :=
    hfree.append (by simp [Unopposed, IsDown, InRound, hn, hp, hup, hidle])
  have hspent : c.IsSpent n.id ↔ (offer p given).1.Spent := by simp [IsSpent, hp, spent_offer]
  have hstill := (isProposing_offer p given).trans hidle
  unfold propose
  rw [hcommand]
  dsimp only
  rw [if_neg (by simp [hup]), if_neg (by simp [hidle])]
  rcases Proposer.start_cases hstill n.id with ⟨b, hspare, hself, hstart⟩ | ⟨r, hover, hstart⟩
  · rw [hstart]
    refine .done hfree (by rwa [hspent]) ⟨hself, n, p, hn, hr, ?_⟩
    simp only [offer_fst, hc.acceptors_eq hp]
    refine replaces_settle (m := n) ?_ ?_
    · exact hn
    · simp [messages_offer]
  · rw [hstart]
    refine .stopped hfree (hspent.mpr hover) ?_ ?_ (replaces_settle (m := n) ?_ ?_)
    · rfl
    · rfl
    · exact hn
    · simp [messages_offer]

theorem outcome_propose [Value V] [Shuffler σ] (hc : c.StateOf s) (id : NodeId)
    (given : Option V) :
    c.Outcome id (c.proposeGrounds id) (c.IsSpent id) (c.Opened s id given)
      (c.propose id given) := by
  cases hcommand : c.commandProposer id with
  | error r =>
    simp only [propose, hcommand]
    exact .refused (firstGround_of_commandProposer hcommand).append_left
  | ok found =>
    obtain ⟨n, p⟩ := found
    obtain ⟨hp, hfree⟩ := unopposed_of_commandProposer hcommand
    obtain ⟨hn, rfl, -, -⟩ := commandProposer_eq_ok hcommand
    cases hup : n.alive with
    | false =>
      simp only [propose, hcommand, hup, Bool.not_false, if_true]
      exact .refused (.append_right hfree (.here ⟨n, hn, hup⟩))
    | true =>
      cases hidle : p.isProposing with
      | true =>
        have hdown : ¬ c.IsDown n.id := by simp [IsDown, hn, hup]
        simp only [propose, hcommand, hup, hidle, Bool.not_true, if_true]
        exact .refused (.append_right hfree (.later hdown (.here ⟨p, hp, hidle⟩)))
      | false => exact outcome_propose_of_idle hc hcommand hup hidle given

theorem outcome_setValue (c : Cluster V σ) (id : NodeId) (value : V) :
    c.Outcome id (c.proposerGrounds id) False (fun c' _ => ∃ n p, c.node? id = some n ∧
      n.role = .proposer p ∧ c.Replaces c' { n with role := .proposer { p with value } } [])
      (c.setValue id value) := by
  unfold setValue
  cases hcommand : c.commandProposer id with
  | error r => exact .refused (firstGround_of_commandProposer hcommand)
  | ok found =>
    obtain ⟨n, p⟩ := found
    obtain ⟨-, hfree⟩ := unopposed_of_commandProposer hcommand
    obtain ⟨hn, rfl, -, hr⟩ := commandProposer_eq_ok hcommand
    exact .done hfree not_false
      ⟨n, p, hn, hr, replaces_settle (n := { n with role := .proposer { p with value } }) hn rfl⟩

theorem outcome_setAlive (c : Cluster V σ) (id : NodeId) (alive : Bool) :
    c.Outcome id (c.nodeGrounds id) False
      (fun c' (_ : Unit) => ∃ n, c.node? id = some n ∧ c.Replaces c' { n with alive } [])
      (match c.commandNode id with
        | .error refusal => (c, .error (.refused refusal))
        | .ok n => (c.setAlive n alive, .ok ())) := by
  cases hcommand : c.commandNode id with
  | error r => exact .refused (firstGround_of_commandNode hcommand)
  | ok n =>
    obtain ⟨hn, rfl, -⟩ := commandNode_eq_ok hcommand
    exact .done (unopposed_of_commandNode hcommand) not_false
      ⟨n, hn, replaces_setAlive hn alive⟩

/-- In every state a command is refused exactly where there is something against it, for the first
such ground, and then changes nothing. Where it succeeds only its node has changed, and a proposal
has put one message to each acceptor on the bus. No proposal is refused by the proposer itself. -/
theorem commands_all_or_nothing [Value V] [Shuffler σ] (hc : c.StateOf s) (id : NodeId) :
    (∀ given, c.AllOrNothing id (c.proposeGrounds id) (c.IsSpent id) (c.Opened s id given)
      (c.propose id given)) ∧
    (∀ value, c.AllOrNothing id (c.proposerGrounds id) False
      (fun c' _ => ∃ n p, c.node? id = some n ∧ n.role = .proposer p ∧
        c.Replaces c' { n with role := .proposer { p with value } } [])
      (c.setValue id value)) ∧
    c.AllOrNothing id (c.nodeGrounds id) False
      (fun c' _ => ∃ n, c.node? id = some n ∧ c.Replaces c' { n with alive := false } [])
      (c.fail id) ∧
    c.AllOrNothing id (c.nodeGrounds id) False
      (fun c' _ => ∃ n, c.node? id = some n ∧ c.Replaces c' { n with alive := true } [])
      (c.recover id) ∧
    (s.acceptors.Nodup ∧ ∀ a, a ∈ s.acceptors ↔ ∃ acceptor, c.acceptor? a = some acceptor) ∧
    ∀ given other, (c.propose id given).2 ≠ .error (.refused (.notStarted other)) := by
  have hpropose := fun given => (outcome_propose hc id given).allOrNothing
  have hacceptors : s.acceptors.Nodup :=
    (List.nodup_append.mp (List.nodup_append.mp hc.sound_setup.2.2).1).1
  refine ⟨hpropose, fun value => (c.outcome_setValue id value).allOrNothing,
    (c.outcome_setAlive id false).allOrNothing, (c.outcome_setAlive id true).allOrNothing,
    ⟨hacceptors, fun a => hc.mem_acceptors_iff⟩, fun given other h => ?_⟩
  obtain ⟨p, hmem, -⟩ := (((hpropose given).refused_iff _).mp h).exists_mem
  simp [proposeGrounds, proposerGrounds] at hmem

/-- A proposer in the middle of a round is taken down and then stopped by a fault, and a message
comes from outside. -/
def battered : Cluster String Script :=
  (ofTrio []).undergoAll [.operation (.propose ⟨"P1"⟩ none), .operation (.fail ⟨"P1"⟩),
    .injectFault ⟨"P1"⟩, .send ⟨⟨"X"⟩, ⟨"P2"⟩, .promise ⟨9, ⟨"P2"⟩⟩ none⟩]

theorem commands_all_or_nothing_of_battered :
    battered.propose ⟨"P1"⟩ (some "z") = (battered, .error (.refused (.faulted ⟨"P1"⟩))) ∧
      ∃ b, (battered.propose ⟨"P2"⟩ (some "y")).2 = .ok b ∧
        (battered.propose ⟨"P2"⟩ (some "y")).1.bus.pending = battered.bus.pending ++
          [⟨⟨"P2"⟩, ⟨"A1"⟩, .prepare b⟩, ⟨⟨"P2"⟩, ⟨"A2"⟩, .prepare b⟩,
            ⟨⟨"P2"⟩, ⟨"A3"⟩, .prepare b⟩] := by
  have hstate : battered.StateOf trio := ⟨_, _, _, create_trio [], _, rfl⟩
  have hstopped := (commands_all_or_nothing hstate ⟨"P1"⟩).1 (some "z")
  have hground : FirstGround (battered.proposeGrounds ⟨"P1"⟩) (.faulted ⟨"P1"⟩) :=
    .later (Option.isSome_iff_ne_none.mp rfl) (.here ⟨_, rfl, rfl⟩)
  have hrefused := (hstopped.refused_iff _).mpr hground
  refine ⟨Prod.ext (hstopped.unchanged _ hrefused) hrefused, ?_⟩
  have hfree := (commands_all_or_nothing hstate ⟨"P2"⟩).1 (some "y")
  have hn : battered.node? ⟨"P2"⟩ =
      some ⟨⟨"P2"⟩, .proposer { acceptors := trio.acceptors, value := "z" }, true, false⟩ := rfl
  have hp : battered.proposer? ⟨"P2"⟩ = some { acceptors := trio.acceptors, value := "z" } := rfl
  have hunopposed : Unopposed (battered.proposeGrounds ⟨"P2"⟩) := by
    simp [Unopposed, proposeGrounds, proposerGrounds, Halted, IsDown, InRound, hn, hp,
      Proposer.isProposing]
  have hspare : ¬ battered.IsSpent ⟨"P2"⟩ := by simp [IsSpent, hp, Proposer.Spent]
  obtain ⟨b, hb⟩ := hfree.ok_iff.mpr ⟨hunopposed, hspare⟩
  obtain ⟨-, n, p, -, -, hreplaces⟩ := hfree.done b hb
  exact ⟨b, hb, congrArg Bus.pending hreplaces.bus⟩

end Cluster

end Synod
