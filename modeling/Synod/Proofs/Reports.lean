import Synod.Proofs.Opening
import Synod.Proofs.Schedule
import Synod.Value.Instances

/-! What a proposer knows of the acceptors that count for its round. A refusal and a promise are the
same kind of message, told apart by the ballot alone; a refusal that names the round in flight
therefore counts as a promise that reports no vote. This happens where an acceptor handles the
prepare of an earlier round of the same proposer after that of the round in flight. -/

namespace Synod

variable {V σ : Type}

/-! ## Rounds that overtake each other -/

/-- Whether a prepare is refused because of a later round of the same proposer. -/
def Event.isOvertaking : Event V → Bool
  | .remarked _ (.prepareRejected _ m b) => m.proposer = b.proposer ∧ m.round < b.round
  | _ => false

theorem not_overtaken_iff {log : List (Event V)} :
    (∀ a m b, ¬ Overtaken log a m b) ↔ ∀ e ∈ log, e.isOvertaking = false := by
  constructor
  · intro h e he
    unfold Event.isOvertaking
    split
    · rename_i a sender m b
      exact decide_eq_false fun hover => h a m b ⟨⟨sender, he⟩, hover⟩
    · rfl
  · rintro h a m b ⟨⟨sender, he⟩, hover⟩
    exact of_decide_eq_false (h _ he) hover

/-! ## Lost reports -/

/-- An acceptor that promised a ballot with a vote has also refused an earlier prepare of the same
proposer with that ballot. The refusal reads as a promise without a vote. -/
def ReportLost (log : List (Event V)) (a : NodeId) (b : Ballot) : Prop :=
  (∃ vote, Promised log a b (some vote)) ∧ ∃ m, Overtaken log a m b

theorem Counted.accepted_eq {log : List (Event V)} {b : Ballot} {report : Report V}
    (h : Counted log b report) (hkept : ¬ ReportLost log report.sender b) :
    Promised log report.sender b report.accepted := by
  obtain ⟨held, hpromised, hacc | ⟨hnone, m, hm⟩⟩ := h
  · exact hacc ▸ hpromised
  · cases held with
    | none => exact hnone ▸ hpromised
    | some vote => exact absurd ⟨⟨vote, hpromised⟩, m, hm⟩ hkept

/-- A vote was asked for in a round that lost a report. -/
def Misled (log : List (Event V)) (vote : Vote V) : Prop :=
  Asked log vote ∧ ∃ a, ReportLost log a vote.ballot

theorem not_misled_of_not_overtaken {log : List (Event V)}
    (h : ∀ a m b, ¬ Overtaken log a m b) (vote : Vote V) : ¬ Misled log vote := by
  rintro ⟨-, a, -, m, hm⟩
  exact h a m vote.ballot hm

/-! ## Reports of a round in flight -/

namespace World.Sound

variable {s : Setup V} {w : World V} (hw : w.Sound s)
include hw

/-- A promise of a ballot reports what its acceptor held at that moment. -/
theorem exists_moment {a : NodeId} {b : Ballot} {held : Option (Vote V)}
    (hp : Promised w.log a b held) : ∃ before after,
      history a w.log = before ++ .promised b.proposer b held :: after ∧
        held = lastVote before := by
  obtain ⟨sender, hp⟩ := hp
  obtain ⟨hmem, rfl, -⟩ := hw.justified _ hp
  obtain ⟨state, ha⟩ := hw.exists_acceptor hmem
  exact (hw.of_acceptor ha).faithful.held (mem_history.mpr ⟨rfl, hp⟩)

end World.Sound

namespace Cluster

variable [Value V] [LawfulValue V] [Shuffler σ] {s : Setup V} {bus order : σ} {c : Cluster V σ}

/-- Every acceptor that counts for a round in flight has promised it, and counts once. It counts
with the vote it held at that moment, unless it has refused an earlier round of the same proposer
since: then it may count without a vote. -/
theorem reports_of_proposer (h : create s bus order = .ok c) (ops : List (Operation V))
    {id : NodeId} {p : Proposer V} (hp : (c.run ops).proposer? id = some p) {b : Ballot}
    (hb : p.current = some b) :
    (p.reports.map Report.sender).Nodup ∧ ∀ report ∈ p.reports, ∃ held before after,
      history report.sender (c.run ops).log.toList = before ++ .promised id b held :: after ∧
      held = lastVote before ∧
      (report.accepted = held ∨
        report.accepted = none ∧ ∃ m, Overtaken (c.run ops).log.toList report.sender m b) := by
  have hw := sound_run h ops
  have hsound : p.Sound s (c.run ops).world.log id := hw.of_proposer hp
  obtain ⟨value, hstarted⟩ := hsound.faithful.current hb
  obtain ⟨hid, -, -⟩ := hsound.faithful.started hstarted
  refine ⟨?_, fun report hreport => ?_⟩
  · unfold Proposer.reports
    split
    · exact List.nodup_nil
    · rename_i reports hphase
      exact (hsound.faithful.reports hphase).1
  · obtain ⟨held, hpromised, hacc⟩ := hsound.counted b hb report hreport
    obtain ⟨before, after, hhistory, hheld⟩ := hw.exists_moment hpromised
    exact ⟨held, before, after, hid ▸ hhistory, hheld, hacc⟩

/-! ### A lost report -/

/-- Three acceptors, two learners and two proposers. -/
def trio : Setup String where
  acceptors := [⟨"A1"⟩, ⟨"A2"⟩, ⟨"A3"⟩]
  learners := [⟨"L1"⟩, ⟨"L2"⟩]
  candidates := [⟨⟨"P1"⟩, "x"⟩, ⟨⟨"P2"⟩, "z"⟩]

/-- The three before anything has happened, with these orders of delivery. -/
def ofTrio (orders : List (List Nat)) : Cluster String Script where
  nodes := trio.freshNodes
  bus := .empty ⟨orders⟩
  order := ⟨[]⟩
  log := #[.created]

theorem create_trio (orders : List (List Nat)) :
    create trio ⟨orders⟩ ⟨[]⟩ = .ok (ofTrio orders) := rfl

/-- The acceptor `A1` votes in the first round, promises the second and only then handles the
prepare of the first. The proposer hears of the promise before it hears of the refusal. -/
def overtaking : List (Operation String) :=
  [.propose ⟨"P1"⟩ none, .process ⟨"A2"⟩, .process ⟨"A3"⟩, .process ⟨"P1"⟩, .process ⟨"A2"⟩,
    .propose ⟨"P1"⟩ (some "y"), .process ⟨"A1"⟩, .process ⟨"P1"⟩]

def overtakingOrders : List (List Nat) := [[], [], [], [], [1, 1]]

/-- The vote that `A1` held when it promised the second round is not among the reports. -/
theorem overtaking_loses_report :
    history ⟨"A1"⟩ ((ofTrio overtakingOrders).run overtaking).log.toList =
      [.accepted ⟨"P1"⟩ ⟨⟨1, ⟨"P1"⟩⟩, "x"⟩,
        .promised ⟨"P1"⟩ ⟨2, ⟨"P1"⟩⟩ (some ⟨⟨1, ⟨"P1"⟩⟩, "x"⟩),
        .prepareRejected ⟨"P1"⟩ ⟨1, ⟨"P1"⟩⟩ ⟨2, ⟨"P1"⟩⟩] ∧
    (((ofTrio overtakingOrders).run overtaking).proposer? ⟨"P1"⟩).map
      (fun p => (p.current, p.reports)) = some (some ⟨2, ⟨"P1"⟩⟩, [⟨⟨"A1"⟩, none⟩]) := by
  decide

theorem reports_of_overtaken_proposer :
    ∃ p, ((ofTrio overtakingOrders).run overtaking).proposer? ⟨"P1"⟩ = some p ∧
      p.current = some ⟨2, ⟨"P1"⟩⟩ ∧ p.reports = [⟨⟨"A1"⟩, none⟩] ∧
      (p.reports.map Report.sender).Nodup ∧ ∀ report ∈ p.reports, ∃ held before after,
        history report.sender ((ofTrio overtakingOrders).run overtaking).log.toList =
          before ++ .promised ⟨"P1"⟩ ⟨2, ⟨"P1"⟩⟩ held :: after ∧
        held = lastVote before ∧
        (report.accepted = held ∨ report.accepted = none ∧
          ∃ m, Overtaken ((ofTrio overtakingOrders).run overtaking).log.toList report.sender m
            ⟨2, ⟨"P1"⟩⟩) := by
  have hstate : (((ofTrio overtakingOrders).run overtaking).proposer? ⟨"P1"⟩).map
      (fun p => (p.current, p.reports)) = some (some ⟨2, ⟨"P1"⟩⟩, [⟨⟨"A1"⟩, none⟩]) := by decide
  obtain ⟨p, hp, hstate⟩ := Option.map_eq_some_iff.mp hstate
  obtain ⟨hb, hreports⟩ := Prod.mk.inj hstate
  exact ⟨p, hp, hb, hreports, reports_of_proposer (create_trio _) overtaking hp hb⟩

end Cluster

end Synod
