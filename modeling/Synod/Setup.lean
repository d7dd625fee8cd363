import Synod.Ballot

/-! Who takes part in a run. A setup is sound if it names an acceptor and a learner and no node
twice. -/

namespace Synod

variable {V : Type}

/-- A proposer and what it proposes at first. -/
structure Candidate (V : Type) where
  id : NodeId
  value : V
deriving DecidableEq

structure Setup (V : Type) where
  acceptors : List NodeId
  learners : List NodeId
  candidates : List (Candidate V) := []
  /-- Where the orders of messages and nodes are drawn from; any orders will do without one. -/
  seed : Option UInt64 := none
deriving DecidableEq

inductive SetupError where
  | noAcceptors
  | noLearners
  | duplicate (id : NodeId)
deriving DecidableEq

namespace SetupError

def detail : SetupError → String
  | noAcceptors => "at least one acceptor is required"
  | noLearners => "at least one learner is required"
  | duplicate id => "duplicate node id " ++ id.name

/-- What every report of an unsound setup begins with. -/
def context : String := "invalid simulation configuration"

def message (e : SetupError) : String := context ++ ": " ++ e.detail

end SetupError

/-- The first name that equals an earlier one, or one that was seen before. -/
def firstRepeated (seen : List NodeId) : List NodeId → Option NodeId
  | [] => none
  | id :: ids => if id ∈ seen then some id else firstRepeated (id :: seen) ids

namespace Setup

def addCandidate (s : Setup V) (id : NodeId) (value : V) : Setup V :=
  { s with candidates := s.candidates ++ [⟨id, value⟩] }

def withSeed (s : Setup V) (seed : UInt64) : Setup V :=
  { s with seed := some seed }

/-- The names of all nodes: acceptors, learners, proposers. -/
def ids (s : Setup V) : List NodeId :=
  s.acceptors ++ s.learners ++ s.candidates.map Candidate.id

/-- What is wrong with a setup, if anything. A missing role is reported before a repeated name. -/
def defect? (s : Setup V) : Option SetupError :=
  if s.acceptors.isEmpty then some .noAcceptors
  else if s.learners.isEmpty then some .noLearners
  else (firstRepeated [] s.ids).map .duplicate

/-- Five acceptors, two learners and two proposers that compete. -/
def demo : Setup String where
  acceptors := [⟨"A1"⟩, ⟨"A2"⟩, ⟨"A3"⟩, ⟨"A4"⟩, ⟨"A5"⟩]
  learners := [⟨"L1"⟩, ⟨"L2"⟩]
  candidates := [⟨⟨"P1"⟩, "AZUL"⟩, ⟨⟨"P2"⟩, "VERMELHO"⟩]

theorem demo_sound : demo.defect? = none := by decide

end Setup

theorem firstRepeated_eq_none_iff {seen ids : List NodeId} :
    firstRepeated seen ids = none ↔ ids.Nodup ∧ ∀ id ∈ ids, id ∉ seen := by
  induction ids generalizing seen with
  | nil => simp [firstRepeated]
  | cons id ids ih =>
    simp only [firstRepeated]
    split
    · rename_i h
      simp only [reduceCtorEq, false_iff, not_and]
      exact fun _ hall => hall id List.mem_cons_self h
    · rename_i h
      rw [ih, List.nodup_cons]
      constructor
      · rintro ⟨hnodup, hall⟩
        refine ⟨⟨fun hid => hall id hid List.mem_cons_self, hnodup⟩, ?_⟩
        intro x hx
        rcases List.mem_cons.mp hx with rfl | hx
        · exact h
        · exact fun hseen => hall x hx (List.mem_cons_of_mem _ hseen)
      · rintro ⟨⟨hid, hnodup⟩, hall⟩
        refine ⟨hnodup, fun x hx hmem => ?_⟩
        rcases List.mem_cons.mp hmem with rfl | hseen
        · exact hid hx
        · exact hall x (List.mem_cons_of_mem _ hx) hseen

end Synod
