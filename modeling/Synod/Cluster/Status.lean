import Synod.Cluster.Basic
import Synod.Text.Padding

/-! A view of a cluster at one moment, and its text. -/

namespace Synod

variable {V σ : Type}

/-- A node as a status shows it, with what belongs to its role. -/
structure Entry (R : Type) where
  id : NodeId
  alive : Bool
  faulted : Bool
  role : R
  /-- How many messages wait for the node. -/
  inbox : Nat

structure Status (V : Type) where
  tick : Nat
  pending : Nat
  acceptors : List (Entry (Acceptor V))
  learners : List (Entry (Learner V))
  proposers : List (Entry (Proposer V))
  decided : Option V

namespace Cluster

def entries {R : Type} (c : Cluster V σ) (role? : Node V → Option R) : List (Entry R) :=
  c.nodes.filterMap fun n =>
    (role? n).map fun role => ⟨n.id, n.alive, n.faulted, role, c.bus.pendingFor n.id⟩

def status (c : Cluster V σ) : Status V where
  tick := c.ticks
  pending := c.bus.pendingCount
  acceptors := c.entries Node.acceptor?
  learners := c.entries Node.learner?
  proposers := c.entries Node.proposer?
  decided := c.decided?

end Cluster

namespace Status

variable [Value V]

def orDash : Option String → String
  | none => "-"
  | some text => text

def ballotText (b : Option Ballot) : String := orDash (b.map Ballot.text)

/-- A vote is shown as its ballot, a colon and its value. -/
def voteText (vote : Option (Vote V)) : String :=
  orDash (vote.map fun v => v.ballot.text ++ ":" ++ Value.shown v.value)

/-- That a fault has stopped a node is shown rather than whether it is up. -/
def liveness (alive faulted : Bool) : String :=
  if faulted then "FAULTED" else if alive then "up" else "DOWN"

/-- The line of a node: name and liveness in columns, then what belongs to the role, then the
inbox. -/
def entryLine {R : Type} (details : R → String) (e : Entry R) : String :=
  "  " ++ Text.pad .left 4 none e.id.name ++ " " ++
    Text.pad .left 7 none (liveness e.alive e.faulted) ++ " " ++ details e.role ++
    " inbox=" ++ toString e.inbox

def acceptorText (a : Acceptor V) : String :=
  "promised=" ++ ballotText a.pledge.promised ++ " accepted=" ++ voteText a.pledge.accepted

def learnerText (l : Learner V) : String :=
  "learned=" ++ voteText l.learned

def proposerText (p : Proposer V) : String :=
  (if p.isProposing then "preparing" else "idle") ++
    " proposal=" ++ ballotText p.current ++
    " value=" ++ Value.shown p.value ++
    " promises=" ++ toString p.reports.length ++
    " accepted_by=" ++ toString p.acceptedBy.length

def lines (s : Status V) : List String :=
  ["tick " ++ toString s.tick ++ ", " ++ toString s.pending ++ " message(s) pending",
    "acceptors:"] ++ s.acceptors.map (entryLine acceptorText) ++
  ["learners:"] ++ s.learners.map (entryLine learnerText) ++
  ["proposers:"] ++ s.proposers.map (entryLine proposerText) ++
  ["decided: " ++ orDash (s.decided.map Value.shown)]

def text (s : Status V) : String := "\n".intercalate s.lines

end Status

end Synod
