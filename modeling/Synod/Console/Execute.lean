import Synod.Cluster.Command
import Synod.Cluster.Status
import Synod.Console.Command
import Synod.Value.Instances

/-! Commands of the console, carried out on a cluster. -/

namespace Synod.Console

variable {σ : Type}

def helpText : String :=
"Available commands:
  propose <proposer> [value]   - Start a new round (optionally with a new value)
  value <proposer> <value>     - Set the value used from the next round on
  kill <node>                  - Crash a node; its state and inbox are kept
  revive <node>                - Bring a crashed node back
  status                       - Show every node, pending messages and the decision
  tick [n]                     - Run n ticks right now (default 1)
  help                         - Show this help
  exit / quit                  - Exit the console

Nodes keep ticking in the background unless started with --tick-ms 0.
"

/-- Why a line was not carried out. -/
inductive Problem where
  | badLine (error : LineError)
  /-- What was attempted, and why it has no result. -/
  | failed (attempt : String) (failure : Failure)

/-- The text of a result, or the failure of an attempt. -/
def answer {α : Type} (attempt : String) (render : α → String)
    (result : Cluster String σ × Except Failure α) : Cluster String σ × Except Problem String :=
  (result.1, match result.2 with
    | .ok a => .ok (render a)
    | .error failure => .error (.failed attempt failure))

/-- A tick is mentioned where a fault stops some nodes. -/
def tickLine (r : TickReport) : String :=
  if r.faulted.isEmpty then ""
  else "tick " ++ toString r.tick ++ ": faulted " ++
    Text.quotedList (r.faulted.map NodeId.name) ++ "\n"

def totalHandled (reports : List TickReport) : Nat :=
  reports.foldl (fun total report => total + report.handled) 0

def ticksText (count : Nat) (reports : List TickReport) (decided : Option String) : String :=
  String.join (reports.map tickLine) ++ toString count ++ " tick(s), " ++
    toString (totalHandled reports) ++ " message(s) handled" ++
    match decided with
    | none => ""
    | some value => ", decided " ++ Text.quoted value

variable [Shuffler σ]

def Command.run (c : Cluster String σ) :
    Command → Cluster String σ × Except Problem String
  | .nothing => (c, .ok "")
  | .help => (c, .ok helpText)
  | .propose proposer offered =>
    answer "Failed to propose" (fun b => proposer ++ " started proposal " ++ b.text)
      (c.propose ⟨proposer⟩ offered)
  | .value proposer offered =>
    answer "Failed to set value"
      (fun _ => proposer ++ " will propose " ++ Text.quoted offered ++ " next")
      (c.setValue ⟨proposer⟩ offered)
  | .kill node => answer "Failed to kill node" (fun _ => node ++ " is down") (c.fail ⟨node⟩)
  | .revive node => answer "Failed to revive node" (fun _ => node ++ " is up") (c.recover ⟨node⟩)
  | .status => (c, .ok c.status.text)
  | .tick count =>
    let (c, reports) := c.runTicks count
    (c, .ok (ticksText count reports c.decided?))

def execute (c : Cluster String σ) (line : String) : Cluster String σ × Except Problem String :=
  match Command.ofLine line with
  | .error error => (c, .error (.badLine error))
  | .ok command => command.run c

end Synod.Console
