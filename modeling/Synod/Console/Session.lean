import Synod.Console.Arguments
import Synod.Console.Report
import Synod.Text.Cluster
import Synod.Ticker

/-! A session of the console: what is printed for each line of input, and for all of them. -/

namespace Synod.Console

/-- Lines for the two outputs of the console. -/
structure Printed where
  out : List String := []
  err : List String := []

namespace Printed

def append (a b : Printed) : Printed := ⟨a.out ++ b.out, a.err ++ b.err⟩

instance : Append Printed := ⟨append⟩

end Printed

/-- What becomes of a session after a line. -/
inductive Reply (σ : Type) where
  | leave
  | go (cluster : Cluster String σ) (printed : Printed)

namespace Session

variable {σ : Type}

/-- The lines of a text that is printed with a line feed after it. -/
def linesOf (text : String) : List String := Text.lines (text ++ "\n")

def greeting (c : Cluster String σ) : Printed where
  out := ["Paxos simulation console"] ++ linesOf c.status.text ++
    ["Type 'help' for available commands.", ""]

/-- Printed where the input ends without a request to leave. -/
def goodbye : Printed := { out := ["Goodbye!"] }

def farewell (c : Cluster String σ) : Printed := { out := linesOf c.status.text }

/-- Empty results are not printed, problems go to the other output. -/
def printResult : Except Problem String → Printed
  | .ok "" => {}
  | .ok text => { out := linesOf text }
  | .error problem => { err := linesOf ("Error: " ++ problem.message) }

/-- The reply to a line. What a backspace took back is not part of it, blanks at its ends do not
matter, and blank lines are skipped. -/
def reply [Shuffler σ] (c : Cluster String σ) (line : String) : Reply σ :=
  let line := Text.trim (Text.retyped line)
  if line.isEmpty then .go c {}
  else if isExit line then .leave
  else
    let (c, result) := execute c line
    .go c (printResult result)

/-- Everything that is printed for some lines of input, without time passing between them. -/
def replies [Shuffler σ] (c : Cluster String σ) : List String → Printed
  | [] => goodbye ++ farewell c
  | line :: lines =>
    match reply c line with
    | .leave => farewell c
    | .go c printed => printed ++ replies c lines

/-- The exit code of a run of the console and what it printed. -/
structure Transcript where
  code : Nat
  printed : Printed

/-- What is printed, and the exit code, where the arguments cannot be used. -/
def argumentFailure : ArgumentError → Transcript
  | .helpWanted => ⟨0, { out := linesOf ArgumentError.helpWanted.message }⟩
  | error => ⟨2, { err := [Text.firstLine error.message] }⟩

/-- An unsound setup is reported as one quoted text. -/
def setupFailure (error : SetupError) : Transcript :=
  ⟨1, { err := ["Error: " ++ Text.quoted (report SetupError.context error.detail)] }⟩

/-- A run of the console on the given arguments and input. -/
def transcript (arguments lines : List String) (entropy : UInt64) : Transcript :=
  match Arguments.read arguments with
  | .error error => argumentFailure error
  | .ok a =>
    match Cluster.ofSetup a.setup entropy with
    | .error error => setupFailure error
    | .ok c => ⟨0, greeting c ++ replies c lines⟩

end Session

end Synod.Console
