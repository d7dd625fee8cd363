import Synod.Text.Blank
import Synod.Text.Decimal

/-! Lines of the console, read as commands. A line counts by its words alone. -/

namespace Synod.Console

inductive Command where
  /-- A line without words. -/
  | nothing
  | help
  | propose (proposer : String) (value : Option String)
  | value (proposer value : String)
  | kill (node : String)
  | revive (node : String)
  | status
  | tick (count : Nat)
deriving DecidableEq

inductive LineError where
  | usage (form : String)
  | tickCount (word : String) (cause : Text.CountError)
  | unknown (word : String)
deriving DecidableEq

namespace LineError

def message : LineError → String
  | usage form => "Usage: " ++ form
  | tickCount word cause => "Invalid tick count " ++ word ++ ": " ++ cause.message
  | unknown word =>
    "Unknown command: " ++ word ++ ". Type 'help' for available commands."

end LineError

namespace Command

/-- Words that belong together, with single spaces between them. -/
def phrase (words : List String) : String := " ".intercalate words

/-- The command that some words name. Where a command needs no further words, further words do not
matter. -/
def ofWords : List String → Except LineError Command
  | [] => .ok .nothing
  | name :: arguments =>
    match name, arguments with
    | "help", _ => .ok .help
    | "?", _ => .ok .help
    | "propose", [] => .error (.usage "propose <proposer> [value]")
    | "propose", [proposer] => .ok (.propose proposer none)
    | "propose", proposer :: words => .ok (.propose proposer (some (phrase words)))
    | "value", proposer :: word :: words => .ok (.value proposer (phrase (word :: words)))
    | "value", _ => .error (.usage "value <proposer> <value>")
    | "kill", node :: _ => .ok (.kill node)
    | "kill", [] => .error (.usage "kill <node>")
    | "revive", node :: _ => .ok (.revive node)
    | "revive", [] => .error (.usage "revive <node>")
    | "status", _ => .ok .status
    | "tick", [] => .ok (.tick 1)
    | "tick", word :: _ =>
      match Text.readCount word with
      | .ok count => .ok (.tick count)
      | .error cause => .error (.tickCount word cause)
    | name, _ => .error (.unknown name)

def ofLine (line : String) : Except LineError Command :=
  ofWords (Text.words line)

end Command

/-- Whether a line asks to leave the console; it is checked before the line is read as a command. -/
def isExit (line : String) : Bool :=
  Text.trim line = "exit" || Text.trim line = "quit"

end Synod.Console
