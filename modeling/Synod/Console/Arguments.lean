import Synod.Setup
import Synod.Text.Decimal
import Synod.Text.Lines
import Synod.Text.Quoted
import Synod.Text.Visible

/-! The arguments that the console is started with. An option takes its value from behind an equals
sign or from the next argument; its value is looked at only when the option is complete. This is the
outer layer: how options may be written, and what is said where they are not, is the convention of
the library that reads them, and nothing that holds of a cluster depends on it. -/

namespace Synod.Console

structure Arguments where
  /-- The acceptors that replace those of the demo setup, if any are named. -/
  acceptors : List String := []
  learners : List String := []
  candidates : List (Candidate String) := []
  tickMs : Option Nat := none
  seed : Option Nat := none

/-- The options that take a value. -/
inductive Flag where
  | acceptors
  | learners
  | proposer
  | tickMs
  | seed
deriving DecidableEq

namespace Flag

/-- The option of a name, without the dashes. -/
def ofName? : String → Option Flag
  | "acceptors" => some acceptors
  | "learners" => some learners
  | "proposer" => some proposer
  | "tick-ms" => some tickMs
  | "seed" => some seed
  | _ => none

/-- The option and its value as errors name them. -/
def shown : Flag → String
  | acceptors => "--acceptors <ACCEPTORS>"
  | learners => "--learners <LEARNERS>"
  | proposer => "--proposer <PROPOSERS>"
  | tickMs => "--tick-ms <TICK_MS>"
  | seed => "--seed <SEED>"

end Flag

inductive ArgumentError where
  | unexpected (argument : String)
  | missingValue (flag : Flag)
  | repeated (flag : Flag)
  | badValue (flag : Flag) (value why : String)
  /-- A value for the request for help, which takes none. -/
  | unwantedValue (value : String)
  /-- The options were asked for; nothing is wrong. -/
  | helpWanted

/-- What was given is quoted as a terminal shows it. -/
def ArgumentError.message : ArgumentError → String
  | .unexpected argument =>
    "error: unexpected argument '" ++ Text.visible argument ++ "' found"
  | .missingValue flag =>
    "error: a value is required for '" ++ flag.shown ++ "' but none was supplied"
  | .repeated flag =>
    "error: the argument '" ++ flag.shown ++ "' cannot be used multiple times"
  | .badValue flag value why =>
    "error: invalid value '" ++ Text.visible value ++ "' for '" ++ flag.shown ++ "': " ++ why
  | .unwantedValue value =>
    "error: unexpected value '" ++ Text.visible value ++
      "' for '--help' found; no more were expected"
  | .helpWanted =>
    "Usage: [--acceptors <ACCEPTORS>] [--learners <LEARNERS>] [--proposer <PROPOSERS>] " ++
      "[--tick-ms <TICK_MS>] [--seed <SEED>]"

/-- The parts of a text before and after its first equals sign. -/
def splitAtEquals (text : String) : String × Option String :=
  let cs := text.toList
  match cs.dropWhile (· ≠ '=') with
  | [] => (text, none)
  | _ :: value => (String.ofList (cs.takeWhile (· ≠ '=')), some (String.ofList value))

/-- A proposer is given as its name, an equals sign and its value, which may be empty. -/
def readCandidate (text : String) : Except String (Candidate String) :=
  match splitAtEquals text with
  | (_, none) => .error ("expected ID=VALUE, got " ++ Text.quoted text)
  | ("", some _) => .error ("missing proposer id in " ++ Text.quoted text)
  | (id, some value) => .ok ⟨⟨id⟩, value⟩

namespace Arguments

/-- A count for an option that may be given once. -/
def readOnce (flag : Flag) (old : Option Nat) (value : String) : Except ArgumentError Nat :=
  if old.isSome then .error (.repeated flag)
  else match Text.readCount value with
    | .ok n => .ok n
    | .error cause => .error (.badValue flag value cause.message)

def set (a : Arguments) (flag : Flag) (value : String) : Except ArgumentError Arguments :=
  match flag with
  | .acceptors => .ok { a with acceptors := a.acceptors ++ Text.pieces ',' value }
  | .learners => .ok { a with learners := a.learners ++ Text.pieces ',' value }
  | .proposer =>
    match readCandidate value with
    | .ok candidate => .ok { a with candidates := a.candidates ++ [candidate] }
    | .error why => .error (.badValue flag value why)
  | .tickMs => (readOnce flag a.tickMs value).map fun n => { a with tickMs := some n }
  | .seed => (readOnce flag a.seed value).map fun n => { a with seed := some n }

/-- An option that has been read, and its value if that has been read too. -/
abbrev Pending := Option (Flag × Option String)

/-- Takes what has been read of the last option. -/
def complete (a : Arguments) : Pending → Except ArgumentError Arguments
  | none => .ok a
  | some (flag, none) => .error (.missingValue flag)
  | some (flag, some value) => a.set flag value

/-- How an argument is read. -/
inductive Shape where
  /-- Nothing after it is an option. -/
  | separator
  | long (name : String) (value : Option String)
  | short (letter : Char)
  | plain (text : String)

def shape (argument : String) : Shape :=
  match argument.toList with
  | ['-', '-'] => .separator
  | '-' :: '-' :: name =>
    match splitAtEquals (String.ofList name) with
    | (name, value) => .long name value
  | '-' :: letter :: _ => .short letter
  | _ => .plain argument

/-- Reads arguments from the left. An argument that is not expected is reported before anything that
is wrong with the option just before it. -/
def readFrom (a : Arguments) (pending : Pending) : List String → Except ArgumentError Arguments
  | [] => a.complete pending
  | argument :: rest =>
    match shape argument with
    | .separator =>
      match rest with
      | [] => a.complete pending
      | next :: _ => .error (.unexpected next)
    | .long "help" none =>
      match a.complete pending with
      | .error error => .error error
      | .ok _ => .error .helpWanted
    | .long "help" (some value) => .error (.unwantedValue value)
    | .long name value =>
      match Flag.ofName? name with
      | none => .error (.unexpected ("--" ++ name))
      | some flag =>
        match a.complete pending with
        | .error error => .error error
        | .ok a =>
          match value with
          | none => readFrom a (some (flag, none)) rest
          | some value =>
            match a.set flag value with
            | .error error => .error error
            | .ok a => readFrom a none rest
    | .short 'h' =>
      match a.complete pending with
      | .error error => .error error
      | .ok _ => .error .helpWanted
    | .short letter => .error (.unexpected ("-" ++ letter.toString))
    | .plain text =>
      match pending with
      | some (flag, none) => readFrom a (some (flag, some text)) rest
      | _ => .error (.unexpected text)

def read (arguments : List String) : Except ArgumentError Arguments :=
  readFrom {} none arguments

/-- The demo setup, with every role replaced that was given. -/
def setup (a : Arguments) : Setup String where
  acceptors :=
    if a.acceptors.isEmpty then Setup.demo.acceptors else a.acceptors.map NodeId.mk
  learners := if a.learners.isEmpty then Setup.demo.learners else a.learners.map NodeId.mk
  candidates := if a.candidates.isEmpty then Setup.demo.candidates else a.candidates
  seed := a.seed.map UInt64.ofNat

/-- The time between background ticks, in milliseconds; none happen where it is zero. -/
def interval (a : Arguments) : Nat := a.tickMs.getD 100

end Arguments

end Synod.Console
