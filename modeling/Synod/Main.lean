import Synod.Console.Session

/-! The console as a program: it reads lines and prints what a session prints for them. Between two
lines the cluster ticks as often as the time that went by asks for. -/

namespace Synod.Console

def printLines (printed : Printed) : IO Unit := do
  for line in printed.out do
    IO.println line
  for line in printed.err do
    IO.eprintln line
  (← IO.getStdout).flush

/-- Lets the time since `since` pass for the cluster. -/
def catchUp (ticker : Ticker String Random.Stream) (since : Nat) :
    IO (Ticker String Random.Stream × Nat) := do
  let now ← IO.monoMsNow
  if ticker.interval = 0 then return (ticker, now)
  else return (ticker.sleep (now - since), now)

/-- Answers lines until the input ends or a line asks to leave. -/
partial def serve (ticker : Ticker String Random.Stream) (since : Nat) : IO Unit := do
  let line ← (← IO.getStdin).getLine
  let (ticker, now) ← catchUp ticker since
  if line.isEmpty then
    printLines (Session.goodbye ++ Session.farewell ticker.cluster)
  else
    match Session.reply ticker.cluster line with
    | .leave => printLines (Session.farewell ticker.cluster)
    | .go cluster printed =>
      printLines printed
      serve { ticker with cluster } now

def runConsole (arguments : List String) : IO UInt32 := do
  match Arguments.read arguments with
  | .error error =>
    let failure := Session.argumentFailure error
    printLines failure.printed
    return UInt32.ofNat failure.code
  | .ok a =>
    let entropy ← IO.rand 0 (UInt64.size - 1)
    match Cluster.ofSetup a.setup (UInt64.ofNat entropy) with
    | .error error =>
      let failure := Session.setupFailure error
      printLines failure.printed
      return UInt32.ofNat failure.code
    | .ok cluster =>
      printLines (Session.greeting cluster)
      serve { cluster, interval := a.interval } (← IO.monoMsNow)
      return 0

end Synod.Console

def main (arguments : List String) : IO UInt32 :=
  Synod.Console.runConsole arguments
