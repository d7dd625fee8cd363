import Synod.Cluster.Tick
import Synod.Ticker.Timer

/-! A cluster that ticks in the background, against a clock that is moved by hand. The loop runs
only while somebody waits: it ticks when it first runs, and from then on once in every interval. -/

namespace Synod

/-- How far the background loop has come. -/
inductive Ticker.Stage where
  /-- It has not run yet. -/
  | fresh
  /-- The next tick is due at that time. -/
  | waiting (due : Nat)
  /-- It could not run, because its interval is empty. -/
  | crashed
  | stopped
deriving DecidableEq

structure Ticker (V σ : Type) where
  cluster : Cluster V σ
  /-- The time between ticks, like all times in milliseconds. -/
  interval : Nat
  now : Nat := 0
  stage : Ticker.Stage := .fresh
  cancelled : Bool := false
  /-- That every learner has decided was reported. -/
  announced : Bool := false

namespace Ticker

variable {V σ : Type}

def note (t : Ticker V σ) (event : Event V) : Ticker V σ :=
  { t with cluster := t.cluster.note event }

/-- From now on the loop does not tick any more. -/
def cancel (t : Ticker V σ) : Ticker V σ := { t with cancelled := true }

variable [Value V] [Shuffler σ]

/-- One tick of the loop. The first time that every learner has decided is reported. -/
def beat (t : Ticker V σ) : Ticker V σ :=
  let t := { t with cluster := t.cluster.tick.1 }
  if !t.announced && t.cluster.allDecided then
    { t.note (.allLearnersDecided t.cluster.decided?) with announced := true }
  else t

def beats : Nat → Ticker V σ → Ticker V σ
  | 0, t => t
  | n + 1, t => beats n t.beat

/-- Lets the loop run at the present time. -/
def wake (t : Ticker V σ) : Ticker V σ :=
  match t.stage with
  | .fresh =>
    if t.interval = 0 then { t with stage := .crashed }
    else if t.cancelled then { t.note .loopCancelled with stage := .stopped }
    else { t.beat with stage := .waiting (t.now + t.interval) }
  | .waiting due =>
    if t.cancelled then { t.note .loopCancelled with stage := .stopped }
    else if due ≤ t.now then
      { beats (overdueBeats t.interval (t.now - due)) t with
        stage := .waiting (nextDue t.interval due t.now) }
    else t
  | .crashed | .stopped => t

/-- Time passes while the loop runs, and every tick that falls due before its end happens; one that
is due at the end itself has to wait until the loop runs again. Nothing runs in no time. -/
def sleep (t : Ticker V σ) (time : Nat) : Ticker V σ :=
  if time = 0 then t
  else
    let t := t.wake
    let stop := t.now + time
    match t.stage with
    | .waiting due =>
      let n := beatsBefore t.interval due stop
      { beats n t with now := stop, stage := .waiting (due + t.interval * n) }
    | _ => { t with now := stop }

/-- The clock jumps, and only then the loop runs. -/
def advance (t : Ticker V σ) (time : Nat) : Ticker V σ :=
  wake { t with now := t.now + time }

/-- Ends the loop and waits for it. That it could not run is reported here. -/
def shutdown (t : Ticker V σ) : Ticker V σ :=
  let t := t.cancel.wake
  match t.stage with
  | .crashed => { t.note .loopEndedAbnormally with stage := .stopped }
  | _ => t

end Ticker

end Synod
