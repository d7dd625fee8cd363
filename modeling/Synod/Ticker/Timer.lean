/-! The timer of a loop that runs in the background: when it goes off, and what it makes up for
where the loop is late. This is the outer layer. The rule for late loops is that of the runtime
which wakes them, and no law of nodes, messages or rounds depends on it. -/

namespace Synod.Ticker

/-- The first time after `now` that is a whole number of intervals after `due`. -/
def nextDue (interval due now : Nat) : Nat :=
  due + interval * ((now - due) / interval + 1)

theorem lt_nextDue {interval due now : Nat} (h : 0 < interval) :
    now < nextDue interval due now := by
  have hdiv := Nat.lt_mul_div_succ (now - due) h
  unfold nextDue
  omega

/-- A loop that is late by no more than so many milliseconds makes up for the ticks it missed. -/
def tolerance : Nat := 5

/-- How many ticks happen at once when the loop runs so late. Where that is too late, the ticks that
were missed are left out. -/
def overdueBeats (interval late : Nat) : Nat :=
  if late ≤ tolerance then late / interval + 1 else 1

theorem overdueBeats_le (interval late : Nat) :
    overdueBeats interval late ≤ late / interval + 1 := by
  unfold overdueBeats
  split
  · exact Nat.le_refl _
  · exact Nat.le_add_left 1 _

theorem overdueBeats_eq_one {interval late : Nat} (h : tolerance < interval) :
    overdueBeats interval late = 1 := by
  unfold overdueBeats
  split
  · rw [Nat.div_eq_of_lt (by omega)]
  · rfl

/-- How many ticks fall due from `due` on and before `stop`. -/
def beatsBefore (interval due stop : Nat) : Nat :=
  (stop - due + (interval - 1)) / interval

/-- It is the least number of intervals after `due` with which `stop` is reached. -/
theorem beatsBefore_le_iff {interval due stop n : Nat} (h : 0 < interval) :
    beatsBefore interval due stop ≤ n ↔ stop ≤ due + interval * n := by
  rw [beatsBefore, Nat.div_le_iff_le_mul_add_pred h]
  omega

end Synod.Ticker
