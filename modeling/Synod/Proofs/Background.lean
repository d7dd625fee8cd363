import Mathlib.Order.Basic
import Synod.Proofs.Ticking
import Synod.Ticker

/-! Ticking in the background. Time may pass in one piece or in many: the cluster ticks once for
every interval that begins in it. A loop that was late goes on at the times at which it would have
ticked anyway, and does not tick more often than that. Once it is cancelled it never ticks again.
That every learner has decided is reported once, after the first tick that finds it so. -/

namespace Synod

namespace Ticker

/-! ## Times that fall due -/

section

variable {interval due stop : Nat}

theorem le_beatsBefore (hpos : 0 < interval) (due stop : Nat) :
    stop ≤ due + interval * beatsBefore interval due stop :=
  (beatsBefore_le_iff hpos).mp (Nat.le_refl _)

theorem beatsBefore_le (hpos : 0 < interval) (hsoon : due ≤ stop + interval) :
    due + interval * beatsBefore interval due stop ≤ stop + interval := by
  cases hbeats : beatsBefore interval due stop with
  | zero => exact hsoon
  | succ n =>
    have hfew : ¬ beatsBefore interval due stop ≤ n := by rw [hbeats]; exact Nat.not_succ_le_self n
    rw [beatsBefore_le_iff hpos] at hfew
    rw [Nat.mul_succ]
    omega

theorem nextDue_le (h : due ≤ stop) : nextDue interval due stop ≤ stop + interval := by
  have hdiv := Nat.mul_div_le (stop - due) interval
  rw [nextDue, Nat.mul_succ]
  omega

theorem beatsBefore_of_lt (hpos : 0 < interval) (h : due < stop) :
    beatsBefore interval due stop = beatsBefore interval (due + interval) stop + 1 := by
  refine eq_of_forall_ge_iff fun n => ?_
  cases n with
  | zero =>
    rw [beatsBefore_le_iff hpos]
    omega
  | succ n =>
    rw [beatsBefore_le_iff hpos, Nat.add_le_add_iff_right, beatsBefore_le_iff hpos, Nat.mul_succ]
    omega

/-- What falls due before a later end falls due before an earlier one, or from there on. -/
theorem beatsBefore_add (hpos : 0 < interval) {later : Nat} (h : stop ≤ later) :
    beatsBefore interval due stop +
        beatsBefore interval (due + interval * beatsBefore interval due stop) later =
      beatsBefore interval due later := by
  refine eq_of_forall_ge_iff fun n => ?_
  rw [beatsBefore_le_iff hpos]
  by_cases hn : beatsBefore interval due stop ≤ n
  · obtain ⟨k, rfl⟩ := Nat.exists_eq_add_of_le hn
    rw [Nat.add_le_add_iff_left, beatsBefore_le_iff hpos, Nat.mul_add]
    omega
  · have hstop : ¬ stop ≤ due + interval * n := fun hle => hn ((beatsBefore_le_iff hpos).mpr hle)
    omega

end

/-! ## Ticks of the loop -/

variable {V σ : Type} [Value V] [Shuffler σ]

theorem beats_add (m n : Nat) (t : Ticker V σ) : beats (m + n) t = beats n (beats m t) := by
  induction m generalizing t with
  | zero => rw [Nat.zero_add, beats]
  | succ m ih => rw [Nat.add_right_comm, beats, beats, ih]

/-- The loop after so many ticks, at that time, with the next tick due then. -/
def proceed (t : Ticker V σ) (n now due : Nat) : Ticker V σ :=
  { beats n t with now, stage := .waiting due }

/-- A tick looks neither at the clock nor at the stage. -/
theorem beats_proceed (t : Ticker V σ) (m n now due : Nat) :
    beats n (t.proceed m now due) = t.proceed (m + n) now due := by
  have hclock (u : Ticker V σ) (n : Nat) : beats n { u with now, stage := .waiting due } =
      { beats n u with now, stage := .waiting due } := by
    induction n generalizing u with
    | zero => rfl
    | succ n ih =>
      have hbeat : beat { u with now, stage := .waiting due } =
          { u.beat with now, stage := .waiting due } := by
        unfold beat
        dsimp only
        split <;> rfl
      rw [beats, beats, hbeat, ih]
  rw [proceed, proceed, hclock, beats_add]

theorem proceed_proceed (t : Ticker V σ) (m n now now' due due' : Nat) :
    (t.proceed m now due).proceed n now' due' = t.proceed (m + n) now' due' := by
  rw [proceed, beats_proceed]
  rfl

@[simp] theorem proceed_now (t : Ticker V σ) (n now due : Nat) : (t.proceed n now due).now = now :=
  rfl

theorem beats_frame (n : Nat) (t : Ticker V σ) :
    (beats n t).interval = t.interval ∧ (beats n t).now = t.now ∧
      (beats n t).cancelled = t.cancelled := by
  induction n generalizing t with
  | zero => exact ⟨rfl, rfl, rfl⟩
  | succ n ih =>
    rw [beats]
    obtain ⟨hinterval, hnow, hcancelled⟩ := ih t.beat
    rw [hinterval, hnow, hcancelled]
    unfold beat
    dsimp only
    split <;> exact ⟨rfl, rfl, rfl⟩

@[simp] theorem proceed_interval (t : Ticker V σ) (n now due : Nat) :
    (t.proceed n now due).interval = t.interval :=
  (beats_frame n t).1

theorem ticks_beats (n : Nat) (t : Ticker V σ) :
    (beats n t).cluster.ticks = t.cluster.ticks + n := by
  induction n generalizing t with
  | zero => rfl
  | succ n ih =>
    have hbeat : t.beat.cluster.ticks = t.cluster.ticks + 1 := by
      rw [← t.cluster.ticks_tick]
      unfold beat
      dsimp only
      split <;> rfl
    rw [beats, ih, hbeat]
    omega

/-! ## The report that all have decided -/

/-- What so many ticks come to: the cluster ticks as often, and where the loop has not yet reported
that every learner has decided, it does so after the first tick that finds it so. -/
inductive Beaten (t : Ticker V σ) (n : Nat) : Ticker V σ → Prop where
  | known (h : t.announced = true) : Beaten t n { t with cluster := t.cluster.afterTicks n }
  | undecided (hnew : t.announced = false)
      (h : ∀ k, 0 < k → k ≤ n → (t.cluster.afterTicks k).allDecided = false) :
      Beaten t n { t with cluster := t.cluster.afterTicks n }
  | reported (k later : Nat) (hn : k + 1 + later = n) (hnew : t.announced = false)
      (hdecided : (t.cluster.afterTicks (k + 1)).allDecided = true)
      (hfirst : ∀ j, 0 < j → j ≤ k → (t.cluster.afterTicks j).allDecided = false) :
      Beaten t n { t with
        cluster := ((t.cluster.afterTicks (k + 1)).note
          (.allLearnersDecided (t.cluster.afterTicks (k + 1)).decided?)).afterTicks later
        announced := true }

theorem beat_of_announced {t : Ticker V σ} (h : t.announced = true) :
    t.beat = { t with cluster := t.cluster.tick.1 } := by
  simp [beat, h]

theorem beats_of_announced (n : Nat) {t : Ticker V σ} (h : t.announced = true) :
    beats n t = { t with cluster := t.cluster.afterTicks n } := by
  induction n generalizing t with
  | zero => rfl
  | succ n ih =>
    rw [beats, beat_of_announced h, ih (t := { t with cluster := t.cluster.tick.1 }) h]
    rfl

theorem beaten_beats (t : Ticker V σ) (n : Nat) : t.Beaten n (beats n t) := by
  cases hnew : t.announced with
  | true => exact beats_of_announced n hnew ▸ .known hnew
  | false =>
    induction n generalizing t with
    | zero => exact .undecided hnew fun k hpos hk => absurd hpos (by omega)
    | succ n ih =>
      cases hdecided : t.cluster.tick.1.allDecided with
      | true =>
        have hbeat : t.beat = { t with
            cluster := t.cluster.tick.1.note (.allLearnersDecided t.cluster.tick.1.decided?)
            announced := true } := by simp [beat, hnew, hdecided, note]
        rw [beats, hbeat, beats_of_announced n rfl]
        exact .reported 0 n (by omega) hnew hdecided fun j hpos hj => absurd hpos (by omega)
      | false =>
        have hbeat : t.beat = { t with cluster := t.cluster.tick.1 } := by
          simp [beat, hnew, hdecided]
        rw [beats, hbeat]
        -- The first of the ticks is before those that the induction is about.
        have hbefore {m : Nat} (h : ∀ k, 0 < k → k ≤ m →
            (t.cluster.tick.1.afterTicks k).allDecided = false) (k : Nat) (hpos : 0 < k)
            (hk : k ≤ m + 1) : (t.cluster.afterTicks k).allDecided = false := by
          obtain ⟨k, rfl⟩ := Nat.exists_eq_add_of_lt hpos
          rw [Nat.zero_add, Cluster.afterTicks_succ]
          cases k with
          | zero => exact hdecided
          | succ k => exact h (k + 1) (by omega) (by omega)
        have hrest := ih { t with cluster := t.cluster.tick.1 } hnew
        generalize beats n { t with cluster := t.cluster.tick.1 } = out at hrest ⊢
        cases hrest with
        | known h => exact absurd h (by simp [hnew])
        | undecided _ h => exact .undecided hnew (hbefore h)
        | reported k later hn _ hdec hfirst =>
          exact .reported (k + 1) later (by omega) hnew hdec (hbefore hfirst)

/-! ## When the loop runs -/

/-- What the loop does when it runs: one constructor for each thing that may happen. -/
inductive Woken (t : Ticker V σ) : Ticker V σ → Prop where
  | crashed (hstage : t.stage = .fresh) (hempty : t.interval = 0) :
      Woken t { t with stage := .crashed }
  | cancelled (hstage : t.stage = .fresh ∧ 0 < t.interval ∨ ∃ due, t.stage = .waiting due)
      (hcancelled : t.cancelled = true) : Woken t { t.note .loopCancelled with stage := .stopped }
  | first (hstage : t.stage = .fresh) (hpos : 0 < t.interval) (hgoing : t.cancelled = false) :
      Woken t { t.beat with stage := .waiting (t.now + t.interval) }
  | due {due : Nat} (hstage : t.stage = .waiting due) (hgoing : t.cancelled = false)
      (hdue : due ≤ t.now) :
      Woken t { beats (overdueBeats t.interval (t.now - due)) t with
        stage := .waiting (nextDue t.interval due t.now) }
  | early {due : Nat} (hstage : t.stage = .waiting due) (hgoing : t.cancelled = false)
      (hearly : t.now < due) : Woken t t
  | ended (hstage : t.stage = .crashed ∨ t.stage = .stopped) : Woken t t

theorem woken_wake (t : Ticker V σ) : t.Woken t.wake := by
  unfold wake
  cases hstage : t.stage with
  | fresh =>
    dsimp only
    by_cases hempty : t.interval = 0
    · rw [if_pos hempty]
      exact .crashed hstage hempty
    · have hpos := Nat.pos_of_ne_zero hempty
      rw [if_neg hempty]
      cases hcancelled : t.cancelled with
      | true => exact .cancelled (.inl ⟨hstage, hpos⟩) hcancelled
      | false => exact .first hstage hpos hcancelled
  | waiting due =>
    dsimp only
    cases hcancelled : t.cancelled with
    | true => exact .cancelled (.inr ⟨due, hstage⟩) hcancelled
    | false =>
      by_cases hdue : due ≤ t.now
      · rw [if_neg Bool.false_ne_true, if_pos hdue]
        exact .due hstage hcancelled hdue
      · rw [if_neg Bool.false_ne_true, if_neg hdue]
        exact .early hstage hcancelled (Nat.lt_of_not_le hdue)
  | crashed => exact .ended (.inl hstage)
  | stopped => exact .ended (.inr hstage)

/-! ## Time passes -/

/-- A loop that goes on, with its next tick at that time, now or within an interval. -/
structure Waits (t : Ticker V σ) (due : Nat) : Prop where
  going : t.cancelled = false
  interval_pos : 0 < t.interval
  stage_eq : t.stage = .waiting due
  now_le : t.now ≤ due
  due_le : due ≤ t.now + t.interval

variable {t : Ticker V σ} {due : Nat}

theorem waits_proceed (hgoing : t.cancelled = false) (hpos : 0 < t.interval) (n : Nat)
    {now due : Nat} (hle : now ≤ due) (hsoon : due ≤ now + t.interval) :
    (t.proceed n now due).Waits due := by
  refine ⟨(beats_frame n t).2.2.trans hgoing, ?_, rfl, hle, ?_⟩
  · rwa [proceed_interval]
  · rwa [proceed_interval]

omit [Value V] [Shuffler σ] in
theorem Waits.due_le_later (h : t.Waits due) (time : Nat) : due ≤ t.now + time + t.interval :=
  h.due_le.trans (Nat.add_le_add_right (Nat.le_add_right t.now time) _)

theorem proceed_zero (h : t.stage = .waiting due) (now : Nat) :
    t.proceed 0 now due = { t with now } := by
  rw [proceed, beats, ← h]

/-- While time passes, every tick happens that falls due before its end, after those that happen at
once. -/
theorem sleep_of_wake {m time : Nat} (hwake : t.wake = t.proceed m t.now due) (htime : 0 < time) :
    t.sleep time = t.proceed (m + beatsBefore t.interval due (t.now + time)) (t.now + time)
      (due + t.interval * beatsBefore t.interval due (t.now + time)) := by
  have hinterval := t.proceed_interval m t.now due
  rw [sleep, if_neg htime.ne', hwake, ← proceed_proceed, ← hinterval]
  rfl

/-- The same where one tick happens at once and the others from one interval later on. -/
theorem sleep_of_wake_now {time : Nat} (hpos : 0 < t.interval)
    (hwake : t.wake = t.proceed 1 t.now (t.now + t.interval)) (htime : 0 < time) :
    t.sleep time = t.proceed (beatsBefore t.interval t.now (t.now + time)) (t.now + time)
      (t.now + t.interval * beatsBefore t.interval t.now (t.now + time)) := by
  have hmore := beatsBefore_of_lt hpos (Nat.lt_add_of_pos_right htime (n := t.now))
  rw [sleep_of_wake hwake htime, hmore, Nat.mul_succ, Nat.add_assoc, Nat.add_comm t.interval,
    Nat.add_comm 1]

theorem wake_of_due (h : t.Waits t.now) : t.wake = t.proceed 1 t.now (t.now + t.interval) := by
  have hnow : (beats 1 t).now = t.now := (beats_frame 1 t).2.1
  simp [wake, h.stage_eq, h.going, overdueBeats, nextDue, proceed, hnow]

theorem wake_of_early (h : t.Waits due) (hearly : t.now < due) :
    t.wake = t.proceed 0 t.now due := by
  have hwake : t.wake = t := by simp [wake, h.stage_eq, h.going, Nat.not_le.mpr hearly]
  rw [hwake, proceed_zero h.stage_eq]

theorem sleep_eq (h : t.Waits due) (time : Nat) :
    t.sleep time = t.proceed (beatsBefore t.interval due (t.now + time)) (t.now + time)
      (due + t.interval * beatsBefore t.interval due (t.now + time)) := by
  rcases Nat.eq_zero_or_pos time with rfl | htime
  · have hnone : beatsBefore t.interval due t.now = 0 :=
      Nat.le_zero.mp ((beatsBefore_le_iff h.interval_pos).mpr h.now_le)
    rw [Nat.add_zero, hnone, Nat.mul_zero, Nat.add_zero, proceed_zero h.stage_eq]
    rfl
  · rcases Nat.lt_or_eq_of_le h.now_le with hearly | rfl
    · rw [sleep_of_wake (wake_of_early h hearly) htime, Nat.zero_add]
    · exact sleep_of_wake_now h.interval_pos (wake_of_due h) htime

/-- A loop that has never run ticks at once. -/
theorem sleep_fresh (hfresh : t.stage = .fresh) (hgoing : t.cancelled = false)
    (hpos : 0 < t.interval) {time : Nat} (htime : 0 < time) :
    t.sleep time = t.proceed (beatsBefore t.interval t.now (t.now + time)) (t.now + time)
      (t.now + t.interval * beatsBefore t.interval t.now (t.now + time)) := by
  have hnow : t.beat.now = t.now := (beats_frame 1 t).2.1
  have hwake : t.wake = t.proceed 1 t.now (t.now + t.interval) := by
    simp [wake, hfresh, hgoing, hpos.ne', proceed, beats, hnow]
  exact sleep_of_wake_now hpos hwake htime

theorem waits_beatsBefore (hgoing : t.cancelled = false) (hpos : 0 < t.interval)
    {due stop : Nat} (hsoon : due ≤ stop + t.interval) :
    (t.proceed (beatsBefore t.interval due stop) stop
      (due + t.interval * beatsBefore t.interval due stop)).Waits
        (due + t.interval * beatsBefore t.interval due stop) :=
  waits_proceed hgoing hpos _ (le_beatsBefore hpos due stop) (beatsBefore_le hpos hsoon)

/-- What has gone on to a time can go on from there. -/
theorem sleep_proceed (hgoing : t.cancelled = false) (hpos : 0 < t.interval) {due stop : Nat}
    (hsoon : due ≤ stop + t.interval) (time : Nat) :
    (t.proceed (beatsBefore t.interval due stop) stop
        (due + t.interval * beatsBefore t.interval due stop)).sleep time =
      t.proceed (beatsBefore t.interval due (stop + time)) (stop + time)
        (due + t.interval * beatsBefore t.interval due (stop + time)) := by
  have hsplit := @beatsBefore_add _ due _ hpos _ (Nat.le_add_right stop time)
  rw [sleep_eq (waits_beatsBefore hgoing hpos hsoon), proceed_interval, proceed_now,
    proceed_proceed, hsplit, Nat.add_assoc due, ← Nat.mul_add, hsplit]

/-- Time may pass in one piece or in many. -/
theorem sleep_sum (h : t.Waits due) (times : List Nat) :
    times.foldl sleep t = t.sleep times.sum := by
  induction times generalizing t due with
  | nil => rfl
  | cons time times ih =>
    have hsoon := h.due_le_later time
    have hnext := waits_beatsBefore h.going h.interval_pos hsoon
    rw [← sleep_eq h] at hnext
    rw [List.foldl_cons, ih hnext, List.sum_cons, sleep_eq h time,
      sleep_proceed h.going h.interval_pos hsoon, sleep_eq h (time + times.sum), Nat.add_assoc]

theorem sleep_sum_fresh (hfresh : t.stage = .fresh) (hgoing : t.cancelled = false)
    (hpos : 0 < t.interval) (times : List Nat) : times.foldl sleep t = t.sleep times.sum := by
  induction times with
  | nil => rfl
  | cons time times ih =>
    rcases Nat.eq_zero_or_pos time with rfl | htime
    · have hsame : t.sleep 0 = t := rfl
      rw [List.foldl_cons, hsame, ih, List.sum_cons, Nat.zero_add]
    · have hsoon : t.now ≤ t.now + time + t.interval := by omega
      have hmore : 0 < time + times.sum := Nat.add_pos_left htime _
      rw [List.foldl_cons, sleep_fresh hfresh hgoing hpos htime,
        sleep_sum (waits_beatsBefore hgoing hpos hsoon), sleep_proceed hgoing hpos hsoon,
        List.sum_cons, sleep_fresh hfresh hgoing hpos hmore, Nat.add_assoc]

/-- While time passes from its start on, in whatever pieces, the loop ticks once for every interval
that begins, and reports once that all have decided. -/
theorem ticks_in_background (hfresh : t.stage = .fresh) (hgoing : t.cancelled = false)
    (hpos : 0 < t.interval) {times : List Nat} (hsum : 0 < times.sum) : ∃ n u,
      n = beatsBefore t.interval t.now (t.now + times.sum) ∧ t.Beaten n u ∧
      u.cluster.ticks = t.cluster.ticks + n ∧
      times.foldl sleep t = { u with
        now := t.now + times.sum
        stage := .waiting (t.now + t.interval * n) } := by
  refine ⟨_, _, rfl, t.beaten_beats _, ticks_beats _ t, ?_⟩
  rw [sleep_sum_fresh hfresh hgoing hpos, sleep_fresh hfresh hgoing hpos hsum]
  rfl

/-- The clock may jump over times at which a tick was due. The ticks that happen then are no more
than those times, and the next one is at a time at which it would have been due anyway. -/
theorem advance_eq (h : t.Waits due) (time : Nat) : ∃ n k, n ≤ k ∧
    (tolerance < t.interval → n ≤ 1) ∧ (t.advance time).Waits (due + t.interval * k) ∧
    t.advance time = t.proceed n (t.now + time) (due + t.interval * k) := by
  by_cases hdue : due ≤ t.now + time
  · have hwake : t.advance time =
        { beats (overdueBeats t.interval (t.now + time - due)) { t with now := t.now + time } with
          stage := .waiting (nextDue t.interval due (t.now + time)) } := by
      simp [advance, wake, h.stage_eq, h.going, hdue]
    have hlast : t.now + time ≤ nextDue t.interval due (t.now + time) :=
      (lt_nextDue h.interval_pos).le
    have hnext := waits_proceed h.going h.interval_pos
      (overdueBeats t.interval (t.now + time - due)) hlast (nextDue_le hdue)
    rw [← proceed_zero h.stage_eq, beats_proceed, Nat.zero_add] at hwake
    exact ⟨_, _, overdueBeats_le _ _, fun hlong => (overdueBeats_eq_one hlong).le,
      hwake ▸ hnext, hwake⟩
  · have hwake : t.advance time = t.proceed 0 (t.now + time) due := by
      rw [proceed_zero h.stage_eq]
      simp [advance, wake, h.stage_eq, h.going, hdue]
    have hnext := waits_proceed h.going h.interval_pos 0 (Nat.lt_of_not_le hdue).le
      (h.due_le_later time)
    exact ⟨0, 0, Nat.le_refl 0, fun _ => Nat.zero_le 1, hwake ▸ hnext, hwake⟩

/-! ## Whatever is done with the loop -/

/-- What may be done with the loop: time passes, or it is to end. -/
inductive Call where
  | sleep (time : Nat)
  | advance (time : Nat)
  | cancel
  | shutdown
deriving DecidableEq

def Call.time : Call → Nat
  | .sleep time | .advance time => time
  | .cancel | .shutdown => 0

def call (t : Ticker V σ) : Call → Ticker V σ
  | .sleep time => t.sleep time
  | .advance time => t.advance time
  | .cancel => t.cancel
  | .shutdown => t.shutdown

def callAll (t : Ticker V σ) (calls : List Call) : Ticker V σ := calls.foldl call t

theorem call_on_schedule (h : t.Waits due) {c : Call} (hcancel : c ≠ .cancel)
    (hshutdown : c ≠ .shutdown) : ∃ n k, n ≤ k ∧ (t.call c).Waits (due + t.interval * k) ∧
      t.call c = t.proceed n (t.now + c.time) (due + t.interval * k) := by
  cases c with
  | sleep time =>
    have hnext := waits_beatsBefore h.going h.interval_pos (h.due_le_later time)
    rw [← sleep_eq h] at hnext
    exact ⟨_, _, Nat.le_refl _, hnext, sleep_eq h time⟩
  | advance time =>
    obtain ⟨n, k, hle, -, hnext, hadvance⟩ := advance_eq h time
    exact ⟨n, k, hle, hnext, hadvance⟩
  | cancel => exact absurd rfl hcancel
  | shutdown => exact absurd rfl hshutdown

/-- However the clock moves, the cluster ticks no more often than ticks fall due, and the next one
is at a time at which it would have been due anyway. -/
theorem on_schedule (h : t.Waits due) {calls : List Call} (hcancel : .cancel ∉ calls)
    (hshutdown : .shutdown ∉ calls) : ∃ n k, n ≤ k ∧
      (t.callAll calls).Waits (due + t.interval * k) ∧
      t.callAll calls =
        t.proceed n (t.now + (calls.map Call.time).sum) (due + t.interval * k) := by
  induction calls generalizing t due with
  | nil => exact ⟨0, 0, Nat.le_refl 0, h, (proceed_zero h.stage_eq t.now).symm⟩
  | cons c calls ih =>
    rw [List.mem_cons, not_or] at hcancel hshutdown
    obtain ⟨n, k, hle, hnext, hcall⟩ :=
      call_on_schedule h (Ne.symm hcancel.1) (Ne.symm hshutdown.1)
    obtain ⟨n', k', hle', hlast, hrest⟩ := ih hnext hcancel.2 hshutdown.2
    have hsum : due + t.interval * k + (t.call c).interval * k' = due + t.interval * (k + k') := by
      rw [hcall, proceed_interval, Nat.add_assoc, ← Nat.mul_add]
    rw [hsum] at hlast hrest
    refine ⟨n + n', k + k', Nat.add_le_add hle hle', hlast, ?_⟩
    rw [callAll, List.foldl_cons, ← callAll, hrest, hcall, proceed_proceed, proceed_now,
      List.map_cons, List.sum_cons, Nat.add_assoc]

/-- The loop is to end, and has done nothing to the cluster since then but log that it has ended. -/
structure Ending (c : Cluster V σ) (t : Ticker V σ) : Prop where
  cancelled : t.cancelled = true
  cluster_eq : t.cluster = c ∨ t.stage = .stopped ∧
    (t.cluster = c.note .loopCancelled ∨ t.cluster = c.note .loopEndedAbnormally)

variable {c : Cluster V σ}

theorem ending_wake (h : Ending c t) :
    Ending c t.wake ∧ (t.wake.stage = .crashed ∨ t.wake.stage = .stopped) := by
  have hwoken := t.woken_wake
  generalize t.wake = out at hwoken ⊢
  obtain ⟨hcancelled, hcluster⟩ := h
  cases hwoken with
  | crashed hstage _ =>
    have hsame : t.cluster = c := by
      refine hcluster.resolve_right fun hstopped => ?_
      simp [hstage] at hstopped
    exact ⟨⟨hcancelled, .inl hsame⟩, .inl rfl⟩
  | cancelled hstage _ =>
    have hsame : t.cluster = c := by
      refine hcluster.resolve_right fun hstopped => ?_
      rcases hstage with ⟨hfresh, -⟩ | ⟨due, hwaiting⟩
      · simp [hfresh] at hstopped
      · simp [hwaiting] at hstopped
    exact ⟨⟨hcancelled, .inr ⟨rfl, .inl (congrArg (Cluster.note · _) hsame)⟩⟩, .inr rfl⟩
  | first _ _ hgoing => simp [hcancelled] at hgoing
  | due _ hgoing _ => simp [hcancelled] at hgoing
  | early _ hgoing _ => simp [hcancelled] at hgoing
  | ended hended => exact ⟨⟨hcancelled, hcluster⟩, hended⟩

theorem ending_call (h : Ending c t) (k : Call) : Ending c (t.call k) := by
  cases k with
  | sleep time =>
    obtain ⟨hwake, hended⟩ := ending_wake h
    rw [call, sleep]
    split
    · exact h
    · dsimp only
      split
      · rename_i due hwaiting
        simp [hwaiting] at hended
      · exact ⟨hwake.cancelled, hwake.cluster_eq⟩
  | advance time => exact (ending_wake (t := { t with now := t.now + time }) ⟨h.1, h.2⟩).1
  | cancel => exact ⟨rfl, h.cluster_eq⟩
  | shutdown =>
    obtain ⟨hwake, -⟩ := ending_wake (t := t.cancel) ⟨rfl, h.cluster_eq⟩
    rw [call, shutdown]
    dsimp only
    split
    · rename_i hcrashed
      have hsame : t.cancel.wake.cluster = c :=
        hwake.cluster_eq.resolve_right fun hstopped => by simp [hcrashed] at hstopped
      exact ⟨hwake.cancelled, .inr ⟨rfl, .inr (congrArg (Cluster.note · _) hsame)⟩⟩
    · exact hwake

/-- Once it is to end, the loop never ticks again, whatever is done with it. -/
theorem ending_callAll (h : Ending c t) (calls : List Call) : Ending c (t.callAll calls) := by
  induction calls generalizing t with
  | nil => exact h
  | cons k calls ih => exact ih (ending_call h k)

theorem stage_shutdown (t : Ticker V σ) : t.shutdown.stage = .stopped := by
  obtain ⟨-, hcrashed | hstopped⟩ := ending_wake (t := t.cancel) ⟨rfl, .inl rfl⟩
  · simp [shutdown, hcrashed]
  · simp [shutdown, hstopped]

end Ticker

end Synod
