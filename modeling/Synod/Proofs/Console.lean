import Synod.Console.Execute
import Synod.Proofs.Commands
import Synod.Proofs.Reading
import Synod.Proofs.Ticking

/-! The console. A line is carried out as the operation that its words name. A line that names none,
or whose operation is refused, changes nothing. Ticks may be asked for at once or in parts. -/

namespace Synod.Console

/-! ## What words name -/

/-- The command that words name: words behind those that it needs do not matter, and a count of
ticks may be left out. -/
inductive Names : List String → Command → Prop where
  | nothing : Names [] .nothing
  | help (rest) : Names ("help" :: rest) .help
  | mark (rest) : Names ("?" :: rest) .help
  | propose (proposer) : Names ["propose", proposer] (.propose proposer none)
  | offer (proposer word words) : Names ("propose" :: proposer :: word :: words)
      (.propose proposer (some (" ".intercalate (word :: words))))
  | value (proposer word words) : Names ("value" :: proposer :: word :: words)
      (.value proposer (" ".intercalate (word :: words)))
  | kill (node rest) : Names ("kill" :: node :: rest) (.kill node)
  | revive (node rest) : Names ("revive" :: node :: rest) (.revive node)
  | status (rest) : Names ("status" :: rest) .status
  | tick : Names ["tick"] (.tick 1)
  | ticks {word n} (rest) (hcount : Text.IsCount word.toList n) :
      Names ("tick" :: word :: rest) (.tick n)

theorem names_of_ofWords {words : List String} {cmd : Command}
    (h : Command.ofWords words = .ok cmd) : Names words cmd := by
  unfold Command.ofWords at h
  split at h
  · cases h
    exact .nothing
  · split at h <;> try cases h
    · exact .help _
    · exact .mark _
    · exact .propose _
    · rename_i proposer words hne
      obtain ⟨word, words, rfl⟩ := List.exists_cons_of_ne_nil hne
      exact .offer proposer word words
    · exact .value _ _ _
    · exact .kill _ _
    · exact .revive _ _
    · exact .status _
    · exact .tick
    · split at h <;> cases h
      rename_i hcount
      exact .ticks _ (Text.readCount_eq_ok_iff.mp hcount)

/-- What is read of words is what they name. -/
theorem ofWords_eq_ok_iff {words : List String} {cmd : Command} :
    Command.ofWords words = .ok cmd ↔ Names words cmd := by
  refine ⟨names_of_ofWords, fun h => ?_⟩
  cases h with
  | ticks rest hcount => simp [Command.ofWords, Text.readCount_eq_ok_iff.mpr hcount]
  | _ => rfl

/-- A line whose words name a command. -/
def Asks (line : String) (cmd : Command) : Prop := ∃ ws, Text.HasWords line ws ∧ Names ws cmd

theorem ofLine_eq_ok_iff {line : String} {cmd : Command} :
    Command.ofLine line = .ok cmd ↔ Asks line cmd := by
  unfold Command.ofLine Asks
  simp only [ofWords_eq_ok_iff, Text.hasWords_iff, exists_eq_left']

/-- A number of ticks can be asked for while it fits into a count. -/
theorem asks_tick {n : Nat} (hn : n < 2 ^ 64) : Asks ("tick " ++ toString n) (.tick n) := by
  refine ⟨["tick", toString n], ?_, .ticks [] (Text.isCount_toString hn)⟩
  have htick : Text.IsWord "tick".toList := ⟨by decide, by simp [Text.isBlank]⟩
  have hspaced := (Text.Spaced.single (Text.isWord_toString n)).cons_word htick
    (c := ' ') (by decide)
  simpa [Text.HasWords] using hspaced

/-! ## What a command does -/

def failed? {α : Type} : Except Failure α → Option Failure
  | .ok _ => none
  | .error failure => some failure

theorem failed?_eq_some_iff {α : Type} {result : Except Failure α} {failure : Failure} :
    failed? result = some failure ↔ result = .error failure := by
  cases result <;> simp [failed?]

theorem answer_cases {α σ : Type} (attempt : String) (render : α → String)
    (result : Cluster String σ × Except Failure α) :
    (failed? result.2 = none ∧ ∃ text, (answer attempt render result).2 = .ok text) ∨
      ∃ tried failure, failed? result.2 = some failure ∧
        (answer attempt render result).2 = .error (.failed tried failure) := by
  rcases result with ⟨c, failure | a⟩
  · exact .inr ⟨attempt, failure, rfl, rfl⟩
  · exact .inl ⟨rfl, render a, rfl⟩

/-- Whether a problem is an answer. The others are faults, which end the attempt without one. -/
def Problem.IsAnswer : Problem → Prop
  | .badLine _ | .failed _ (.refused _) => True
  | .failed _ .locked | .failed _ (.fault _) => False

variable {σ : Type} [Shuffler σ]

namespace Command

/-- What a command asks of the cluster: one operation, so many ticks, or nothing. -/
def operations : Command → List (Operation String)
  | .nothing | .help | .status => []
  | .propose proposer offered => [.propose ⟨proposer⟩ offered]
  | .value proposer offered => [.setValue ⟨proposer⟩ offered]
  | .kill node => [.fail ⟨node⟩]
  | .revive node => [.recover ⟨node⟩]
  | .tick count => List.replicate count .tick

/-- Why what a command asks for has no result, if it has none. -/
def failure? (c : Cluster String σ) : Command → Option Failure
  | .nothing | .help | .status | .tick _ => none
  | .propose proposer offered => failed? (c.propose ⟨proposer⟩ offered).2
  | .value proposer offered => failed? (c.setValue ⟨proposer⟩ offered).2
  | .kill node => failed? (c.fail ⟨node⟩).2
  | .revive node => failed? (c.recover ⟨node⟩).2

theorem run_fst (c : Cluster String σ) (cmd : Command) : (cmd.run c).1 = c.run cmd.operations := by
  cases cmd with
  | tick count => rw [run, Cluster.runTicks_eq]; rfl
  | _ => rfl

/-- A command fails as what it asks for does. -/
theorem run_cases (c : Cluster String σ) (cmd : Command) :
    (cmd.failure? c = none ∧ ∃ text, (cmd.run c).2 = .ok text) ∨
      ∃ tried failure, cmd.failure? c = some failure ∧
        (cmd.run c).2 = .error (.failed tried failure) := by
  cases cmd with
  | propose proposer offered => exact answer_cases _ _ _
  | value proposer offered => exact answer_cases _ _ _
  | kill node => exact answer_cases _ _ _
  | revive node => exact answer_cases _ _ _
  | nothing | help | status | tick => exact .inl ⟨rfl, _, rfl⟩

/-- What fails is refused and changes nothing, or there is no number left for a round. -/
theorem failure?_cases {s : Setup String} {c : Cluster String σ} (hc : c.StateOf s)
    {cmd : Command} {failure : Failure} (h : cmd.failure? c = some failure) :
    (∃ r, failure = .refused r ∧ c.run cmd.operations = c) ∨ failure = .fault .roundOverflow := by
  cases cmd with
  | propose proposer offered =>
    exact (Cluster.outcome_propose hc _ _).cases_of_error (failed?_eq_some_iff.mp h)
  | value proposer offered =>
    exact (Cluster.outcome_setValue c _ _).cases_of_error (failed?_eq_some_iff.mp h)
  | kill node =>
    exact (Cluster.outcome_setAlive c ⟨node⟩ false).cases_of_error (failed?_eq_some_iff.mp h)
  | revive node =>
    exact (Cluster.outcome_setAlive c ⟨node⟩ true).cases_of_error (failed?_eq_some_iff.mp h)
  | nothing | help | status | tick => cases h

end Command

/-! ## What ticks print -/

/-- The lines about ticks in which a fault stopped a node or had stopped it before. -/
def faultLines (c : Cluster String σ) (n : Nat) : String :=
  String.join ((c.tickReports n).map tickLine)

/-- How many messages so many ticks handle. -/
def handledBy (c : Cluster String σ) (n : Nat) : Nat :=
  ((c.tickReports n).map TickReport.handled).sum

/-- The answer to a command that ticks. -/
def tickAnswer (faults : String) (count handled : Nat) (decided : Option String) : String :=
  faults ++ toString count ++ " tick(s), " ++ toString handled ++ " message(s) handled" ++
    match decided with
    | none => ""
    | some value => ", decided " ++ Text.quoted value

theorem faultLines_add (c : Cluster String σ) (m n : Nat) :
    faultLines c (m + n) = faultLines c m ++ faultLines (c.afterTicks m) n := by
  simp [faultLines, Cluster.tickReports_add]

theorem handledBy_add (c : Cluster String σ) (m n : Nat) :
    handledBy c (m + n) = handledBy c m + handledBy (c.afterTicks m) n := by
  simp [handledBy, Cluster.tickReports_add]

theorem totalHandled_eq (reports : List TickReport) :
    totalHandled reports = (reports.map TickReport.handled).sum := by
  rw [totalHandled, ← List.foldl_map, List.sum_eq_foldl]

theorem run_tick (c : Cluster String σ) (n : Nat) : Command.run c (.tick n) =
    (c.afterTicks n,
      .ok (tickAnswer (faultLines c n) n (handledBy c n) (c.afterTicks n).decided?)) := by
  rw [Command.run, Cluster.runTicks_eq]
  simp only [ticksText, totalHandled_eq]
  rfl

/-! ## The console and the cluster -/

theorem execute_of_asks {line : String} {cmd : Command} (h : Asks line cmd)
    (c : Cluster String σ) : execute c line = cmd.run c := by
  rw [execute, ofLine_eq_ok_iff.mpr h]

theorem execute_of_not_asks {line : String} (h : ∀ cmd, ¬ Asks line cmd) (c : Cluster String σ) :
    ∃ error, execute c line = (c, .error (.badLine error)) := by
  cases hread : Command.ofLine line with
  | error error => exact ⟨error, by rw [execute, hread]⟩
  | ok cmd => exact absurd (ofLine_eq_ok_iff.mp hread) (h cmd)

/-- What carrying out lines has to do with the operations on a cluster. -/
structure Refines (c : Cluster String σ) : Prop where
  /-- Every line has words, in one way only, and nothing else about it matters. -/
  words : ∀ line, ∃ ws, Text.HasWords line ws ∧ (∀ ws', Text.HasWords line ws' → ws' = ws) ∧
    ∀ line', Text.HasWords line' ws → execute c line' = execute c line
  /-- A line does to the cluster what its words name. -/
  acts : ∀ {line cmd}, Asks line cmd → (execute c line).1 = c.run cmd.operations
  /-- It fails for the same reason, or not at all. -/
  fails_iff : ∀ {line cmd}, Asks line cmd → ∀ failure,
    (∃ tried, (execute c line).2 = .error (.failed tried failure)) ↔
      cmd.failure? c = some failure
  idle : ∀ {line cmd}, Asks line cmd → cmd ∈ [.nothing, .help, .status] → (execute c line).1 = c
  /-- Words that name nothing are answered by what is wrong with them. -/
  refuses : ∀ {line}, (∀ cmd, ¬ Asks line cmd) →
    ∃ error, execute c line = (c, .error (.badLine error))
  unchanged : ∀ {line problem}, (execute c line).2 = .error problem → problem.IsAnswer →
    (execute c line).1 = c
  /-- A line without an answer has run out of numbers for a round. -/
  unanswered : ∀ {line problem}, (execute c line).2 = .error problem → ¬ problem.IsAnswer →
    ∃ tried, problem = .failed tried (.fault .roundOverflow)

/-- What ticks do and print that are asked for in two parts and at once. -/
structure TicksAdd (c : Cluster String σ) (a b : Nat) (first second whole : String) : Prop where
  first : execute c first = (c.afterTicks a,
    .ok (tickAnswer (faultLines c a) a (handledBy c a) (c.afterTicks a).decided?))
  second : execute (c.afterTicks a) second = (c.afterTicks (a + b),
    .ok (tickAnswer (faultLines (c.afterTicks a) b) b (handledBy (c.afterTicks a) b)
      (c.afterTicks (a + b)).decided?))
  whole : execute c whole = (c.afterTicks (a + b),
    .ok (tickAnswer (faultLines c a ++ faultLines (c.afterTicks a) b) (a + b)
      (handledBy c a + handledBy (c.afterTicks a) b) (c.afterTicks (a + b)).decided?))

theorem ticksAdd {a b : Nat} {first second whole : String} (hfirst : Asks first (.tick a))
    (hsecond : Asks second (.tick b)) (hwhole : Asks whole (.tick (a + b)))
    (c : Cluster String σ) : TicksAdd c a b first second whole where
  first := by rw [execute_of_asks hfirst, run_tick]
  second := by rw [execute_of_asks hsecond, run_tick, Cluster.afterTicks_add]
  whole := by rw [execute_of_asks hwhole, run_tick, faultLines_add, handledBy_add]

variable {s : Setup String} {c : Cluster String σ}

/-- A line that fails is answered, and then nothing has changed, or it has run out of numbers. -/
theorem execute_error (hc : c.StateOf s) {line : String} {problem : Problem}
    (h : (execute c line).2 = .error problem) :
    (problem.IsAnswer ∧ (execute c line).1 = c) ∨
      ∃ tried, problem = .failed tried (.fault .roundOverflow) := by
  by_cases hasks : ∃ cmd, Asks line cmd
  · obtain ⟨cmd, hasks⟩ := hasks
    rw [execute_of_asks hasks] at h ⊢
    rcases cmd.run_cases c with ⟨-, text, hok⟩ | ⟨tried, failure, hsome, herror⟩
    · simp [hok] at h
    · obtain rfl : Problem.failed tried failure = problem := by simpa [herror] using h
      rcases Command.failure?_cases hc hsome with ⟨r, rfl, hsame⟩ | rfl
      · exact .inl ⟨trivial, (Command.run_fst c cmd).trans hsame⟩
      · exact .inr ⟨tried, rfl⟩
  · obtain ⟨error, hbad⟩ := execute_of_not_asks (not_exists.mp hasks) c
    obtain rfl : Problem.badLine error = problem := by simpa [hbad] using h
    exact .inl ⟨trivial, by rw [hbad]⟩

theorem refines_of_state (hc : c.StateOf s) : Refines c where
  words line := by
    refine ⟨Text.words line, Text.hasWords_iff.mpr rfl, fun ws' h => ?_, fun line' h => ?_⟩
    · exact (Text.hasWords_iff.mp h).symm
    · simp only [execute, Command.ofLine, Text.hasWords_iff.mp h]
  acts h := by rw [execute_of_asks h, Command.run_fst]
  fails_iff {_ cmd} h failure := by
    rw [execute_of_asks h]
    rcases cmd.run_cases c with ⟨hnone, text, hok⟩ | ⟨tried, failure', hsome, herror⟩
    · simp [hnone, hok]
    · simp [hsome, herror]
  idle h hidle := by
    rw [execute_of_asks h, Command.run_fst]
    rcases (by simpa using hidle) with rfl | rfl | rfl <;> rfl
  refuses h := execute_of_not_asks h c
  unchanged h hanswer := by
    rcases execute_error hc h with ⟨-, hsame⟩ | ⟨tried, rfl⟩
    · exact hsame
    · exact hanswer.elim
  unanswered h hanswer := (execute_error hc h).resolve_left fun h => hanswer h.1

/-- In every state of a cluster a line of text does what its words name and nothing else: it acts as
one operation or so many ticks, or changes nothing. This covers every line that is answered with an
error. Ticks that are asked for in two lines leave what one line for all of them leaves, and print
together what it prints. -/
theorem console_refines_cluster (hc : c.StateOf s) :
    Refines c ∧ (∀ n < 2 ^ 64, Asks ("tick " ++ toString n) (.tick n)) ∧
      ∀ {a b first second whole}, Asks first (.tick a) → Asks second (.tick b) →
        Asks whole (.tick (a + b)) → TicksAdd c a b first second whole :=
  ⟨refines_of_state hc, fun _ hn => asks_tick hn,
    fun hfirst hsecond hwhole => ticksAdd hfirst hsecond hwhole c⟩

theorem console_refines_cluster_of_battered :
    execute Cluster.battered " value  P1  a" = (Cluster.battered,
        .error (.failed "Failed to set value" (.refused (.faulted ⟨"P1"⟩)))) ∧
      (execute (execute Cluster.battered "tick").1 " tick\t+02").1 =
        (execute Cluster.battered "tick 3").1 := by
  have hstate : Cluster.battered.StateOf Cluster.trio :=
    ⟨_, _, _, Cluster.create_trio [], _, rfl⟩
  obtain ⟨hrefines, hticks, hadd⟩ := console_refines_cluster hstate
  have herror : (execute Cluster.battered " value  P1  a").2 =
      .error (.failed "Failed to set value" (.refused (.faulted ⟨"P1"⟩))) := by rfl
  have hone : Asks "tick" (.tick 1) := ⟨["tick"], Text.hasWords_iff.mpr (by decide), .tick⟩
  have htwo : Asks " tick\t+02" (.tick 2) :=
    ⟨["tick", "+02"], Text.hasWords_iff.mpr (by decide),
      .ticks [] (Text.readCount_eq_ok_iff.mp (by decide))⟩
  have hthree : Asks "tick 3" (.tick 3) := hticks 3 (by decide)
  have hsum := hadd hone htwo hthree
  refine ⟨Prod.ext (hrefines.unchanged herror trivial) herror, ?_⟩
  rw [hsum.first, hsum.second, hsum.whole]

end Synod.Console
