import Synod.Console.Session
import Synod.Proofs.Arguments
import Synod.Proofs.Console
import Synod.Proofs.Construction

/-! Sessions of the console. What a session prints and leaves is told by the words of its lines: up
to the one that asks to leave, each does to the cluster what its words name, and is answered. -/

namespace Synod.Console

theorem Printed.nothing_append (printed : Printed) : ({} : Printed) ++ printed = printed := rfl

namespace Session

variable {σ : Type} [Shuffler σ]

/-! ## One line -/

/-- A request to leave is a line of one word. -/
theorem isExit_iff {line : String} :
    isExit line = true ↔ Text.words line = ["exit"] ∨ Text.words line = ["quit"] := by
  have hexit : Text.IsWord "exit".toList := ⟨by decide, by simp [Text.isBlank]⟩
  have hquit : Text.IsWord "quit".toList := ⟨by decide, by simp [Text.isBlank]⟩
  rw [isExit, Bool.or_eq_true, decide_eq_true_iff, decide_eq_true_iff, Text.trim_eq_iff hexit,
    Text.trim_eq_iff hquit]

theorem execute_trim (c : Cluster String σ) (line : String) :
    execute c (Text.trim line) = execute c line := by
  simp only [execute, Command.ofLine, Text.words_trim]

theorem isExit_trim (line : String) : isExit (Text.trim line) = isExit line := by
  rw [Bool.eq_iff_iff, isExit_iff, isExit_iff, Text.words_trim]

theorem reply_eq (c : Cluster String σ) (line : String) :
    reply c line =
      if Text.words (Text.retyped line) = [] then .go c {}
      else if isExit (Text.retyped line) then .leave
      else
        .go (execute c (Text.retyped line)).1 (printResult (execute c (Text.retyped line)).2) := by
  unfold reply
  simp only [execute_trim, isExit_trim, String.isEmpty_iff, Text.trim_eq_empty_iff]

/-! ## All lines -/

/-- The lines that are carried out: those with words, up to the first that asks to leave. -/
def entered (lines : List String) : List String :=
  ((lines.map Text.retyped).takeWhile fun line => !isExit line).filter fun line =>
    !(Text.words line).isEmpty

/-- Where no line asks to leave, the end of the input does. -/
def ending (lines : List String) : Printed :=
  if (lines.map Text.retyped).any isExit then {} else goodbye

theorem entered_of_exit {line : String} (h : isExit (Text.retyped line) = true)
    (lines : List String) : entered (line :: lines) = [] := by
  simp [entered, h]

theorem ending_of_exit {line : String} (h : isExit (Text.retyped line) = true)
    (lines : List String) : ending (line :: lines) = {} := by
  simp [ending, h]

theorem ending_of_not_exit {line : String} (h : isExit (Text.retyped line) = false)
    (lines : List String) : ending (line :: lines) = ending lines := by
  simp [ending, h]

theorem isExit_of_blank {line : String} (h : Text.words line = []) : isExit line = false := by
  rw [← Bool.not_eq_true, isExit_iff]
  simp [h]

theorem entered_of_blank {line : String} (h : Text.words (Text.retyped line) = [])
    (lines : List String) : entered (line :: lines) = entered lines := by
  simp [entered, isExit_of_blank h, h]

theorem entered_of_words {line : String} (h : Text.words (Text.retyped line) ≠ [])
    (hstay : isExit (Text.retyped line) = false) (lines : List String) :
    entered (line :: lines) = Text.retyped line :: entered lines := by
  simp [entered, hstay, h]

/-- What a line asks of the cluster. A line that is no command asks for nothing. -/
def operationsOf (line : String) : List (Operation String) :=
  match Command.ofLine line with
  | .ok cmd => cmd.operations
  | .error _ => []

/-- The answers to some lines, each from the cluster that those before it leave. -/
def answers (c : Cluster String σ) : List String → List (Except Problem String)
  | [] => []
  | line :: lines => (execute c line).2 :: answers (c.run (operationsOf line)) lines

theorem execute_fst (c : Cluster String σ) (line : String) :
    (execute c line).1 = c.run (operationsOf line) := by
  unfold execute operationsOf
  cases Command.ofLine line with
  | error error => rfl
  | ok cmd => exact cmd.run_fst c

/-- A line without backspaces is entered as it stands. -/
theorem entered_of_plain {lines : List String} (h : ∀ line ∈ lines, '\x08' ∉ line.toList) :
    entered lines = (lines.takeWhile fun line => !isExit line).filter fun line =>
      !(Text.words line).isEmpty := by
  have hsame : lines.map Text.retyped = lines :=
    (List.map_congr_left fun line hline => Text.retyped_eq_self (h line hline)).trans
      (List.map_id lines)
  rw [entered, hsame]

/-- A session does to the cluster what its lines ask for, one after the other, and prints the answer
to each of them and at last the state that they leave. -/
theorem replies_eq (c : Cluster String σ) (lines : List String) :
    replies c lines = ((answers c (entered lines)).map printResult).foldr (· ++ ·)
      (ending lines ++ farewell (c.run ((entered lines).flatMap operationsOf))) := by
  induction lines generalizing c with
  | nil => rfl
  | cons line lines ih =>
    rw [replies, reply_eq]
    by_cases hblank : Text.words (Text.retyped line) = []
    · rw [if_pos hblank, entered_of_blank hblank, ending_of_not_exit (isExit_of_blank hblank), ← ih]
      exact Printed.nothing_append _
    · rw [if_neg hblank]
      cases hexit : isExit (Text.retyped line) with
      | true =>
        rw [if_pos rfl, entered_of_exit hexit, ending_of_exit hexit, answers, List.map_nil,
          List.foldr_nil, List.flatMap_nil, Printed.nothing_append]
        rfl
      | false =>
        rw [if_neg Bool.false_ne_true, entered_of_words hblank hexit, ending_of_not_exit hexit]
        rw [answers, List.map_cons, List.foldr_cons, List.flatMap_cons, Cluster.run_append,
          ← ih, execute_fst]

variable {s : Setup String}

/-- In a session that starts from a state of a cluster, every line that fails is answered, unless no
number is left for a round. -/
theorem answers_of_state {c : Cluster String σ} (hc : c.StateOf s) {lines : List String}
    {problem : Problem} (h : .error problem ∈ answers c lines) :
    problem.IsAnswer ∨ ∃ tried, problem = .failed tried (.fault .roundOverflow) := by
  induction lines generalizing c with
  | nil => cases h
  | cons line lines ih =>
    rcases List.mem_cons.mp h with hfirst | hlater
    · exact (execute_error hc hfirst.symm).imp_left And.left
    · exact ih (hc.run (operationsOf line)) hlater

/-! ## Whole runs -/

/-- A run that asks for a sound setup is a session of the new cluster of it. -/
theorem transcript_of_sound {arguments : List String} {a : Arguments}
    (hread : Arguments.read arguments = .ok a) (hsound : a.setup.defect? = none)
    (lines : List String) (entropy : UInt64) :
    ∃ c, Cluster.ofSetup a.setup entropy = .ok c ∧ c.StateOf a.setup ∧
      transcript arguments lines entropy = ⟨0, greeting c ++ replies c lines⟩ := by
  obtain ⟨c, hcreate⟩ : ∃ c, Cluster.ofSetup a.setup entropy = .ok c :=
    Cluster.exists_create_iff.mpr (Setup.defect?_eq_none_iff.mp hsound)
  exact ⟨c, hcreate, ⟨_, _, c, hcreate, [], rfl⟩, by simp only [transcript, hread, hcreate]⟩

/-- However the options for a setup are written, the run is a session of its cluster, and each of
its lines is answered unless no number is left for a round; or what is wrong with the setup first is
all that it says. -/
theorem transcript_of_written (hs : Expressible s) {arguments : List String}
    (h : Written (optionsOf s) arguments) (lines : List String) (entropy : UInt64) :
    (∃ c, Cluster.ofSetup s entropy = .ok c ∧
      transcript arguments lines entropy = ⟨0, greeting c ++ replies c lines⟩ ∧
      ∀ problem, .error problem ∈ answers c (entered lines) →
        problem.IsAnswer ∨ ∃ tried, problem = .failed tried (.fault .roundOverflow)) ∨
    ∃ e, s.Defective e ∧ transcript arguments lines entropy = setupFailure e := by
  obtain ⟨a, hread, rfl⟩ := Arguments.setup_of_written hs h
  cases hdefect : a.setup.defect? with
  | none =>
    obtain ⟨c, hcreate, hc, hrun⟩ := transcript_of_sound hread hdefect lines entropy
    exact .inl ⟨c, hcreate, hrun, fun problem => answers_of_state hc⟩
  | some e =>
    have hdefective : a.setup.Defective e := Setup.defect?_eq_some_iff.mp hdefect
    have hcreate : Cluster.ofSetup a.setup entropy = .error e :=
      Cluster.create_eq_error_iff.mpr hdefective
    exact .inr ⟨e, hdefective, by simp only [transcript, hread, hcreate]⟩

/-- Without arguments the run is a session of the demo setup. -/
theorem transcript_nil (lines : List String) (entropy : UInt64) :
    ∃ c, Cluster.ofSetup Setup.demo entropy = .ok c ∧ c.StateOf Setup.demo ∧
      transcript [] lines entropy = ⟨0, greeting c ++ replies c lines⟩ :=
  transcript_of_sound (Arguments.read_written .nil) Setup.demo_sound lines entropy

end Session

end Synod.Console
