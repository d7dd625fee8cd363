import Synod.Console.Arguments
import Synod.Proofs.Reading

/-! Options of the console. However options are written, in one argument each or in two, what is
read of them is what they say one after the other. So every setup can be asked for whose names can
be told from the signs between them. -/

namespace Synod.Console

/-! ## How options are written -/

/-- A text that is no option. -/
def IsPlain (text : String) : Prop := ∀ c cs, text.toList ≠ '-' :: c :: cs

/-- The name of an option, without the dashes. -/
def Flag.name : Flag → String
  | acceptors => "acceptors"
  | learners => "learners"
  | proposer => "proposer"
  | tickMs => "tick-ms"
  | seed => "seed"

theorem Flag.ofName?_name (flag : Flag) : ofName? flag.name = some flag := by
  cases flag <;> rfl

/-- Options with their values, each in one argument or in two. -/
inductive Written : List (Flag × String) → List String → Prop where
  | nil : Written [] []
  | joined {options arguments} (flag : Flag) (value : String) (h : Written options arguments) :
      Written ((flag, value) :: options) (("--" ++ flag.name ++ "=" ++ value) :: arguments)
  | apart {options arguments} (flag : Flag) {value : String} (hplain : IsPlain value)
      (h : Written options arguments) :
      Written ((flag, value) :: options) (("--" ++ flag.name) :: value :: arguments)

theorem splitAtEquals_append {before : String} (h : '=' ∉ before.toList) (after : String) :
    splitAtEquals (before ++ "=" ++ after) = (before, some after) := by
  have hbefore : ∀ c ∈ before.toList, decide (c ≠ '=') = true := by
    intro c hc
    simpa using fun heq : c = '=' => h (heq ▸ hc)
  have htext : (before ++ "=" ++ after).toList = before.toList ++ '=' :: after.toList := by simp
  have hrest : (before ++ "=" ++ after).toList.dropWhile (· ≠ '=') = '=' :: after.toList := by
    rw [htext, List.dropWhile_append_of_pos hbefore]
    rfl
  have hfirst : (before ++ "=" ++ after).toList.takeWhile (· ≠ '=') = before.toList := by
    rw [htext, List.takeWhile_append_of_pos hbefore]
    simp
  simp only [splitAtEquals, hrest, hfirst, String.ofList_toList]

namespace Arguments

theorem shape_of_plain {text : String} (h : IsPlain text) : shape text = .plain text := by
  unfold shape
  split
  · rename_i heq
    exact absurd heq (h _ _)
  · rename_i heq
    exact absurd heq (h _ _)
  · rename_i heq
    exact absurd heq (h _ _)
  · rfl

theorem shape_joined (flag : Flag) (value : String) :
    shape ("--" ++ flag.name ++ "=" ++ value) = .long flag.name (some value) := by
  have hname : '=' ∉ flag.name.toList := by cases flag <;> decide
  have htext : ("--" ++ flag.name ++ "=" ++ value).toList =
      '-' :: '-' :: (flag.name ++ "=" ++ value).toList := by simp
  have hne : (flag.name ++ "=" ++ value).toList ≠ [] := by simp
  have hsplit := splitAtEquals_append hname value
  rw [← String.ofList_toList (s := flag.name ++ "=" ++ value)] at hsplit
  unfold shape
  rw [htext]
  generalize (flag.name ++ "=" ++ value).toList = cs at hne hsplit
  obtain ⟨c, cs, rfl⟩ := List.exists_cons_of_ne_nil hne
  change Shape.long (splitAtEquals (String.ofList (c :: cs))).1
    (splitAtEquals (String.ofList (c :: cs))).2 = _
  rw [hsplit]

theorem shape_apart (flag : Flag) : shape ("--" ++ flag.name) = .long flag.name none := by
  cases flag <;> rfl

/-! ## What is read of them -/

/-- The arguments after some options, one after the other. -/
def setAll (a : Arguments) (options : List (Flag × String)) : Except ArgumentError Arguments :=
  options.foldlM (fun a option => a.set option.1 option.2) a

theorem setAll_cons (a : Arguments) (flag : Flag) (value : String)
    (options : List (Flag × String)) :
    setAll a ((flag, value) :: options) = (a.set flag value).bind fun a => setAll a options :=
  rfl

theorem setAll_append (a : Arguments) (options more : List (Flag × String)) :
    setAll a (options ++ more) = (setAll a options).bind fun a => setAll a more :=
  List.foldlM_append

/-- An option completes what is pending, and then takes its own value or waits for it. -/
theorem readFrom_long {argument : String} {flag : Flag} {value : Option String}
    (h : shape argument = .long flag.name value) (a : Arguments) (pending : Pending)
    (rest : List String) : readFrom a pending (argument :: rest) =
      (a.complete pending).bind fun a =>
        match value with
        | none => readFrom a (some (flag, none)) rest
        | some value => (a.set flag value).bind fun a => readFrom a none rest := by
  have hhelp : flag.name ≠ "help" := by cases flag <;> decide
  rw [readFrom.eq_def]
  simp only [h, hhelp, Flag.ofName?_name, IsEmpty.forall_iff, implies_true]
  cases a.complete pending with
  | error error => rfl
  | ok a =>
    cases value with
    | none => rfl
    | some value =>
      dsimp only [Except.bind]
      cases a.set flag value <;> rfl

/-- Whatever is pending is set before the options that follow. -/
theorem readFrom_written {options : List (Flag × String)} {arguments : List String}
    (h : Written options arguments) (a : Arguments) (pending : Pending) :
    readFrom a pending arguments = (a.complete pending).bind fun a => setAll a options := by
  induction h generalizing a pending with
  | nil =>
    rw [readFrom]
    cases a.complete pending <;> rfl
  | joined flag value _ ih =>
    simp only [readFrom_long (shape_joined flag value), ih, setAll_cons]
    rfl
  | @apart options arguments flag value hplain _ ih =>
    have hvalue (a : Arguments) : readFrom a (some (flag, none)) (value :: arguments) =
        readFrom a (some (flag, some value)) arguments := by
      rw [readFrom.eq_def]
      dsimp only
      rw [shape_of_plain hplain]
    simp only [readFrom_long (shape_apart flag), hvalue, ih, setAll_cons]
    rfl

/-- However options are written, they are set one after the other. -/
theorem read_written {options : List (Flag × String)} {arguments : List String}
    (h : Written options arguments) : read arguments = setAll {} options :=
  readFrom_written h {} none

end Arguments

/-! ## Setups that can be asked for -/

/-- A setup of names that lists can be made of. A proposer is told by what stands before the equals
sign, so its value may be any text. -/
structure Expressible (s : Setup String) : Prop where
  acceptors : s.acceptors ≠ [] ∧ ∀ id ∈ s.acceptors, ',' ∉ id.name.toList
  learners : s.learners ≠ [] ∧ ∀ id ∈ s.learners, ',' ∉ id.name.toList
  candidates : s.candidates ≠ [] ∧
    ∀ candidate ∈ s.candidates, candidate.id.name ≠ "" ∧ '=' ∉ candidate.id.name.toList

def listed (ids : List NodeId) : String := ",".intercalate (ids.map NodeId.name)

def candidateText (candidate : Candidate String) : String :=
  candidate.id.name ++ "=" ++ candidate.value

/-- The options that ask for a setup. -/
def optionsOf (s : Setup String) : List (Flag × String) :=
  (.acceptors, listed s.acceptors) :: (.learners, listed s.learners) ::
    (s.candidates.map fun candidate => (.proposer, candidateText candidate)) ++
      (s.seed.map fun seed => (.seed, toString seed.toNat)).toList

theorem pieces_listed {ids : List NodeId} (hne : ids ≠ [])
    (h : ∀ id ∈ ids, ',' ∉ id.name.toList) :
    Text.pieces ',' (listed ids) = ids.map NodeId.name :=
  Text.pieces_intercalate (by simpa using hne) (by simpa using h)

theorem readCandidate_candidateText {candidate : Candidate String} (hne : candidate.id.name ≠ "")
    (h : '=' ∉ candidate.id.name.toList) :
    readCandidate (candidateText candidate) = .ok candidate := by
  unfold readCandidate candidateText
  rw [splitAtEquals_append h]
  split
  case h_1 heq => simp at heq
  case h_2 heq => exact absurd (Prod.mk.inj heq).1 hne
  case h_3 heq =>
    obtain ⟨rfl, hvalue⟩ := Prod.mk.inj heq
    obtain rfl := Option.some.inj hvalue
    rfl

namespace Arguments

theorem setAll_candidates {candidates : List (Candidate String)}
    (h : ∀ candidate ∈ candidates, candidate.id.name ≠ "" ∧ '=' ∉ candidate.id.name.toList)
    (a : Arguments) :
    setAll a (candidates.map fun candidate => (.proposer, candidateText candidate)) =
      .ok { a with candidates := a.candidates ++ candidates } := by
  induction candidates generalizing a with
  | nil => simp [setAll, pure, Except.pure]
  | cons candidate candidates ih =>
    obtain ⟨hne, hequals⟩ := h candidate List.mem_cons_self
    have hset : a.set .proposer (candidateText candidate) =
        .ok { a with candidates := a.candidates ++ [candidate] } := by
      rw [set, readCandidate_candidateText hne hequals]
    rw [List.map_cons, setAll_cons, hset, Except.bind,
      ih fun c hc => h c (List.mem_cons_of_mem _ hc)]
    simp

theorem setAll_seed {a : Arguments} (h : a.seed = none) (seed : Option UInt64) :
    setAll a (seed.map fun seed => (.seed, toString seed.toNat)).toList =
      .ok { a with seed := seed.map UInt64.toNat } := by
  cases seed with
  | none => simp [setAll, pure, Except.pure, ← h]
  | some seed =>
    have hread : Text.readCount (toString seed.toNat) = .ok seed.toNat :=
      Text.readCount_eq_ok_iff.mpr (Text.isCount_toString seed.toNat_lt_size)
    have hset : a.set .seed (toString seed.toNat) = .ok { a with seed := some seed.toNat } := by
      rw [set, readOnce, h, hread]
      rfl
    rw [Option.map_some, Option.toList_some, setAll_cons, hset]
    rfl

theorem setAll_optionsOf {s : Setup String} (hs : Expressible s) :
    setAll {} (optionsOf s) = .ok
      { acceptors := s.acceptors.map NodeId.name, learners := s.learners.map NodeId.name,
        candidates := s.candidates, seed := s.seed.map UInt64.toNat } := by
  have hacceptors : set {} .acceptors (listed s.acceptors) =
      .ok { acceptors := s.acceptors.map NodeId.name } := by
    rw [set, pieces_listed hs.acceptors.1 hs.acceptors.2, List.nil_append]
  have hlearners : set { acceptors := s.acceptors.map NodeId.name } .learners (listed s.learners) =
      .ok { acceptors := s.acceptors.map NodeId.name, learners := s.learners.map NodeId.name } := by
    rw [set, pieces_listed hs.learners.1 hs.learners.2, List.nil_append]
  rw [optionsOf, List.cons_append, List.cons_append, setAll_cons, hacceptors, Except.bind,
    setAll_cons, hlearners, Except.bind, setAll_append, setAll_candidates hs.candidates.2,
    Except.bind, List.nil_append, setAll_seed rfl]

/-- A setup that can be asked for is the one that is read, however its options are written. -/
theorem setup_of_written {s : Setup String} (hs : Expressible s) {arguments : List String}
    (h : Written (optionsOf s) arguments) : ∃ a, read arguments = .ok a ∧ a.setup = s := by
  refine ⟨_, (read_written h).trans (setAll_optionsOf hs), ?_⟩
  have hids (ids : List NodeId) : (ids.map NodeId.name).map NodeId.mk = ids := by
    simp [Function.comp_def]
  have hseed : (s.seed.map UInt64.toNat).map UInt64.ofNat = s.seed := by
    simp [Function.comp_def]
  simp [setup, hs.acceptors.1, hs.learners.1, hs.candidates.1, hids, hseed]

end Arguments

end Synod.Console
