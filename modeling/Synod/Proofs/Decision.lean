import Synod.Proofs.Counting
import Synod.Proofs.Opening

/-! What a learner decides. The decision is the first vote that a quorum of the acceptors has
reported, however often and in whatever order the reports come; until then every vote is counted
for as many as have reported it. -/

namespace Synod

variable {V : Type}

theorem length_distinct (ids : List NodeId) : (distinct ids).length = ids.toFinset.card := by
  have hnodup : (distinct ids).Nodup := by
    induction ids with
    | nil => exact List.nodup_nil
    | cons id ids ih => exact ih.insert
  rw [← List.toFinset_card_of_nodup hnodup]
  congr 1
  ext id
  simp

namespace Learner

/-! ## Reports -/

/-- Vote after vote, up to the first that ends in a fault. -/
def learnAll [Value V] (l : Learner V) : List (NodeId × Vote V) → Except Fault (Learner V)
  | [] => .ok l
  | (sender, vote) :: reports =>
    match l.learn sender vote with
    | .error fault => .error fault
    | .ok (l, _) => l.learnAll reports

variable [DecidableEq V]

/-- The acceptors that have reported a vote. -/
def reporters (acceptors : List NodeId) (reports : List (NodeId × Vote V)) (vote : Vote V) :
    Finset NodeId :=
  acceptors.toFinset.filter fun a => (a, vote) ∈ reports

/-- How many acceptors have to report a vote. -/
def majority (acceptors : List NodeId) : Nat := quorumSize acceptors.toFinset.card

/-- No vote has been reported by a quorum. -/
def Open (acceptors : List NodeId) (reports : List (NodeId × Vote V)) : Prop :=
  ∀ vote, (reporters acceptors reports vote).card < majority acceptors

/-- A vote is the first that a quorum has reported. -/
def Settled (acceptors : List NodeId) (reports : List (NodeId × Vote V)) (vote : Vote V) : Prop :=
  ∃ before sender after, reports = before ++ (sender, vote) :: after ∧ Open acceptors before ∧
    (reporters acceptors (before ++ [(sender, vote)]) vote).card = majority acceptors

section

variable {acceptors : List NodeId} {reports : List (NodeId × Vote V)} {sender : NodeId}
  {vote : Vote V}

theorem mem_reporters {a : NodeId} :
    a ∈ reporters acceptors reports vote ↔ a ∈ acceptors ∧ (a, vote) ∈ reports := by
  simp [reporters]

theorem reporters_mono {later : List (NodeId × Vote V)} (h : reports ⊆ later) :
    reporters acceptors reports vote ⊆ reporters acceptors later vote := by
  intro a ha
  obtain ⟨hmem, hreport⟩ := mem_reporters.mp ha
  exact mem_reporters.mpr ⟨hmem, h hreport⟩

theorem reporters_concat (hs : sender ∈ acceptors) :
    reporters acceptors (reports ++ [(sender, vote)]) =
      Tally.withVoter (reporters acceptors reports) vote sender := by
  funext u
  ext a
  simp only [mem_reporters, Tally.mem_withVoter, List.mem_append, List.mem_singleton,
    Prod.mk.injEq]
  constructor
  · rintro ⟨ha, h | ⟨rfl, rfl⟩⟩
    · exact .inl ⟨ha, h⟩
    · exact .inr ⟨rfl, rfl⟩
  · rintro (⟨ha, h⟩ | ⟨rfl, rfl⟩)
    · exact ⟨ha, .inl h⟩
    · exact ⟨hs, .inr ⟨rfl, rfl⟩⟩

theorem reporters_concat_of_stranger (hs : sender ∉ acceptors) :
    reporters acceptors (reports ++ [(sender, vote)]) = reporters acceptors reports := by
  funext u
  ext a
  simp only [mem_reporters, List.mem_append, List.mem_singleton, Prod.mk.injEq]
  refine and_congr_right fun ha => or_iff_left ?_
  rintro ⟨rfl, -⟩
  exact hs ha

theorem Settled.append (h : Settled acceptors reports vote) (later : List (NodeId × Vote V)) :
    Settled acceptors (reports ++ later) vote := by
  obtain ⟨before, sender, after, rfl, hopen, hcard⟩ := h
  exact ⟨before, sender, after ++ later, by simp, hopen, hcard⟩

theorem Settled.not_open (h : Settled acceptors reports vote) : ¬ Open acceptors reports := by
  obtain ⟨before, sender, after, rfl, -, hcard⟩ := h
  intro hopen
  have hsub : reporters acceptors (before ++ [(sender, vote)]) vote ⊆
      reporters acceptors (before ++ (sender, vote) :: after) vote := by
    apply reporters_mono
    simp
  exact absurd (hopen vote) (not_lt.mpr (hcard ▸ Finset.card_le_card hsub))

theorem Settled.unique {u : Vote V} (hu : Settled acceptors reports u)
    (hvote : Settled acceptors reports vote) : u = vote := by
  obtain ⟨before, sender, after, rfl, hopen, hcard⟩ := hu
  obtain ⟨before', sender', after', heq, hopen', hcard'⟩ := hvote
  -- Where one of them is reported before the other, the other's past is not open.
  rcases List.append_eq_append_iff.mp heq with
    ⟨_ | ⟨x, between⟩, hpast, hrest⟩ | ⟨_ | ⟨x, between⟩, hpast, hrest⟩
  · exact (Prod.mk.inj (List.cons.inj hrest).1).2
  · obtain rfl := (List.cons.inj hrest).1
    exact absurd hopen' (Settled.not_open ⟨before, sender, between, hpast, hopen, hcard⟩)
  · exact (Prod.mk.inj (List.cons.inj hrest).1).2.symm
  · obtain rfl := (List.cons.inj hrest).1
    exact absurd hopen (Settled.not_open ⟨before', sender', between, hpast, hopen', hcard'⟩)

end

/-! ## One report more -/

/-- A learner that has been told these reports. -/
structure Informed (l : Learner V) (acceptors : List NodeId) (reports : List (NodeId × Vote V)) :
    Prop where
  acceptors_eq : l.acceptors = acceptors
  quorum_eq : l.tally.quorum = majority acceptors
  records : l.learned = none → Tally.Records l.tally.counts (reporters acceptors reports)
  still : l.learned = none → Open acceptors reports
  released : l.learned ≠ none → l.tally.counts = []
  settled {vote : Vote V} : l.learned = some vote → Settled acceptors reports vote

theorem informed_ofAcceptors (acceptors : List NodeId) :
    (ofAcceptors acceptors : Learner V).Informed acceptors [] where
  acceptors_eq := rfl
  quorum_eq := by rw [ofAcceptors, Tally.ofSize, majority, length_distinct]
  records _ := by
    have hnone : reporters (V := V) acceptors [] = fun _ => ∅ := by
      funext vote
      simp [reporters]
    exact hnone ▸ Tally.records_nil
  still _ vote := by simp [reporters, majority, quorumSize]
  released h := absurd rfl h
  settled h := by simp [ofAcceptors] at h

variable [Value V] [LawfulValue V] {l : Learner V} {acceptors : List NodeId}
  {reports : List (NodeId × Vote V)}

omit [LawfulValue V] in
/-- Whatever is counted has been reported by one of its voters. -/
theorem Informed.matches?_ne_none (h : l.Informed acceptors reports) (hnone : l.learned = none)
    {vote : Vote V} (hcompare : ∀ x ∈ reports, Value.same? x.2.value vote.value ≠ none) :
    ∀ count ∈ l.tally.counts, Tally.matches? count vote ≠ none := by
  intro count hc
  obtain ⟨a, ha⟩ := List.exists_mem_of_ne_nil _ ((h.records hnone).voters_ne_nil count hc)
  have hreporter : a ∈ reporters acceptors reports count.vote :=
    (h.records hnone).voters_eq count hc ▸ List.mem_toFinset.mpr ha
  exact Tally.matches?_ne_none (hcompare _ (mem_reporters.mp hreporter).2)

/-- One report more: the learner has been told it as well. -/
theorem Informed.learn (h : l.Informed acceptors reports) {sender : NodeId} {vote : Vote V}
    {l' : Learner V} {effects : List (Effect V)}
    (hlearn : l.learn sender vote = .ok (l', effects)) :
    l'.Informed acceptors (reports ++ [(sender, vote)]) := by
  cases learn_reaction hlearn with
  | keep hsome =>
    have hdecided : l.learned ≠ none := Option.isSome_iff_ne_none.mp hsome
    exact ⟨h.acceptors_eq, h.quorum_eq, fun hnone => absurd hnone hdecided,
      fun hnone => absurd hnone hdecided, h.released, fun hvote => (h.settled hvote).append _⟩
  | stranger hnone hs =>
    have hsame : reporters acceptors (reports ++ [(sender, vote)]) =
        reporters acceptors reports := reporters_concat_of_stranger (h.acceptors_eq ▸ hs)
    refine ⟨h.acceptors_eq, h.quorum_eq, ?_, ?_, h.released,
      fun hvote => (h.settled hvote).append _⟩
    · exact fun hnone => hsame ▸ h.records hnone
    · intro hnone u
      rw [hsame]
      exact h.still hnone u
  | @count _ tally n hnone hs ht hn =>
    obtain ⟨hquorum, hadded⟩ := Tally.record_eq_ok ht
    obtain ⟨hrecords, rfl⟩ := (h.records hnone).added hadded
    rw [← reporters_concat (h.acceptors_eq ▸ hs)] at hrecords hn
    refine ⟨h.acceptors_eq, hquorum.trans h.quorum_eq, fun _ => hrecords, fun _ u => ?_,
      fun hsome => absurd hnone hsome, fun hsome => by simp [hnone] at hsome⟩
    by_cases hu : u = vote
    · rw [hu, ← h.quorum_eq, ← hquorum]
      exact hn
    · rw [reporters_concat (h.acceptors_eq ▸ hs), Tally.withVoter_of_ne hu]
      exact h.still hnone u
  | @decide _ tally n hnone hs ht hn =>
    obtain ⟨hquorum, hadded⟩ := Tally.record_eq_ok ht
    obtain ⟨-, rfl⟩ := (h.records hnone).added hadded
    have hsettled : Settled acceptors (reports ++ [(sender, vote)]) vote := by
      refine ⟨reports, sender, [], rfl, h.still hnone, le_antisymm ?_ ?_⟩
      · -- One reporter more than before, and before there was no quorum.
        rw [reporters_concat (h.acceptors_eq ▸ hs), Tally.withVoter_self]
        exact (Finset.card_insert_le _ _).trans (h.still hnone vote)
      · rw [reporters_concat (h.acceptors_eq ▸ hs), ← h.quorum_eq, ← hquorum]
        exact hn
    refine ⟨h.acceptors_eq, hquorum.trans h.quorum_eq, by simp, by simp, fun _ => rfl, ?_⟩
    rintro u hu
    obtain rfl : vote = u := Option.some.inj hu
    exact hsettled
  | ignore hbody => exact absurd rfl (hbody vote)

/-- However many reports: where all of them can be compared, the learner is told them all. -/
theorem Informed.learnAll (h : l.Informed acceptors reports) {later : List (NodeId × Vote V)}
    (hcompare : ∀ x ∈ reports ++ later, ∀ y ∈ later, Value.same? x.2.value y.2.value ≠ none) :
    ∃ l', l.learnAll later = .ok l' ∧ l'.Informed acceptors (reports ++ later) := by
  induction later generalizing l reports with
  | nil => exact ⟨l, rfl, by simpa using h⟩
  | cons report later ih =>
    obtain ⟨sender, vote⟩ := report
    have hvote : ∀ x ∈ reports, Value.same? x.2.value vote.value ≠ none := fun x hx =>
      hcompare x (List.mem_append_left _ hx) (sender, vote) List.mem_cons_self
    obtain ⟨l₁, effects, hlearn⟩ :=
      Learner.exists_learn (fun hnone => h.matches?_ne_none hnone hvote) sender
    obtain ⟨l', hlater, hinformed⟩ := ih (h.learn hlearn)
      (fun x hx y hy => hcompare x (by simpa using hx) y (List.mem_cons_of_mem _ hy))
    exact ⟨l', by rw [Learner.learnAll, hlearn]; exact hlater, by simpa using hinformed⟩

omit [Value V] [LawfulValue V] in
theorem Informed.learned_eq_none_iff (h : l.Informed acceptors reports) :
    l.learned = none ↔ Open acceptors reports := by
  refine ⟨h.still, fun hopen => ?_⟩
  by_contra hne
  obtain ⟨vote, hvote⟩ := Option.ne_none_iff_exists'.mp hne
  exact (h.settled hvote).not_open hopen

omit [Value V] [LawfulValue V] in
theorem Informed.learned_eq_some_iff (h : l.Informed acceptors reports) {vote : Vote V} :
    l.learned = some vote ↔ Settled acceptors reports vote := by
  refine ⟨h.settled, fun hsettled => ?_⟩
  have hne : l.learned ≠ none := fun hnone => hsettled.not_open (h.still hnone)
  obtain ⟨u, hu⟩ := Option.ne_none_iff_exists'.mp hne
  rw [hu, (h.settled hu).unique hsettled]

/-- A vote is counted for as many as have reported it, until the decision releases the tally. -/
theorem Informed.votesFor (h : l.Informed acceptors reports) {vote : Vote V}
    (hcompare : ∀ x ∈ reports, Value.same? x.2.value vote.value ≠ none) :
    l.tally.votesFor vote =
      if l.learned = none then (reporters acceptors reports vote).card else 0 := by
  split_ifs with hnone
  · exact (h.records hnone).votesFor (h.matches?_ne_none hnone hcompare)
  · simp [Tally.votesFor, h.released hnone]

/-- Where the values that are reported can be compared with each other, a learner is told all
reports without a fault. It has learned nothing while no vote has been reported by a quorum of the
acceptors, and from then on the first vote that was. A vote is counted for the acceptors that have
reported it, and for none once there is a decision. -/
theorem learned_of_reports (acceptors : List NodeId) (reports : List (NodeId × Vote V))
    (hcompare : ∀ x ∈ reports, ∀ y ∈ reports, Value.same? x.2.value y.2.value ≠ none) :
    ∃ l, (ofAcceptors acceptors).learnAll reports = .ok l ∧
      (l.learned = none ↔ Open acceptors reports) ∧
      (∀ vote, l.learned = some vote ↔ Settled acceptors reports vote) ∧
      ∀ vote, (∀ x ∈ reports, Value.same? x.2.value vote.value ≠ none) →
        l.tally.votesFor vote =
          if l.learned = none then (reporters acceptors reports vote).card else 0 := by
  obtain ⟨l, hlearn, hinformed⟩ := (informed_ofAcceptors acceptors).learnAll
    (fun x hx y hy => hcompare x (by simpa using hx) y hy)
  rw [List.nil_append] at hinformed
  exact ⟨l, hlearn, hinformed.learned_eq_none_iff, fun vote => hinformed.learned_eq_some_iff,
    fun vote hvote => hinformed.votesFor hvote⟩

/-- An acceptor that is named twice, reports of a stranger, a repeated report, and other values
under the same ballot and later ones. -/
def mixedReports : List (NodeId × Vote String) :=
  [(⟨"A1"⟩, ⟨⟨1, ⟨"P1"⟩⟩, "x"⟩), (⟨"X"⟩, ⟨⟨1, ⟨"P1"⟩⟩, "x"⟩), (⟨"A1"⟩, ⟨⟨1, ⟨"P1"⟩⟩, "x"⟩),
    (⟨"A2"⟩, ⟨⟨1, ⟨"P1"⟩⟩, "y"⟩), (⟨"A3"⟩, ⟨⟨1, ⟨"P1"⟩⟩, "x"⟩), (⟨"A2"⟩, ⟨⟨2, ⟨"P2"⟩⟩, "z"⟩)]

theorem learned_of_mixedReports :
    let acceptors : List NodeId := [⟨"A1"⟩, ⟨"A2"⟩, ⟨"A2"⟩, ⟨"A3"⟩]
    majority acceptors = 2 ∧ Open acceptors (mixedReports.take 4) ∧
      Settled acceptors mixedReports ⟨⟨1, ⟨"P1"⟩⟩, "x"⟩ := by
  intro acceptors
  have hcompare (reports : List (NodeId × Vote String)) :
      ∀ x ∈ reports, ∀ y ∈ reports, Value.same? x.2.value y.2.value ≠ none := by
    simp [Value.same?]
  obtain ⟨l, hl, hopen, -⟩ := learned_of_reports acceptors (mixedReports.take 4) (hcompare _)
  obtain ⟨l', hl', -, hsettled, -⟩ := learned_of_reports acceptors mixedReports (hcompare _)
  have hstill : ((ofAcceptors acceptors).learnAll (mixedReports.take 4)).toOption.map learned =
      some none := by decide +kernel
  have hlearned : ((ofAcceptors acceptors).learnAll mixedReports).toOption.map learned =
      some (some ⟨⟨1, ⟨"P1"⟩⟩, "x"⟩) := by decide +kernel
  rw [hl] at hstill
  rw [hl'] at hlearned
  exact ⟨by decide, hopen.mp (Option.some.inj hstill),
    (hsettled _).mp (Option.some.inj hlearned)⟩

/-! ### Values that cannot be compared -/

/-- Two of three acceptors report the value that cannot be compared. -/
def explosiveReports : List (NodeId × Vote Fragile) :=
  [(⟨"A1"⟩, ⟨⟨1, ⟨"P1"⟩⟩, ⟨"BOOM"⟩⟩), (⟨"A2"⟩, ⟨⟨1, ⟨"P1"⟩⟩, ⟨"BOOM"⟩⟩)]

/-- The second report makes a quorum, but the learner faults as it compares it with the first, and
has learned nothing. -/
theorem unlearned_of_explosiveReports :
    let acceptors : List NodeId := [⟨"A1"⟩, ⟨"A2"⟩, ⟨"A3"⟩]
    Settled acceptors explosiveReports ⟨⟨1, ⟨"P1"⟩⟩, ⟨"BOOM"⟩⟩ ∧
      ((ofAcceptors acceptors).learnAll explosiveReports).isOk = false ∧
      ((ofAcceptors acceptors).learnAll (explosiveReports.take 1)).toOption.map learned =
        some none := by
  intro acceptors
  refine ⟨⟨explosiveReports.take 1, ⟨"A2"⟩, [], rfl, fun vote => ?_, by decide⟩,
    by decide +kernel, by decide +kernel⟩
  have hfirst : reporters acceptors (explosiveReports.take 1) vote ⊆ {⟨"A1"⟩} := by
    intro a ha
    have hreport := (mem_reporters.mp ha).2
    simp only [explosiveReports, List.take_succ_cons, List.take_zero, List.mem_singleton] at hreport
    exact Finset.mem_singleton.mpr (Prod.mk.inj hreport).1
  exact (Finset.card_le_card hfirst).trans_lt (by decide)

end Learner

end Synod
