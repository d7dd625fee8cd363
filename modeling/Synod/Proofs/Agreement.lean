import Mathlib.Data.Set.Finite.Lemmas
import Mathlib.Data.List.Perm.Subperm
import Synod.Proofs.Latest
import Synod.Proofs.Links
import Synod.Proofs.Reports

/-! Agreement. Where no acceptor's report is lost, a vote that a quorum has cast binds every later
round: the quorum of promises behind a round shares an acceptor with it, and the latest vote among
the reports is for the same value. -/

namespace Synod

variable {V σ : Type}

/-! ## Quorums -/

/-- Two quorums of the same acceptors share one of them. -/
theorem exists_mem_both {acceptors xs ys : List NodeId} (hxs : xs.Nodup) (hys : ys.Nodup)
    (hx : xs ⊆ acceptors) (hy : ys ⊆ acceptors)
    (hxlen : quorumSize acceptors.length ≤ xs.length)
    (hylen : quorumSize acceptors.length ≤ ys.length) : ∃ a ∈ xs, a ∈ ys := by
  by_contra hnone
  push Not at hnone
  have hnodup : (xs ++ ys).Nodup :=
    List.nodup_append.mpr ⟨hxs, hys, fun a ha b hb hab => hnone a ha (hab ▸ hb)⟩
  have hlen := (List.subperm_of_subset hnodup (List.append_subset.mpr ⟨hx, hy⟩)).length_le
  have hquorum := lt_two_mul_quorumSize acceptors.length
  rw [List.length_append] at hlen
  omega

theorem Chosen.exists_voter {s : Setup V} {log : List (Event V)} {vote : Vote V}
    (h : Chosen s log vote) : ∃ a, Voted log a vote := by
  obtain ⟨voters, -, hquorum, hvoted⟩ := h
  have hpos : 0 < voters.length := lt_of_lt_of_le (Nat.succ_pos _) hquorum
  exact ⟨voters[0], hvoted _ (List.getElem_mem hpos)⟩

/-! ## What is chosen stays chosen -/

namespace World.Sound

variable {s : Setup V} {w : World V} (hw : w.Sound s)
include hw

theorem mem_of_promised {a : NodeId} {b : Ballot} {held : Option (Vote V)}
    (h : Promised w.log a b held) : a ∈ s.acceptors :=
  have ⟨_, he⟩ := h
  (hw.justified _ he).1

theorem mem_of_voted {a : NodeId} {vote : Vote V} (h : Voted w.log a vote) : a ∈ s.acceptors :=
  have ⟨_, he⟩ := h
  (hw.justified _ he).1

theorem asked_of_voted {a : NodeId} {vote : Vote V} (h : Voted w.log a vote) : Asked w.log vote :=
  have ⟨_, he⟩ := h
  (hw.justified _ he).2

theorem asked_of_chosen {vote : Vote V} (h : Chosen s w.log vote) : Asked w.log vote :=
  have ⟨_, ha⟩ := h.exists_voter
  hw.asked_of_voted ha

theorem asked_unique {u v : Vote V} (hu : Asked w.log u) (hv : Asked w.log v)
    (h : u.ballot = v.ballot) : u = v := by
  obtain ⟨p, hp⟩ := hw.exists_proposer (hw.justified _ hu).1
  refine (hw.of_proposer hp).faithful.asked_unique (mem_history.mpr ⟨rfl, hu⟩)
    (mem_history.mpr ⟨rfl, ?_⟩) h
  rw [h]
  exact hv

/-- A promise reports the latest vote of its acceptor below the ballot. -/
theorem le_of_promised {a : NodeId} {b : Ballot} {held : Option (Vote V)} {vote : Vote V}
    (hp : Promised w.log a b held) (hv : Voted w.log a vote) (hlt : vote.ballot < b) :
    ∃ u, held = some u ∧ vote.ballot ≤ u.ballot := by
  obtain ⟨state, ha⟩ := hw.exists_acceptor (hw.mem_of_promised hp)
  obtain ⟨sender, hp⟩ := hp
  obtain ⟨voter, hv⟩ := hv
  exact (hw.of_acceptor ha).faithful.reported_le (mem_history.mpr ⟨rfl, hp⟩)
    (mem_history.mpr ⟨rfl, hv⟩) hlt

/-- A vote that is reported was cast, below the promised ballot. -/
theorem voted_of_promised {a : NodeId} {b : Ballot} {vote : Vote V}
    (hp : Promised w.log a b (some vote)) : vote.ballot < b ∧ Voted w.log a vote := by
  obtain ⟨state, ha⟩ := hw.exists_acceptor (hw.mem_of_promised hp)
  obtain ⟨sender, hp⟩ := hp
  obtain ⟨hlt, voter, hv⟩ := (hw.of_acceptor ha).faithful.reported (mem_history.mpr ⟨rfl, hp⟩)
  exact ⟨hlt, voter, (mem_history.mp hv).2⟩

/-- A round after a chosen vote has adopted a vote between the two, for its value. -/
theorem exists_adopted {u vote : Vote V} (hkept : ¬ Misled w.log vote) (hu : Chosen s w.log u)
    (hvote : Asked w.log vote) (hlt : u.ballot < vote.ballot) :
    ∃ best, Asked w.log best ∧ u.ballot ≤ best.ballot ∧ best.ballot < vote.ballot ∧
      vote.value = best.value := by
  obtain ⟨voters, hvoters, hvlen, hvoted⟩ := hu
  obtain ⟨-, -, value, reports, hsenders, hrlen, hcounted, helection⟩ := hw.justified _ hvote
  have hpromised (report : Report V) (hr : report ∈ reports) :
      Promised w.log report.sender vote.ballot report.accepted :=
    (hcounted report hr).accepted_eq fun hlost => hkept ⟨hvote, _, hlost⟩
  have hsubset : reports.map Report.sender ⊆ s.acceptors := by
    intro a ha
    obtain ⟨report, hr, rfl⟩ := List.mem_map.mp ha
    exact hw.mem_of_promised (hpromised report hr)
  obtain ⟨a, hav, har⟩ := exists_mem_both hvoters hsenders
    (fun a ha => hw.mem_of_voted (hvoted a ha)) hsubset hvlen (by simpa using hrlen)
  obtain ⟨report, hr, rfl⟩ := List.mem_map.mp har
  -- The shared acceptor reported a vote that is not before the chosen one.
  obtain ⟨v, hv, hle⟩ := hw.le_of_promised (hpromised report hr) (hvoted _ hav) hlt
  obtain ⟨sender, best, hlatest, hbest⟩ := Proposer.le_latest? hr hv
  obtain ⟨from?, hfrom, -, hacc⟩ := Proposer.mem_of_latest? hlatest
  obtain ⟨hbelow, hcast⟩ := hw.voted_of_promised (hacc ▸ hpromised from? hfrom)
  refine ⟨best, hw.asked_of_voted hcast, hle.trans hbest, hbelow, ?_⟩
  rw [helection]
  simp [Proposer.election, hlatest]

/-- Once a vote is chosen, every round from its ballot on asks for its value. -/
theorem value_eq_of_asked (hkept : ∀ vote, ¬ Misled w.log vote) {u : Vote V}
    (hu : Chosen s w.log u) {vote : Vote V} (hvote : Asked w.log vote)
    (hle : u.ballot ≤ vote.ballot) : vote.value = u.value := by
  let wrong : Set (Vote V) := {v | Asked w.log v ∧ u.ballot ≤ v.ballot ∧ v.value ≠ u.value}
  have hfinite : wrong.Finite := (finite_asked w.log).subset fun v hv => hv.1
  by_contra hne
  -- The first wrong round has adopted from a round that is not wrong.
  obtain ⟨v, ⟨hv, hge, hwrong⟩, hfirst⟩ :=
    Set.exists_min_image wrong Vote.ballot hfinite ⟨vote, hvote, hle, hne⟩
  rcases hge.eq_or_lt with heq | hlt
  · exact hwrong (congrArg Vote.value (hw.asked_unique hv (hw.asked_of_chosen hu) heq.symm))
  · obtain ⟨best, hbest, hubest, hbelow, hvalue⟩ :=
      hw.exists_adopted (hkept v) hu hv hlt
    exact hbelow.not_ge (hfirst best ⟨hbest, hubest, hvalue ▸ hwrong⟩)

theorem value_eq_of_chosen (hkept : ∀ vote, ¬ Misled w.log vote) {u v : Vote V}
    (hu : Chosen s w.log u) (hv : Chosen s w.log v) : u.value = v.value := by
  rcases le_total u.ballot v.ballot with hle | hle
  · exact (hw.value_eq_of_asked hkept hu (hw.asked_of_chosen hv) hle).symm
  · exact hw.value_eq_of_asked hkept hv (hw.asked_of_chosen hu) hle

theorem learned_of_learner {id : NodeId} {l : Learner V}
    (hl : w.learner? id = some l) {vote : Vote V}
    (hvote : l.learned = some vote) : Learned w.log id vote :=
  (mem_history.mp ((hw.of_learner hl).faithful.learned_iff.mpr hvote)).2

theorem chosen_of_learned {id : NodeId} {vote : Vote V} (h : Learned w.log id vote) :
    Chosen s w.log vote :=
  hw.justified _ h

end World.Sound

/-! ## Agreement of a run -/

namespace Cluster

theorem mem_learned {c : Cluster V σ} (hids : c.ids.Nodup) {id : NodeId}
    {learned : Option (Vote V)} :
    (id, learned) ∈ c.learned ↔ ∃ l, c.learner? id = some l ∧ l.learned = learned := by
  unfold Cluster.learned
  rw [List.mem_filterMap]
  constructor
  · rintro ⟨n, hn, hl⟩
    obtain ⟨l, hrole, hentry⟩ := Option.map_eq_some_iff.mp hl
    obtain ⟨rfl, rfl⟩ := Prod.mk.inj hentry
    have hnode : c.node? n.id = some n := (node?_eq_some_iff hids).mpr ⟨hn, rfl⟩
    exact ⟨l, by simp [learner?, hnode, hrole], rfl⟩
  · rintro ⟨l, hl, rfl⟩
    obtain ⟨n, hn, hrole⟩ := Option.bind_eq_some_iff.mp hl
    exact ⟨n, List.mem_of_find?_eq_some hn, by simp [hrole, id_of_node? hn]⟩

theorem exists_learned_of_decided {c : Cluster V σ} (hids : c.ids.Nodup) {v : V}
    (h : c.decided? = some v) :
    ∃ id l vote, c.learner? id = some l ∧ l.learned = some vote ∧ vote.value = v := by
  obtain ⟨⟨id, learned⟩, hentry, hvalue⟩ := List.exists_of_findSome?_eq_some h
  obtain ⟨vote, hvote, rfl⟩ := Option.map_eq_some_iff.mp hvalue
  obtain ⟨l, hl, hlearned⟩ := (mem_learned hids).mp hentry
  exact ⟨id, l, vote, hl, hlearned.trans hvote, rfl⟩

theorem exists_decided_of_learned {c : Cluster V σ} (hids : c.ids.Nodup) {id : NodeId}
    {l : Learner V} {vote : Vote V} (hl : c.learner? id = some l) (hvote : l.learned = some vote) :
    ∃ v, c.decided? = some v := by
  apply Option.isSome_iff_exists.mp
  apply List.findSome?_isSome_iff.mpr
  exact ⟨(id, l.learned), (mem_learned hids).mpr ⟨l, hl, rfl⟩, by simp [hvote]⟩

theorem allDecided_iff {c : Cluster V σ} (hids : c.ids.Nodup) :
    c.allDecided = true ↔ ∀ id l, c.learner? id = some l → l.learned.isSome = true := by
  unfold allDecided
  rw [List.all_eq_true]
  constructor
  · intro h id l hl
    exact h (id, l.learned) ((mem_learned hids).mpr ⟨l, hl, rfl⟩)
  · rintro h ⟨id, learned⟩ hentry
    obtain ⟨l, hl, rfl⟩ := (mem_learned hids).mp hentry
    exact h id l hl

variable [Value V] [LawfulValue V] [Shuffler σ] {s : Setup V} {bus order : σ} {c : Cluster V σ}

/-- Where no vote was asked for in a round that lost a report, learners agree at all times of a run,
and the decision stays. -/
theorem decision_final (h : create s bus order = .ok c) (ops later : List (Operation V))
    (hkept : ∀ vote, ¬ Misled (c.run (ops ++ later)).log.toList vote) :
    (∀ i j l l' u v, (c.run ops).learner? i = some l → (c.run (ops ++ later)).learner? j = some l' →
      l.learned = some u → l'.learned = some v → u.value = v.value) ∧
    ∀ v, (c.run ops).decided? = some v → (c.run (ops ++ later)).decided? = some v := by
  have hw := sound_run h ops
  have hw' := sound_run h (ops ++ later)
  have hsub : (c.run ops).world.log ⊆ (c.run (ops ++ later)).world.log :=
    c.log_subset_run ops later
  have hagree {i j : NodeId} {l l' : Learner V} {u v : Vote V}
      (hl : (c.run ops).learner? i = some l) (hl' : (c.run (ops ++ later)).learner? j = some l')
      (hu : l.learned = some u) (hv : l'.learned = some v) : u.value = v.value :=
    hw'.value_eq_of_chosen hkept (hw'.chosen_of_learned (hsub (hw.learned_of_learner hl hu)))
      (hw'.chosen_of_learned (hw'.learned_of_learner hl' hv))
  refine ⟨fun i j l l' u v => hagree, fun v hv => ?_⟩
  obtain ⟨i, l, u, hl, hu, rfl⟩ := exists_learned_of_decided (nodup_ids_run h _) hv
  -- The learner still holds what it learned, so there is a decision, and it is for that value.
  have hlearned := hsub (hw.learned_of_learner hl hu)
  obtain ⟨l', hl'⟩ := hw'.exists_learner (hw.of_learner hl).mem
  have hu' := (hw'.of_learner hl').faithful.learned_iff.mp (mem_history.mpr ⟨rfl, hlearned⟩)
  obtain ⟨v, hv⟩ := exists_decided_of_learned (nodup_ids_run h _) hl' hu'
  obtain ⟨j, l'', u'', hl'', hu'', rfl⟩ := exists_learned_of_decided (nodup_ids_run h _) hv
  rw [hv, hagree hl hl'' hu hu'']

/-- One proposer gets its value through while an acceptor is down. -/
def firstRound : List (Operation String) :=
  [.propose ⟨"P1"⟩ none, .fail ⟨"A3"⟩, .tick, .tick]

/-- The other proposer starts a round once the acceptor is up again. -/
def laterRound : List (Operation String) :=
  [.recover ⟨"A3"⟩, .propose ⟨"P2"⟩ none, .tick, .tick]

theorem decision_final_of_rival :
    ((ofTrio []).run firstRound).decided? = some "x" ∧
      ((ofTrio []).run (firstRound ++ laterRound)).decided? = some "x" := by
  have hfirst : ((ofTrio []).run firstRound).decided? = some "x" := by decide
  have hkept : ∀ vote, ¬ Misled ((ofTrio []).run (firstRound ++ laterRound)).log.toList vote :=
    not_misled_of_not_overtaken (not_overtaken_iff.mpr (by decide +kernel))
  exact ⟨hfirst, (decision_final (create_trio []) firstRound laterRound hkept).2 _ hfirst⟩

/-- What becomes of the overtaking rounds: the second asks for its own value, and the second learner
hears of it first. -/
def deciding : List (Operation String) :=
  [.process ⟨"L1"⟩, .process ⟨"A3"⟩, .process ⟨"P1"⟩, .process ⟨"A2"⟩, .process ⟨"A3"⟩,
    .process ⟨"L2"⟩]

/-- A lost report costs agreement: of two learners each learns another value. -/
theorem decisions_differ_of_overtaking :
    ((ofTrio (overtakingOrders ++ [[], [], [1], [], [], [], [2, 2]])).run
      (overtaking ++ deciding)).learned =
      [(⟨"L1"⟩, some ⟨⟨1, ⟨"P1"⟩⟩, "x"⟩), (⟨"L2"⟩, some ⟨⟨2, ⟨"P1"⟩⟩, "y"⟩)] := by
  decide

/-- Where no round of a proposer overtakes an earlier one, what a quorum has accepted is what every
later round asks for and what every learner learns, from its ballot on. None does where links keep
the order of messages, nor where no proposer starts two rounds. -/
theorem chosen_final (h : create s bus order = .ok c) (ops : List (Operation V))
    (hruns : (∀ a m b, ¬ Overtaken (c.run ops).log.toList a m b) ∨
      InOrder (c.run ops).log.toList ∨ SingleRounds (c.run ops).log.toList) :
    (∀ u, Chosen s (c.run ops).log.toList u →
      (∀ sender receiver vote, .sent ⟨sender, receiver, .accept vote⟩ ∈ (c.run ops).log.toList →
        u.ballot < vote.ballot → vote.value = u.value) ∧
      ∀ l vote, Learned (c.run ops).log.toList l vote → u.ballot ≤ vote.ballot →
        vote.value = u.value) ∧
    ∀ i j l l' u v, (c.run ops).learner? i = some l → (c.run ops).learner? j = some l' →
      l.learned = some u → l'.learned = some v → u.value = v.value := by
  have hw := sound_run h ops
  have hfirst : ∀ a m b, ¬ Overtaken (c.run ops).log.toList a m b := by
    rcases hruns with hfirst | horder | hsingle
    · exact hfirst
    · exact (linked_run h ops).not_overtaken horder
    · exact hw.not_overtaken hsingle
  have hkept := not_misled_of_not_overtaken hfirst
  refine ⟨fun u hu => ⟨fun sender receiver vote hsent hlt => ?_, fun l vote hl hle => ?_⟩, ?_⟩
  · obtain ⟨-, -, hasked⟩ := hw.justified _ hsent
    exact hw.value_eq_of_asked hkept hu hasked hlt.le
  · exact hw.value_eq_of_asked hkept hu (hw.asked_of_chosen (hw.chosen_of_learned hl)) hle
  · intro i j l l' u v hl hl' hu hv
    exact hw.value_eq_of_chosen hkept (hw.chosen_of_learned (hw.learned_of_learner hl hu))
      (hw.chosen_of_learned (hw.learned_of_learner hl' hv))

theorem chosen_final_of_rival :
    Chosen trio ((ofTrio []).run (firstRound ++ laterRound)).log.toList ⟨⟨1, ⟨"P1"⟩⟩, "x"⟩ ∧
      (∀ sender receiver vote,
        .sent ⟨sender, receiver, .accept vote⟩ ∈
          ((ofTrio []).run (firstRound ++ laterRound)).log.toList →
        ⟨1, ⟨"P1"⟩⟩ < vote.ballot → vote.value = "x") ∧
      ∀ l vote, Learned ((ofTrio []).run (firstRound ++ laterRound)).log.toList l vote →
        ⟨1, ⟨"P1"⟩⟩ ≤ vote.ballot → vote.value = "x" := by
  have hchosen : Chosen trio ((ofTrio []).run (firstRound ++ laterRound)).log.toList
      ⟨⟨1, ⟨"P1"⟩⟩, "x"⟩ := by
    refine ⟨[⟨"A1"⟩, ⟨"A2"⟩], by decide, by decide, ?_⟩
    intro a ha
    refine ⟨⟨"P1"⟩, ?_⟩
    revert a
    decide +kernel
  have hfirst : ∀ a m b,
      ¬ Overtaken ((ofTrio []).run (firstRound ++ laterRound)).log.toList a m b :=
    not_overtaken_iff.mpr (by decide +kernel)
  exact ⟨hchosen, (chosen_final (create_trio []) _ (.inl hfirst)).1 _ hchosen⟩

end Cluster

end Synod
