import Mathlib.Data.List.Nodup
import Synod.Proofs.Soundness

/-! How a run opens. A cluster is only made of a sound setup. It has a fresh node for each of the
names, which stays under its name through the whole run. -/

namespace Synod

variable {V σ : Type}

/-! ## Sound setups -/

theorem distinct_eq_self {ids : List NodeId} (h : ids.Nodup) : distinct ids = ids := by
  induction ids with
  | nil => rfl
  | cons id ids ih =>
    obtain ⟨hid, hids⟩ := List.nodup_cons.mp h
    rw [distinct, List.foldr_cons]
    exact (congrArg (List.insert id) (ih hids)).trans (List.insert_of_not_mem hid)

namespace Setup

variable {s : Setup V}

theorem defect?_eq_none_iff :
    s.defect? = none ↔ s.acceptors ≠ [] ∧ s.learners ≠ [] ∧ s.ids.Nodup := by
  unfold defect?
  split
  · rename_i h
    simp_all
  · split
    · rename_i h
      simp_all
    · rename_i ha hl
      rw [Option.map_eq_none_iff, firstRepeated_eq_none_iff]
      simp_all

theorem ids_freshNodes (s : Setup V) : s.freshNodes.map Node.id = s.ids := by
  simp [freshNodes, ids, Function.comp_def]

/-- A fresh node is what the setup makes of one of its names. -/
theorem mem_freshNodes {s : Setup V} {n : Node V} : n ∈ s.freshNodes ↔
    (∃ a ∈ s.acceptors, ⟨a, .acceptor { learners := s.learners }, true, false⟩ = n) ∨
      (∃ l ∈ s.learners, ⟨l, .learner (.ofAcceptors s.acceptors), true, false⟩ = n) ∨
      ∃ x ∈ s.candidates,
        ⟨x.id, .proposer { acceptors := s.acceptors, value := x.value }, true, false⟩ = n := by
  simp [freshNodes]

end Setup

/-! ## Nodes by name -/

/-- A node whose name is new is put among the others, none of which is lost. -/
theorem insertNode_perm {n : Node V} {ms : List (Node V)} (h : n.id ∉ ms.map Node.id) :
    (insertNode n ms).Perm (n :: ms) := by
  induction ms with
  | nil => exact .refl _
  | cons m ms ih =>
    simp only [List.map_cons, List.mem_cons, not_or] at h
    unfold insertNode
    split
    · exact .refl _
    · split
      · exact ((ih h.2).cons m).trans (.swap n m ms)
      · rename_i hlt hgt
        exact absurd (le_antisymm (not_lt.mp hgt) (not_lt.mp hlt)) h.1

theorem foldl_insertNode_perm {ns ms : List (Node V)} (h : ((ns ++ ms).map Node.id).Nodup) :
    (ns.foldl (fun nodes n => insertNode n nodes) ms).Perm (ns ++ ms) := by
  induction ns generalizing ms with
  | nil => exact .refl _
  | cons n ns ih =>
    have hswap : (ns ++ n :: ms).Perm (n :: ns ++ ms) := List.perm_middle
    have hnodup := (hswap.map Node.id).nodup_iff.mpr h
    have hnew : n.id ∉ ms.map Node.id := by
      simp only [List.cons_append, List.map_cons, List.nodup_cons, List.map_append,
        List.mem_append, not_or] at h
      exact h.1.2
    have hperm := (insertNode_perm hnew).append_left ns
    exact (ih ((hperm.map Node.id).nodup_iff.mpr hnodup)).trans (hperm.trans hswap)

namespace Cluster

theorem mem_ids_of_node? {c : Cluster V σ} {id : NodeId} {n : Node V} (h : c.node? id = some n) :
    id ∈ c.ids :=
  List.mem_map.mpr ⟨n, List.mem_of_find?_eq_some h, id_of_node? h⟩

theorem node?_eq_some_iff {c : Cluster V σ} (h : c.ids.Nodup) {id : NodeId} {n : Node V} :
    c.node? id = some n ↔ n ∈ c.nodes ∧ n.id = id := by
  constructor
  · exact fun hn => ⟨List.mem_of_find?_eq_some hn, id_of_node? hn⟩
  · rintro ⟨hn, rfl⟩
    unfold node? ids at *
    generalize c.nodes = nodes at h hn ⊢
    induction nodes with
    | nil => simp at hn
    | cons m ms ih =>
      rw [List.map_cons, List.nodup_cons] at h
      rcases List.mem_cons.mp hn with rfl | hn
      · simp
      · have hne : m.id ≠ n.id := fun heq => h.1 (heq ▸ List.mem_map_of_mem hn)
        simpa [hne] using ih h.2 hn

/-! ## The names stay -/

@[simp] theorem ids_note (c : Cluster V σ) (e : Event V) : (c.note e).ids = c.ids := rfl

@[simp] theorem ids_settle (c : Cluster V σ) (n : Node V) (effects : List (Effect V)) :
    (c.settle n effects).ids = c.ids :=
  c.ids_setNode n

@[simp] theorem ids_finish (c : Cluster V σ) (turn : Node.Turn V) (size : Nat) :
    (c.finish turn size).1.ids = c.ids := by
  unfold finish
  split <;> exact c.ids_settle _ _

/-! ## What commands leave -/

/-- A command leaves everything as it was, or puts back the node that it is for, which no fault has
stopped, with what the node did. -/
inductive Commanded (c : Cluster V σ) (id : NodeId) : Cluster V σ → Prop where
  | same : Commanded c id c
  | settled {n m : Node V} (effects : List (Effect V)) (hn : c.node? n.id = some n)
      (hself : n.id = id) (hcalm : n.faulted = false) (hm : m.id = n.id) :
      Commanded c id (c.settle m effects)

theorem Commanded.ids {c c' : Cluster V σ} {id : NodeId} (h : c.Commanded id c') :
    c'.ids = c.ids := by
  cases h with
  | same => rfl
  | settled effects _ _ _ _ => exact c.ids_settle _ effects

theorem commanded_propose (c : Cluster V σ) (id : NodeId) (given : Option V) :
    c.Commanded id (c.propose id given).1 := by
  unfold propose
  cases hcommand : c.commandProposer id with
  | error refusal => exact .same
  | ok found =>
    obtain ⟨n, p⟩ := found
    obtain ⟨hn, rfl, hcalm, -⟩ := commandProposer_eq_ok hcommand
    dsimp only
    cases n.alive with
    | false => exact .same
    | true =>
      cases p.isProposing with
      | true => exact .same
      | false =>
        rcases (offer p given).1.start n.id with ⟨p', effects, _ | b | fault⟩
        · exact .settled _ hn rfl hcalm (by rfl)
        · exact .settled _ hn rfl hcalm (by rfl)
        · exact .settled _ hn rfl hcalm (by rfl)

theorem commanded_setValue (c : Cluster V σ) (id : NodeId) (value : V) :
    c.Commanded id (c.setValue id value).1 := by
  unfold setValue
  cases hcommand : c.commandProposer id with
  | error refusal => exact .same
  | ok found =>
    obtain ⟨n, p⟩ := found
    obtain ⟨hn, hself, hcalm, -⟩ := commandProposer_eq_ok hcommand
    exact .settled _ hn hself hcalm (by rfl)

theorem commanded_setAlive {c : Cluster V σ} {id : NodeId} {n : Node V}
    (hcommand : c.commandNode id = .ok n) (alive : Bool) :
    c.Commanded id (c.setAlive n alive) := by
  obtain ⟨hn, hself, hcalm⟩ := commandNode_eq_ok hcommand
  unfold setAlive
  split
  · exact .same
  · exact .settled _ hn hself hcalm (by rfl)

theorem commanded_fail (c : Cluster V σ) (id : NodeId) : c.Commanded id (c.fail id).1 := by
  unfold fail
  cases hcommand : c.commandNode id with
  | error refusal => exact .same
  | ok n => exact commanded_setAlive hcommand false

theorem commanded_recover (c : Cluster V σ) (id : NodeId) : c.Commanded id (c.recover id).1 := by
  unfold recover
  cases hcommand : c.commandNode id with
  | error refusal => exact .same
  | ok n => exact commanded_setAlive hcommand true

/-! ## The names in a run -/

section

variable [Value V] [Shuffler σ]

theorem ids_process (c : Cluster V σ) (n : Node V) : (c.process n).1.ids = c.ids := by
  unfold process
  split
  · dsimp only
    rw [ids_finish]
    split <;> rfl
  · rfl

theorem ids_visit (c : Cluster V σ) (id : NodeId) : (c.visit id).1.ids = c.ids := by
  unfold visit
  split
  · rfl
  · rename_i n hn
    split
    · rfl
    · have hids := c.ids_process n
      split <;> rename_i hprocess <;> simpa [hprocess] using hids

theorem ids_visitAll (c : Cluster V σ) (ids : List NodeId) : (c.visitAll ids).1.ids = c.ids := by
  induction ids generalizing c with
  | nil => rfl
  | cons id ids ih =>
    unfold visitAll
    cases hout : (c.visit id).2 <;> simpa [hout] using (ih _).trans (c.ids_visit id)

theorem ids_perform (c : Cluster V σ) (op : Operation V) : (c.perform op).ids = c.ids := by
  cases op with
  | propose id value => exact (c.commanded_propose id value).ids
  | setValue id value => exact (c.commanded_setValue id value).ids
  | fail id => exact (c.commanded_fail id).ids
  | recover id => exact (c.commanded_recover id).ids
  | tick =>
    unfold perform tick
    exact ids_visitAll _ _
  | process id =>
    unfold perform processNode
    dsimp only
    split
    · rfl
    · rename_i n hn
      have hids := c.ids_process n
      split <;> rename_i hprocess <;> simpa [hprocess] using hids

theorem ids_run (c : Cluster V σ) (ops : List (Operation V)) : (c.run ops).ids = c.ids := by
  induction ops generalizing c with
  | nil => rfl
  | cons op ops ih => exact (ih _).trans (c.ids_perform op)

end

/-! ## The first world -/

variable {s : Setup V} {bus order : σ} {c : Cluster V σ}

theorem create_eq_ok (h : create s bus order = .ok c) :
    s.defect? = none ∧ c.nodes.Perm s.freshNodes ∧ c.bus.pending = [] ∧
      c.log.toList = [.created] := by
  unfold create at h
  split at h
  · simp at h
  · rename_i hs
    obtain rfl := Except.ok.inj h
    have hnodup : ((s.freshNodes ++ []).map Node.id).Nodup := by
      rw [List.append_nil, s.ids_freshNodes]
      exact (Setup.defect?_eq_none_iff.mp hs).2.2
    exact ⟨hs, by simpa using foldl_insertNode_perm hnodup, rfl, rfl⟩

theorem ids_create (h : create s bus order = .ok c) : c.ids.Perm s.ids := by
  rw [← s.ids_freshNodes]
  exact (create_eq_ok h).2.1.map Node.id

theorem nodup_ids_create (h : create s bus order = .ok c) : c.ids.Nodup :=
  (ids_create h).nodup_iff.mpr (Setup.defect?_eq_none_iff.mp (create_eq_ok h).1).2.2

theorem nodup_ids_run [Value V] [Shuffler σ] (h : create s bus order = .ok c)
    (ops : List (Operation V)) : (c.run ops).ids.Nodup := by
  rw [ids_run]
  exact nodup_ids_create h

theorem node?_create (h : create s bus order = .ok c) {id : NodeId} {n : Node V} :
    c.world.node? id = some n ↔ n ∈ s.freshNodes ∧ n.id = id :=
  (node?_eq_some_iff (nodup_ids_create h)).trans (and_congr_left' (create_eq_ok h).2.1.mem_iff)

theorem sound_create (h : create s bus order = .ok c) : c.world.Sound s := by
  obtain ⟨hs, -, hpending, hlog⟩ := create_eq_ok h
  obtain ⟨-, -, hnodup⟩ := Setup.defect?_eq_none_iff.mp hs
  have hfound {id : NodeId} {n : Node V} :
      c.world.node? id = some n ↔ n ∈ s.freshNodes ∧ n.id = id := node?_create h
  have hhistory (id : NodeId) : history id c.world.log = [] := by
    simp [world, hlog, history, Event.step?]
  refine ⟨hnodup, ?_, fun hn => (hfound.mp hn).2, ?_, ?_, ?_, ?_, ?_⟩
  · intro id hid
    rw [← s.ids_freshNodes] at hid
    obtain ⟨n, hn, rfl⟩ := List.mem_map.mp hid
    exact ⟨n, hfound.mpr ⟨hn, rfl⟩⟩
  · intro id n hn
    obtain ⟨hfresh, rfl⟩ := hfound.mp hn
    rcases Setup.mem_freshNodes.mp hfresh with ⟨id, hid, rfl⟩ | ⟨id, hid, rfl⟩ | ⟨x, hid, rfl⟩
    · exact ⟨hid, rfl, hhistory id ▸ Acceptor.faithful_nil _⟩
    · refine ⟨hid, rfl, ?_, hhistory id ▸ Learner.faithful_nil _,
        by simp [Learner.ofAcceptors, Tally.ofSize]⟩
      simp [Learner.ofAcceptors, Tally.ofSize, distinct_eq_self (Setup.nodup_acceptors hnodup)]
    · exact ⟨List.mem_map_of_mem hid, rfl, hhistory _ ▸ Proposer.faithful_nil _ _ _, by simp⟩
  · simp [world, hpending]
  · simp [world, hlog, Event.Justified]
  · simp [world, hpending, requests]
  · simp [world, hpending, requests]

theorem sound_run [Value V] [LawfulValue V] [Shuffler σ] (h : create s bus order = .ok c)
    (ops : List (Operation V)) : (c.run ops).world.Sound s :=
  (sound_create h).moves (c.moves_run ops)

/-- What holds at first, and is preserved by every move between sound worlds, holds in a run. -/
theorem invariant_run [Value V] [LawfulValue V] [Shuffler σ] (h : create s bus order = .ok c)
    {P : World V → Prop} (hcreate : P c.world)
    (hstep : ∀ {w w' : World V}, w.Sound s → P w → World.Move w w' → P w')
    (ops : List (Operation V)) : P (c.run ops).world :=
  (sound_create h).induction hcreate hstep (c.moves_run ops)

end Cluster

end Synod
