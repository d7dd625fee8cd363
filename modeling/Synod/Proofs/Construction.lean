import Synod.Proofs.Reports

/-! Construction. There is a cluster of exactly the sound setups; of any other, what is reported is
what is wrong with it first. The nodes of each role stand in a table of their own, and all of them
in one table: no node shadows another there, although a node that is entered takes the place of one
that bears its name. -/

namespace Synod

variable {V σ : Type}

/-! ## What is wrong with a setup -/

/-- The first name that equals an earlier one, or one that was seen before, stands after names that
do neither. -/
theorem firstRepeated_eq_some_iff {seen ids : List NodeId} {id : NodeId} :
    firstRepeated seen ids = some id ↔ ∃ before after, ids = before ++ id :: after ∧
      firstRepeated seen before = none ∧ (id ∈ before ∨ id ∈ seen) := by
  induction ids generalizing seen with
  | nil => simp [firstRepeated]
  | cons first ids ih =>
    by_cases hseen : first ∈ seen
    · rw [firstRepeated, if_pos hseen, Option.some.injEq]
      constructor
      · rintro rfl
        exact ⟨[], ids, rfl, rfl, .inr hseen⟩
      · rintro ⟨before, after, heq, hnone, -⟩
        cases before with
        | nil => exact (List.cons.inj heq).1
        | cons x before =>
          obtain ⟨rfl, -⟩ := List.cons.inj heq
          simp [firstRepeated, hseen] at hnone
    · rw [firstRepeated, if_neg hseen, ih]
      constructor
      · rintro ⟨before, after, rfl, hnone, hid⟩
        refine ⟨first :: before, after, rfl, by simpa [firstRepeated, hseen] using hnone, ?_⟩
        simpa [or_assoc, or_left_comm] using hid
      · rintro ⟨before, after, heq, hnone, hid⟩
        cases before with
        | nil =>
          obtain ⟨rfl, -⟩ := List.cons.inj heq
          simp [hseen] at hid
        | cons x before =>
          obtain ⟨rfl, rfl⟩ := List.cons.inj heq
          refine ⟨before, after, rfl, by simpa [firstRepeated, hseen] using hnone, ?_⟩
          simpa [or_assoc, or_left_comm] using hid

namespace Setup

/-- What is wrong with a setup first: there is no acceptor, or else no learner, or else a name
equals an earlier one, and none before it does. -/
inductive Defective (s : Setup V) : SetupError → Prop where
  | noAcceptors (h : s.acceptors = []) : Defective s .noAcceptors
  | noLearners (ha : s.acceptors ≠ []) (h : s.learners = []) : Defective s .noLearners
  | duplicate {before after : List NodeId} {id : NodeId} (ha : s.acceptors ≠ [])
      (hl : s.learners ≠ []) (hids : s.ids = before ++ id :: after) (hnew : before.Nodup)
      (hid : id ∈ before) : Defective s (.duplicate id)

variable {s : Setup V}

theorem defect?_eq_some_iff {e : SetupError} : s.defect? = some e ↔ s.Defective e := by
  unfold defect?
  by_cases ha : s.acceptors = []
  · rw [if_pos (by simp [ha]), Option.some.injEq]
    constructor
    · rintro rfl
      exact .noAcceptors ha
    · rintro (_ | ⟨ha', -⟩ | ⟨ha', -, -, -, -⟩)
      · rfl
      · exact absurd ha ha'
      · exact absurd ha ha'
  rw [if_neg (by simp [ha])]
  by_cases hl : s.learners = []
  · rw [if_pos (by simp [hl]), Option.some.injEq]
    constructor
    · rintro rfl
      exact .noLearners ha hl
    · rintro (h | _ | ⟨-, hl', -, -, -⟩)
      · exact absurd h ha
      · rfl
      · exact absurd hl hl'
  rw [if_neg (by simp [hl]), Option.map_eq_some_iff]
  constructor
  · rintro ⟨id, hid, rfl⟩
    obtain ⟨before, after, hids, hnone, hmem⟩ := firstRepeated_eq_some_iff.mp hid
    exact .duplicate ha hl hids (firstRepeated_eq_none_iff.mp hnone).1 (by simpa using hmem)
  · rintro (h | ⟨-, h⟩ | ⟨-, -, hids, hnew, hid⟩)
    · exact absurd h ha
    · exact absurd h hl
    · refine ⟨_, firstRepeated_eq_some_iff.mpr ⟨_, _, hids, ?_, .inl hid⟩, rfl⟩
      exact firstRepeated_eq_none_iff.mpr ⟨hnew, by simp⟩

end Setup

/-! ## Tables of nodes -/

/-- A table after some nodes were entered in turn. -/
def enter (nodes : List (Node V)) (ns : List (Node V)) : List (Node V) :=
  ns.foldl (fun nodes n => insertNode n nodes) nodes

/-- A table of some nodes. -/
def table (ns : List (Node V)) : List (Node V) := enter [] ns

/-- The names stand in their order, each once. -/
def Ascending (nodes : List (Node V)) : Prop := nodes.Pairwise fun n m => n.id < m.id

theorem mem_of_mem_insertNode {n m : Node V} {nodes : List (Node V)} (h : m ∈ insertNode n nodes) :
    m = n ∨ m ∈ nodes := by
  induction nodes with
  | nil => simpa [insertNode] using h
  | cons k nodes ih =>
    unfold insertNode at h
    split at h
    · simpa using h
    · split at h
      · rcases List.mem_cons.mp h with rfl | h
        · exact .inr List.mem_cons_self
        · exact (ih h).imp_right (List.mem_cons_of_mem _)
      · rcases List.mem_cons.mp h with rfl | h
        · exact .inl rfl
        · exact .inr (List.mem_cons_of_mem _ h)

theorem Ascending.insertNode {nodes : List (Node V)} (h : Ascending nodes) (n : Node V) :
    Ascending (insertNode n nodes) := by
  induction nodes with
  | nil => exact List.pairwise_singleton _ _
  | cons k nodes ih =>
    obtain ⟨hk, hnodes⟩ := List.pairwise_cons.mp h
    unfold Synod.insertNode
    split
    · rename_i hlt
      refine List.pairwise_cons.mpr ⟨?_, h⟩
      intro m hm
      rcases List.mem_cons.mp hm with rfl | hm
      · exact hlt
      · exact hlt.trans (hk m hm)
    · split
      · rename_i hgt
        refine List.pairwise_cons.mpr ⟨?_, ih hnodes⟩
        intro m hm
        rcases mem_of_mem_insertNode hm with rfl | hm
        · exact hgt
        · exact hk m hm
      · rename_i hle hge
        have hid : n.id = k.id := le_antisymm (not_lt.mp hge) (not_lt.mp hle)
        exact List.pairwise_cons.mpr ⟨hid ▸ hk, hnodes⟩

theorem Ascending.enter {nodes : List (Node V)} (h : Ascending nodes) (ns : List (Node V)) :
    Ascending (enter nodes ns) := by
  induction ns generalizing nodes with
  | nil => exact h
  | cons n ns ih => exact ih (h.insertNode n)

theorem ascending_table (ns : List (Node V)) : Ascending (table ns) :=
  Ascending.enter List.Pairwise.nil ns

theorem Ascending.eq_of_perm {nodes nodes' : List (Node V)} (h : Ascending nodes)
    (h' : Ascending nodes') (hperm : nodes.Perm nodes') : nodes = nodes' :=
  List.Perm.eq_of_pairwise (fun _ _ _ _ hlt hgt => absurd hgt hlt.asymm) h h' hperm

theorem table_perm {ns : List (Node V)} (h : (ns.map Node.id).Nodup) : (table ns).Perm ns := by
  have hnodup : ((ns ++ []).map Node.id).Nodup := by rwa [List.append_nil]
  simpa [table, enter] using foldl_insertNode_perm hnodup

namespace Setup

/-- The nodes of each role, before anything has happened. -/
def acceptorNodes (s : Setup V) : List (Node V) :=
  s.acceptors.map fun id => ⟨id, .acceptor { learners := s.learners }, true, false⟩

def learnerNodes (s : Setup V) : List (Node V) :=
  s.learners.map fun id => ⟨id, .learner (.ofAcceptors s.acceptors), true, false⟩

def proposerNodes (s : Setup V) : List (Node V) :=
  s.candidates.map fun c =>
    ⟨c.id, .proposer { acceptors := s.acceptors, value := c.value }, true, false⟩

def roleTables (s : Setup V) : List (List (Node V)) :=
  [table s.acceptorNodes, table s.learnerNodes, table s.proposerNodes]

/-- The table of all nodes: the tables of the roles are entered in turn. -/
def registered (s : Setup V) : List (Node V) := s.roleTables.foldl enter []

variable {s : Setup V}

theorem freshNodes_eq (s : Setup V) :
    s.freshNodes = s.acceptorNodes ++ s.learnerNodes ++ s.proposerNodes := rfl

/-- Where no name is repeated, no node of a role is lost in its table. -/
theorem roleTables_perm (h : s.ids.Nodup) :
    (table s.acceptorNodes).Perm s.acceptorNodes ∧ (table s.learnerNodes).Perm s.learnerNodes ∧
      (table s.proposerNodes).Perm s.proposerNodes := by
  rw [← s.ids_freshNodes, s.freshNodes_eq, List.map_append, List.map_append] at h
  obtain ⟨hothers, hproposers, -⟩ := List.nodup_append.mp h
  obtain ⟨hacceptors, hlearners, -⟩ := List.nodup_append.mp hothers
  exact ⟨table_perm hacceptors, table_perm hlearners, table_perm hproposers⟩

/-- Where no name is repeated, no node takes the place of another in the table of all nodes. -/
theorem registered_perm (h : s.ids.Nodup) :
    s.registered.Perm s.roleTables.flatten ∧ s.roleTables.flatten.Perm s.freshNodes := by
  obtain ⟨ha, hl, hp⟩ := roleTables_perm h
  have hflat : s.roleTables.flatten.Perm s.freshNodes := by
    simpa [roleTables, freshNodes_eq] using ha.append (hl.append hp)
  have hnodup : (s.roleTables.flatten.map Node.id).Nodup := by
    rw [(hflat.map Node.id).nodup_iff, s.ids_freshNodes]
    exact h
  have henter : s.registered = table s.roleTables.flatten := by
    simp [registered, roleTables, table, enter]
  exact ⟨henter ▸ table_perm hnodup, hflat⟩

theorem ascending_registered (s : Setup V) : Ascending s.registered :=
  ((ascending_table _).enter _).enter _

end Setup

/-! ## Clusters -/

/-- What is made of a setup. -/
structure Constructed (s : Setup V) (out : Except SetupError (Cluster V σ)) : Prop where
  /-- There is a cluster of exactly the sound setups. -/
  ok_iff : (∃ c, out = .ok c) ↔ s.acceptors ≠ [] ∧ s.learners ≠ [] ∧ s.ids.Nodup
  /-- Of any other, what is wrong with it first is reported. -/
  error_iff : ∀ e, out = .error e ↔ s.Defective e
  /-- The table of all nodes has one entry for each name. -/
  ids : ∀ {c}, out = .ok c → c.ids.Perm s.ids ∧ c.ids.Pairwise (· < ·)
  /-- It is what is left after the tables of the roles were entered in turn, and that is all of
  them. -/
  nodes : ∀ {c}, out = .ok c → c.nodes = s.registered ∧ c.nodes.Perm s.roleTables.flatten
  /-- Under the name of a node in the table of its role stands that node. -/
  same_node : ∀ {c}, out = .ok c → ∀ nodes ∈ s.roleTables, ∀ n ∈ nodes, c.node? n.id = some n
  /-- A proposer waits for as many promises as a learner for votes. -/
  quorum_eq : ∀ {c}, out = .ok c → ∀ {x y p l}, c.proposer? x = some p → c.learner? y = some l →
    p.quorum = l.tally.quorum

namespace Cluster

variable {s : Setup V} {bus order : σ} {c : Cluster V σ}

theorem create_eq_error_iff {e : SetupError} :
    create s bus order = .error e ↔ s.Defective e := by
  rw [← Setup.defect?_eq_some_iff]
  unfold create
  cases s.defect? <;> simp

theorem exists_create_iff :
    (∃ c, create s bus order = .ok c) ↔ s.acceptors ≠ [] ∧ s.learners ≠ [] ∧ s.ids.Nodup := by
  rw [← Setup.defect?_eq_none_iff]
  unfold create
  cases s.defect? <;> simp

theorem nodes_create (h : create s bus order = .ok c) : c.nodes = table s.freshNodes := by
  unfold create at h
  split at h
  · cases h
  · obtain rfl := Except.ok.inj h
    rfl

theorem proposer_quorum_create (h : create s bus order = .ok c) {id : NodeId} {p : Proposer V}
    (hp : c.proposer? id = some p) : p.quorum = quorumSize s.acceptors.length := by
  obtain ⟨n, hn, hr⟩ := World.proposer?_eq_some_iff (w := c.world).mp hp
  have hfresh := Setup.mem_freshNodes.mp ((node?_create h).mp hn).1
  rcases hfresh with ⟨_, _, rfl⟩ | ⟨_, _, rfl⟩ | ⟨_, _, rfl⟩
  · cases hr
  · cases hr
  · obtain rfl := Role.proposer.inj hr
    rfl

/-- A learner counts each name once, which are all of them. -/
theorem learner_quorum_create (h : create s bus order = .ok c) {id : NodeId} {l : Learner V}
    (hl : c.learner? id = some l) : l.tally.quorum = quorumSize s.acceptors.length := by
  have hnodup := Setup.nodup_acceptors (Setup.defect?_eq_none_iff.mp (create_eq_ok h).1).2.2
  obtain ⟨n, hn, hr⟩ := World.learner?_eq_some_iff (w := c.world).mp hl
  have hfresh := Setup.mem_freshNodes.mp ((node?_create h).mp hn).1
  rcases hfresh with ⟨_, _, rfl⟩ | ⟨_, _, rfl⟩ | ⟨_, _, rfl⟩
  · cases hr
  · obtain rfl := Role.learner.inj hr
    simp [Learner.ofAcceptors, Tally.ofSize, distinct_eq_self hnodup]
  · cases hr

theorem constructed_create (s : Setup V) (bus order : σ) :
    Constructed s (create s bus order) := by
  have hnodup {c : Cluster V σ} (h : create s bus order = .ok c) : s.ids.Nodup :=
    (exists_create_iff.mp ⟨c, h⟩).2.2
  have hascending {c : Cluster V σ} (h : create s bus order = .ok c) : Ascending c.nodes :=
    nodes_create h ▸ ascending_table _
  have hflat {c : Cluster V σ} (h : create s bus order = .ok c) :
      c.nodes.Perm s.roleTables.flatten :=
    (create_eq_ok h).2.1.trans (Setup.registered_perm (hnodup h)).2.symm
  refine ⟨exists_create_iff, fun e => create_eq_error_iff, ?_, ?_, ?_, ?_⟩
  · exact fun h => ⟨ids_create h, List.pairwise_map.mpr (hascending h)⟩
  · intro c h
    refine ⟨?_, hflat h⟩
    apply (hascending h).eq_of_perm s.ascending_registered
    exact (hflat h).trans (Setup.registered_perm (hnodup h)).1.symm
  · intro c h nodes hnodes n hn
    apply (node?_eq_some_iff (nodup_ids_create h)).mpr
    exact ⟨(hflat h).mem_iff.mpr (List.mem_flatten.mpr ⟨nodes, hnodes, hn⟩), rfl⟩
  · intro c h x y p l hp hl
    rw [proposer_quorum_create h hp, learner_quorum_create h hl]

/-- There is a cluster of exactly the setups that name an acceptor and a learner and no node twice;
else a missing acceptor is reported, or else a missing learner, or else the first name that equals
an earlier one. The table of all nodes has one entry for each name, which is the node in the table
of its role, and all proposers and learners wait for as many answers. This holds for all sources of
orders, those that follow from a seed among them. -/
theorem construction_exact (s : Setup V) :
    (∀ bus order : σ, Constructed s (create s bus order)) ∧
      ∀ entropy, Constructed s (ofSetup s entropy) :=
  ⟨constructed_create s, fun _ => constructed_create s _ _⟩

/-- The proposer `A2` bears the name of an acceptor, and so does the learner `A1`. -/
def homonymous : Setup String where
  acceptors := [⟨"A1"⟩, ⟨"A2"⟩]
  learners := [⟨"L1"⟩, ⟨"A1"⟩]
  candidates := [⟨⟨"A2"⟩, "x"⟩]

theorem construction_exact_of_homonymous :
    create homonymous () () = .error (.duplicate ⟨"A1"⟩) ∧
      ∃ c, ofSetup (trio.withSeed 7) 0 = .ok c ∧ c.nodes = (trio.withSeed 7).registered := by
  obtain ⟨hunsound, -⟩ := construction_exact homonymous
  have hids : homonymous.ids = [⟨"A1"⟩, ⟨"A2"⟩, ⟨"L1"⟩] ++ ⟨"A1"⟩ :: [⟨"A2"⟩] := rfl
  have hdefective : homonymous.Defective (.duplicate ⟨"A1"⟩) :=
    .duplicate (by decide) (by decide) hids (by decide) (by decide)
  obtain ⟨-, hsound⟩ : (∀ bus order : Unit, _) ∧ _ := construction_exact (trio.withSeed 7)
  obtain ⟨c, hc⟩ := (hsound 0).ok_iff.mpr (by decide)
  exact ⟨((hunsound () ()).error_iff _).mpr hdefective, c, hc, ((hsound 0).nodes hc).1⟩

end Cluster

end Synod
