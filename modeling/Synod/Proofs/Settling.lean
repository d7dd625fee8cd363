import Synod.Proofs.Quiescence
import Synod.Proofs.Rounds
import Synod.Proofs.Routing

/-! How fast a cluster settles. An answer is a stage closer to the end than the message that it
answers, and a tick lets every node that runs handle all that waits for it. So four ticks leave
nothing on the bus but what waits for nodes that do not run; where all nodes are up, these are the
nodes that a fault has stopped meanwhile. -/

namespace Synod

variable {V σ : Type}

/-! ## Stages -/

/-- How many answers can follow a message, each to the one before. -/
def Body.stage : Body V → Nat
  | .prepare _ => 3
  | .promise _ _ => 2
  | .accept _ => 1
  | .accepted _ | .learn _ => 0

theorem Body.stage_lt (body : Body V) : body.stage < 4 := by
  cases body <;> simp [stage]

theorem Role.Reaction.stage_lt [Value V] {role role' : Role V} {sender receiver : NodeId}
    {body sent : Body V} {effects : List (Effect V)}
    (h : Role.Reaction sender body role role' effects) (hsend : .send receiver sent ∈ effects) :
    sent.stage < body.stage := by
  cases h with
  | acceptor h =>
    cases h with
    | promise hb =>
      obtain ⟨-, rfl⟩ : receiver = sender ∧ sent = _ := by simpa using hsend
      exact Nat.lt_succ_self 2
    | refuse hb hle =>
      obtain ⟨-, rfl⟩ : receiver = sender ∧ sent = _ := by simpa using hsend
      exact Nat.lt_succ_self 2
    | vote hb =>
      rcases (by simpa [Effect.broadcast, eq_comm] using hsend) with ⟨-, rfl⟩ | ⟨-, rfl⟩
      · exact Nat.one_pos
      · exact Nat.one_pos
    | decline hb hlt => simp at hsend
    | ignore hp hv => simp at hsend
  | learner h => exact absurd hsend h.send_notMem
  | proposer h =>
    cases h with
    | conclude hc hphase hn =>
      obtain ⟨-, rfl⟩ : receiver ∈ _ ∧ _ = sent := by
        simpa [Proposer.conclude_snd, Effect.broadcast] using hsend
      exact Nat.lt_succ_self 1
    | _ => simp at hsend

/-! ## Values that can be compared -/

section

variable [Value V] (hcompare : ∀ a b : V, Value.same? a b ≠ none)
include hcompare

theorem Learner.exists_handle (l : Learner V) (sender : NodeId) (body : Body V) :
    ∃ out, l.handle sender body = .ok out := by
  cases body with
  | learn vote =>
    obtain ⟨l', effects, hlearn⟩ := l.exists_learn
      (fun _ _ _ => Tally.matches?_ne_none (hcompare _ _)) sender
    exact ⟨(l', effects), hlearn⟩
  | _ => exact ⟨_, rfl⟩

theorem Proposer.exists_handle (p : Proposer V) (sender : NodeId) (body : Body V) :
    ∃ out, p.handle sender body = .ok out := by
  cases body with
  | accepted vote =>
    unfold Proposer.handle Proposer.onAccepted
    dsimp only
    split
    · exact ⟨_, rfl⟩
    · split
      · rename_i hsame
        exact absurd hsame (hcompare _ _)
      · exact ⟨_, rfl⟩
      · exact ⟨_, rfl⟩
  | _ => exact ⟨_, rfl⟩

theorem Node.exists_handle (n : Node V) (sender : NodeId) (body : Body V) :
    ∃ out, n.handle sender body = .ok out := by
  unfold Node.handle Role.handle
  split
  · exact ⟨_, rfl⟩
  · rename_i l hrole
    obtain ⟨out, hout⟩ := l.exists_handle hcompare sender body
    rw [hout]
    exact ⟨_, rfl⟩
  · rename_i p hrole
    obtain ⟨out, hout⟩ := p.exists_handle hcompare sender body
    rw [hout]
    exact ⟨_, rfl⟩

theorem Node.fault_handleAll (n : Node V) (batch : List (Message V)) :
    (n.handleAll batch).fault = none := by
  induction batch generalizing n with
  | nil => rfl
  | cons m ms ih =>
    obtain ⟨out, hout⟩ := n.exists_handle hcompare m.sender m.body
    simp only [handleAll, hout]
    exact ih out.1

end

namespace Cluster

/-! ## Settling -/

/-- A message that waits for no node, or for one that does not run. -/
def Stranded (c : Cluster V σ) (m : Message V) : Prop :=
  ∀ n, c.node? m.receiver = some n → n.alive = false ∨ n.faulted = true

/-- All messages are of earlier stages than `k`, but for those that are stranded and for some of
that stage which wait for these nodes. -/
def SettledBut (c : Cluster V σ) (k : Nat) (ids : List NodeId) : Prop :=
  ∀ m ∈ c.bus.pending,
    m.body.stage < k ∨ c.Stranded m ∨ m.body.stage = k ∧ m.receiver ∈ ids

/-- Where a node does not run, what waits for it is stranded. -/
theorem SettledBut.of_stopped {c c' : Cluster V σ} {k : Nat} {id : NodeId} {ids : List NodeId}
    (h : c.SettledBut k (id :: ids))
    (hstopped : ∀ n, c.node? id = some n → n.alive = false ∨ n.faulted = true)
    (hnodes : c'.node? = c.node?) (hbus : c'.bus = c.bus) : c'.SettledBut k ids := by
  intro m hm
  rw [hbus] at hm
  unfold Stranded
  rw [hnodes]
  rcases h m hm with hlt | hstranded | ⟨heq, hmem⟩
  · exact .inl hlt
  · exact .inr (.inl hstranded)
  · rcases List.mem_cons.mp hmem with hid | hmem
    · exact .inr (.inl (hid ▸ hstopped))
    · exact .inr (.inr ⟨heq, hmem⟩)

variable [Value V] [Shuffler σ]

theorem SettledBut.stage_lt {c : Cluster V σ} {k : Nat} {id : NodeId} {ids : List NodeId}
    (h : c.SettledBut k ids) {n : Node V} (hn : c.node? id = some n) (hup : n.alive = true)
    (hf : n.faulted = false) {m : Message V} (hm : m ∈ Effect.messages id (c.turn n).effects) :
    m.body.stage < k := by
  obtain ⟨-, hsend⟩ := Effect.mem_messages.mp hm
  obtain ⟨asked, hasked, hreceiver, before, after, effects, hreaction, hmem⟩ :=
    exists_reaction_of_mem_turn hsend
  have hid : asked.receiver = id := hreceiver.trans (id_of_node? hn)
  have hstage : m.body.stage < asked.body.stage := hreaction.stage_lt hmem
  rcases h asked hasked with hlt | hstranded | ⟨heq, -⟩
  · omega
  · have hstopped := hstranded n (by rw [hid]; exact hn)
    simp [hup, hf] at hstopped
  · omega

/-- A visit settles what waits for the node. -/
theorem SettledBut.visit {c : Cluster V σ} {k : Nat} {id : NodeId} {ids : List NodeId}
    (h : c.SettledBut k (id :: ids)) : (c.visit id).1.SettledBut k ids := by
  cases hn : c.node? id with
  | none =>
    rw [visit_of_absent hn]
    exact h.of_stopped (by simp [hn]) rfl rfl
  | some n =>
    cases hf : n.faulted with
    | true =>
      rw [visit_of_faulted hn hf]
      exact h.of_stopped (by simp [hn, hf]) rfl rfl
    | false =>
      cases hup : n.alive with
      | false =>
        rw [visit_of_down hn hf hup]
        exact h.of_stopped (by simp [hn, hup]) rfl rfl
      | true =>
        intro m hm
        rw [pending_visit_of_up hn hup hf] at hm
        rcases List.mem_append.mp hm with hold | hnew
        · obtain ⟨hold, hne⟩ := List.mem_filter.mp hold
          have hne : m.receiver ≠ id := by simpa using hne
          unfold Stranded
          rw [node?_visit_of_up hn hup hf, Function.update_of_ne hne]
          rcases h m hold with hlt | hstranded | ⟨heq, hmem⟩
          · exact .inl hlt
          · exact .inr (.inl hstranded)
          · exact .inr (.inr ⟨heq, (List.mem_cons.mp hmem).resolve_left hne⟩)
        · exact .inl (h.stage_lt hn hup hf hnew)

theorem SettledBut.visitAll {c : Cluster V σ} {k : Nat} {ids : List NodeId}
    (h : c.SettledBut k ids) : (c.visitAll ids).1.SettledBut k [] := by
  induction ids generalizing c with
  | nil => exact h
  | cons id ids ih =>
    rw [visitAll_cons_fst]
    exact ih h.visit

/-- A tick settles one more stage. -/
theorem SettledBut.tick {c : Cluster V σ} {k : Nat} (h : c.SettledBut (k + 1) []) :
    c.tick.1.SettledBut k [] := by
  obtain ⟨order, ids, report, hperm, htick⟩ := c.exists_tick_fst
  rw [htick]
  apply visitAll (c := { c with order, ticks := c.ticks + 1 })
  intro m hm
  rcases h m hm with hlt | hstranded | ⟨-, hmem⟩
  · rcases Nat.lt_succ_iff_lt_or_eq.mp hlt with hlt | heq
    · exact .inl hlt
    · right
      -- Every node is visited, so the message waits for a visit or for no node at all.
      by_cases hmem : m.receiver ∈ c.ids
      · exact .inr ⟨heq, hperm.mem_iff.mpr hmem⟩
      · exact .inl fun n hn => absurd (mem_ids_of_node? hn) hmem
  · exact .inr (.inl hstranded)
  · exact absurd hmem (List.not_mem_nil)

theorem SettledBut.ticks {c : Cluster V σ} {k : Nat} (n : Nat) (h : c.SettledBut (n + k) []) :
    (c.run (List.replicate n .tick)).SettledBut k [] := by
  induction n generalizing c with
  | zero => simpa using h
  | succ n ih =>
    rw [List.replicate_succ, run_cons]
    exact ih (tick (by rwa [Nat.add_right_comm] at h))

/-! ## Deciding in time -/

/-- The loop ends at the first tick after which all have decided, or with its budget. -/
theorem exists_tickUntilDecided (budget : Nat) (c : Cluster V σ) : ∃ k ≤ budget,
    tickUntilDecided budget c = c.run (List.replicate k .tick) ∧
      (∀ j < k, ¬ (c.run (List.replicate j .tick)).allDecided = true) ∧
      (k < budget → (c.run (List.replicate k .tick)).allDecided = true) := by
  induction budget generalizing c with
  | zero => exact ⟨0, le_rfl, rfl, by simp, by simp⟩
  | succ budget ih =>
    unfold tickUntilDecided
    by_cases hall : c.allDecided = true
    · exact ⟨0, Nat.zero_le _, by simp [hall], by simp, fun _ => hall⟩
    · obtain ⟨k, hk, hticks, hbefore, hdecided⟩ := ih c.tick.1
      rw [if_neg hall]
      refine ⟨k + 1, Nat.succ_le_succ hk, hticks, ?_, fun hlt => ?_⟩
      · intro j hj
        cases j with
        | zero => exact hall
        | succ j => exact hbefore j (Nat.lt_of_succ_lt_succ hj)
      · exact hdecided (Nat.lt_of_succ_lt_succ hlt)

variable [LawfulValue V] {s : Setup V} {bus order : σ} {c : Cluster V σ}

theorem exists_decided_of_allDecided (h : create s bus order = .ok c) (ops : List (Operation V))
    (hall : (c.run ops).allDecided = true) : ∃ v, (c.run ops).decided? = some v := by
  have hids := nodup_ids_run h ops
  obtain ⟨-, hlearners, -⟩ := Setup.defect?_eq_none_iff.mp (create_eq_ok h).1
  obtain ⟨id, hid⟩ := List.exists_mem_of_ne_nil _ hlearners
  obtain ⟨l, hl⟩ := (sound_run h ops).exists_learner hid
  obtain ⟨vote, hvote⟩ := Option.isSome_iff_exists.mp ((allDecided_iff hids).mp hall id l hl)
  exact exists_decided_of_learned hids hl hvote

/-- Where so many ticks leave no message and no node is stopped, they are enough for a decision. -/
theorem decided_of_ticks (h : create s bus order = .ok c) (ops : List (Operation V)) (budget : Nat)
    (hcalm : ∀ n ∈ (c.run (ops ++ List.replicate budget .tick)).nodes, n.faulted = false)
    (hempty : (c.run (ops ++ List.replicate budget .tick)).bus.pending = []) {b : Ballot}
    {value : V} (hround : c.RoundStarted ops b value) :
    ((c.run ops).runUntilDecided budget).1.allDecided = true ∧
      ∃ v, ((c.run ops).runUntilDecided budget).2 = some v := by
  obtain ⟨k, hk, hticks, -, hdecided⟩ := exists_tickUntilDecided budget (c.run ops)
  rw [← run_append] at hticks hdecided
  -- The ticks have ended early with a decision, or all of them were needed.
  have hall : (c.run (ops ++ List.replicate k .tick)).allDecided = true := by
    rcases Nat.lt_or_eq_of_le hk with hlt | rfl
    · exact hdecided hlt
    · have hstarted := (roundStarted_iff h).mp hround
      apply allDecided_of_quiescent h _ hcalm hempty
      exact ⟨b.proposer, b, value, c.log_subset_run ops _ hstarted⟩
  obtain ⟨v, hv⟩ := exists_decided_of_allDecided h _ hall
  unfold runUntilDecided
  rw [hticks]
  exact ⟨hall, v, by simp [hall, hv]⟩

omit [LawfulValue V] in
/-- Four ticks of nodes that are up leave messages only to nodes that a fault has stopped. -/
theorem faulted_of_pending (h : create s bus order = .ok c) (ops : List (Operation V))
    (hup : ∀ n ∈ (c.run ops).nodes, n.alive = true) {m : Message V}
    (hm : m ∈ (c.run (ops ++ List.replicate 4 .tick)).bus.pending) :
    ∃ n, (c.run (ops ++ List.replicate 4 .tick)).node? m.receiver = some n ∧
      n.faulted = true := by
  have hsettled : (c.run (ops ++ List.replicate 4 .tick)).SettledBut 0 [] := by
    rw [run_append]
    exact SettledBut.ticks 4 fun m _ => .inl m.body.stage_lt
  obtain ⟨n, hn⟩ := exists_receiver h _ hm
  rcases hsettled m hm with hlt | hstranded | ⟨-, hmem⟩
  · exact absurd hlt (Nat.not_lt_zero _)
  · have halive : n.alive = true := by
      rw [run_append] at hn
      apply forall_node_ticks Node.alive_result _ 4 m.receiver n hn
      exact fun id n hn => hup n (List.mem_of_find?_eq_some hn)
    exact ⟨n, hn, by simpa [halive] using hstranded n hn⟩
  · exact absurd hmem List.not_mem_nil

omit [LawfulValue V] in
/-- Where any two values can be compared, no tick stops a node. -/
theorem faulted_ticks (hcompare : ∀ a b : V, Value.same? a b ≠ none) {c : Cluster V σ}
    (hids : c.ids.Nodup) (hcalm : ∀ n ∈ c.nodes, n.faulted = false) (k : Nat) :
    ∀ n ∈ (c.run (List.replicate k .tick)).nodes, n.faulted = false := by
  intro n hn
  rw [← c.ids_run (List.replicate k .tick)] at hids
  apply forall_node_ticks ?_ ?_ k n.id n ((node?_eq_some_iff hids).mpr ⟨hn, rfl⟩)
  · intro n batch _
    simp [Node.Turn.result, n.fault_handleAll hcompare batch]
  · exact fun id n hn => hcalm n (List.mem_of_find?_eq_some hn)

/-- Where all nodes run, four ticks leave messages only to nodes that a fault has stopped in these
ticks. Where no fault stops a node, as when any two values can be compared, they leave no message,
and if a round was ever started they are enough for a decision of all learners. -/
theorem settled_of_four_ticks (h : create s bus order = .ok c) (ops : List (Operation V))
    (hup : ∀ n ∈ (c.run ops).nodes, n.alive = true ∧ n.faulted = false) :
    (∀ m ∈ (c.run (ops ++ List.replicate 4 .tick)).bus.pending,
      ∃ n, (c.run (ops ++ List.replicate 4 .tick)).node? m.receiver = some n ∧
        n.faulted = true) ∧
    (((∀ a b : V, Value.same? a b ≠ none) ∨
        ∀ n ∈ (c.run (ops ++ List.replicate 4 .tick)).nodes, n.faulted = false) →
      (c.run (ops ++ List.replicate 4 .tick)).bus.pending = [] ∧
      ((∃ b value, c.RoundStarted ops b value) →
        ((c.run ops).runUntilDecided 4).1.allDecided = true ∧
        ∃ v, ((c.run ops).runUntilDecided 4).2 = some v)) := by
  have hfaulted {m : Message V} (hm : m ∈ (c.run (ops ++ List.replicate 4 .tick)).bus.pending) :=
    faulted_of_pending h ops (fun n hn => (hup n hn).1) hm
  refine ⟨fun m => hfaulted, fun hfine => ?_⟩
  have hcalm : ∀ n ∈ (c.run (ops ++ List.replicate 4 .tick)).nodes, n.faulted = false := by
    rcases hfine with hcompare | hcalm
    · rw [run_append]
      exact faulted_ticks hcompare (nodup_ids_run h ops) (fun n hn => (hup n hn).2) 4
    · exact hcalm
  have hempty : (c.run (ops ++ List.replicate 4 .tick)).bus.pending = [] := by
    apply List.eq_nil_iff_forall_not_mem.mpr
    intro m hm
    obtain ⟨n, hn, hf⟩ := hfaulted hm
    simp [hcalm n (List.mem_of_find?_eq_some hn)] at hf
  refine ⟨hempty, ?_⟩
  rintro ⟨b, value, hround⟩
  exact decided_of_ticks h ops 4 hcalm hempty hround

/-- A second round is started, and messages of the first wait for an acceptor that was down. -/
def backlog : List (Operation String) :=
  firstRound ++ [.recover ⟨"A3"⟩, .propose ⟨"P2"⟩ none]

theorem settled_of_four_ticks_rivals :
    ((ofTrio []).run (backlog ++ List.replicate 4 .tick)).bus.pending = [] ∧
      ∃ v, (((ofTrio []).run backlog).runUntilDecided 4).2 = some v := by
  have hcompare : ∀ a b : String, Value.same? a b ≠ none := by simp [Value.same?]
  have hround : (ofTrio []).RoundStarted backlog ⟨1, ⟨"P1"⟩⟩ "x" :=
    (roundStarted_iff (create_trio [])).mpr (by decide +kernel)
  obtain ⟨-, hsettled⟩ := settled_of_four_ticks (create_trio []) backlog (by decide +kernel)
  obtain ⟨hempty, hdecided⟩ := hsettled (.inl hcompare)
  exact ⟨hempty, (hdecided ⟨_, _, hround⟩).2⟩

/-! ### Values that cannot be compared -/

/-- Three acceptors, a learner and a proposer of the value that cannot be compared. -/
def explosive : Setup Fragile where
  acceptors := [⟨"A1"⟩, ⟨"A2"⟩, ⟨"A3"⟩]
  learners := [⟨"L1"⟩]
  candidates := [⟨⟨"P1"⟩, ⟨"BOOM"⟩⟩]

/-- The second tick visits the learner between two acceptors. -/
def ofExplosive : Cluster Fragile Script where
  nodes := explosive.freshNodes
  bus := .empty ⟨[]⟩
  order := ⟨[[], [0, 0, 1]]⟩
  log := #[.created]

/-- The learner is stopped as it compares two votes, before the third one is sent to it. So that
vote waits for ever, and there is no decision. -/
theorem unsettled_of_explosive :
    create explosive ⟨[]⟩ ⟨[[], [0, 0, 1]]⟩ = .ok ofExplosive ∧
      (∀ n ∈ (ofExplosive.run [.propose ⟨"P1"⟩ none]).nodes,
        n.alive = true ∧ n.faulted = false) ∧
      (∃ b value, ofExplosive.RoundStarted [.propose ⟨"P1"⟩ none] b value) ∧
      (ofExplosive.run ([.propose ⟨"P1"⟩ none] ++ List.replicate 4 .tick)).bus.pending ≠ [] ∧
      ((ofExplosive.run [.propose ⟨"P1"⟩ none]).runUntilDecided 4).2 = none := by
  have hcreate : create explosive ⟨[]⟩ ⟨[[], [0, 0, 1]]⟩ = .ok ofExplosive := rfl
  have hround : ofExplosive.RoundStarted [.propose ⟨"P1"⟩ none] ⟨1, ⟨"P1"⟩⟩ ⟨"BOOM"⟩ :=
    (roundStarted_iff hcreate).mpr (by decide +kernel)
  exact ⟨hcreate, by decide +kernel, ⟨_, _, hround⟩, by decide +kernel, by decide +kernel⟩

end Cluster

end Synod
