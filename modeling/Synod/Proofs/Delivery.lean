import Mathlib.Algebra.GroupWithZero.Nat
import Synod.Proofs.Answers

/-! Handling one message. The message is gone and its answers are in flight; the node that handled
it is in its new state, and all others are as they were. -/

namespace Synod

variable {V : Type}

namespace World

/-- The work that a round of that leader leaves to be done. -/
def work (s : Setup V) (leader : NodeId) (w : World V) : Nat :=
  (w.flight.map fun m => m.body.work s).sum + (w.proposer? leader).elim 0 (·.due s)

section

variable {w : World V} {n : Node V} {id : NodeId} (hn : w.node? id = some n)
include hn

theorem role_of_acceptor? {a : Acceptor V} (h : w.acceptor? id = some a) :
    n.role = .acceptor a := by
  obtain ⟨k, hk, hr⟩ := acceptor?_eq_some_iff.mp h
  obtain rfl := Option.some.inj (hn.symm.trans hk)
  exact hr

theorem role_of_learner? {l : Learner V} (h : w.learner? id = some l) : n.role = .learner l := by
  obtain ⟨k, hk, hr⟩ := learner?_eq_some_iff.mp h
  obtain rfl := Option.some.inj (hn.symm.trans hk)
  exact hr

theorem role_of_proposer? {p : Proposer V} (h : w.proposer? id = some p) :
    n.role = .proposer p := by
  obtain ⟨k, hk, hr⟩ := proposer?_eq_some_iff.mp h
  obtain rfl := Option.some.inj (hn.symm.trans hk)
  exact hr

end

/-- One world follows another as a node handles a message. -/
def Delivered (w : World V) (n : Node V) (m : Message V) (role : Role V) (sent : List (Message V))
    (w' : World V) : Prop :=
  ∃ rest effects, w.flight = m ::ₘ rest ∧ Effect.messages n.id effects = sent ∧
    w' = { w with flight := rest }.settle { n with role } effects

theorem exists_delivered [Value V] {w : World V} {n : Node V} {m : Message V}
    {rest : Multiset (Message V)} {role : Role V} {sent : List (Message V)}
    (h : n.role.Answers m role sent) (hm : m.receiver = n.id) (hflight : w.flight = m ::ₘ rest) :
    ∃ n' effects, n.handle m.sender m.body = .ok (n', effects) ∧
      w.Delivered n m role sent ({ w with flight := rest }.settle n' effects) := by
  obtain ⟨effects, hhandle, hsent⟩ := h
  rw [hm] at hsent
  exact ⟨{ n with role }, effects, by simp [Node.handle, hhandle, Except.map],
    rest, effects, hflight, hsent, rfl⟩

theorem settle_proposer {w : World V} {n : Node V} {p : Proposer V} (hn : w.node? n.id = some n)
    (hr : n.role = .proposer p) (p' : Proposer V) (effects : List (Effect V)) :
    (w.settle { n with role := .proposer p' } effects).acceptor? = w.acceptor? ∧
      (w.settle { n with role := .proposer p' } effects).learner? = w.learner? ∧
      (w.settle { n with role := .proposer p' } effects).proposer? =
        Function.update w.proposer? n.id (some p') := by
  refine ⟨acceptor?_settle_of_eq ?_ effects, learner?_settle_of_eq ?_ effects,
    proposer?_settle _ _ effects⟩
  · simp [acceptor?, hn, Node.acceptor?, hr]
  · simp [learner?, hn, Node.learner?, hr]

/-- No fault has stopped a node, and the named nodes are down. -/
def Undisturbed (down : List NodeId) (w : World V) : Prop :=
  ∀ id n, w.node? id = some n → n.faulted = false ∧ (n.alive = true → id ∉ down)

section

variable {w w' : World V} {n : Node V} {m x : Message V} {role : Role V}
  {sent : List (Message V)} (h : w.Delivered n m role sent w')
include h

theorem Delivered.mem_flight (hx : x ∈ w.flight) : x = m ∨ x ∈ w'.flight := by
  obtain ⟨rest, effects, hflight, -, rfl⟩ := h
  rw [hflight] at hx
  exact (Multiset.mem_cons.mp hx).imp_right fun hx => Multiset.mem_add.mpr (.inl hx)

theorem Delivered.mem_flight_of_sent (hx : x ∈ sent) : x ∈ w'.flight := by
  obtain ⟨rest, effects, -, rfl, rfl⟩ := h
  exact Multiset.mem_add.mpr (.inr (Multiset.mem_coe.mpr hx))

theorem Delivered.mem_or_sent (hx : x ∈ w'.flight) : x ∈ w.flight ∨ x ∈ sent := by
  obtain ⟨rest, effects, hflight, rfl, rfl⟩ := h
  rw [hflight]
  exact (Multiset.mem_add.mp hx).imp (fun hx => Multiset.mem_cons_of_mem hx) Multiset.mem_coe.mp

theorem Delivered.mem_of_sent_nil (hsent : sent = []) (hx : x ∈ w'.flight) : x ∈ w.flight :=
  (h.mem_or_sent hx).resolve_right (by simp [hsent])

theorem Delivered.logged_or_sent (hx : .sent x ∈ w'.log) : .sent x ∈ w.log ∨ x ∈ sent := by
  obtain ⟨rest, effects, -, rfl, rfl⟩ := h
  exact (List.mem_append.mp hx).imp_right Effect.sent_mem_events.mp

theorem Delivered.undisturbed {down : List NodeId} (hn : w.node? n.id = some n)
    (hw : w.Undisturbed down) : w'.Undisturbed down := by
  obtain ⟨rest, effects, -, -, rfl⟩ := h
  intro id k hk
  rcases node?_settle_eq_some hk with ⟨rfl, rfl⟩ | ⟨-, hk⟩
  · exact hw n.id n hn
  · exact hw id k hk

theorem Delivered.of_acceptor {a a' : Acceptor V} (hn : w.node? n.id = some n)
    (hr : n.role = .acceptor a) (hr' : role = .acceptor a') :
    w'.acceptor? = Function.update w.acceptor? n.id (some a') ∧ w'.learner? = w.learner? ∧
      w'.proposer? = w.proposer? := by
  obtain ⟨rest, effects, -, -, rfl⟩ := h
  subst hr'
  refine ⟨acceptor?_settle _ _ effects, learner?_settle_of_eq ?_ effects,
    proposer?_settle_of_eq ?_ effects⟩
  · simp [learner?, hn, Node.learner?, hr]
  · simp [proposer?, hn, Node.proposer?, hr]

theorem Delivered.of_learner {l l' : Learner V} (hn : w.node? n.id = some n)
    (hr : n.role = .learner l) (hr' : role = .learner l') :
    w'.acceptor? = w.acceptor? ∧ w'.learner? = Function.update w.learner? n.id (some l') ∧
      w'.proposer? = w.proposer? := by
  obtain ⟨rest, effects, -, -, rfl⟩ := h
  subst hr'
  refine ⟨acceptor?_settle_of_eq ?_ effects, learner?_settle _ _ effects,
    proposer?_settle_of_eq ?_ effects⟩
  · simp [acceptor?, hn, Node.acceptor?, hr]
  · simp [proposer?, hn, Node.proposer?, hr]

theorem Delivered.of_proposer {p p' : Proposer V} {id : NodeId} (hid : n.id = id)
    (hn : w.node? n.id = some n) (hr : n.role = .proposer p) (hr' : role = .proposer p') :
    w'.acceptor? = w.acceptor? ∧ w'.learner? = w.learner? ∧ w'.proposer? id = some p' ∧
      ∀ other, other ≠ id → w'.proposer? other = w.proposer? other := by
  obtain ⟨rest, effects, -, -, rfl⟩ := h
  subst hr' hid
  obtain ⟨hacceptor, hlearner, hproposer⟩ :=
    settle_proposer (w := { w with flight := rest }) hn hr p' effects
  refine ⟨hacceptor, hlearner, ?_, fun other hne => ?_⟩
  · rw [hproposer, Function.update_self]
  · rw [hproposer, Function.update_of_ne hne]
    rfl

/-- Handling a message takes one unit of work if what it leaves to do is one less than the
message. -/
theorem Delivered.work_eq {s : Setup V} {leader : NodeId}
    (hwork : (sent.map fun m => m.body.work s).sum + (w'.proposer? leader).elim 0 (·.due s) + 1 =
      m.body.work s + (w.proposer? leader).elim 0 (·.due s)) :
    w'.work s leader + 1 = w.work s leader := by
  have hflight : (w'.flight.map fun m => m.body.work s).sum + m.body.work s =
      (w.flight.map fun m => m.body.work s).sum + (sent.map fun m => m.body.work s).sum := by
    obtain ⟨rest, effects, hflight, rfl, rfl⟩ := h
    rw [hflight]
    simp [settle]
    omega
  unfold work
  omega

end

section

variable {w : World V} {n : Node V} (hn : w.node? n.id = some n) (alive : Bool) (r : Remark V)
include hn

/-- A node that goes down or comes up stays what it is. -/
theorem settle_alive :
    (w.settle { n with alive } [.note r]).acceptor? = w.acceptor? ∧
      (w.settle { n with alive } [.note r]).learner? = w.learner? ∧
      (w.settle { n with alive } [.note r]).proposer? = w.proposer? ∧
      (w.settle { n with alive } [.note r]).flight = w.flight := by
  refine ⟨acceptor?_settle_of_eq ?_ _, learner?_settle_of_eq ?_ _, proposer?_settle_of_eq ?_ _,
    by simp [settle]⟩
  · simp [acceptor?, hn, Node.acceptor?]
  · simp [learner?, hn, Node.learner?]
  · simp [proposer?, hn, Node.proposer?]

theorem Undisturbed.settle_alive (hw : w.Undisturbed []) :
    (w.settle { n with alive } [.note r]).Undisturbed [] := by
  intro id k hk
  rcases node?_settle_eq_some hk with ⟨rfl, rfl⟩ | ⟨-, hk⟩
  · exact ⟨(hw n.id n hn).1, by simp⟩
  · exact hw id k hk

end

end World

end Synod
