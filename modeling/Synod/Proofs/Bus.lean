import Mathlib.Algebra.BigOperators.Group.Finset.Basic
import Mathlib.Algebra.Order.BigOperators.Group.Multiset
import Mathlib.Data.List.DropRight
import Synod.Bus
import Synod.Proofs.Schedule

/-! What a bus does over time. Whatever is sent to a node is handed over by the next drain of that
node, once and unaltered; until then it waits. -/

namespace Synod

variable {V σ : Type}

namespace Bus

/-! ### Calls -/

/-- What is asked of a bus. All handles of a bus share its state, so calls through several of them
are one sequence of calls. -/
inductive Call (V : Type) where
  | send (message : Message V)
  | broadcast (sender : NodeId) (receivers : List NodeId) (body : Body V)
  | drain (node : NodeId)
deriving DecidableEq

/-- The messages that a call puts on the bus. -/
def Call.sent : Call V → List (Message V)
  | send message => [message]
  | broadcast sender receivers body => receivers.map fun receiver => ⟨sender, receiver, body⟩
  | drain _ => []

/-- The messages to a node that calls put on the bus, in their order. -/
def sentTo (node : NodeId) (calls : List (Call V)) : List (Message V) :=
  (calls.flatMap Call.sent).filter (·.receiver = node)

def Call.isDrain (node : NodeId) : Call V → Bool
  | drain drained => drained = node
  | _ => false

/-- The calls after the last drain of a node. -/
def sinceDrain (node : NodeId) (calls : List (Call V)) : List (Call V) :=
  calls.rtakeWhile fun call => !call.isDrain node

section

variable [Shuffler σ]

/-- A call, with the batch it hands over where it drains a node. -/
def call (bus : Bus V σ) : Call V → Option (NodeId × List (Message V)) × Bus V σ
  | .send message => (none, bus.send message)
  | .broadcast sender receivers body => (none, bus.broadcast sender receivers body)
  | .drain node =>
    let (batch, bus) := bus.drain node
    (some (node, batch), bus)

def callAll (bus : Bus V σ) (calls : List (Call V)) : Bus V σ :=
  calls.foldl (fun bus call => (bus.call call).2) bus

/-- What calls hand over, batch by batch. -/
def batches (bus : Bus V σ) : List (Call V) → List (NodeId × List (Message V))
  | [] => []
  | call :: calls => (bus.call call).1.toList ++ batches (bus.call call).2 calls

/-- All that calls hand over for a node. -/
def handedTo (bus : Bus V σ) (node : NodeId) (calls : List (Call V)) : List (Message V) :=
  ((bus.batches calls).filter (·.1 = node)).flatMap Prod.snd

end

/-! ### One call -/

@[simp] theorem sentTo_append (node : NodeId) (calls later : List (Call V)) :
    sentTo node (calls ++ later) = sentTo node calls ++ sentTo node later := by
  simp [sentTo]

theorem sinceDrain_concat (node : NodeId) (calls : List (Call V)) (call : Call V) :
    sinceDrain node (calls ++ [call]) =
      if call.isDrain node then [] else sinceDrain node calls ++ [call] := by
  rw [sinceDrain, List.rtakeWhile_concat]
  cases call.isDrain node <;> rfl

variable [Shuffler σ]

theorem callAll_concat (bus : Bus V σ) (calls : List (Call V)) (call : Call V) :
    bus.callAll (calls ++ [call]) = ((bus.callAll calls).call call).2 := by
  simp [callAll]

theorem batches_concat (bus : Bus V σ) (calls : List (Call V)) (call : Call V) :
    bus.batches (calls ++ [call]) =
      bus.batches calls ++ ((bus.callAll calls).call call).1.toList := by
  induction calls generalizing bus with
  | nil => simp [batches, callAll]
  | cons first calls ih =>
    rw [List.cons_append, batches, batches, ih, List.append_assoc]
    rfl

theorem inbox_call (bus : Bus V σ) (call : Call V) (node : NodeId) :
    (bus.call call).2.inbox node =
      if call.isDrain node then [] else bus.inbox node ++ sentTo node [call] := by
  cases call with
  | send message => simp [Bus.call, send, inbox, sentTo, Call.sent, Call.isDrain]
  | broadcast sender receivers body =>
    simp [Bus.call, broadcast, inbox_sendAll, sentTo, Call.sent, Call.isDrain]
  | drain drained =>
    by_cases h : drained = node
    · subst h
      simp [Bus.call, Call.isDrain]
    · simp [Bus.call, Call.isDrain, h, inbox_drain_of_ne bus (Ne.symm h), sentTo, Call.sent]

theorem handedTo_concat (bus : Bus V σ) (node : NodeId) (calls : List (Call V)) (call : Call V) :
    bus.handedTo node (calls ++ [call]) = bus.handedTo node calls ++
      if call.isDrain node then ((bus.callAll calls).drain node).1 else [] := by
  rw [handedTo, batches_concat, List.filter_append, List.flatMap_append]
  cases call with
  | send message => simp [handedTo, Bus.call, Call.isDrain]
  | broadcast sender receivers body => simp [handedTo, Bus.call, Call.isDrain]
  | drain drained =>
    by_cases h : drained = node
    · subst h
      simp [handedTo, Bus.call, Call.isDrain]
    · simp [handedTo, Bus.call, Call.isDrain, h]

/-! ### What waits -/

/-- What waits for a node are the messages to it since it was last drained, in their order. -/
theorem inbox_callAll (source : σ) (calls : List (Call V)) (node : NodeId) :
    ((empty source).callAll calls).inbox node = sentTo node (sinceDrain node calls) := by
  induction calls using List.reverseRecOn with
  | nil => rfl
  | append_singleton calls call ih =>
    rw [callAll_concat, inbox_call, ih, sinceDrain_concat]
    split
    · rfl
    · exact (sentTo_append node _ _).symm

/-- Whatever was sent to a node was handed over for it or waits. -/
theorem handedTo_append_inbox_perm (source : σ) (calls : List (Call V)) (node : NodeId) :
    ((empty source).handedTo node calls ++ ((empty source).callAll calls).inbox node).Perm
      (sentTo node calls) := by
  induction calls using List.reverseRecOn with
  | nil => exact .refl _
  | append_singleton calls call ih =>
    have hsent : sentTo node (calls ++ [call]) = sentTo node calls ++ sentTo node [call] :=
      sentTo_append node calls [call]
    rw [handedTo_concat, callAll_concat, inbox_call, hsent]
    cases hdrain : call.isDrain node with
    | true =>
      -- The batch is what was waiting, and a drain sends nothing.
      have hnone : sentTo node [call] = [] := by
        cases call <;> simp_all [Call.isDrain, sentTo, Call.sent]
      have hbatch := drain_fst_perm ((empty source).callAll calls) node
      simpa [hnone] using (hbatch.append_left _).trans ih
    | false => simpa using ih.append_right (sentTo node [call])

theorem receiver_of_mem_batches {bus : Bus V σ} {calls : List (Call V)}
    {batch : NodeId × List (Message V)} (hbatch : batch ∈ bus.batches calls) {m : Message V}
    (hm : m ∈ batch.2) : m.receiver = batch.1 := by
  induction calls generalizing bus with
  | nil => simp [batches] at hbatch
  | cons call calls ih =>
    rcases List.mem_append.mp hbatch with hfirst | hrest
    · cases call with
      | send message => simp [Bus.call] at hfirst
      | broadcast sender receivers body => simp [Bus.call] at hfirst
      | drain node =>
        obtain rfl : batch = (node, (bus.drain node).1) := by simpa [Bus.call] using hfirst
        have hinbox := (bus.drain_fst_perm node).mem_iff.mp hm
        simpa [inbox] using (List.mem_filter.mp hinbox).2
    · exact ih hrest

/-! ### How much waits -/

omit [Shuffler σ] in
/-- The total is the sum over any receivers among which are those of all that waits. -/
theorem pendingCount_eq_sum (bus : Bus V σ) {receivers : Finset NodeId}
    (h : ∀ m ∈ bus.pending, m.receiver ∈ receivers) :
    bus.pendingCount = ∑ r ∈ receivers, bus.pendingFor r := by
  have hcount (r : NodeId) :
      bus.pendingFor r = (bus.pending.map Message.receiver : Multiset NodeId).count r := by
    rw [Multiset.coe_count, List.count_eq_countP, List.countP_map, List.countP_eq_length_filter]
    exact congrArg List.length (List.filter_congr fun m _ => by simp [beq_eq_decide])
  have hall : ∀ r ∈ (bus.pending.map Message.receiver : Multiset NodeId), r ∈ receivers := by
    intro r hr
    obtain ⟨m, hm, rfl⟩ := List.mem_map.mp (Multiset.mem_coe.mp hr)
    exact h m hm
  simp_rw [hcount]
  rw [Multiset.sum_count_eq_card hall, Multiset.coe_card, List.length_map]
  rfl

theorem mem_flatMap_sent_of_pending {source : σ} {calls : List (Call V)} {m : Message V}
    (hm : m ∈ ((empty source).callAll calls).pending) : m ∈ calls.flatMap Call.sent := by
  have hinbox : m ∈ ((empty source).callAll calls).inbox m.receiver :=
    List.mem_filter.mpr ⟨hm, by simp⟩
  have hsent := (handedTo_append_inbox_perm source calls m.receiver).mem_iff.mp
    (List.mem_append_right _ hinbox)
  exact List.mem_of_mem_filter hsent

/-! ### Exactly once -/

/-- After any calls a drain of a node hands over the messages to it since it was last drained, in
some order, and leaves those for others waiting in theirs. So what was sent to a node was handed
over for it, to it alone, or still waits, and the numbers of what waits add up. -/
theorem exactly_once (source : σ) (calls : List (Call V)) :
    (∀ node,
      (((empty source).callAll calls).drain node).1.Perm (sentTo node (sinceDrain node calls)) ∧
      (((empty source).callAll calls).drain node).2.pending =
        ((empty source).callAll calls).pending.filter (·.receiver ≠ node) ∧
      ((empty source).handedTo node calls ++ ((empty source).callAll calls).inbox node).Perm
        (sentTo node calls) ∧
      ((empty source).handedTo node calls).length +
        ((empty source).callAll calls).pendingFor node = (sentTo node calls).length) ∧
    (∀ batch ∈ (empty source).batches calls, ∀ m ∈ batch.2, m.receiver = batch.1) ∧
    ∀ receivers : Finset NodeId, (∀ m ∈ calls.flatMap Call.sent, m.receiver ∈ receivers) →
      ((empty source).callAll calls).pendingCount =
        ∑ r ∈ receivers, ((empty source).callAll calls).pendingFor r := by
  refine ⟨fun node => ⟨?_, rfl, handedTo_append_inbox_perm source calls node, ?_⟩, ?_, ?_⟩
  · rw [← inbox_callAll source]
    exact drain_fst_perm _ node
  · have hlength := (handedTo_append_inbox_perm source calls node).length_eq
    rwa [List.length_append] at hlength
  · intro batch hbatch m hm
    exact receiver_of_mem_batches hbatch hm
  · intro receivers hreceivers
    apply pendingCount_eq_sum
    intro m hm
    exact hreceivers m (mem_flatMap_sent_of_pending hm)

/-- A broadcast that names a receiver twice, and a drain between two sends of one message. -/
def exchange : List (Call String) :=
  [.broadcast ⟨"P1"⟩ [⟨"A1"⟩, ⟨"A2"⟩, ⟨"A1"⟩] (.prepare ⟨1, ⟨"P1"⟩⟩), .drain ⟨"A1"⟩,
    .send ⟨⟨"P1"⟩, ⟨"A1"⟩, .prepare ⟨1, ⟨"P1"⟩⟩⟩]

theorem exactly_once_of_exchange :
    (∀ m ∈ exchange.flatMap Call.sent, m.receiver ∈ ({⟨"A1"⟩, ⟨"A2"⟩} : Finset NodeId)) ∧
      (sentTo ⟨"A1"⟩ exchange).length = 3 ∧
      ((empty (⟨[[1]]⟩ : Script)).handedTo ⟨"A1"⟩ exchange).length = 2 ∧
      ((empty (⟨[[1]]⟩ : Script)).callAll exchange).pendingFor ⟨"A1"⟩ = 1 ∧
      ((empty (⟨[[1]]⟩ : Script)).callAll exchange).pendingCount =
        ∑ r ∈ {⟨"A1"⟩, ⟨"A2"⟩}, ((empty (⟨[[1]]⟩ : Script)).callAll exchange).pendingFor r := by
  have hreceivers : ∀ m ∈ exchange.flatMap Call.sent,
      m.receiver ∈ ({⟨"A1"⟩, ⟨"A2"⟩} : Finset NodeId) := by decide
  obtain ⟨hnodes, -, hsum⟩ := exactly_once (⟨[[1]]⟩ : Script) exchange
  have hhanded : ((empty (⟨[[1]]⟩ : Script)).handedTo ⟨"A1"⟩ exchange).length = 2 := by decide
  have hsent : (sentTo ⟨"A1"⟩ exchange).length = 3 := by decide
  obtain ⟨-, -, -, hlength⟩ := hnodes ⟨"A1"⟩
  exact ⟨hreceivers, hsent, hhanded, by omega, hsum _ hreceivers⟩

end Bus

end Synod
