import Synod.Proofs.Answers
import Synod.Proofs.Visit

/-! What an acceptor is bound to. All that it holds and all that it answers can be read off the
messages it has handled: its promise is the latest ballot among them, its vote the last accept that
no earlier message was above. -/

namespace Synod

variable {V σ : Type}

/-! ## Bids and their past -/

/-- Each entry of a list, with all that was there before it. -/
def moments {α : Type} (past : List α) : List α → List (List α × α)
  | [] => []
  | x :: xs => (past, x) :: moments (past ++ [x]) xs

theorem moments_append {α : Type} (past xs ys : List α) :
    moments past (xs ++ ys) = moments past xs ++ moments (past ++ xs) ys := by
  induction xs generalizing past with
  | nil => simp [moments]
  | cons x xs ih => simp [moments, ih]

theorem mem_of_mem_moments {α : Type} {past xs before : List α} {x : α}
    (h : (before, x) ∈ moments past xs) : x ∈ xs := by
  induction xs generalizing past with
  | nil => simp [moments] at h
  | cons y xs ih =>
    rcases List.mem_cons.mp h with h | h
    · simp [(Prod.mk.inj h).2]
    · exact List.mem_cons_of_mem _ (ih h)

/-- The ballot that a message bids an acceptor to take part in. -/
def Body.bid? : Body V → Option Ballot
  | .prepare b => some b
  | .accept vote => some vote.ballot
  | _ => none

/-- The ballots of the prepares and accepts among messages. -/
def bids (ms : List (Message V)) : List Ballot := ms.filterMap (·.body.bid?)

/-- The vote that a message obtains after others: that of an accept which none of them was above. -/
def obtained? (past : List (Message V)) (m : Message V) : Option (Vote V) :=
  match m.body with
  | .accept vote => if ∀ b ∈ bids past, b ≤ vote.ballot then some vote else none
  | _ => none

/-- The votes that messages obtain, in their order. -/
def obtained (ms : List (Message V)) : List (Vote V) :=
  (moments [] ms).filterMap fun (past, m) => obtained? past m

/-- What an acceptor is bound to by the messages it has handled. -/
def Pledge.ofHandled (ms : List (Message V)) : Pledge V where
  promised := (bids ms).max?
  accepted := (obtained ms).getLast?

/-- What an acceptor sends because of a message, after others. -/
def Acceptor.reply (learners : List NodeId) (past : List (Message V)) (m : Message V) :
    List (Message V) :=
  match m.body with
  | .prepare b =>
    if ∀ earlier ∈ bids past, earlier < b then
      [⟨m.receiver, m.sender, .promise b (obtained past).getLast?⟩]
    else [⟨m.receiver, m.sender, .promise ((bids past).max?.getD b) none⟩]
  | .accept vote =>
    if ∀ earlier ∈ bids past, earlier ≤ vote.ballot then
      ⟨m.receiver, m.sender, .accepted vote⟩ ::
        learners.map fun l => ⟨m.receiver, l, .learn vote⟩
    else []
  | _ => []

/-- What an acceptor sends because of a batch, after other messages. -/
def Acceptor.replies (learners : List NodeId) (past batch : List (Message V)) :
    List (Message V) :=
  (moments past batch).flatMap fun (before, m) => reply learners before m

/-! ### One message more -/

theorem bids_concat (ms : List (Message V)) (m : Message V) :
    bids (ms ++ [m]) = bids ms ++ m.body.bid?.toList := by
  cases h : m.body.bid? <;> simp [bids, h]

theorem obtained_concat (ms : List (Message V)) (m : Message V) :
    obtained (ms ++ [m]) = obtained ms ++ (obtained? ms m).toList := by
  cases h : obtained? ms m <;> simp [obtained, moments_append, moments, h]

theorem obtained?_eq_some_iff {past : List (Message V)} {m : Message V} {vote : Vote V} :
    obtained? past m = some vote ↔
      m.body = .accept vote ∧ ∀ b ∈ bids past, b ≤ vote.ballot := by
  cases hbody : m.body with
  | accept u =>
    simp only [obtained?, hbody, Option.ite_none_right_eq_some, Option.some.injEq,
      Body.accept.injEq]
    constructor
    · rintro ⟨hle, rfl⟩
      exact ⟨rfl, hle⟩
    · rintro ⟨rfl, hle⟩
      exact ⟨hle, rfl⟩
  | _ => simp [obtained?, hbody]

theorem exists_max?_ge {bs : List Ballot} {c : Ballot} (hc : c ∈ bs) :
    ∃ m, bs.max? = some m ∧ c ≤ m := by
  cases hmax : bs.max? with
  | none => simp [List.max?_eq_none_iff.mp hmax] at hc
  | some m => exact ⟨m, rfl, (List.max?_eq_some_iff.mp hmax).2 c hc⟩

theorem forall_lt_of_max? {bs : List Ballot} {b : Ballot} (h : ∀ m, bs.max? = some m → m < b) :
    ∀ c ∈ bs, c < b := by
  intro c hc
  obtain ⟨m, hm, hle⟩ := exists_max?_ge hc
  exact hle.trans_lt (h m hm)

theorem forall_le_of_max? {bs : List Ballot} {b : Ballot} (h : ∀ m, bs.max? = some m → m ≤ b) :
    ∀ c ∈ bs, c ≤ b := by
  intro c hc
  obtain ⟨m, hm, hle⟩ := exists_max?_ge hc
  exact hle.trans (h m hm)

theorem max?_concat_of_le {bs : List Ballot} {b : Ballot} (h : ∀ c ∈ bs, c ≤ b) :
    (bs ++ [b]).max? = some b := by
  refine List.max?_eq_some_iff.mpr ⟨by simp, fun c hc => ?_⟩
  rcases List.mem_append.mp hc with hc | hc
  · exact h c hc
  · exact (List.mem_singleton.mp hc).le

theorem max?_concat_of_max? {bs : List Ballot} {b m : Ballot} (hm : bs.max? = some m)
    (hle : b ≤ m) : (bs ++ [b]).max? = some m := by
  obtain ⟨hmem, hmax⟩ := List.max?_eq_some_iff.mp hm
  refine List.max?_eq_some_iff.mpr ⟨by simp [hmem], fun c hc => ?_⟩
  rcases List.mem_append.mp hc with hc | hc
  · exact hmax c hc
  · exact (List.mem_singleton.mp hc).le.trans hle

namespace Acceptor

/-- One message more: the acceptor is bound to what it has handled then, and what it sends is told
by its past. -/
theorem Reaction.ofHandled {learners : List NodeId} {past : List (Message V)} {m : Message V}
    {a : Acceptor V} {effects : List (Effect V)}
    (h : Reaction ⟨learners, .ofHandled past⟩ m.sender m.body a effects) :
    a = ⟨learners, .ofHandled (past ++ [m])⟩ ∧
      Effect.messages m.receiver effects = reply learners past m := by
  obtain ⟨sender, receiver, body⟩ := m
  simp only [Pledge.ofHandled, bids_concat, obtained_concat, reply, obtained?] at h ⊢
  cases h with
  | @promise b hlt =>
    have hbelow : ∀ c ∈ bids past, c < b := forall_lt_of_max? hlt
    have hmax := max?_concat_of_le fun c hc => (hbelow c hc).le
    simp [Body.bid?, hmax, if_pos hbelow]
  | @refuse b bound hm hle =>
    have hnot : ¬ ∀ c ∈ bids past, c < b := fun h =>
      not_lt_of_ge hle (h bound (List.max?_mem hm))
    have hmax := max?_concat_of_max? hm hle
    simp only at hm
    simp [Body.bid?, hnot, hmax, hm]
  | @vote vote hle =>
    have hbelow : ∀ c ∈ bids past, c ≤ vote.ballot := forall_le_of_max? hle
    have hmax := max?_concat_of_le hbelow
    simp [Body.bid?, hmax, if_pos hbelow]
  | @decline vote bound hm hlt =>
    have hnot : ¬ ∀ c ∈ bids past, c ≤ vote.ballot := fun h =>
      not_lt_of_ge (h bound (List.max?_mem hm)) hlt
    have hmax := max?_concat_of_max? hm hlt.le
    simp only at hm
    simp [Body.bid?, hnot, hmax, hm]
  | ignore hp ha =>
    cases body with
    | prepare b => exact absurd rfl (hp b)
    | accept vote => exact absurd rfl (ha vote)
    | _ => simp [Body.bid?]

variable [Value V]

theorem answers_ofHandled (learners : List NodeId) (past : List (Message V)) (m : Message V) :
    Role.Answers (.acceptor ⟨learners, .ofHandled past⟩) m
      (.acceptor ⟨learners, .ofHandled (past ++ [m])⟩) (reply learners past m) := by
  obtain ⟨hstate, hsent⟩ :=
    (handle_reaction ⟨learners, .ofHandled past⟩ m.sender m.body).ofHandled
  have hanswers := answers ⟨learners, .ofHandled past⟩ m
  rwa [hstate, hsent] at hanswers

end Acceptor

/-- A batch: every message is answered after those before it, and none ends in a fault. -/
theorem Node.handleAll_acceptor [Value V] {n : Node V} {learners : List NodeId}
    {past batch : List (Message V)} (hr : n.role = .acceptor ⟨learners, .ofHandled past⟩)
    (hto : ∀ m ∈ batch, m.receiver = n.id) :
    (n.handleAll batch).node = { n with role := .acceptor ⟨learners, .ofHandled (past ++ batch)⟩ } ∧
      (n.handleAll batch).fault = none ∧
      Effect.messages n.id (n.handleAll batch).effects =
        Acceptor.replies learners past batch := by
  induction batch generalizing n past with
  | nil =>
    obtain ⟨id, role, alive, faulted⟩ := n
    simp_all [handleAll, Acceptor.replies, moments]
  | cons m ms ih =>
    obtain ⟨hm, hms⟩ := List.forall_mem_cons.mp hto
    obtain ⟨effects, hhandle, hsent⟩ := Acceptor.answers_ofHandled learners past m
    have hnode : n.handle m.sender m.body =
        .ok ({ n with role := .acceptor ⟨learners, .ofHandled (past ++ [m])⟩ }, effects) := by
      simp [handle, hr, hhandle, Except.map]
    obtain ⟨hlast, hfault, hrest⟩ :=
      ih (n := { n with role := .acceptor ⟨learners, .ofHandled (past ++ [m])⟩ }) rfl hms
    rw [hm] at hsent
    simp only [handleAll, hnode]
    refine ⟨by simpa using hlast, hfault, ?_⟩
    rw [Effect.messages_append, hsent, hrest]
    rfl

/-! ## What an acceptor keeps to -/

namespace Pledge

theorem ballot_mem_bids {ms : List (Message V)} {vote : Vote V} (h : vote ∈ obtained ms) :
    vote.ballot ∈ bids ms := by
  obtain ⟨⟨past, m⟩, hm, hvote⟩ := List.mem_filterMap.mp h
  obtain ⟨hbody, -⟩ := obtained?_eq_some_iff.mp hvote
  exact List.mem_filterMap.mpr ⟨m, mem_of_mem_moments hm, by simp [hbody, Body.bid?]⟩

/-- The last vote is of no ballot after the promised one. -/
theorem accepted_le_promised {ms : List (Message V)} {vote : Vote V}
    (h : (ofHandled ms).accepted = some vote) :
    ∃ b, (ofHandled ms).promised = some b ∧ vote.ballot ≤ b :=
  exists_max?_ge (ballot_mem_bids (List.mem_of_getLast? h))

theorem promised_le_append {ms : List (Message V)} {b : Ballot}
    (h : (ofHandled ms).promised = some b) (later : List (Message V)) :
    ∃ m, (ofHandled (ms ++ later)).promised = some m ∧ b ≤ m := by
  refine exists_max?_ge ?_
  rw [bids, List.filterMap_append]
  exact List.mem_append_left _ (List.max?_mem h)

/-- The promised ballot does not depend on the order of the messages. -/
theorem promised_perm {ms ms' : List (Message V)} (h : ms.Perm ms') :
    (ofHandled ms).promised = (ofHandled ms').promised := by
  have hbids : (bids ms).Perm (bids ms') := h.filterMap _
  ext b
  simp only [ofHandled, List.max?_eq_some_iff, hbids.mem_iff]

end Pledge

/-! ## Driving a node -/

/-- What is done to a node by hand, or put on its bus. -/
inductive Drive (V : Type) where
  | send (message : Message V)
  /-- The node handles a message at once, up or down. -/
  | handle (sender : NodeId) (body : Body V)
  /-- The node handles its inbox, if it is up. -/
  | process
  | fail
  | recover

namespace Cluster

variable [Value V] [Shuffler σ]

def drive (c : Cluster V σ) (id : NodeId) : Drive V → Cluster V σ
  | .send message => c.send message
  | .handle sender body => (c.handle id sender body).1
  | .process => (c.processNode id).1
  | .fail => (c.fail id).1
  | .recover => (c.recover id).1

def isUp (c : Cluster V σ) (id : NodeId) : Bool := (c.node? id).any Node.alive

/-- The messages that a step hands over to the node. -/
def handed (c : Cluster V σ) (id : NodeId) : Drive V → List (Message V)
  | .handle sender body => [⟨sender, id, body⟩]
  | .process => if c.isUp id then (c.bus.drain id).1 else []
  | _ => []

/-- What is on the bus after a step, apart from what the node sends in it. -/
def spared (c : Cluster V σ) (id : NodeId) : Drive V → List (Message V)
  | .send message => c.bus.pending ++ [message]
  | .process =>
    if c.isUp id then c.bus.pending.filter (·.receiver ≠ id) else c.bus.pending
  | _ => c.bus.pending

def driveAll (c : Cluster V σ) (id : NodeId) (steps : List (Drive V)) : Cluster V σ :=
  steps.foldl (drive · id) c

/-- All the messages that steps hand over to the node, in their order. -/
def handedAll (c : Cluster V σ) (id : NodeId) : List (Drive V) → List (Message V)
  | [] => []
  | step :: steps => c.handed id step ++ (c.drive id step).handedAll id steps

omit [Value V] [Shuffler σ] in
theorem freeNode_eq_ok {c : Cluster V σ} {id : NodeId} {n : Node V} (hn : c.node? id = some n)
    (hf : n.faulted = false) : c.freeNode id = .ok n := by
  simp [freeNode, hn, hf]

omit [Shuffler σ] in
theorem handle_fst {c : Cluster V σ} {id : NodeId} {n : Node V} (hn : c.node? id = some n)
    (hf : n.faulted = false) (sender : NodeId) (body : Body V) :
    (c.handle id sender body).1 = (c.finish (n.handleAll [⟨sender, id, body⟩]) 1).1 := by
  rw [handle, freeNode_eq_ok hn hf]
  rcases hfinish : c.finish (n.handleAll [⟨sender, id, body⟩]) 1 with ⟨c', _ | _⟩ <;>
    simp [hfinish]

theorem processNode_fst {c : Cluster V σ} {id : NodeId} {n : Node V} (hn : c.node? id = some n)
    (hf : n.faulted = false) : (c.processNode id).1 = (c.process n).1 := by
  rw [processNode, freeNode_eq_ok hn hf]
  rcases hprocess : c.process n with ⟨c', _ | _⟩ <;> simp [hprocess]

/-- An acceptor that has handled these messages; no fault has stopped it. -/
def Committed (c : Cluster V σ) (id : NodeId) (learners : List NodeId)
    (handled : List (Message V)) : Prop :=
  ∃ n, c.node? id = some n ∧ n.faulted = false ∧
    n.role = .acceptor ⟨learners, .ofHandled handled⟩

variable {c : Cluster V σ} {id : NodeId} {learners : List NodeId} {past : List (Message V)}

omit [Shuffler σ] in
theorem Committed.finish {n : Node V} (hn : c.node? id = some n) (hf : n.faulted = false)
    (hr : n.role = .acceptor ⟨learners, .ofHandled past⟩) {batch : List (Message V)}
    (hto : ∀ m ∈ batch, m.receiver = id) (size : Nat) :
    (c.finish (n.handleAll batch) size).1.Committed id learners (past ++ batch) ∧
      (c.finish (n.handleAll batch) size).1.bus.pending =
        c.bus.pending ++ Acceptor.replies learners past batch := by
  obtain rfl : n.id = id := id_of_node? hn
  obtain ⟨hnode, hfault, hsent⟩ := Node.handleAll_acceptor hr hto
  let n' : Node V :=
    { n with role := .acceptor ⟨learners, .ofHandled (past ++ batch)⟩, faulted := false }
  have hresult : (n.handleAll batch).result = n' := by
    rw [Node.Turn.result, hnode, hfault]
    rfl
  rw [finish_fst c ((n.handleAll_frame batch).2.trans hf), hresult, pending_settle, hsent]
  exact ⟨⟨n', node?_setNode_self (n := n') hn, rfl, rfl⟩, rfl⟩

omit [Value V] [Shuffler σ] in
theorem Committed.setAlive {n : Node V} (hn : c.node? id = some n) (hf : n.faulted = false)
    (hr : n.role = .acceptor ⟨learners, .ofHandled past⟩) (alive : Bool) :
    (c.setAlive n alive).Committed id learners past ∧
      (c.setAlive n alive).bus.pending = c.bus.pending := by
  obtain rfl : n.id = id := id_of_node? hn
  unfold Cluster.setAlive
  split
  · exact ⟨⟨n, hn, hf, hr⟩, rfl⟩
  · exact ⟨⟨_, node?_setNode_self (n := { n with alive }) hn, hf, hr⟩, by simp⟩

/-- One step: the acceptor has handled what was handed over, and what it sends is told by its
past. -/
theorem Committed.drive (h : c.Committed id learners past) (step : Drive V) :
    (c.drive id step).Committed id learners (past ++ c.handed id step) ∧
      (c.drive id step).bus.pending =
        c.spared id step ++ Acceptor.replies learners past (c.handed id step) := by
  obtain ⟨n, hn, hf, hr⟩ := h
  have hcommand : c.commandNode id = .ok n := by simp [commandNode, hn, hf]
  have hnothing : Acceptor.replies learners past [] = [] := rfl
  cases step with
  | send message =>
    simp only [handed, List.append_nil, hnothing]
    exact ⟨⟨n, hn, hf, hr⟩, rfl⟩
  | handle sender body =>
    rw [Cluster.drive, handle_fst hn hf]
    exact Committed.finish hn hf hr (by simp) 1
  | process =>
    rw [Cluster.drive, processNode_fst hn hf]
    have hup : c.isUp id = n.alive := by simp [isUp, hn]
    simp only [handed, spared, hup]
    obtain rfl : n.id = id := id_of_node? hn
    cases halive : n.alive with
    | true =>
      have hto : ∀ m ∈ (c.bus.drain n.id).1, m.receiver = n.id := fun m => receiver_of_mem_drain
      have hfinish := Committed.finish (c := c.takeInbox n) (by rw [node?_takeInbox]; exact hn)
        hf hr hto (c.bus.drain n.id).1.length
      rw [pending_takeInbox] at hfinish
      rw [process_of_up c halive]
      exact hfinish
    | false =>
      rw [process_of_down c halive]
      simp only [Bool.false_eq_true, if_false, List.append_nil, hnothing]
      exact ⟨⟨n, hn, hf, hr⟩, rfl⟩
  | fail =>
    simp only [Cluster.drive, Cluster.fail, hcommand, handed, spared, hnothing, List.append_nil]
    exact Committed.setAlive hn hf hr false
  | recover =>
    simp only [Cluster.drive, Cluster.recover, hcommand, handed, spared, hnothing,
      List.append_nil]
    exact Committed.setAlive hn hf hr true

/-- However a node is driven, it is committed to what it was handed. -/
theorem Committed.driveAll (h : c.Committed id learners past) (steps : List (Drive V)) :
    (c.driveAll id steps).Committed id learners (past ++ c.handedAll id steps) := by
  induction steps generalizing c past with
  | nil => simpa [Cluster.driveAll, handedAll] using h
  | cons step steps ih =>
    rw [handedAll, ← List.append_assoc]
    exact ih (h.drive step).1

/-! ## The history of an acceptor -/

/-- An acceptor alone on a bus, before it has handled anything. -/
def ofAcceptor (id : NodeId) (learners : List NodeId) (source : σ) : Cluster V σ :=
  solo ⟨id, .acceptor { learners }, true, false⟩ source

omit [Value V] [Shuffler σ] in
theorem committed_ofAcceptor (id : NodeId) (learners : List NodeId) (source : σ) :
    (ofAcceptor (V := V) id learners source).Committed id learners [] := by
  refine ⟨⟨id, .acceptor { learners }, true, false⟩, ?_, rfl, rfl⟩
  simp [ofAcceptor, solo, node?]

omit [Value V] [Shuffler σ] in
theorem Committed.acceptor? (h : c.Committed id learners past) :
    c.acceptor? id = some ⟨learners, .ofHandled past⟩ := by
  obtain ⟨n, hn, -, hr⟩ := h
  simp [Cluster.acceptor?, hn, Node.acceptor?, hr]

/-- However an acceptor is driven, what it holds is told by the messages it has handled, and what it
sends in a step by those that the step hands over and those before them. So its promise does not go
down, is never before its vote, and does not depend on the order of the messages. -/
theorem bound_by_handled (id : NodeId) (learners : List NodeId) (source : σ)
    (steps : List (Drive V)) :
    let c := (ofAcceptor id learners source).driveAll id steps
    let handled := (ofAcceptor id learners source).handedAll id steps
    c.acceptor? id = some ⟨learners, .ofHandled handled⟩ ∧
      (∀ step, (c.drive id step).bus.pending =
        c.spared id step ++ Acceptor.replies learners handled (c.handed id step)) ∧
      (∀ vote, (Pledge.ofHandled handled).accepted = some vote →
        ∃ b, (Pledge.ofHandled handled).promised = some b ∧ vote.ballot ≤ b) ∧
      (∀ later b, (Pledge.ofHandled handled).promised = some b →
        ∃ a m, (c.driveAll id later).acceptor? id = some a ∧ a.pledge.promised = some m ∧
          b ≤ m) ∧
      ∀ (source' : σ) (steps' : List (Drive V)),
        ((ofAcceptor id learners source').handedAll id steps').Perm handled →
        ∃ a, ((ofAcceptor id learners source').driveAll id steps').acceptor? id = some a ∧
          a.pledge.promised = (Pledge.ofHandled handled).promised := by
  have hcommitted (source : σ) (steps : List (Drive V)) :=
    (committed_ofAcceptor (V := V) id learners source).driveAll steps
  simp only [List.nil_append] at hcommitted
  refine ⟨(hcommitted source steps).acceptor?, ?_, ?_, ?_, ?_⟩
  · exact fun step => ((hcommitted source steps).drive step).2
  · exact fun vote hvote => Pledge.accepted_le_promised hvote
  · intro later b hb
    obtain ⟨m, hm, hle⟩ := Pledge.promised_le_append hb
      (((ofAcceptor id learners source).driveAll id steps).handedAll id later)
    exact ⟨_, m, ((hcommitted source steps).driveAll later).acceptor?, hm, hle⟩
  · intro source' steps' hperm
    exact ⟨_, (hcommitted source' steps').acceptor?, Pledge.promised_perm hperm⟩

/-- A ballot is promised; while the acceptor is down, a prepare and an accept of an earlier ballot
arrive. -/
def crossed : List (Drive String) :=
  [.handle ⟨"P2"⟩ (.prepare ⟨1, ⟨"P2"⟩⟩), .fail,
    .send ⟨⟨"P1"⟩, ⟨"A1"⟩, .prepare ⟨1, ⟨"P1"⟩⟩⟩,
    .send ⟨⟨"P1"⟩, ⟨"A1"⟩, .accept ⟨⟨1, ⟨"P1"⟩⟩, "x"⟩⟩, .process, .recover, .process]

/-- The same messages, so that each of them succeeds. -/
def uncrossed : List (Drive String) :=
  [.handle ⟨"P1"⟩ (.prepare ⟨1, ⟨"P1"⟩⟩), .handle ⟨"P1"⟩ (.accept ⟨⟨1, ⟨"P1"⟩⟩, "x"⟩),
    .handle ⟨"P2"⟩ (.prepare ⟨1, ⟨"P2"⟩⟩)]

theorem bound_by_handled_of_crossed :
    let source : Script := ⟨[[1]]⟩
    let c := (ofAcceptor ⟨"A1"⟩ [⟨"L1"⟩] source).driveAll ⟨"A1"⟩ crossed
    c.acceptor? ⟨"A1"⟩ = some ⟨[⟨"L1"⟩], ⟨some ⟨1, ⟨"P2"⟩⟩, none⟩⟩ ∧
      ∃ a, ((ofAcceptor ⟨"A1"⟩ [⟨"L1"⟩] source).driveAll ⟨"A1"⟩ uncrossed).acceptor? ⟨"A1"⟩ =
        some a ∧ a.pledge.promised = some ⟨1, ⟨"P2"⟩⟩ := by
  intro source c
  obtain ⟨hstate, -, -, -, horder⟩ := bound_by_handled ⟨"A1"⟩ [⟨"L1"⟩] source crossed
  have hpledge : Pledge.ofHandled ((ofAcceptor ⟨"A1"⟩ [⟨"L1"⟩] source).handedAll ⟨"A1"⟩ crossed) =
      ⟨some ⟨1, ⟨"P2"⟩⟩, none⟩ := by decide +kernel
  rw [hpledge] at hstate horder
  exact ⟨hstate, horder source uncrossed (by decide +kernel)⟩

end Cluster

end Synod
