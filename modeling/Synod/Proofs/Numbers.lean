import Synod.Proofs.Latest
import Synod.Proofs.Reports
import Synod.Proofs.Rounds

/-! How high the numbers of rounds get. A new round is numbered one after a number that its proposer
has used or seen, so no number in a cluster is above the number of rounds that were started. Numbers
of 64 bits run out only in a run of as many rounds. -/

namespace Synod

variable {V σ : Type}

/-! ## Numbers that nodes and messages hold -/

/-- The number of its round is at most `k`. -/
def Ballot.Within (k : Nat) (b : Ballot) : Prop := b.round.toNat ≤ k

structure Acceptor.Within (k : Nat) (a : Acceptor V) : Prop where
  promised : ∀ b ∈ a.pledge.promised, b.Within k
  accepted : ∀ vote ∈ a.pledge.accepted, vote.ballot.Within k

structure Learner.Within (k : Nat) (l : Learner V) : Prop where
  learned : ∀ vote ∈ l.learned, vote.ballot.Within k
  counted : ∀ count ∈ l.tally.counts, count.vote.ballot.Within k

structure Proposer.Within (k : Nat) (p : Proposer V) : Prop where
  round : p.round.toNat ≤ k
  current : ∀ b ∈ p.current, b.Within k
  highestSeen : ∀ b ∈ p.highestSeen, b.Within k
  adopted : ∀ vote ∈ p.adopted, vote.ballot.Within k
  lastAccept : ∀ vote ∈ p.lastAccept, vote.ballot.Within k
  reported : ∀ report ∈ p.reports, ∀ vote ∈ report.accepted, vote.ballot.Within k

/-- All numbers of rounds that a role holds are at most `k`. -/
def Role.Within (k : Nat) : Role V → Prop
  | .acceptor a => a.Within k
  | .learner l => l.Within k
  | .proposer p => p.Within k

def Body.Within (k : Nat) : Body V → Prop
  | .prepare b => b.Within k
  | .promise b held => b.Within k ∧ ∀ vote ∈ held, vote.ballot.Within k
  | .accept vote | .accepted vote | .learn vote => vote.ballot.Within k

def Effect.Within (k : Nat) : Effect V → Prop
  | .send _ body => body.Within k
  | .note _ => True

section

variable {j k : Nat} (hle : j ≤ k)
include hle

theorem Ballot.Within.mono {b : Ballot} (h : b.Within j) : b.Within k := Nat.le_trans h hle

theorem Role.Within.mono {role : Role V} (h : role.Within j) : role.Within k := by
  have hup {b : Ballot} (hb : b.Within j) : b.Within k := hb.mono hle
  cases role with
  | acceptor a => exact ⟨fun b hb => hup (h.promised b hb), fun v hv => hup (h.accepted v hv)⟩
  | learner l => exact ⟨fun v hv => hup (h.learned v hv), fun n hn => hup (h.counted n hn)⟩
  | proposer p =>
    exact ⟨h.round.trans hle, fun b hb => hup (h.current b hb),
      fun b hb => hup (h.highestSeen b hb), fun v hv => hup (h.adopted v hv),
      fun v hv => hup (h.lastAccept v hv), fun r hr v hv => hup (h.reported r hr v hv)⟩

theorem Body.Within.mono {body : Body V} (h : body.Within j) : body.Within k := by
  cases body with
  | promise b held => exact ⟨h.1.mono hle, fun vote hvote => (h.2 vote hvote).mono hle⟩
  | _ => exact Ballot.Within.mono hle h

theorem Effect.Within.mono {effect : Effect V} (h : effect.Within j) : effect.Within k := by
  cases effect with
  | send receiver body => exact Body.Within.mono hle h
  | note r => trivial

end

/-! ## Handling a message -/

section

variable {k : Nat} {sender : NodeId} {body : Body V} {effects : List (Effect V)}

theorem Acceptor.Reaction.within {a a' : Acceptor V} (h : a.Reaction sender body a' effects)
    (ha : a.Within k) (hbody : body.Within k) :
    a'.Within k ∧ ∀ effect ∈ effects, effect.Within k := by
  cases h with
  | @promise b hlt =>
    have hb : b.Within k := hbody
    exact ⟨⟨by simpa using hb, ha.accepted⟩, by simpa [Effect.Within, Body.Within, hb] using
      ha.accepted⟩
  | @refuse b m hm hle =>
    have hrefused : m.Within k := ha.promised m hm
    exact ⟨ha, by simpa [Effect.Within, Body.Within] using hrefused⟩
  | @vote vote hle =>
    have hvote : vote.ballot.Within k := hbody
    refine ⟨⟨by simpa using hvote, by simpa using hvote⟩, ?_⟩
    simp [Effect.Within, Body.Within, hvote, Effect.forall_mem_broadcast]
  | decline hm hlt => exact ⟨ha, by simp [Effect.Within]⟩
  | ignore hp hv => exact ⟨ha, by simp [Effect.Within]⟩

theorem Tally.vote_of_mem_add [Value V] {vote : Vote V} {voter : NodeId}
    {counts counts' : List (Count V)} {n : Nat} (h : add vote voter counts = .ok (counts', n))
    {count : Count V} (hcount : count ∈ counts') :
    count.vote = vote ∨ ∃ old ∈ counts, old.vote = count.vote := by
  induction counts generalizing counts' n with
  | nil =>
    obtain ⟨rfl, -⟩ := Prod.mk.inj (Except.ok.inj h)
    obtain rfl := List.mem_singleton.mp hcount
    exact .inl rfl
  | cons first counts ih =>
    unfold add at h
    split at h
    · simp at h
    · obtain ⟨rfl, -⟩ := Prod.mk.inj (Except.ok.inj h)
      rcases List.mem_cons.mp hcount with rfl | hrest
      · exact .inr ⟨first, List.mem_cons_self, rfl⟩
      · exact .inr ⟨count, List.mem_cons_of_mem _ hrest, rfl⟩
    · split at h
      · simp at h
      · rename_i rest m hadd
        obtain ⟨rfl, -⟩ := Prod.mk.inj (Except.ok.inj h)
        rcases List.mem_cons.mp hcount with rfl | hrest
        · exact .inr ⟨count, List.mem_cons_self, rfl⟩
        · rcases ih hadd hrest with hnew | ⟨old, hold, heq⟩
          · exact .inl hnew
          · exact .inr ⟨old, List.mem_cons_of_mem _ hold, heq⟩

theorem Learner.Reaction.within [Value V] {l l' : Learner V}
    (h : l.Reaction sender body l' effects) (hl : l.Within k) (hbody : body.Within k) :
    l'.Within k ∧ ∀ effect ∈ effects, effect.Within k := by
  have hnotes : ∀ effect ∈ effects, effect.Within k := by
    rintro (⟨receiver, sent⟩ | r) he
    · exact absurd he h.send_notMem
    · trivial
  refine ⟨?_, hnotes⟩
  cases h with
  | @count vote tally n hnone hs ht hn =>
    refine ⟨hl.learned, fun count hcount => ?_⟩
    unfold Tally.record at ht
    split at ht
    · simp at ht
    · rename_i counts m hadd
      obtain ⟨rfl, -⟩ := Prod.mk.inj (Except.ok.inj ht)
      rcases Tally.vote_of_mem_add hadd hcount with hnew | ⟨old, hold, hsame⟩
      · rw [hnew]
        exact hbody
      · rw [← hsame]
        exact hl.counted old hold
  | @decide vote tally n hnone hs ht hn =>
    have hvote : vote.ballot.Within k := hbody
    exact ⟨by simpa using hvote, by simp [Tally.clear]⟩
  | _ => exact hl

theorem Proposer.Reaction.within [Value V] {p p' : Proposer V}
    (h : p.Reaction sender body p' effects) (hp : p.Within k) (hbody : body.Within k) :
    p'.Within k ∧ ∀ effect ∈ effects, effect.Within k := by
  have hadd {value : V} {reports : List (Report V)} (hphase : p.phase = .preparing value reports)
      {held : Option (Vote V)} (hheld : ∀ vote ∈ held, vote.ballot.Within k) :
      ∀ report ∈ addReport reports ⟨sender, held⟩, ∀ vote ∈ report.accepted,
        vote.ballot.Within k := by
    intro report hreport
    rcases mem_addReport.mp hreport with rfl | ⟨hold, -⟩
    · exact hheld
    · exact hp.reported report (by simpa [Proposer.reports, hphase] using hold)
  cases h with
  | @abandon b held c value reports hc hphase hlt =>
    refine ⟨⟨hp.round, hp.current, ?_, hp.adopted, hp.lastAccept, by simp [Proposer.reports]⟩,
      by simp [Effect.Within]⟩
    have hb : b.Within k := hbody.1
    rintro seen ⟨⟩
    unfold Ballot.later
    split
    · exact hb
    · rename_i old hold
      split
      · exact hb
      · exact hp.highestSeen old hold
  | @record held c value reports hc hphase hn =>
    exact ⟨⟨hp.round, hp.current, hp.highestSeen, hp.adopted, hp.lastAccept,
      hadd hphase hbody.2⟩, by simp [Effect.Within]⟩
  | @conclude held c value reports hc hphase hn =>
    have hasked : c.Within k := hbody.1
    constructor
    · rw [conclude_fst]
      refine ⟨hp.round, hp.current, hp.highestSeen, ?_, ?_, by simp [Proposer.reports]⟩
      · intro vote hvote
        obtain ⟨⟨voter, best⟩, hbest, rfl⟩ := Option.map_eq_some_iff.mp hvote
        obtain ⟨report, hreport, -, hreported⟩ := mem_of_latest? hbest
        exact hadd hphase hbody.2 report hreport _ hreported
      · rintro vote ⟨⟩
        exact hasked
    · exact List.forall_mem_cons.mpr ⟨trivial,
        forall_mem_conclude (fun _ => trivial) trivial fun _ _ => hasked⟩
  | confirm hlast hb hv =>
    exact ⟨⟨hp.round, hp.current, hp.highestSeen, hp.adopted, hp.lastAccept, hp.reported⟩,
      by simp [Effect.Within]⟩
  | _ => exact ⟨hp, by simp [Effect.Within]⟩

end

/-! ## Starting a round -/

namespace Proposer

/-- Short of the last number there is, the next round is numbered one after the last round or after
the latest ballot that ended one. -/
theorem nextRound_of_lt {p : Proposer V} (hround : p.round.toNat + 1 < 2 ^ 64)
    (hseen : ∀ seen ∈ p.highestSeen, seen.round.toNat + 1 < 2 ^ 64) :
    ∃ r, p.nextRound = (r, none) ∧ r.toNat = max (p.round.toNat + 1)
      (p.highestSeen.elim 0 fun seen => seen.round.toNat + 1) := by
  have hnext (n : UInt64) (hn : n.toNat + 1 < 2 ^ 64) :
      ∃ m, Ballot.nextRound? n = some m ∧ m.toNat = n.toNat + 1 := by
    have hm : Ballot.nextRound? n = some (n + 1) :=
      if_pos (show n.toNat + 1 < UInt64.size from hn)
    exact ⟨n + 1, hm, Ballot.nextRound?_eq_some_iff.mp hm⟩
  obtain ⟨round, hcount, hone⟩ := hnext p.round hround
  cases hs : p.highestSeen with
  | none => exact ⟨round, by simp only [nextRound, hcount, hs], by simpa using hone⟩
  | some seen =>
    obtain ⟨beyond, hbeyond, htwo⟩ := hnext seen.round (hseen seen hs)
    refine ⟨if round < beyond then beyond else round,
      by simp only [nextRound, hcount, hs, hbeyond], ?_⟩
    simp only [Option.elim_some, ← hone, ← htwo, UInt64.lt_iff_toNat_lt]
    split <;> omega

variable {p : Proposer V} {k : Nat}

theorem Within.nextRound (hp : p.Within k) (hk : k + 1 < 2 ^ 64) :
    ∃ r, p.nextRound = (r, none) ∧ r.toNat = max (p.round.toNat + 1)
      (p.highestSeen.elim 0 fun seen => seen.round.toNat + 1) := by
  have hround := hp.round
  apply nextRound_of_lt (by omega)
  intro seen hseen
  have hle : seen.round.toNat ≤ k := hp.highestSeen seen hseen
  omega

/-- The number of the next round goes up by one at most, whatever has ended the rounds before. -/
theorem Within.nextRound_le (hp : p.Within k) : p.nextRound.1.toNat ≤ k + 1 := by
  by_cases hk : k + 1 < 2 ^ 64
  · obtain ⟨r, hr, hmax⟩ := hp.nextRound hk
    rw [hr, hmax]
    refine max_le (Nat.succ_le_succ hp.round) ?_
    cases hs : p.highestSeen with
    | none => exact Nat.zero_le _
    | some seen => exact Nat.succ_le_succ (hp.highestSeen seen hs)
  · have hlt := p.nextRound.1.toNat_lt
    omega

/-- Where there is no next round, all numbers have been used. -/
theorem Within.of_overflow (hp : p.Within k) {r : UInt64} {fault : Fault}
    (h : p.nextRound = (r, some fault)) : { p with round := r }.Within k := by
  have hk : ¬ k + 1 < 2 ^ 64 := by
    intro hk
    obtain ⟨r', hr', -⟩ := hp.nextRound hk
    simp [h] at hr'
  have hlt := r.toNat_lt
  exact ⟨by dsimp only; omega, hp.current, hp.highestSeen, hp.adopted, hp.lastAccept, hp.reported⟩

end Proposer

/-! ## Worlds -/

namespace World

/-- All numbers of rounds in nodes and in messages are at most `k`. -/
structure Within (k : Nat) (w : World V) : Prop where
  role {id : NodeId} {n : Node V} : w.node? id = some n → n.role.Within k
  flight : ∀ m ∈ w.flight, m.body.Within k

variable {w w' : World V}

theorem Within.settle {j k : Nat} (h : w.Within j) (hle : j ≤ k) {n : Node V}
    {effects : List (Effect V)} {rest : Multiset (Message V)} (hrest : rest ≤ w.flight)
    (hrole : n.role.Within k) (heffects : ∀ effect ∈ effects, effect.Within k) :
    ({ w with flight := rest }.settle n effects).Within k := by
  constructor
  · intro id m hm
    rcases node?_settle_eq_some hm with ⟨-, rfl⟩ | ⟨-, hm⟩
    · exact hrole
    · exact (h.role hm).mono hle
  · intro m hm
    rcases Multiset.mem_add.mp hm with hold | hnew
    · exact (h.flight m (Multiset.mem_of_le hrest hold)).mono hle
    · obtain ⟨-, hsend⟩ := Effect.mem_messages.mp hnew
      exact heffects _ hsend

/-- No number is above the number of rounds that the log has seen start. -/
def Numbered (w : World V) : Prop := w.Within (rounds w.log).length

theorem rounds_length_le (w : World V) (later : List (Event V)) :
    (rounds w.log).length ≤ (rounds (w.log ++ later)).length := by
  rw [rounds_append, List.length_append]
  exact Nat.le_add_right _ _

/-- A node is put back with what it did, under numbers that were there before. -/
theorem Numbered.settle (h : w.Numbered) {n : Node V} {effects : List (Effect V)}
    {rest : Multiset (Message V)} (hrest : rest ≤ w.flight)
    (hrole : n.role.Within (rounds w.log).length)
    (heffects : ∀ effect ∈ effects, effect.Within (rounds w.log).length) :
    ({ w with flight := rest }.settle n effects).Numbered := by
  have hle := w.rounds_length_le (Effect.events n.id effects)
  exact Within.settle h hle hrest (hrole.mono hle) fun effect he => (heffects effect he).mono hle

theorem Numbered.deliver [Value V] (h : w.Numbered) {n : Node V} (hn : w.node? n.id = some n)
    {m : Message V} {rest : Multiset (Message V)} (hflight : w.flight = m ::ₘ rest)
    {role : Role V} {effects : List (Effect V)}
    (hreaction : Role.Reaction m.sender m.body n.role role effects) :
    ({ w with flight := rest }.settle { n with role } effects).Numbered := by
  have hbody := h.flight m (hflight ▸ Multiset.mem_cons_self m rest)
  have hbefore := h.role hn
  have hafter : role.Within (rounds w.log).length ∧
      ∀ effect ∈ effects, effect.Within (rounds w.log).length := by
    generalize n.role = before at hbefore hreaction
    cases hreaction with
    | acceptor h => exact h.within hbefore hbody
    | learner h => exact h.within hbefore hbody
    | proposer h => exact h.within hbefore hbody
  exact h.settle (hflight ▸ Multiset.le_cons_self rest m) hafter.1 hafter.2

theorem Numbered.start (h : w.Numbered) {n : Node V} {p p' : Proposer V} {b : Ballot}
    {effects : List (Effect V)} (hn : w.node? n.id = some n) (hr : n.role = .proposer p)
    (hstart : p.start n.id = (p', effects, .started b)) :
    (w.settle { n with role := .proposer p' } effects).Numbered := by
  have hcount : (rounds (w.log ++ Effect.events n.id effects)).length =
      (rounds w.log).length + 1 := by
    have hoffered : (Cluster.offer p none).1.start n.id = (p', effects, .started b) := hstart
    have hround := Cluster.rounds_start hoffered
    rw [rounds_append, List.length_append]
    exact congrArg (_ + List.length ·) hround
  have hp : p.Within (rounds w.log).length := by
    have hrole := h.role hn
    rwa [hr] at hrole
  obtain ⟨-, -, hnext, rfl, rfl⟩ := Proposer.start_eq_started hstart
  have hb : b.Within ((rounds w.log).length + 1) := by
    have hle := hp.nextRound_le
    rwa [hnext] at hle
  change Within (rounds (w.log ++ Effect.events n.id _)).length _
  rw [hcount]
  refine Within.settle h (Nat.le_succ _) le_rfl ?_ ?_
  · have hold : (Role.proposer p).Within ((rounds w.log).length + 1) :=
      Role.Within.mono (Nat.le_succ _) hp
    exact ⟨hb, by simpa using hb, hold.highestSeen, by simp, hold.lastAccept,
      by simp [Proposer.reports]⟩
  · exact List.forall_mem_cons.mpr ⟨trivial, Effect.forall_mem_broadcast.mpr fun _ _ => hb⟩

theorem Numbered.aside (h : w.Numbered) (haside : Aside w w') : w'.Numbered := by
  cases haside with
  | @note e he hstray =>
    have hle := w.rounds_length_le [e]
    exact ⟨fun hn => (h.role hn).mono hle, fun m hm => (h.flight m hm).mono hle⟩
  | @setValue n p value hn hf hr =>
    have hp := h.role hn
    rw [hr] at hp
    exact h.settle le_rfl
      (⟨hp.round, hp.current, hp.highestSeen, hp.adopted, hp.lastAccept, hp.reported⟩ :
        Proposer.Within _ { p with value }) (by simp [Effect.Within])
  | @setAlive n alive hn hf =>
    have hrole : n.role.Within _ := h.role hn
    exact h.settle le_rfl hrole (by simp [Effect.Within])
  | @overflow n p p' effects fault hn hr hstart =>
    have hp := h.role hn
    rw [hr] at hp
    obtain ⟨r, hnext, rfl, rfl⟩ := Proposer.start_eq_failed hstart
    exact h.settle le_rfl (Proposer.Within.of_overflow hp hnext) (by simp)
  | @crash n lost rest hn hflight =>
    have hrole : n.role.Within _ := h.role hn
    exact h.settle (hflight ▸ Multiset.le_add_left rest lost) hrole (by simp)

theorem Numbered.step [Value V] (h : w.Numbered) (hmove : Move w w') : w'.Numbered := by
  cases hmove with
  | acceptor hn _ _ hr _ hflight hreaction => exact h.deliver hn hflight (hr ▸ .acceptor hreaction)
  | learner hn _ _ hr _ hflight hreaction => exact h.deliver hn hflight (hr ▸ .learner hreaction)
  | proposer hn _ _ hr _ hflight hreaction => exact h.deliver hn hflight (hr ▸ .proposer hreaction)
  | start hn _ _ hr hstart => exact h.start hn hr hstart
  | aside haside => exact h.aside haside

end World

/-! ## Runs -/

namespace Cluster

variable {s : Setup V} {bus order : σ} {c : Cluster V σ}

theorem numbered_create (h : create s bus order = .ok c) : c.world.Numbered := by
  obtain ⟨-, -, hpending, -⟩ := create_eq_ok h
  refine ⟨?_, by simp [world, hpending]⟩
  intro id n hn
  obtain ⟨hfresh, -⟩ := (node?_create h).mp hn
  rcases Setup.mem_freshNodes.mp hfresh with ⟨a, -, rfl⟩ | ⟨l, -, rfl⟩ | ⟨x, -, rfl⟩
  · exact ⟨by simp, by simp⟩
  · exact ⟨by simp [Learner.ofAcceptors], by simp [Learner.ofAcceptors, Tally.ofSize]⟩
  · exact ⟨Nat.zero_le _, by simp, by simp, by simp, by simp, by simp [Proposer.reports]⟩

/-- Only a proposer without a next round is stopped by a proposal. -/
theorem propose_ne_fault {id : NodeId} {given : Option V} {fault : Fault}
    (h : ∀ p, c.proposer? id = some p → ∃ r, p.nextRound = (r, none)) :
    (c.propose id given).2 ≠ .error (.fault fault) := by
  unfold propose
  cases hcommand : c.commandProposer id with
  | error refusal => simp
  | ok found =>
    obtain ⟨n, p⟩ := found
    obtain ⟨hn, rfl, -, hr⟩ := commandProposer_eq_ok hcommand
    obtain ⟨r, hnext⟩ := h p (by simp [proposer?, hn, Node.proposer?, hr])
    have hoffered : (offer p given).1.nextRound = (r, none) := by
      cases given <;> exact hnext
    dsimp only
    split
    · simp
    · split
      · simp
      · rcases hstart : (offer p given).1.start n.id with ⟨p', effects, _ | b | fault'⟩
        · simp
        · simp
        · obtain ⟨r', hfailed, -⟩ := Proposer.start_eq_failed hstart
          simp [hoffered] at hfailed

variable [Value V] [Shuffler σ]

theorem numbered_run (h : create s bus order = .ok c) (ops : List (Operation V)) :
    (c.run ops).world.Numbered :=
  World.Moves.induction (c.moves_run ops) (numbered_create h) fun hw hmove => hw.step hmove

/-- How many rounds operations start. -/
def startedIn (c : Cluster V σ) : List (Operation V) → Nat
  | [] => 0
  | op :: ops => (c.opened op).length + (c.perform op).startedIn ops

theorem length_rounds_run (c : Cluster V σ) (ops : List (Operation V)) :
    (rounds (c.run ops).log.toList).length = (rounds c.log.toList).length + c.startedIn ops := by
  induction ops generalizing c with
  | nil => rfl
  | cons op ops ih =>
    rw [run_cons, ih, rounds_perform, List.length_append, startedIn, Nat.add_assoc]

/-- After `k` rounds no number of a round in a node or in a message is above `k`. So as long as `k`
is below the last number of 64 bits, the next number of each proposer is what counting on gives, and
no proposal stops a node. -/
theorem rounds_within_started (h : create s bus order = .ok c) (ops : List (Operation V)) :
    let k := c.startedIn ops
    (∀ n ∈ (c.run ops).nodes, n.role.Within k) ∧
      (∀ m ∈ (c.run ops).bus.pending, m.body.Within k) ∧
      (k < 2 ^ 64 - 1 →
        (∀ id p, (c.run ops).proposer? id = some p → p.round.toNat + 1 < 2 ^ 64 ∧
          (∀ seen ∈ p.highestSeen, seen.round.toNat + 1 < 2 ^ 64) ∧
          ∃ r, p.nextRound = (r, none) ∧ r.toNat = max (p.round.toNat + 1)
            (p.highestSeen.elim 0 fun seen => seen.round.toNat + 1)) ∧
        ∀ id given fault, ((c.run ops).propose id given).2 ≠ .error (.fault fault)) := by
  intro k
  have hcount : (rounds (c.run ops).log.toList).length = k := by
    obtain ⟨-, -, -, hlog⟩ := create_eq_ok h
    rw [length_rounds_run, hlog]
    exact Nat.zero_add k
  have hw : (c.run ops).world.Within k := by
    have hnumbered := numbered_run h ops
    rwa [World.Numbered, show (rounds (c.run ops).world.log).length = k from hcount] at hnumbered
  have hids := nodup_ids_run h ops
  have hproposer {id : NodeId} {p : Proposer V} (hp : (c.run ops).proposer? id = some p) :
      p.Within k := by
    obtain ⟨n, hn, hr⟩ := (World.proposer?_eq_some_iff (w := (c.run ops).world)).mp hp
    have hrole := hw.role hn
    rwa [hr] at hrole
  refine ⟨fun n hn => hw.role ((node?_eq_some_iff hids).mpr ⟨hn, rfl⟩), hw.flight, fun hk => ?_⟩
  constructor
  · intro id p hp
    have hround := (hproposer hp).round
    refine ⟨by omega, fun seen hseen => ?_, (hproposer hp).nextRound (by omega)⟩
    have hle : seen.round.toNat ≤ k := (hproposer hp).highestSeen seen hseen
    omega
  · intro id given fault
    apply propose_ne_fault
    intro p hp
    obtain ⟨r, hnext, -⟩ := (hproposer hp).nextRound (by omega)
    exact ⟨r, hnext⟩

/-- Two rounds of one number are started. The first is refused because of the second, and its
proposer starts a third one after both. -/
def leapfrog : List (Operation String) :=
  [.propose ⟨"P1"⟩ none, .propose ⟨"P2"⟩ none, .process ⟨"A1"⟩, .process ⟨"P1"⟩,
    .propose ⟨"P1"⟩ none]

theorem rounds_within_started_of_leapfrog :
    (ofTrio [[1]]).startedIn leapfrog = 3 ∧
      (∃ p, ((ofTrio [[1]]).run leapfrog).proposer? ⟨"P1"⟩ = some p ∧
        p.current = some ⟨2, ⟨"P1"⟩⟩ ∧ p.highestSeen = some ⟨1, ⟨"P2"⟩⟩ ∧
        p.round.toNat + 1 < 2 ^ 64) ∧
      (∀ m ∈ ((ofTrio [[1]]).run leapfrog).bus.pending, m.body.Within 3) ∧
      ∀ id given fault, (((ofTrio [[1]]).run leapfrog).propose id given).2 ≠
        .error (.fault fault) := by
  have hstarted : (ofTrio [[1]]).startedIn leapfrog = 3 := by decide +kernel
  have hstate : (((ofTrio [[1]]).run leapfrog).proposer? ⟨"P1"⟩).map
      (fun p => (p.current, p.highestSeen)) = some (some ⟨2, ⟨"P1"⟩⟩, some ⟨1, ⟨"P2"⟩⟩) := by
    decide +kernel
  obtain ⟨p, hp, hballots⟩ := Option.map_eq_some_iff.mp hstate
  obtain ⟨hcurrent, hseen⟩ := Prod.mk.inj hballots
  obtain ⟨-, hflight, hnext⟩ := rounds_within_started (create_trio [[1]]) leapfrog
  rw [hstarted] at hflight hnext
  obtain ⟨hproposers, hnofault⟩ := hnext (by omega)
  exact ⟨hstarted, ⟨p, hp, hcurrent, hseen, (hproposers _ p hp).1⟩, hflight, hnofault⟩

end Cluster

end Synod
