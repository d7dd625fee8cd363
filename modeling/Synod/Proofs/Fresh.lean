import Synod.Proofs.Retry

/-! Ballots of several proposers. Proposers of different names are told to start rounds, given
values and handed messages, in any order. A ballot under which one of them starts a round is new: it
was not used before by any of them, and it comes after those that ended earlier rounds of its
proposer. -/

namespace Synod

variable {V : Type}

namespace Proposer

/-- The ballot of the round that a call starts. -/
def begun? (self : NodeId) (p : Proposer V) : Call V → Option Ballot
  | .start =>
    match (p.start self).2.2 with
    | .started b => some b
    | _ => none
  | _ => none

variable {self : NodeId} {p : Proposer V} {c : Call V} {a b : Ballot} {rs : List (Remark V)}

theorem begun?_eq_some_iff :
    p.begun? self c = some b ↔ c = .start ∧ (p.start self).2.2 = .started b := by
  cases c with
  | start => cases hstart : (p.start self).2.2 <;> simp [begun?, hstart]
  | setValue value => simp [begun?]
  | handle sender body => simp [begun?]

/-- The round comes after all that its proposer counts on from. -/
theorem Passed.lt_begun (h : p.Passed a) (hp : p.Faithful self rs)
    (hb : p.begun? self c = some b) : a < b := by
  obtain ⟨-, hstart⟩ := begun?_eq_some_iff.mp hb
  exact h.lt hp (Prod.ext rfl (Prod.ext rfl hstart))

theorem begun?_passed [Value V] (hb : p.begun? self c = some b) :
    b.proposer = self ∧ (p.call self c).1.Passed b := by
  obtain ⟨rfl, houtcome⟩ := begun?_eq_some_iff.mp hb
  have hstart : p.start self = ((p.start self).1, (p.start self).2.1, .started b) :=
    Prod.ext rfl (Prod.ext rfl houtcome)
  obtain ⟨-, hself, -, hnext, -⟩ := start_eq_started hstart
  refine ⟨hself, .inl ⟨b, ?_, le_rfl⟩⟩
  rw [call, hnext]

end Proposer

/-! ### Proposers side by side -/

/-- Proposers by name, so that no two of them share one. A set of proposers is a team of which only
its members are called. -/
abbrev Team (V : Type) := NodeId → Proposer V

namespace Team

open Proposer (Call)

def fresh (acceptors : NodeId → List NodeId) (value : NodeId → V) : Team V :=
  fun id => { acceptors := acceptors id, value := value id }

variable [Value V]

def call (t : Team V) (id : NodeId) (c : Call V) : Team V :=
  Function.update t id ((t id).call id c).1

def callAll (t : Team V) (calls : List (NodeId × Call V)) : Team V :=
  calls.foldl (fun t c => t.call c.1 c.2) t

/-- The ballots of the rounds that calls start, each with the proposer that was called, in order. -/
def begun (t : Team V) : List (NodeId × Call V) → List (NodeId × Ballot)
  | [] => []
  | (id, c) :: calls => ((t id).begun? id c).toList.map (id, ·) ++ (t.call id c).begun calls

/-- Each proposer is faithful to what it has done. -/
def Faithful (t : Team V) : Prop := ∀ id, ∃ rs, (t id).Faithful id rs

variable {t : Team V} {id other : NodeId} {c : Call V} {calls : List (NodeId × Call V)}
  {b n : Ballot}

omit [Value V] in
theorem faithful_fresh (acceptors : NodeId → List NodeId) (value : NodeId → V) :
    (fresh acceptors value).Faithful :=
  fun id => ⟨[], Proposer.faithful_nil (acceptors id) (value id) id⟩

theorem Faithful.call (ht : t.Faithful) (id : NodeId) (c : Call V) : (t.call id c).Faithful := by
  intro other
  by_cases h : other = id
  · subst h
    obtain ⟨rs, hp⟩ := ht other
    rw [Team.call, Function.update_self]
    exact ⟨_, (Proposer.call_called other (t other) c).faithful hp⟩
  · rw [Team.call, Function.update_of_ne h]
    exact ht other

theorem Faithful.callAll (ht : t.Faithful) (calls : List (NodeId × Call V)) :
    (t.callAll calls).Faithful := by
  induction calls generalizing t with
  | nil => exact ht
  | cons c calls ih => exact ih (ht.call c.1 c.2)

/-- What one proposer counts on from, it counts on from whichever of them is called. -/
theorem Faithful.passed_call (ht : t.Faithful) (h : (t id).Passed b) (other : NodeId)
    (c : Call V) : (t.call other c id).Passed b := by
  by_cases hid : id = other
  · subst hid
    obtain ⟨rs, hp⟩ := ht id
    rw [Team.call, Function.update_self]
    exact (Proposer.call_called id (t id) c).passed hp h
  · rwa [Team.call, Function.update_of_ne hid]

theorem mem_begun_cons : (other, n) ∈ t.begun ((id, c) :: calls) ↔
    (other = id ∧ (t id).begun? id c = some n) ∨ (other, n) ∈ (t.call id c).begun calls := by
  rw [begun, List.mem_append, List.mem_map]
  refine or_congr_left ⟨?_, ?_⟩
  · rintro ⟨m, hm, heq⟩
    obtain ⟨rfl, rfl⟩ := Prod.mk.inj heq
    exact ⟨rfl, Option.mem_toList.mp hm⟩
  · rintro ⟨rfl, hn⟩
    exact ⟨n, Option.mem_toList.mpr hn, rfl⟩

theorem proposer_of_mem_begun (h : (id, n) ∈ t.begun calls) : n.proposer = id := by
  induction calls generalizing t with
  | nil => simp [begun] at h
  | cons call calls ih =>
    obtain ⟨other, c⟩ := call
    rcases mem_begun_cons.mp h with ⟨rfl, hn⟩ | hrest
    · exact (Proposer.begun?_passed hn).1
    · exact ih hrest

/-- Whatever happens in between, the rounds of a proposer come after all that it counts on from. -/
theorem Faithful.lt_of_mem_begun (ht : t.Faithful) (h : (t id).Passed b)
    (hn : (id, n) ∈ t.begun calls) : b < n := by
  induction calls generalizing t with
  | nil => simp [begun] at hn
  | cons call calls ih =>
    obtain ⟨other, c⟩ := call
    rcases mem_begun_cons.mp hn with ⟨rfl, hfirst⟩ | hrest
    · obtain ⟨rs, hp⟩ := ht id
      exact h.lt_begun hp hfirst
    · exact ih (ht.call other c) (ht.passed_call h other c) hrest

/-- Two rounds have different ballots, and of one proposer the later one has the greater number. -/
theorem Faithful.begun_rising (ht : t.Faithful) (calls : List (NodeId × Call V)) :
    (t.begun calls).Pairwise fun x y => x.2 ≠ y.2 ∧ (x.1 = y.1 → x.2.round < y.2.round) := by
  induction calls generalizing t with
  | nil => exact .nil
  | cons call calls ih =>
    obtain ⟨id, c⟩ := call
    have hrest := ih (ht.call id c)
    rw [begun]
    cases hb : (t id).begun? id c with
    | none => simpa using hrest
    | some b =>
      refine List.pairwise_cons.mpr ⟨?_, hrest⟩
      rintro ⟨other, n⟩ hn
      obtain ⟨hself, hpassed⟩ := Proposer.begun?_passed hb
      have hother := proposer_of_mem_begun hn
      have hlt (hid : id = other) : b < n := by
        subst hid
        apply (ht.call id c).lt_of_mem_begun ?_ hn
        rwa [Team.call, Function.update_self]
      constructor
      · rintro rfl
        exact lt_irrefl b (hlt (hself.symm.trans hother))
      · intro (hid : id = other)
        have hsame : b.proposer = n.proposer := hself.trans (hid.trans hother.symm)
        exact (Ballot.lt_iff_round hsame).mp (hlt hid)

/-- Whatever proposers are asked, in whatever order, no ballot is used for two rounds, the numbers
of the rounds of each proposer rise, and a promise that a proposer handles while its round is in
flight, as is one that ends the round, is of a ballot before all rounds that it starts from then
on. -/
theorem ballots_fresh (acceptors : NodeId → List NodeId) (value : NodeId → V)
    (calls : List (NodeId × Call V)) :
    let t := fresh acceptors value
    ((t.begun calls).map Prod.snd).Nodup ∧
      (∀ id, ((t.begun calls).filter (·.1 = id)).Pairwise fun x y => x.2.round < y.2.round) ∧
      ∀ before id sender b acc later,
        calls = before ++ (id, .handle sender (.promise b acc)) :: later →
          (t.callAll before id).isProposing = true →
          ∀ n, (id, n) ∈
            (t.callAll (before ++ [(id, .handle sender (.promise b acc))])).begun later → b < n := by
  intro t
  have ht : t.Faithful := faithful_fresh acceptors value
  have hrising := ht.begun_rising calls
  refine ⟨?_, ?_, ?_⟩
  · exact List.pairwise_map.mpr (hrising.imp And.left)
  · intro id
    refine (hrising.filter _).imp_of_mem ?_
    intro x y hx hy hxy
    have hxid : x.1 = id := by simpa using (List.mem_filter.mp hx).2
    have hyid : y.1 = id := by simpa using (List.mem_filter.mp hy).2
    exact hxy.2 (hxid.trans hyid.symm)
  · rintro before id sender b acc later - hproposing n hn
    apply (ht.callAll _).lt_of_mem_begun ?_ hn
    obtain ⟨rs, hp⟩ := ht.callAll before id
    have hpassed := Proposer.Heeds.passed (b := b) (.inl hproposing) hp sender acc
    rwa [callAll, List.foldl_append, List.foldl_cons, List.foldl_nil, Team.call,
      Function.update_self]

/-- Two proposers start rounds of one number. The first is refused by the ballot of the second; the
second is refused by the last ballot there is, and has no round after it. -/
def rivalCalls : List (NodeId × Call String) :=
  [(⟨"P1"⟩, .start), (⟨"P2"⟩, .start),
    (⟨"P2"⟩, .handle ⟨"A1"⟩ (.promise ⟨18446744073709551615, ⟨"P3"⟩⟩ none)), (⟨"P2"⟩, .start),
    (⟨"P1"⟩, .handle ⟨"A1"⟩ (.promise ⟨1, ⟨"P2"⟩⟩ none)), (⟨"P1"⟩, .start), (⟨"P2"⟩, .start)]

theorem ballots_fresh_of_rivalCalls :
    let t : Team String := fresh (fun _ => [⟨"A1"⟩]) fun _ => "x"
    t.begun rivalCalls =
        [(⟨"P1"⟩, ⟨1, ⟨"P1"⟩⟩), (⟨"P2"⟩, ⟨1, ⟨"P2"⟩⟩), (⟨"P1"⟩, ⟨2, ⟨"P1"⟩⟩)] ∧
      ((t.begun rivalCalls).map Prod.snd).Nodup ∧
      (t.callAll (rivalCalls.take 4) ⟨"P1"⟩).isProposing = true ∧
      (t.callAll (rivalCalls.take 5) ⟨"P1"⟩).isProposing = false ∧
      (⟨1, ⟨"P2"⟩⟩ : Ballot) < ⟨2, ⟨"P1"⟩⟩ := by
  intro t
  obtain ⟨hnodup, -, hended⟩ := ballots_fresh (fun _ => [⟨"A1"⟩]) (fun _ => "x") rivalCalls
  have hproposing : (t.callAll (rivalCalls.take 4) ⟨"P1"⟩).isProposing = true := by decide +kernel
  have hlater : (⟨"P1"⟩, ⟨2, ⟨"P1"⟩⟩) ∈
      (t.callAll (rivalCalls.take 5)).begun (rivalCalls.drop 5) := by decide +kernel
  refine ⟨by decide +kernel, hnodup, hproposing, by decide +kernel, ?_⟩
  exact hended (rivalCalls.take 4) ⟨"P1"⟩ ⟨"A1"⟩ ⟨1, ⟨"P2"⟩⟩ none (rivalCalls.drop 5) rfl hproposing
    _ hlater

end Team

end Synod
